import Sponge.TCP.ConnectionSteps
import Sponge.TCP.Inbound
import Sponge.Lib.Run

/-! Two connections and a network that may lose, repeat, delay and reorder the
segments each has put on its outbound queue. A delivery is therefore any segment
of the other side's queue, at any time and any number of times. -/
namespace Sponge
open TCPConnection TCPReceiver

/-- A connection with its application: the bytes `write` accepted, the bytes
read from the inbound stream, and whether `endInputStream` was called. -/
structure Endpoint where
  conn : TCPConnection
  accepted : List UInt8
  taken : List UInt8
  ended : Bool

inductive Act where
  | connect
  | write (data : List UInt8)
  | endInputStream
  | tick (msSinceLastTick : Nat)
  | read (len : Nat)
  | deliver (seg : TCPSegment)

namespace Endpoint

def new (cfg : TCPConfig) (random : WrappingInt32) : Endpoint := ⟨.new cfg random, [], [], false⟩

def step (e : Endpoint) : Act → Endpoint
  | .connect => { e with conn := e.conn.connect }
  | .write data =>
    { e with
      conn := (e.conn.write data).2
      accepted := e.accepted ++ data.take (e.conn.write data).1 }
  | .endInputStream => { e with conn := e.conn.endInputStream, ended := true }
  | .tick ms => { e with conn := e.conn.tick ms }
  | .read len =>
    { e with conn := (e.conn.readInbound len).2, taken := e.taken ++ (e.conn.readInbound len).1 }
  | .deliver seg => { e with conn := e.conn.segmentReceived seg }

/-- All bytes ever written into the inbound stream. -/
def inbound (e : Endpoint) : List UInt8 := e.taken ++ e.conn.receiver.streamOut.buffer

/-- What an act can make of the receiver, up to its error flag. -/
def Hears (r : TCPReceiver) : Act → TCPReceiver → Prop
  | .deliver seg, heard => heard = r ∨ heard = r.segmentReceived seg
  | .read len, heard => heard = (r.read len).2
  | _, heard => heard = r

/-- A property of the receiver, by what the act can make of it. -/
theorem Hears.rule {P : TCPReceiver → Prop} {r heard : TCPReceiver} {act : Act}
    (hears : Hears r act heard) (same : (∀ len, act ≠ .read len) → P r)
    (read : ∀ len, act = .read len → P (r.read len).2)
    (deliver : ∀ seg, act = .deliver seg → P (r.segmentReceived seg)) : P heard := by
  cases act with
  | read len => exact hears ▸ read len rfl
  | deliver seg =>
    rcases hears with rfl | rfl
    · exact same (by simp)
    · exact deliver seg rfl
  | _ => exact hears ▸ same (by simp)

variable {e : Endpoint}

/-- The bytes read change only with a read. -/
theorem step_taken {act : Act} (quiet : ∀ len, act ≠ .read len) : (e.step act).taken = e.taken := by
  cases act with
  | read len => exact absurd rfl (quiet len)
  | _ => rfl

/-- Every act is an effect on the connection. -/
theorem step_effect (outbound : Outbound e.accepted e.conn) (act : Act) :
    ∃ heard, Hears e.conn.receiver act heard ∧
      Effect e.accepted e.conn (e.step act).accepted heard (e.step act).conn := by
  cases act with
  | connect => exact ⟨_, rfl, outbound.connect⟩
  | write data => exact ⟨_, rfl, outbound.write data⟩
  | endInputStream => exact ⟨_, rfl, outbound.endInputStream⟩
  | tick ms => exact ⟨_, rfl, outbound.tick ms⟩
  | read len => exact ⟨_, rfl, outbound.readInbound len⟩
  | deliver seg => exact outbound.segmentReceived seg

end Endpoint

inductive Side where
  | a
  | b
deriving DecidableEq, Repr

structure Network where
  a : Endpoint
  b : Endpoint

namespace Network

def start (cfgA cfgB : TCPConfig) (randomA randomB : WrappingInt32) : Network :=
  ⟨.new cfgA randomA, .new cfgB randomB⟩

def step (n : Network) : Side × Act → Network
  | (.a, act) => { n with a := n.a.step act }
  | (.b, act) => { n with b := n.b.step act }

/-- Only what the other side has put on its queue can be delivered. -/
def Offers (peer : Endpoint) : Act → Prop
  | .deliver seg => seg ∈ peer.conn.segmentsOut
  | _ => True

def Allowed (n : Network) : Side × Act → Prop
  | (.a, act) => Offers n.b act
  | (.b, act) => Offers n.a act

/-- A run of the two endpoints under any interleaving and any network. -/
abbrev Runs (cfgA cfgB : TCPConfig) (randomA randomB : WrappingInt32) : Network → Prop :=
  Run.Reaches step Allowed (start cfgA cfgB randomA randomB)

/-- Bytes of `src` on their way to `dst`. -/
def Flow (src dst : Endpoint) : Prop :=
  src.accepted.length < 2 ^ 31 - 2 →
    Inbound src.conn.sender.isn src.accepted dst.taken dst.conn.receiver

variable {src dst : Endpoint} {act : Act}

/-- The source may do anything. -/
theorem Flow.source (flow : Flow src dst) (outbound : Outbound src.accepted src.conn) (act : Act) :
    Flow (src.step act) dst := by
  obtain ⟨_, _, effect⟩ := src.step_effect outbound act
  intro short
  obtain ⟨more, eq⟩ := effect.grown
  rw [← eq, List.length_append] at short
  rw [effect.isn, ← eq]
  exact (flow (by omega)).grow more

/-- The destination may do anything with segments of the source. -/
theorem Flow.destination (flow : Flow src dst) (outbound : Outbound dst.accepted dst.conn)
    (source : Outbound src.accepted src.conn) (offers : Offers src act) : Flow src (dst.step act) := by
  obtain ⟨heard, hears, effect⟩ := dst.step_effect outbound act
  intro short
  have inbound := flow short
  suffices after : Inbound src.conn.sender.isn src.accepted (dst.step act).taken heard by
    rcases effect.receiver with eq | eq <;> rw [eq]
    · exact after
    · exact after.setError
  refine hears.rule ?_ ?_ ?_
  · intro quiet
    rw [Endpoint.step_taken quiet]
    exact inbound
  · rintro len rfl
    exact inbound.read len
  · rintro seg rfl
    exact inbound.segmentReceived short (source.out seg offers)

/-- What every reachable pair of endpoints keeps. -/
structure Sound (n : Network) : Prop where
  outA : Outbound n.a.accepted n.a.conn
  outB : Outbound n.b.accepted n.b.conn
  toB : Flow n.a n.b
  toA : Flow n.b n.a

theorem start_flow {cfgA cfgB : TCPConfig} (randomA randomB : WrappingInt32)
    (narrow : cfgB.recvCapacity < 2 ^ 32) : Flow (.new cfgA randomA) (.new cfgB randomB) :=
  fun _ => new_inbound _ _ narrow

theorem Sound.step {n : Network} (sound : Sound n) (move : Side × Act) (allowed : Allowed n move) :
    Sound (n.step move) := by
  rcases move with ⟨side, act⟩
  cases side with
  | a =>
    obtain ⟨_, _, effect⟩ := n.a.step_effect sound.outA act
    exact ⟨effect.outbound, sound.outB, sound.toB.source sound.outA act,
      sound.toA.destination sound.outA sound.outB allowed⟩
  | b =>
    obtain ⟨_, _, effect⟩ := n.b.step_effect sound.outB act
    exact ⟨sound.outA, effect.outbound, sound.toB.destination sound.outB sound.outA allowed,
      sound.toA.source sound.outB act⟩

theorem Runs.sound {cfgA cfgB : TCPConfig} {randomA randomB : WrappingInt32} {n : Network}
    (narrowA : cfgA.recvCapacity < 2 ^ 32) (narrowB : cfgB.recvCapacity < 2 ^ 32)
    (run : Runs cfgA cfgB randomA randomB n) : Sound n :=
  run.invariant ⟨new_outbound _ _, new_outbound _ _, start_flow _ _ narrowB, start_flow _ _ narrowA⟩
    (fun _ move sound allowed => sound.step move allowed)

theorem Flow.prefix_accepted (flow : Flow src dst) (short : src.accepted.length < 2 ^ 31 - 2) :
    dst.inbound <+: src.accepted := by
  rw [Endpoint.inbound, (flow short).bytes]
  exact List.take_prefix _ _

/-- Whatever the network does, each side's inbound stream is a prefix of what
the other side's `write` accepted. -/
theorem run_inbound_prefix (cfgA cfgB : TCPConfig) (randomA randomB : WrappingInt32) (n : Network)
    (narrowA : cfgA.recvCapacity < 2 ^ 32 ∧ cfgA.sendCapacity < 2 ^ 32)
    (narrowB : cfgB.recvCapacity < 2 ^ 32 ∧ cfgB.sendCapacity < 2 ^ 32)
    (run : Runs cfgA cfgB randomA randomB n)
    (shortA : n.a.accepted.length < 2 ^ 31 - 2) (shortB : n.b.accepted.length < 2 ^ 31 - 2) :
    n.b.inbound <+: n.a.accepted ∧ n.a.inbound <+: n.b.accepted := by
  have sound := run.sound narrowA.1 narrowB.1
  exact ⟨sound.toB.prefix_accepted shortA, sound.toA.prefix_accepted shortB⟩

instance (n : Network) (move : Side × Act) : Decidable (Allowed n move) :=
  match move with
  | (.a, .deliver seg) => inferInstanceAs (Decidable (seg ∈ n.b.conn.segmentsOut))
  | (.b, .deliver seg) => inferInstanceAs (Decidable (seg ∈ n.a.conn.segmentsOut))
  | (.a, .connect) | (.a, .write _) | (.a, .endInputStream) | (.a, .tick _) | (.a, .read _)
  | (.b, .connect) | (.b, .write _) | (.b, .endInputStream) | (.b, .tick _) | (.b, .read _) =>
    isTrue trivial

/-- A small configuration with its ISN fixed at 0. -/
def smallConfig : TCPConfig := { recvCapacity := 8, sendCapacity := 8, fixedIsn := some ⟨0⟩ }

def synSegment : TCPSegment := { header := { syn := true } }

def synAckSegment : TCPSegment := { header := { syn := true, ack := true, ackno := ⟨1⟩, win := 8 } }

/-- What `a` sends at sequence number `seqno` once it has seen the SYN of `b`. -/
def dataSegment (seqno : UInt32) (fin : Bool) (payload : List UInt8) : TCPSegment where
  header := { seqno := ⟨seqno⟩, ack := true, ackno := ⟨1⟩, fin := fin, win := 8 }
  payload := payload

/-- `a` connects to `b`. -/
def handshake : List (Side × Act) :=
  [(.a, .connect), (.b, .deliver synSegment), (.a, .deliver synAckSegment)]

/-- Two writes of `a`, delivered in the other order, the later one twice. -/
def reorderedWrites : List (Side × Act) := handshake ++
  [(.a, .write [104, 105]), (.a, .write [33]), (.b, .deliver (dataSegment 3 false [33])),
    (.b, .deliver (dataSegment 3 false [33])), (.b, .deliver (dataSegment 1 false [104, 105])),
    (.b, .read 1)]

def reordered : Network :=
  reorderedWrites.foldl step (start smallConfig smallConfig ⟨0⟩ ⟨0⟩)

theorem run_inbound_prefix_reordered :
    Runs smallConfig smallConfig ⟨0⟩ ⟨0⟩ reordered ∧ reordered.b.inbound = [104, 105, 33] ∧
      (reordered.b.inbound <+: reordered.a.accepted ∧ reordered.a.inbound <+: reordered.b.accepted) := by
  have run : Runs smallConfig smallConfig ⟨0⟩ ⟨0⟩ reordered :=
    Run.Permits.reaches (by decide +kernel)
  exact ⟨run, by decide +kernel, run_inbound_prefix smallConfig smallConfig ⟨0⟩ ⟨0⟩ reordered
    (by decide) (by decide) run (by decide +kernel) (by decide +kernel)⟩

end Network
end Sponge
