import Sponge.Socket.Serving
import Sponge.TCP.Progress

/-! Two sockets and the network between their adapters, which may lose, repeat,
delay and reorder datagrams. Every run of the two threads, turn by turn in any
order, is a run of the two connections that the protocol level speaks of. -/
namespace Sponge
open EventLoop TCPConnection

namespace TCPSpongeSocket

variable {α δ : Type} [FdAdapter α δ]

/-- `connect()` does not meet the error it checks for. -/
theorem dial_ok (cTcp : TCPConfig) (random : WrappingInt32) (cAd : LossyAdapterConfig) (adapter : α) :
    dial cTcp random cAd adapter = .ok ⟨rules, {
      tcp := (TCPConnection.new cTcp random).connect
      datagramAdapter := FdAdapter.configure cAd adapter }⟩ := by
  have expected : (TCPConnection.new cTcp random).connect.state = TCPState.ofState .synSent := rfl
  unfold dial initializeTCP
  dsimp only
  rw [if_neg (not_not.mpr expected)]

/-- A socket before its first turn. -/
def Opens (cTcp : TCPConfig) (random : WrappingInt32) (adapter : α) (l : Loop Key (TCPSpongeSocket α)) : Prop :=
  ∃ cAd, dial cTcp random cAd adapter = .ok l ∨ listen cTcp random cAd adapter = l

variable [Device δ] [LawfulFdAdapter α] {offered : TCPSegment → Prop} {R : Endpoint → Prop}

/-- Either way of opening is the start of a run. -/
theorem Opens.serving {cTcp : TCPConfig} {random : WrappingInt32} {adapter : α} {l : Loop Key (TCPSpongeSocket α)}
    (opens : Opens cTcp random adapter l) (steady : Steady offered R) (hangs : Key → Prop)
    (fresh : LawfulFdAdapter.Kept [] adapter) (init : R (.new cTcp random)) :
    Serving R hangs l.rules [] l.data := by
  obtain ⟨cAd, connects | rfl⟩ := opens
  · rw [dial_ok] at connects
    cases connects
    have made : Served R { tcp := TCPConnection.new cTcp random, datagramAdapter := FdAdapter.configure cAd adapter } :=
      ⟨init, by simpa using LawfulFdAdapter.configure cAd fresh, Nat.zero_le _, rfl⟩
    exact ⟨made.act steady .connect trivial (fun _ none => by cases none) rfl rfl rfl rfl,
      ruled_start hangs false⟩
  · refine ⟨⟨init, ?_, Nat.zero_le _, rfl⟩, ruled_start hangs false⟩
    simpa [listen, initializeTCP] using LawfulFdAdapter.setListening true (LawfulFdAdapter.configure cAd fresh)

/-- In this turn the device gives nothing but datagrams that `peer` has sent. -/
structure Turn.Hears (peer : α) (turn : Turn δ) : Prop where
  poll : turn.poll.Fair (fun key answers => Device.Whole answers.device ∧
    (key = .receive → ∀ bytes, Device.Gives answers.device bytes → bytes ∈ (FdAdapter.fd peer).sent))
  device : Device.Whole turn.device

/-- Then it offers segments of the peer's connection only. -/
theorem Turn.Hears.respects {peer : TCPSpongeSocket α} {turn : Turn δ} (hears : turn.Hears peer.datagramAdapter)
    {S : Endpoint → Prop} (served : Served S peer) :
    turn.Respects (α := α) (fun _ => True) (· ∈ peer.tcp.segmentsOut) := by
  refine ⟨?_, fun _ _ => trivial, hears.device⟩
  have poll := hears.poll
  cases eq : turn.poll with
  | ready revents answers =>
    rw [eq] at poll
    intro key
    obtain ⟨whole, gives⟩ := poll key
    refine ⟨whole, fun same reader after seg read => ?_⟩
    obtain ⟨sent, known, honest⟩ := LawfulFdAdapter.honest served.kept (gives same) read
    exact ⟨sent, List.mem_of_mem_take known, honest⟩
  | _ => trivial

end TCPSpongeSocket

open TCPSpongeSocket

/-- Two sockets, each with the rules that its thread has left. -/
structure SocketPair (α : Type) where
  a : Loop Key (TCPSpongeSocket α)
  b : Loop Key (TCPSpongeSocket α)

namespace SocketPair

variable {α δ : Type}

/-- What the pair is at the level of the protocol. -/
def network (n : SocketPair α) : Network := ⟨n.a.data.endpoint, n.b.data.endpoint⟩

variable [FdAdapter α δ] [Device δ]

/-- One of the threads makes a turn. -/
def step (n : SocketPair α) : Side × Turn δ → Except String (SocketPair α)
  | (.a, turn) => do
    let (_, a) ← pass turn n.a
    return { n with a }
  | (.b, turn) => do
    let (_, b) ← pass turn n.b
    return { n with b }

/-- The datagrams it reads were sent by the other side. -/
def Allowed (n : SocketPair α) : Side × Turn δ → Prop
  | (.a, turn) => turn.Hears n.b.data.datagramAdapter
  | (.b, turn) => turn.Hears n.a.data.datagramAdapter

variable [LawfulFdAdapter α] {cfgA cfgB : TCPConfig} {randomA randomB : WrappingInt32}

/-- Runs of the two connections with applications that do not write after the end. -/
abbrev OrderlyRuns (cfgA cfgB : TCPConfig) (randomA randomB : WrappingInt32) : Network → Prop :=
  Run.Reaches Network.step Network.OrderlyStep (Network.start cfgA cfgB randomA randomB)

/-- What a thread relies on while the other one waits. -/
structure Together (cfgA cfgB : TCPConfig) (randomA randomB : WrappingInt32) (n : Network) : Prop where
  runs : OrderlyRuns cfgA cfgB randomA randomB n
  outA : Outbound n.a.accepted n.a.conn
  outB : Outbound n.b.accepted n.b.conn
  sendableA : n.a.conn.Sendable
  sendableB : n.b.conn.Sendable

theorem together_start (cfgA cfgB : TCPConfig) (randomA randomB : WrappingInt32) :
    Together cfgA cfgB randomA randomB (Network.start cfgA cfgB randomA randomB) :=
  ⟨.refl _, new_outbound _ _, new_outbound _ _, Endpoint.new_sendable _ _, Endpoint.new_sendable _ _⟩

theorem offers_of_segments {peer : Endpoint} {act : Act}
    (offers : ∀ seg, act = .deliver seg → seg ∈ peer.conn.segmentsOut) : Network.Offers peer act := by
  cases act with
  | deliver seg => exact offers seg rfl
  | _ => trivial

theorem steady_a (b : Endpoint) : Steady (· ∈ b.conn.segmentsOut)
    (fun e => Together cfgA cfgB randomA randomB ⟨e, b⟩) where
  outbound together := together.outA
  sendable together := together.sendableA
  step {e} act together orderly offers := by
    obtain ⟨_, _, effect⟩ := e.step_effect together.outA act
    exact ⟨together.runs.snoc (.a, act) ⟨offers_of_segments offers, orderly⟩, effect.outbound, together.outB,
      Endpoint.step_sendable together.sendableA act, together.sendableB⟩

theorem steady_b (a : Endpoint) : Steady (· ∈ a.conn.segmentsOut)
    (fun e => Together cfgA cfgB randomA randomB ⟨a, e⟩) where
  outbound together := together.outB
  sendable together := together.sendableB
  step {e} act together orderly offers := by
    obtain ⟨_, _, effect⟩ := e.step_effect together.outB act
    exact ⟨together.runs.snoc (.b, act) ⟨offers_of_segments offers, orderly⟩, together.outA, effect.outbound,
      together.sendableA, Endpoint.step_sendable together.sendableB act⟩

/-- Both threads are between two turns. -/
structure Running (cfgA cfgB : TCPConfig) (randomA randomB : WrappingInt32) (n : SocketPair α) : Prop where
  a : Serving (fun e => Together cfgA cfgB randomA randomB ⟨e, n.b.data.endpoint⟩) (fun _ => True)
    n.a.rules [] n.a.data
  b : Serving (fun e => Together cfgA cfgB randomA randomB ⟨n.a.data.endpoint, e⟩) (fun _ => True)
    n.b.rules [] n.b.data

/-- Two sockets with new adapters of one kind, before the first turn of either. -/
structure Opened (cfgA cfgB : TCPConfig) (randomA randomB : WrappingInt32) (n : SocketPair α) : Prop where
  a : ∃ adapter, LawfulFdAdapter.Kept [] adapter ∧ Opens cfgA randomA adapter n.a
  b : ∃ adapter, LawfulFdAdapter.Kept [] adapter ∧ Opens cfgB randomB adapter n.b

variable {start n m : SocketPair α}

theorem Opened.running (opened : Opened cfgA cfgB randomA randomB n) : Running cfgA cfgB randomA randomB n := by
  obtain ⟨⟨_, freshA, opensA⟩, _, freshB, opensB⟩ := opened
  have a := opensA.serving (steady_a (.new cfgB randomB)) (fun _ => True) freshA
    (together_start cfgA cfgB randomA randomB)
  have b := opensB.serving (steady_b n.a.data.endpoint) (fun _ => True) freshB a.runs
  exact ⟨{ a with runs := b.runs }, b⟩

theorem Running.step (running : Running cfgA cfgB randomA randomB n) (move : Side × Turn δ)
    (allowed : Allowed n move) (eq : n.step move = .ok m) : Running cfgA cfgB randomA randomB m := by
  obtain ⟨a, b⟩ := running
  obtain ⟨side, turn⟩ := move
  cases side with
  | a =>
    obtain ⟨⟨_, next⟩, returned, last⟩ := Run.bind_eq_ok.mp eq
    cases last
    have after := (pass_outcome (steady_a _) (allowed.respects b.toServed) n.a a).of_ok returned
    exact ⟨after, { b with runs := after.runs }⟩
  | b =>
    obtain ⟨⟨_, next⟩, returned, last⟩ := Run.bind_eq_ok.mp eq
    cases last
    have after := (pass_outcome (steady_b _) (allowed.respects a.toServed) n.b b).of_ok returned
    exact ⟨{ a with runs := after.runs }, after⟩

/-- Runs of the two threads in any order, over any network between the adapters. -/
abbrev Runs (start n : SocketPair α) : Prop := Run.Attains step Allowed start n

theorem Runs.running (opened : Opened cfgA cfgB randomA randomB start) (run : Runs start n) :
    Running cfgA cfgB randomA randomB n :=
  run.invariant opened.running (fun _ move _ running allowed eq => running.step move allowed eq)

/-- The sockets refine the protocol: the application's bytes that `threadData` has
taken and given are what the connections were written and read for. -/
theorem run_refines_network (cfgA cfgB : TCPConfig) (randomA randomB : WrappingInt32) (start n : SocketPair α)
    (opened : Opened cfgA cfgB randomA randomB start) (run : Runs start n) :
    OrderlyRuns cfgA cfgB randomA randomB n.network :=
  (Runs.running opened run).a.runs.runs

/-- What each application is given is a prefix of what the other one has written,
however the network treats the datagrams. -/
theorem run_delivers_prefix (cfgA cfgB : TCPConfig) (randomA randomB : WrappingInt32) (start n : SocketPair α)
    (opened : Opened cfgA cfgB randomA randomB start) (run : Runs start n)
    (narrow : cfgA.recvCapacity < 2 ^ 32 ∧ cfgB.recvCapacity < 2 ^ 32)
    (shortA : n.a.data.threadData.bytesIn.length < 2 ^ 31 - 2)
    (shortB : n.b.data.threadData.bytesIn.length < 2 ^ 31 - 2) :
    n.b.data.threadData.bytesOut <+: n.a.data.threadData.bytesIn ∧
      n.a.data.threadData.bytesOut <+: n.b.data.threadData.bytesIn := by
  have runs : Network.Runs cfgA cfgB randomA randomB n.network :=
    (Runs.running opened run).a.runs.runs.invariant (.refl _) (fun _ move run ok => run.snoc move ok.1)
  have sound := runs.sound narrow.1 narrow.2
  exact ⟨(List.prefix_append _ _).trans (sound.toB.prefix_accepted shortA),
    (List.prefix_append _ _).trans (sound.toA.prefix_accepted shortB)⟩

/-- Every call succeeds, the `i`-th datagram of the peer is there to be read, and
the application hands `data` over. -/
def smallTurn (peer : Address) (sent : List Buffer) (i : Nat) (keys : List Key) (data : List UInt8) :
    Turn DatagramKernel :=
  let device : DatagramKernel := {
    recvfrom := fun _ _ =>
      match sent[i]? with
      | some bytes => .ok (peer, bytes)
      | none => .error "EAGAIN"
    sendmsg := fun _ _ views => .ok views.size }
  let thread : Kernel := {
    read := fun _ _ => .ok data
    writev := fun _ views => .ok views.size
    shutdown := fun _ => .ok ()
    close := fun _ => .ok () }
  { poll := .ready (fun key => { event := keys.contains key }) (fun _ => ⟨thread, device⟩)
    device := device }

theorem smallTurn_hears (peer : Address) (a : TCPOverUDPSocketAdapter) (i : Nat) (keys : List Key)
    (data : List UInt8) : (smallTurn peer a.sock.sent i keys data).Hears a := by
  refine ⟨fun key => ⟨trivial, fun _ bytes gives => ?_⟩, trivial⟩
  obtain ⟨_, _, _, answer⟩ := gives
  dsimp only [smallTurn] at answer
  split at answer
  · rename_i found
    cases answer
    exact List.mem_of_getElem? found
  · cases answer

def hostA : Address := ⟨0x0a000001, 1000⟩

def hostB : Address := ⟨0x0a000002, 80⟩

/-- A turn that fails leaves the pair as it is. -/
def smallStep (n : SocketPair TCPOverUDPSocketAdapter) (move : Side × Nat × List Key × List UInt8) :
    SocketPair TCPOverUDPSocketAdapter :=
  let (side, i, keys, data) := move
  let next := match side with
    | .a => n.step (.a, smallTurn hostB n.b.data.datagramAdapter.sock.sent i keys data)
    | .b => n.step (.b, smallTurn hostA n.a.data.datagramAdapter.sock.sent i keys data)
  match next with
  | .ok m => m
  | .error _ => n

/-- `a` connects and `b` listens. -/
def smallPair : SocketPair TCPOverUDPSocketAdapter where
  a := ⟨rules, {
    tcp := (TCPConnection.new Network.smallConfig ⟨0⟩).connect
    datagramAdapter := { config := ⟨hostA, hostB⟩ } }⟩
  b := listen Network.smallConfig ⟨0⟩ { source := hostB } {}

theorem smallPair_opened : Opened Network.smallConfig Network.smallConfig ⟨0⟩ ⟨0⟩ smallPair := by
  have fresh : LawfulFdAdapter.Kept [] ({} : TCPOverUDPSocketAdapter) := ⟨rfl, fun _ none => by cases none⟩
  exact ⟨⟨{}, fresh, { source := hostA, destination := hostB }, Or.inl (dial_ok _ _ _ _)⟩,
    ⟨{}, fresh, { source := hostB }, Or.inr rfl⟩⟩

theorem smallPair_runs (moves : List (Side × Nat × List Key × List UInt8)) (n : SocketPair TCPOverUDPSocketAdapter) :
    Runs n (moves.foldl smallStep n) := by
  induction moves generalizing n with
  | nil => exact .refl
  | cons move rest ih =>
    obtain ⟨side, i, keys, data⟩ := move
    have one : Runs n (smallStep n (side, i, keys, data)) := by
      unfold smallStep
      cases side with
      | a =>
        dsimp only
        split
        · rename_i eq
          exact .single ⟨(.a, _), smallTurn_hears hostB n.b.data.datagramAdapter i keys data, eq⟩
        · exact .refl
      | b =>
        dsimp only
        split
        · rename_i eq
          exact .single ⟨(.b, _), smallTurn_hears hostA n.a.data.datagramAdapter i keys data, eq⟩
        · exact .refl
    exact one.trans (ih _)

/-- The handshake, and two bytes from the application of `a` to that of `b`. -/
def handOver : List (Side × Nat × List Key × List UInt8) :=
  [(.a, 0, [.transmit], []), (.b, 0, [.receive], []), (.b, 0, [.transmit], []),
    (.a, 0, [.receive, .readData], [104, 105]), (.a, 0, [.transmit], []), (.b, 2, [.receive], []),
    (.b, 1, [.receive, .writeData], [])]

def handedOver : SocketPair TCPOverUDPSocketAdapter := handOver.foldl smallStep smallPair

theorem run_refines_network_handedOver :
    (Runs smallPair handedOver ∧ handedOver.a.data.tcp.segmentsOut.length = 3) ∧
      OrderlyRuns Network.smallConfig Network.smallConfig ⟨0⟩ ⟨0⟩ handedOver.network := by
  have run : Runs smallPair handedOver := smallPair_runs handOver smallPair
  exact ⟨⟨run, by decide +kernel⟩, run_refines_network _ _ _ _ smallPair handedOver smallPair_opened run⟩

theorem run_delivers_prefix_handedOver :
    handedOver.b.data.threadData.bytesOut = [104, 105] ∧
      (handedOver.b.data.threadData.bytesOut <+: handedOver.a.data.threadData.bytesIn ∧
        handedOver.a.data.threadData.bytesOut <+: handedOver.b.data.threadData.bytesIn) :=
  ⟨by decide +kernel, run_delivers_prefix Network.smallConfig Network.smallConfig ⟨0⟩ ⟨0⟩ smallPair handedOver
    smallPair_opened (smallPair_runs handOver smallPair) (by decide) (by decide +kernel) (by decide +kernel)⟩

end SocketPair
end Sponge
