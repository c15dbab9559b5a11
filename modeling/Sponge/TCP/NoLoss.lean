import Sponge.TCP.SenderSteps
import Sponge.TCP.InboundEnd
import Mathlib.Data.UInt

/-! Nothing is lost between two endpoints. What a sender has removed from its
outstanding queue has been assembled by the other side, and a stream ends only
when it is whole. Two steps of the source break this: a FIN segment that ends
the stream ahead of a hole, and an acknowledgement number that is believed
although the ACK flag is not set. -/
namespace Sponge
open TCPConnection TCPReceiver TCPSender

theorem TCPSender.payloads_length_le (segs : List TCPSegment) : (payloads segs).length ≤ seqLen segs := by
  induction segs with
  | nil => rfl
  | cons seg rest ih =>
    rw [payloads_cons, List.length_append, seqLen_cons, TCPSegment.lengthInSequenceSpace]
    omega

/-- The payload of removed segments, against the first outstanding sequence number. -/
theorem TCPSender.Encodes.removed_le {s : TCPSender} {accepted : List UInt8} {sent gone : List TCPSegment}
    (inv : Encodes s accepted sent) (split : gone ++ s.outstandingSegments = sent) :
    (payloads gone).length ≤ s.unackedFrom - 1 := by
  have next := inv.next
  have flight := inv.flight
  rw [← split, seqLen_append] at next
  rw [unackedFrom, flight, next, Nat.add_sub_cancel]
  cases gone with
  | nil => exact Nat.zero_le _
  | cons first rest =>
    have opened : s.synSent = true := by
      by_contra unsent
      have nothing := inv.closed (by simpa using unsent)
      rw [← split] at nothing
      simp at nothing
    obtain ⟨_, eq, _⟩ := inv.opened opened
    rw [← split] at eq
    obtain ⟨rfl, _⟩ := List.cons_eq_cons.mp eq
    have later := payloads_length_le rest
    rw [payloads_cons, seqLen_cons, List.length_append]
    simp only [bareSyn, TCPSegment.lengthInSequenceSpace, List.length_nil, if_true]
    omega

namespace Endpoint

variable {e : Endpoint} {act : Act}

/-- The application does not write after it has ended its stream. -/
def Orderly (e : Endpoint) : Act → Prop
  | .write _ => e.ended = false
  | _ => True

/-- Neither wrong branch is taken: no acknowledgement number is believed without
the ACK flag, and no FIN segment ends the stream ahead of a hole. -/
def Careful (e : Endpoint) : Act → Prop
  | .deliver seg =>
    (e.conn.Consults seg → seg.header.ack = false → ¬ e.conn.sender.Accepts seg.header.ackno) ∧
    (e.conn.active = true → FinSafe e.conn.receiver seg)
  | _ => True

/-- What an orderly application keeps. -/
structure Proper (e : Endpoint) : Prop where
  ended : e.conn.sender.stream.inputEnd = true → e.ended = true
  drained : e.conn.sender.Drained

theorem step_ended (e : Endpoint) (act : Act) (ended : e.ended = true) : (e.step act).ended = true := by
  cases act with
  | endInputStream => rfl
  | _ => exact ended

theorem Proper.step (proper : Proper e) (outbound : Outbound e.accepted e.conn)
    (orderly : e.Orderly act) : Proper (e.step act) := by
  obtain ⟨sent, settled⟩ := outbound.settled
  obtain ⟨u, speaks, frame⟩ := e.step_speaks act
  suffices moved : (u.stream.inputEnd = true → (e.step act).ended = true) ∧ u.Drained by
    refine ⟨fun set => moved.1 ?_, moved.2.frame frame⟩
    obtain ⟨_, _, eq⟩ := frame
    rwa [eq] at set
  have kept : ∀ {stream : ByteStream}, stream.inputEnd = e.conn.sender.stream.inputEnd →
      stream.inputEnd = true → (e.step act).ended = true :=
    fun same set => e.step_ended act (proper.ended (same.symm.trans set))
  refine speaks.rule (P := fun u => (u.stream.inputEnd = true → (e.step act).ended = true) ∧ u.Drained)
    ⟨kept rfl, proper.drained⟩ ⟨kept (fillWindow_inputEnd _), proper.drained.fillWindow⟩ ?_ ?_ ?_ ?_
  · rintro data rfl
    -- The FIN is not out yet, so what is written can still be sent before it.
    have unfinished : e.conn.sender.finSent ≠ true := by
      intro finished
      have := proper.ended (settled.finEnded finished)
      simp [show e.ended = false from orderly] at this
    exact ⟨kept (fillWindow_inputEnd _), Drained.fillWindow (fun finished => absurd finished unfinished)⟩
  · rintro rfl
    exact ⟨fun _ => rfl, Drained.fillWindow proper.drained⟩
  · intro ms
    obtain ⟨_, _, _, _, _, eq⟩ := e.conn.sender.tick_eq ms
    exact ⟨kept (by rw [eq]), proper.drained.tick ms⟩
  · intro seg _ _
    exact ⟨kept (ackReceived_inputEnd _ _ _), proper.drained.ackReceived _ _⟩

/-- Once the FIN is out, the stream is complete. -/
theorem Proper.finished (proper : Proper e) (outbound : Outbound e.accepted e.conn)
    (finished : e.conn.sender.finSent = true) :
    e.ended = true ∧ e.conn.sender.nextSeqno = e.accepted.length + 2 := by
  obtain ⟨sent, settled⟩ := outbound.settled
  have counted := e.conn.sender.stream.counted
  have next := settled.toEncodes.next_eq
  rw [settled.toEncodes.bytesWritten, proper.drained finished] at counted
  rw [settled.toEncodes.synSent_of_finSent finished, finished] at next
  simp only [List.length_nil, if_true] at counted next
  exact ⟨proper.ended (settled.finEnded finished), by omega⟩

/-- Nothing is accepted after the end, in an orderly run. -/
theorem step_accepted (orderly : e.Orderly act) (ended : e.ended = true) :
    (e.step act).accepted = e.accepted := by
  cases act with
  | write data => simp [show e.ended = false from orderly] at ended
  | _ => rfl

end Endpoint

namespace Network

/-- What the destination has reached and said of the bytes of the source. -/
structure Kept (src dst : Endpoint) : Prop where
  ending : Ending src.accepted.length (src.conn.sender.finSent = true) dst.conn.receiver
  acks : ∀ seg ∈ dst.conn.segmentsOut, seg.header.ack = true →
    ∃ b ≤ dst.conn.receiver.rcvBase, seg.header.ackno = wrap b src.conn.sender.isn
  base : src.conn.sender.rcvBase ≤ dst.conn.receiver.rcvBase

variable {src dst : Endpoint} {act : Act}

/-- A flagged acknowledgement of the destination moves the base of the source to
a number the destination has reached. -/
theorem Kept.accepted (kept : Kept src dst) (small : dst.conn.receiver.rcvBase < 2 ^ 31)
    {seg : TCPSegment} (offered : seg ∈ dst.conn.segmentsOut) (flag : seg.header.ack = true) :
    FixedWidth.trunc 32 (unwrap seg.header.ackno src.conn.sender.isn src.conn.sender.rcvBase) ≤
      dst.conn.receiver.rcvBase := by
  obtain ⟨b, reached, eq⟩ := kept.acks seg offered flag
  have base := kept.base
  rw [eq, unwrap_wrap_of_small b _ _ (by omega), FixedWidth.trunc]
  omega

/-- The source may do anything orderly and careful. -/
theorem Kept.source (kept : Kept src dst) (small : dst.conn.receiver.rcvBase < 2 ^ 31)
    (outbound : Outbound src.accepted src.conn) (proper : src.Proper) (offers : Offers dst act)
    (orderly : src.Orderly act) (careful : src.Careful act) : Kept (src.step act) dst := by
  obtain ⟨_, _, effect⟩ := src.step_effect outbound act
  refine ⟨kept.ending.grow ?_, ?_, ?_⟩
  · intro finished
    have ended := (proper.finished outbound finished).1
    exact ⟨(effect.fin finished).1, by rw [Endpoint.step_accepted orderly ended]⟩
  · intro seg member flag
    rw [effect.isn]
    exact kept.acks seg member flag
  · rcases src.step_rcvBase act with same | ⟨seg, rfl, consults, accepts, moved⟩
    · rw [same]
      exact kept.base
    · rw [moved]
      cases flag : seg.header.ack with
      | false => exact absurd accepts (careful.1 consults flag)
      | true => exact kept.accepted small offers flag

/-- Whatever the receiver makes of an act keeps the stream's end exact. -/
theorem Kept.heard (kept : Kept src dst) {heard : TCPReceiver}
    (hears : Endpoint.Hears dst.conn.receiver act heard)
    (inbound : Inbound src.conn.sender.isn src.accepted dst.taken dst.conn.receiver)
    (short : src.accepted.length < 2 ^ 31 - 2) (source : Outbound src.accepted src.conn)
    (proper : src.Proper) (offers : Offers src act)
    (safe : ∀ seg, act = .deliver seg → FinSafe dst.conn.receiver seg) :
    Ending src.accepted.length (src.conn.sender.finSent = true) heard ∧
      dst.conn.receiver.rcvBase ≤ heard.rcvBase := by
  refine hears.rule (P := fun r => Ending src.accepted.length (src.conn.sender.finSent = true) r ∧
    dst.conn.receiver.rcvBase ≤ r.rcvBase) ?_ ?_ ?_
  · exact fun _ => ⟨kept.ending, Nat.le_refl _⟩
  · exact fun len _ => ⟨kept.ending.read len, Nat.le_refl _⟩
  · rintro seg rfl
    exact kept.ending.segmentReceived inbound short (source.out seg offers)
      (fun finished => (proper.finished source finished).2) (safe seg rfl)

/-- The destination may do anything orderly and careful. -/
theorem Kept.destination (kept : Kept src dst) (outbound : Outbound dst.accepted dst.conn)
    (inbound : Inbound src.conn.sender.isn src.accepted dst.taken dst.conn.receiver)
    (after : Inbound src.conn.sender.isn src.accepted (dst.step act).taken (dst.step act).conn.receiver)
    (short : src.accepted.length < 2 ^ 31 - 2) (source : Outbound src.accepted src.conn)
    (proper : src.Proper) (offers : Offers src act) (careful : dst.Careful act) :
    Kept src (dst.step act) := by
  by_cases refused : ∃ seg, act = .deliver seg ∧ dst.conn.active = false
  · obtain ⟨seg, rfl, inactive⟩ := refused
    rwa [show dst.step (.deliver seg) = dst by simp [Endpoint.step, TCPConnection.segmentReceived, inactive]]
  obtain ⟨heard, hears, effect⟩ := dst.step_effect outbound act
  obtain ⟨ending, advance⟩ := kept.heard hears inbound short source proper offers (by
    rintro seg rfl
    exact careful.2 (by simpa using refused))
  have receiver : (dst.step act).conn.receiver.rcvBase = heard.rcvBase := by
    rcases effect.receiver with eq | eq <;> rw [eq]
    rfl
  refine ⟨?_, ?_, ?_⟩
  · rcases effect.receiver with eq | eq <;> rw [eq]
    · exact ending
    · exact ending.setError
  · intro seg member flag
    rcases effect.acks seg member with old | fresh
    · obtain ⟨b, reached, eq⟩ := kept.acks seg old flag
      exact ⟨b, by omega, eq⟩
    · -- A new segment acknowledges exactly the base.
      have known := fresh flag
      rw [TCPReceiver.ackno] at known
      split at known
      · cases known
      · rename_i begun
        have syn : heard.syn = true := by simpa using begun
        have isn : heard.isn = src.conn.sender.isn := by
          have latched := after.isn
          rcases effect.receiver with eq | eq <;> rw [eq] at latched <;> exact latched syn
        rw [isn] at known
        exact ⟨heard.rcvBase, receiver.ge, (Option.some.inj known).symm⟩
  · rw [receiver]
    exact kept.base.trans advance

def side (n : Network) : Side → Endpoint
  | .a => n.a
  | .b => n.b

/-- Any network, and applications that do not write after the end. -/
def OrderlyStep (n : Network) (move : Side × Act) : Prop :=
  Allowed n move ∧ (n.side move.1).Orderly move.2

def CarefulStep (n : Network) (move : Side × Act) : Prop :=
  OrderlyStep n move ∧ (n.side move.1).Careful move.2

/-- A run in which neither wrong branch is taken. -/
abbrev CarefulRuns (cfgA cfgB : TCPConfig) (randomA randomB : WrappingInt32) : Network → Prop :=
  Run.Reaches step CarefulStep (start cfgA cfgB randomA randomB)

structure Lossless (n : Network) : Prop extends Sound n where
  properA : n.a.Proper
  properB : n.b.Proper
  keptB : n.a.accepted.length < 2 ^ 31 - 2 → Kept n.a n.b
  keptA : n.b.accepted.length < 2 ^ 31 - 2 → Kept n.b n.a

theorem new_proper (cfg : TCPConfig) (random : WrappingInt32) : (Endpoint.new cfg random).Proper :=
  ⟨by simp [Endpoint.new, TCPConnection.new, TCPSender.new, ByteStream.new], fun _ => rfl⟩

theorem start_kept (cfgA cfgB : TCPConfig) (randomA randomB : WrappingInt32) :
    Kept (.new cfgA randomA) (.new cfgB randomB) :=
  ⟨new_ending _, by simp [Endpoint.new, TCPConnection.new], Nat.le_refl _⟩

/-- Both ends of one direction, when the source acts. -/
theorem Kept.source_acts (flow : Flow src dst)
    (kept : src.accepted.length < 2 ^ 31 - 2 → Kept src dst) (outbound : Outbound src.accepted src.conn)
    (proper : src.Proper) (offers : Offers dst act) (orderly : src.Orderly act)
    (careful : src.Careful act) (short : (src.step act).accepted.length < 2 ^ 31 - 2) :
    Kept (src.step act) dst := by
  obtain ⟨_, _, effect⟩ := src.step_effect outbound act
  have before := effect.grown.length_le.trans_lt short
  have bound := (kept before).ending.base_le (flow before)
  exact (kept before).source (by omega) outbound proper offers orderly careful

theorem Lossless.step {n : Network} (inv : Lossless n) (move : Side × Act) (ok : CarefulStep n move) :
    Lossless (n.step move) := by
  obtain ⟨⟨allowed, orderly⟩, careful⟩ := ok
  have sound := inv.toSound.step move allowed
  rcases move with ⟨side, act⟩
  cases side with
  | a =>
    refine ⟨sound, inv.properA.step inv.outA orderly, inv.properB, ?_, ?_⟩
    · exact Kept.source_acts inv.toB inv.keptB inv.outA inv.properA allowed orderly careful
    · intro short
      exact (inv.keptA short).destination inv.outA (inv.toA short) (sound.toA short) short inv.outB
        inv.properB allowed careful
  | b =>
    refine ⟨sound, inv.properA, inv.properB.step inv.outB orderly, ?_, ?_⟩
    · intro short
      exact (inv.keptB short).destination inv.outB (inv.toB short) (sound.toB short) short inv.outA
        inv.properA allowed careful
    · exact Kept.source_acts inv.toA inv.keptA inv.outB inv.properB allowed orderly careful

theorem CarefulRuns.lossless {cfgA cfgB : TCPConfig} {randomA randomB : WrappingInt32} {n : Network}
    (narrowA : cfgA.recvCapacity < 2 ^ 32) (narrowB : cfgB.recvCapacity < 2 ^ 32)
    (run : CarefulRuns cfgA cfgB randomA randomB n) : Lossless n :=
  run.invariant
    ⟨⟨new_outbound _ _, new_outbound _ _, start_flow _ _ narrowB, start_flow _ _ narrowA⟩,
      new_proper _ _, new_proper _ _, fun _ => start_kept _ _ _ _, fun _ => start_kept _ _ _ _⟩
    (fun _ move inv ok => inv.step move ok)

/-- What `write` accepted is what the sender has removed from its outstanding
queue, what is in that queue, and what is not sent yet; the removed part has
been assembled, and a stream that has ended is whole. -/
def NothingLost (src dst : Endpoint) : Prop :=
  (∃ removed, src.accepted = removed ++ payloads src.conn.sender.outstandingSegments ++
      src.conn.sender.stream.buffer ∧ removed <+: dst.inbound) ∧
  (dst.conn.receiver.streamOut.inputEnded = true →
    src.ended = true ∧ dst.conn.receiver.streamOut.bytesWritten = src.accepted.length)

theorem Kept.nothingLost (kept : Kept src dst) (flow : Flow src dst)
    (short : src.accepted.length < 2 ^ 31 - 2) (outbound : Outbound src.accepted src.conn)
    (proper : src.Proper) : NothingLost src dst := by
  have inbound := flow short
  have cur := inbound.cur_le
  obtain ⟨sent, settled⟩ := outbound.settled
  obtain ⟨gone, split⟩ := settled.outstanding
  have unread := settled.unread
  rw [← split, payloads_append] at unread
  constructor
  · refine ⟨payloads gone, unread.symm, ?_⟩
    rw [Endpoint.inbound, inbound.bytes, ← unread, List.append_assoc]
    refine List.prefix_of_prefix_length_le (List.prefix_append _ _) (List.take_prefix _ _) ?_
    rw [← List.append_assoc, unread, List.length_take]
    have total := congrArg List.length unread
    simp only [List.length_append] at total
    suffices assembled : (payloads gone).length ≤ dst.conn.receiver.reassembler.curIdx by omega
    -- A stream that has ended is whole; otherwise the base counts the assembled bytes.
    cases whole : dst.conn.receiver.reassembler.inputEnded with
    | true =>
      have := (kept.ending.ended whole).2
      omega
    | false =>
      have next := settled.toEncodes.next_eq
      have written := settled.toEncodes.bytesWritten
      have counted := src.conn.sender.stream.counted
      have first := (settled.acked (by split at next <;> split at next <;> omega)).first
      have removed := settled.toEncodes.removed_le split
      have base := kept.base
      cases syn : dst.conn.receiver.syn with
      | false =>
        have := kept.ending.quiet syn
        omega
      | true =>
        have exact := kept.ending.base syn
        simp only [whole, Bool.false_eq_true, false_and, if_false] at exact
        omega
  · intro whole
    obtain ⟨finished, all⟩ := kept.ending.ended whole
    exact ⟨(proper.finished outbound finished).1, inbound.valid.written.symm.trans all⟩

/-- In every run in which neither wrong branch is taken, no data is lost by
acknowledgement or at close, in either direction. -/
theorem run_loses_nothing (cfgA cfgB : TCPConfig) (randomA randomB : WrappingInt32) (n : Network)
    (narrowA : cfgA.recvCapacity < 2 ^ 32 ∧ cfgA.sendCapacity < 2 ^ 32)
    (narrowB : cfgB.recvCapacity < 2 ^ 32 ∧ cfgB.sendCapacity < 2 ^ 32)
    (run : CarefulRuns cfgA cfgB randomA randomB n)
    (shortA : n.a.accepted.length < 2 ^ 31 - 2) (shortB : n.b.accepted.length < 2 ^ 31 - 2) :
    NothingLost n.a n.b ∧ NothingLost n.b n.a := by
  have inv := run.lossless narrowA.1 narrowB.1
  exact ⟨(inv.keptB shortA).nothingLost inv.toB shortA inv.outA inv.properA,
    (inv.keptA shortB).nothingLost inv.toA shortB inv.outB inv.properB⟩

instance (r : TCPReceiver) (seg : TCPSegment) : Decidable (FinSafe r seg) :=
  inferInstanceAs (Decidable (_ → _ → _ → _ ∨ _ ∨ (_ ∧ _) ∨ (_ ∧ (_ ∨ (_ ∧ _)))))

instance (c : TCPConnection) (seg : TCPSegment) : Decidable (c.Consults seg) :=
  inferInstanceAs (Decidable (_ ∧ _ ∧ (_ → _)))

instance (e : Endpoint) (act : Act) : Decidable (e.Orderly act) :=
  match act with
  | .write _ => inferInstanceAs (Decidable (e.ended = false))
  | .connect | .endInputStream | .tick _ | .read _ | .deliver _ => isTrue trivial

instance (e : Endpoint) (act : Act) : Decidable (e.Careful act) :=
  match act with
  | .deliver _ => inferInstanceAs (Decidable ((_ → _ → ¬ _) ∧ (_ → _)))
  | .connect | .endInputStream | .tick _ | .read _ | .write _ => isTrue trivial

instance (n : Network) (move : Side × Act) : Decidable (OrderlyStep n move) :=
  inferInstanceAs (Decidable (_ ∧ _))

instance (n : Network) (move : Side × Act) : Decidable (CarefulStep n move) :=
  inferInstanceAs (Decidable (_ ∧ _))

/-- `b` acknowledges up to `ackno`. -/
def ackSegment (ackno : UInt32) (win : UInt16) : TCPSegment where
  header := { seqno := ⟨1⟩, ack := true, ackno := ⟨ackno⟩, win := win }

/-- Two bytes and the FIN, delivered in order and acknowledged. -/
def inOrderClose : List (Side × Act) := handshake ++
  [(.a, .write [104, 105]), (.a, .endInputStream), (.b, .deliver (dataSegment 1 false [104, 105])),
    (.b, .deliver (dataSegment 3 true [])), (.a, .deliver (ackSegment 4 6))]

def closedInOrder : Network := inOrderClose.foldl step (start smallConfig smallConfig ⟨0⟩ ⟨0⟩)

theorem run_loses_nothing_inOrder :
    (CarefulRuns smallConfig smallConfig ⟨0⟩ ⟨0⟩ closedInOrder ∧
      closedInOrder.a.conn.sender.outstandingSegments = [] ∧
      closedInOrder.b.conn.receiver.streamOut.inputEnded = true) ∧
    NothingLost closedInOrder.a closedInOrder.b ∧ NothingLost closedInOrder.b closedInOrder.a := by
  have run : CarefulRuns smallConfig smallConfig ⟨0⟩ ⟨0⟩ closedInOrder :=
    Run.Permits.reaches (show Run.Permits step CarefulStep _ inOrderClose by decide +kernel)
  exact ⟨⟨run, by decide +kernel, by decide +kernel⟩,
    run_loses_nothing smallConfig smallConfig ⟨0⟩ ⟨0⟩ closedInOrder (by decide) (by decide) run
      (by decide +kernel) (by decide +kernel)⟩

/-- No stream of either side is in error. -/
def Clean (n : Network) : Prop :=
  (n.a.conn.sender.stream.error = false ∧ n.a.conn.receiver.streamOut.error = false) ∧
  (n.b.conn.sender.stream.error = false ∧ n.b.conn.receiver.streamOut.error = false)

instance (n : Network) : Decidable (Clean n) :=
  inferInstanceAs (Decidable ((_ ∧ _) ∧ (_ ∧ _)))

/-- One byte and the FIN in its own segment; the FIN arrives first. -/
def earlyFin : List (Side × Act) := handshake ++
  [(.a, .write [97]), (.a, .endInputStream), (.b, .deliver (dataSegment 2 true []))]

/-- The FIN ends the stream of `b` with nothing in it. -/
theorem early_fin_truncates_stream :
    ¬ ∀ (cfgA cfgB : TCPConfig) (randomA randomB : WrappingInt32) (n : Network),
      cfgA.recvCapacity < 2 ^ 32 ∧ cfgA.sendCapacity < 2 ^ 32 →
      cfgB.recvCapacity < 2 ^ 32 ∧ cfgB.sendCapacity < 2 ^ 32 →
      Run.Reaches step OrderlyStep (start cfgA cfgB randomA randomB) n →
      n.a.accepted.length < 2 ^ 31 - 2 → n.b.accepted.length < 2 ^ 31 - 2 → Clean n →
      NothingLost n.a n.b ∧ NothingLost n.b n.a := by
  intro law
  have run := Run.Permits.reaches
    (show Run.Permits step OrderlyStep (start smallConfig smallConfig ⟨0⟩ ⟨0⟩) earlyFin by decide +kernel)
  obtain ⟨⟨_, whole⟩, _⟩ := law smallConfig smallConfig ⟨0⟩ ⟨0⟩ _ (by decide) (by decide) run
    (by decide +kernel) (by decide +kernel) (by decide +kernel)
  have short := (whole (by decide +kernel)).2
  revert short
  decide +kernel

/-- An ISN of which the raw number 0 is three steps ahead. -/
def nearWrapConfig : TCPConfig := { recvCapacity := 8, sendCapacity := 8, fixedIsn := some ⟨2 ^ 32 - 3⟩ }

/-- Both sides open at once; the SYN of `b` comes a second time, without an ACK
flag, after `a` has written two bytes. -/
def repeatedSyn : List (Side × Act) :=
  [(.a, .connect), (.b, .connect), (.a, .deliver synSegment),
    (.b, .deliver { header := { syn := true, seqno := ⟨2 ^ 32 - 3⟩ } }), (.b, .tick 0),
    (.a, .deliver (ackSegment (2 ^ 32 - 2) 8)), (.a, .write [1, 2]), (.a, .deliver synSegment)]

/-- The other wrong branch: `a` takes the unused field of the SYN for an
acknowledgement of bytes that `b` has never seen. -/
theorem unflagged_ackno_removes_data :
    Run.Permits step OrderlyStep (start nearWrapConfig smallConfig ⟨0⟩ ⟨0⟩) repeatedSyn ∧
      ¬ NothingLost (repeatedSyn.foldl step (start nearWrapConfig smallConfig ⟨0⟩ ⟨0⟩)).a
        (repeatedSyn.foldl step (start nearWrapConfig smallConfig ⟨0⟩ ⟨0⟩)).b := by
  refine ⟨by decide +kernel, ?_⟩
  rintro ⟨⟨removed, accepted, arrived⟩, _⟩
  rw [show (repeatedSyn.foldl step (start nearWrapConfig smallConfig ⟨0⟩ ⟨0⟩)).b.inbound = []
    by decide +kernel, List.prefix_nil] at arrived
  subst arrived
  revert accepted
  decide +kernel

end Network
end Sponge
