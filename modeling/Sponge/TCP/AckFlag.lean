import Sponge.TCP.SenderSteps
import Sponge.TCP.Replies

/-! Acknowledgement numbers of segments without the ACK flag. While its SYN is
out a connection asks for the flag; afterwards every segment's number and window
go to the sender, flagged or not, and whether that is harmless depends on where
the raw number falls. -/
namespace Sponge
open TCPConnection TCPSender

namespace TCPSender

variable {s u : TCPSender}

/-- A number taken as new moves the base, truncated or not. -/
theorem Accepts.moves {ackno : WrappingInt32} (accepts : s.Accepts ackno) (narrow : s.rcvBase < 2 ^ 32) :
    FixedWidth.trunc 32 (unwrap ackno s.isn s.rcvBase) ≠ s.rcvBase := by
  obtain ⟨v, bound, rfl⟩ := wrap_surjective ackno s.isn
  have new := accepts.2
  rw [unwrap_wrap_eq v _ _ (by omega)] at new ⊢
  rw [FixedWidth.trunc]
  split_ifs at new ⊢ <;> omega

/-- `ackReceived` leaves the acknowledgement state as it was exactly if the
number is past everything sent, or not new with the window already stored. -/
theorem ackReceived_same_iff (narrow : s.rcvBase < 2 ^ 32) (ackno : WrappingInt32) (window : UInt16) :
    ((s.ackReceived ackno window).rcvBase = s.rcvBase ∧
      (s.ackReceived ackno window).receiverWindowSize = s.receiverWindowSize ∧
      (s.ackReceived ackno window).outstandingSegments.head? = s.outstandingSegments.head?) ↔
    (s.nextSeqno < unwrap ackno s.isn s.rcvBase ∨
      (unwrap ackno s.isn s.rcvBase ≤ s.rcvBase ∧ window.toNat = s.receiverWindowSize)) := by
  rcases s.ackReceived_cases ackno window with ⟨ahead, eq⟩ | ⟨old, eq⟩ | accepts
  · rw [eq]
    exact ⟨fun _ => Or.inl ahead, fun _ => ⟨rfl, rfl, rfl⟩⟩
  · rw [eq]
    constructor
    · exact fun same => Or.inr ⟨old, same.2.1⟩
    · rintro (ahead | ⟨_, same⟩)
      · -- A number past everything sent is not looked at, old or not.
        have ignored : s.ackReceived ackno window = s := if_pos ahead
        rw [← eq, ignored]
        exact ⟨rfl, rfl, rfl⟩
      · exact ⟨rfl, same, rfl⟩
  · constructor
    · rintro ⟨same, _⟩
      exact absurd ((accepts.rcvBase window).symm.trans same) (accepts.moves narrow)
    · obtain ⟨sent, fresh⟩ := accepts
      rintro (ahead | ⟨old, _⟩) <;> omega

end TCPSender

namespace TCPConnection

variable {c : TCPConnection} {accepted : List UInt8} {seg : TCPSegment}

/-- The acknowledged base, the stored window and the front of the outstanding
queue stay as they are; a listening connection sends its SYN at most. -/
structure Ignores (c : TCPConnection) (seg : TCPSegment) : Prop where
  base : (c.segmentReceived seg).sender.rcvBase = c.sender.rcvBase
  window : (c.segmentReceived seg).sender.receiverWindowSize = c.sender.receiverWindowSize
  front : c.listening = false →
    (c.segmentReceived seg).sender.outstandingSegments.head? = c.sender.outstandingSegments.head?
  listening : c.listening = true → (c.segmentReceived seg).sender = c.sender ∨
    (c.segmentReceived seg).sender = { c.sender.sendSyn with segmentsOut := [] }

theorem Ignores.of_frame (frame : Frame c.sender (c.segmentReceived seg).sender)
    (begun : c.listening = false) : c.Ignores seg :=
  ⟨frame.rcvBase, frame.window, fun _ => by rw [frame.outstanding], by simp [begun]⟩

theorem Ignores.of_eq (same : (c.segmentReceived seg).sender = c.sender) : c.Ignores seg :=
  ⟨by rw [same], by rw [same], fun _ => by rw [same], fun _ => Or.inl same⟩

/-- In the listening state a SYN is answered with a SYN. -/
theorem Outbound.listening_ignores (outbound : Outbound accepted c) (active : c.active = true)
    (idle : c.listening = true) (seg : TCPSegment) : c.Ignores seg := by
  have eq := segmentReceived_of_active active seg
  cases syn : seg.header.syn with
  | false =>
    rw [dispatch_unheard (c := { c with timeSinceLastSegmentReceived := 0 }) idle syn] at eq
    exact .of_eq (by rw [eq])
  | true =>
    have sender : (c.segmentReceived seg).sender = { c.sender.sendSyn with segmentsOut := [] } := by
      rw [eq, dispatch_listening (c := { c with timeSinceLastSegmentReceived := 0 }) idle syn,
        TCPConnection.connect, sendSegsFromSender_sender]
      change { c.sender.fillWindow with segmentsOut := [] } = _
      rw [fillWindow, if_pos (outbound.unopened idle)]
    exact ⟨by rw [sender]; rfl, by rw [sender]; rfl, by simp [idle], fun _ => Or.inr sender⟩

/-- While its SYN is out, a connection does not look at an unflagged number. -/
theorem synSent_ignores (active : c.active = true) (begun : c.listening = false) (sent : c.synSent = true)
    (unflagged : seg.header.ack = false) : c.Ignores seg := by
  have eq := segmentReceived_of_active active seg
  by_cases syn : seg.header.syn = true
  · rw [SimultaneousOpen.dispatch_eq (c := { c with timeSinceLastSegmentReceived := 0 })
      ⟨sent, unflagged, syn⟩] at eq
    exact .of_frame (by rw [eq]; exact .sendEmptySegment _) begun
  · apply Ignores.of_eq
    rw [eq, dispatch_refused (c := { c with timeSinceLastSegmentReceived := 0 }) begun sent
      (Or.inr unflagged) (fun both => syn both.2)]

/-- An unflagged number does no harm: nobody looks at it, it is past everything
sent, or it is not new and comes with the window already stored. -/
def Harmless (c : TCPConnection) (seg : TCPSegment) : Prop :=
  c.active = false ∨ c.listening = true ∨ c.synSent = true ∨
  c.sender.nextSeqno < unwrap seg.header.ackno c.sender.isn c.sender.rcvBase ∨
  (unwrap seg.header.ackno c.sender.isn c.sender.rcvBase ≤ c.sender.rcvBase ∧
    seg.header.win.toNat = c.sender.receiverWindowSize)

instance (c : TCPConnection) (seg : TCPSegment) : Decidable (c.Harmless seg) :=
  inferInstanceAs (Decidable (_ ∨ _ ∨ _ ∨ _ ∨ (_ ∧ _)))

/-- Past the opening states the sender has the last word. -/
theorem past_ignores_iff (active : c.active = true) (begun : c.listening = false) (past : c.synSent = false)
    (narrow : c.sender.rcvBase < 2 ^ 32) (seg : TCPSegment) : c.Ignores seg ↔ c.Harmless seg := by
  have frame : Frame (c.sender.ackReceived seg.header.ackno seg.header.win) (c.segmentReceived seg).sender := by
    rw [segmentReceived_of_active active, dispatch_past (c := { c with timeSinceLastSegmentReceived := 0 })
      begun past]
    exact established_frame { c with timeSinceLastSegmentReceived := 0 } seg
  have same := ackReceived_same_iff narrow seg.header.ackno seg.header.win
  rw [← frame.rcvBase, ← frame.window, ← frame.outstanding] at same
  simp only [Harmless, active, begun, past, Bool.true_eq_false, Bool.false_eq_true, false_or]
  rw [← same]
  constructor
  · exact fun ignores => ⟨ignores.base, ignores.window, ignores.front begun⟩
  · exact fun kept => ⟨kept.1, kept.2.1, fun _ => kept.2.2, by simp [begun]⟩

end TCPConnection

namespace Endpoint

variable {e : Endpoint} {cfg : TCPConfig} {random : WrappingInt32}

theorem step_narrow (narrow : e.conn.sender.rcvBase < 2 ^ 32) (act : Act) :
    (e.step act).conn.sender.rcvBase < 2 ^ 32 := by
  rcases e.step_rcvBase act with same | ⟨_, _, _, _, moved⟩
  · rw [same]
    exact narrow
  · rw [moved]
    exact Nat.mod_lt _ (by decide)

theorem Runs.narrow (run : Runs cfg random e) : e.conn.sender.rcvBase < 2 ^ 32 :=
  run.invariant (P := fun e => e.conn.sender.rcvBase < 2 ^ 32) (by decide : 0 < 2 ^ 32)
    (fun _ act narrow _ => step_narrow narrow act)

/-- A segment without the ACK flag acknowledges nothing exactly if its number
does no harm. -/
theorem run_unflagged_ignored_iff (cfg : TCPConfig) (random : WrappingInt32) (e : Endpoint)
    (run : Runs cfg random e) (seg : TCPSegment) (unflagged : seg.header.ack = false) :
    e.conn.Ignores seg ↔ e.conn.Harmless seg := by
  cases active : e.conn.active with
  | false =>
    have same : e.conn.segmentReceived seg = e.conn := if_pos active
    exact ⟨fun _ => Or.inl active, fun _ => .of_eq (by rw [same])⟩
  | true =>
    cases idle : e.conn.listening with
    | true => exact ⟨fun _ => Or.inr (Or.inl idle), fun _ => run.outbound.listening_ignores active idle seg⟩
    | false =>
      cases sent : e.conn.synSent with
      | true =>
        exact ⟨fun _ => Or.inr (Or.inr (Or.inl sent)), fun _ => synSent_ignores active idle sent unflagged⟩
      | false => exact past_ignores_iff active idle sent run.narrow seg

/-- A byte of the peer without the ACK flag. -/
def unflaggedByte (ackno : UInt32) : TCPSegment where
  header := { seqno := ⟨1⟩, ackno := ⟨ackno⟩ }
  payload := [7]

/-- A byte has been sent and is not acknowledged. -/
def waiting : Endpoint := opened.step (.write [1])

theorem waiting_runs : Runs Network.smallConfig ⟨0⟩ waiting :=
  (((new_runs _ _).step .connect).step (.deliver Network.synAckSegment)).step (.write [1])

theorem run_unflagged_ignored_iff_waiting :
    (Runs Network.smallConfig ⟨0⟩ waiting ∧ waiting.conn.Harmless (unflaggedByte 5)) ∧
      (waiting.conn.Ignores (unflaggedByte 5) ↔ waiting.conn.Harmless (unflaggedByte 5)) :=
  ⟨⟨waiting_runs, by decide +kernel⟩,
    run_unflagged_ignored_iff _ _ _ waiting_runs (unflaggedByte 5) rfl⟩

/-- The number 2 of an unflagged segment is taken as an acknowledgement of the byte. -/
theorem waiting_believes_unflagged :
    Runs Network.smallConfig ⟨0⟩ waiting ∧ (unflaggedByte 2).header.ack = false ∧
      (unflaggedByte 2).header.rst = false ∧ ¬ waiting.conn.Ignores (unflaggedByte 2) := by
  refine ⟨waiting_runs, rfl, rfl, fun ignores => ?_⟩
  have moved : (waiting.conn.segmentReceived (unflaggedByte 2)).sender.rcvBase ≠ waiting.conn.sender.rcvBase := by
    decide +kernel
  exact moved ignores.base

end Endpoint
end Sponge
