import Sponge.TCP.Sender.Filled
import Sponge.TCP.SenderSteps
import Sponge.TCP.Progress
import Sponge.TCP.Replies

/-! The window is kept full. Every event that makes more data sendable is
followed by `fillWindow`, with one exception: an acknowledgement that is not new
returns early, after it has stored its window. -/
namespace Sponge
open TCPConnection TCPSender

namespace TCPSender

variable {s u : TCPSender} {accepted : List UInt8} {sent : List TCPSegment}

theorem Filled.frame (filled : s.Filled) (frame : Frame s u) : u.Filled := by
  obtain ⟨_, _, rfl⟩ := frame
  exact filled

theorem SynAcked.frame (acked : s.SynAcked) (frame : Frame s u) : u.SynAcked := by
  obtain ⟨_, _, rfl⟩ := frame
  exact acked

/-- Something has been acknowledged once the SYN has. -/
theorem Encodes.flight_lt (inv : Encodes s accepted sent) (acked : s.SynAcked) :
    s.bytesInFlight < s.nextSeqno := by
  obtain ⟨opened, retired⟩ := acked
  obtain ⟨data, eq, _⟩ := inv.opened opened
  obtain ⟨gone, split⟩ := inv.outstanding
  rw [inv.next, inv.flight, ← split, seqLen_append]
  cases gone with
  | nil =>
    -- The whole history is outstanding, with the SYN at its front.
    rw [List.nil_append, eq] at split
    simp [synOutstanding, split, bareSyn] at retired
  | cons first rest =>
    have positive : 0 < first.lengthInSequenceSpace := by
      have laid := inv.laid
      rw [← split] at laid
      exact laid.2.1
    rw [seqLen_cons]
    omega

/-- A new acknowledgement is followed by `fillWindow`. -/
theorem Settled.accepted_filled (settled : Settled s accepted sent) {ackno : WrappingInt32} {window : UInt16}
    (accepts : s.Accepts ackno) (small : (s.ackReceived ackno window).nextSeqno < 2 ^ 31)
    (acked : (s.ackReceived ackno window).SynAcked) : (s.ackReceived ackno window).Filled := by
  rw [ackReceived_of_accepts accepts] at small acked ⊢
  exact ((settled.toEncodes.setWindow window).acknowledge _).fillWindow_filled
    ((settled.bounded.setWindow window).acknowledge accepts.1) small acked

/-- Past the handshake, the window is full after an acknowledgement exactly if
one that is not new leaves it full. -/
theorem Settled.ackReceived_filled_iff (settled : Settled s accepted sent) (filled : s.Filled)
    {ackno : WrappingInt32} {window : UInt16} (small : (s.ackReceived ackno window).nextSeqno < 2 ^ 31)
    (acked : (s.ackReceived ackno window).SynAcked) :
    (s.ackReceived ackno window).Filled ↔
      (unwrap ackno s.isn s.rcvBase ≤ s.rcvBase → (s.setWindow window).Filled) := by
  have base := settled.bounded.base
  rcases s.ackReceived_cases ackno window with ⟨ahead, eq⟩ | ⟨old, eq⟩ | accepts
  · rw [eq]
    exact iff_of_true filled (fun old => by omega)
  · rw [eq]
    exact ⟨fun filled _ => filled, fun filled => filled old⟩
  · exact iff_of_true (settled.accepted_filled accepts small acked)
      (fun old => absurd accepts.2 (not_lt.mpr old))

/-- Before the handshake is done, only a new acknowledgement completes it. -/
theorem Settled.ackReceived_filled (settled : Settled s accepted sent) (waiting : ¬ s.SynAcked)
    {ackno : WrappingInt32} {window : UInt16} (small : (s.ackReceived ackno window).nextSeqno < 2 ^ 31)
    (acked : (s.ackReceived ackno window).SynAcked) : (s.ackReceived ackno window).Filled := by
  rcases s.ackReceived_cases ackno window with ⟨_, eq⟩ | ⟨_, eq⟩ | accepts
  · rw [eq] at acked
    exact absurd acked waiting
  · rw [eq] at acked
    exact absurd acked waiting
  · exact settled.accepted_filled accepts small acked

end TCPSender

namespace TCPConnection

variable {c : TCPConnection} {accepted : List UInt8} {seg : TCPSegment}

/-- Past the handshake every segment goes through the established path. -/
theorem Outbound.past_of_acked (outbound : Outbound accepted c) (acked : c.sender.SynAcked) :
    c.listening = false ∧ c.synSent = false := by
  obtain ⟨sent, settled⟩ := outbound.settled
  have flight := settled.toEncodes.flight_lt acked
  constructor
  · by_contra idle
    have unopened := outbound.unopened (by simpa using idle)
    exact absurd (unopened.symm.trans acked.1) (by decide)
  · have differ : c.sender.nextSeqno ≠ c.sender.bytesInFlight := by omega
    simp [synSent, differ]

/-- A reset of an established connection stops it. -/
theorem established_stopped (c : TCPConnection) (reset : seg.header.rst = true) :
    (c.established seg).active = false := by
  rw [established]
  exact (congrArg active (if_pos reset)).trans (uncleanShutdown_reset _).1

end TCPConnection

namespace Endpoint

variable {e : Endpoint} {act : Act} {cfg : TCPConfig} {random : WrappingInt32}

/-- No acknowledgement that is not new opens the window past the next sequence
number while the stream holds bytes or a FIN to send. -/
def Refills (e : Endpoint) : Act → Prop
  | .deliver seg => e.conn.active = true → seg.header.rst = false → e.conn.sender.SynAcked →
      unwrap seg.header.ackno e.conn.sender.isn e.conn.sender.rcvBase ≤ e.conn.sender.rcvBase →
      (e.conn.sender.setWindow seg.header.win).Filled
  | _ => True

instance (e : Endpoint) (act : Act) : Decidable (e.Refills act) :=
  match act with
  | .deliver _ => inferInstanceAs (Decidable (_ → _ → _ → _ → _))
  | .connect | .write _ | .endInputStream | .tick _ | .read _ => isTrue trivial

/-- While active and past the handshake, with small sequence numbers. -/
structure Watched (e : Endpoint) : Prop where
  active : e.conn.active = true
  small : e.conn.sender.nextSeqno < 2 ^ 31
  acked : e.conn.sender.SynAcked

/-- An incoming segment, after the handshake and before it. -/
theorem deliver_filled_iff (outbound : Outbound e.accepted e.conn) (full : e.Watched → e.conn.sender.Filled)
    {seg : TCPSegment} (watched : (e.step (.deliver seg)).Watched) :
    (e.step (.deliver seg)).conn.sender.Filled ↔ e.Refills (.deliver seg) := by
  obtain ⟨sent, settled⟩ := outbound.settled
  obtain ⟨active, small, acked⟩ := watched
  have before := active_of_step active
  by_cases done : e.conn.sender.SynAcked
  · obtain ⟨begun, past⟩ := outbound.past_of_acked done
    have call : (e.step (.deliver seg)).conn =
        { e.conn with timeSinceLastSegmentReceived := 0 }.established seg := by
      rw [step, segmentReceived_of_active before]
      exact dispatch_past (c := { e.conn with timeSinceLastSegmentReceived := 0 }) begun past seg
    have plain : seg.header.rst = false := by
      by_contra reset
      rw [call, established_stopped _ (by simpa using reset)] at active
      exact absurd active (by decide)
    have frame := established_frame { e.conn with timeSinceLastSegmentReceived := 0 } seg
    rw [call] at small acked ⊢
    have grown : e.conn.sender.nextSeqno < 2 ^ 31 := by
      rw [frame.next] at small
      exact (e.conn.sender.nextSeqno_le_apply (.ackReceived seg.header.ackno seg.header.win)).trans_lt small
    have step := settled.ackReceived_filled_iff (full ⟨before, grown, done⟩)
      (frame.next ▸ small) (acked.frame frame.symm)
    rw [Refills]
    constructor
    · exact fun filled _ _ _ => step.mp (filled.frame frame.symm)
    · exact fun refills => (step.mpr (refills before plain done)).frame frame
  · refine iff_of_true ?_ (fun _ _ acked => absurd acked done)
    obtain ⟨u, speaks, frame⟩ := e.step_speaks (.deliver seg)
    rw [frame.next] at small
    replace acked := acked.frame frame.symm
    apply Filled.frame _ frame
    rcases speaks with rfl | rfl | ⟨_, rfl⟩
    · exact absurd acked done
    · exact settled.toEncodes.fillWindow_filled settled.bounded small acked
    · exact settled.ackReceived_filled done small acked

/-- Every other call leaves a full window. -/
theorem call_filled (outbound : Outbound e.accepted e.conn) (full : e.Watched → e.conn.sender.Filled)
    (other : ∀ seg, act ≠ .deliver seg) (watched : (e.step act).Watched) :
    (e.step act).conn.sender.Filled := by
  obtain ⟨sent, settled⟩ := outbound.settled
  obtain ⟨active, small, acked⟩ := watched
  have before := active_of_step active
  obtain ⟨u, speaks, frame⟩ := e.step_speaks act
  rw [frame.next] at small
  refine Filled.frame ?_ frame
  refine speaks.rule (P := fun u => u.nextSeqno < 2 ^ 31 → u.SynAcked → u.Filled) ?_ ?_ ?_ ?_ ?_ ?_ small
    (acked.frame frame.symm)
  · exact fun small acked => full ⟨before, small, acked⟩
  · exact settled.toEncodes.fillWindow_filled settled.bounded
  · intro data _
    have wrote := settled.write data
    exact wrote.toEncodes.fillWindow_filled wrote.bounded
  · exact fun _ => settled.toEncodes.endInput.fillWindow_filled ⟨settled.bounded.base, settled.bounded.window⟩
  · intro ms small acked
    obtain ⟨_, _, _, _, _, eq⟩ := e.conn.sender.tick_eq ms
    rw [eq] at small acked ⊢
    exact full ⟨before, small, acked⟩
  · exact fun seg delivered => absurd delivered (other seg)

/-- One act, in a state whose window is full. -/
theorem step_filled_iff (outbound : Outbound e.accepted e.conn) (full : e.Watched → e.conn.sender.Filled)
    (act : Act) (watched : (e.step act).Watched) : (e.step act).conn.sender.Filled ↔ e.Refills act := by
  cases act with
  | deliver seg => exact deliver_filled_iff outbound full watched
  | connect => exact iff_of_true (call_filled outbound full (by simp) watched) trivial
  | write data => exact iff_of_true (call_filled outbound full (by simp) watched) trivial
  | endInputStream => exact iff_of_true (call_filled outbound full (by simp) watched) trivial
  | tick ms => exact iff_of_true (call_filled outbound full (by simp) watched) trivial
  | read len => exact iff_of_true (call_filled outbound full (by simp) watched) trivial

/-- Runs all of whose segments meet the condition. -/
abbrev RefillRuns (cfg : TCPConfig) (random : WrappingInt32) : Endpoint → Prop :=
  Run.Reaches step Refills (new cfg random)

theorem RefillRuns.full (run : RefillRuns cfg random e) :
    Outbound e.accepted e.conn ∧ (e.Watched → e.conn.sender.Filled) := by
  refine run.invariant (P := fun e => Outbound e.accepted e.conn ∧ (e.Watched → e.conn.sender.Filled))
    ⟨new_outbound cfg random, fun watched => absurd watched.acked.1 Bool.false_ne_true⟩ ?_
  rintro e act ⟨outbound, full⟩ refills
  obtain ⟨_, _, effect⟩ := e.step_effect outbound act
  exact ⟨effect.outbound, fun watched => (step_filled_iff outbound full act watched).mpr refills⟩

/-- In a run that meets the condition so far, the window is full after the next
call exactly if that call meets it too. -/
theorem run_filled_iff (cfg : TCPConfig) (random : WrappingInt32) (e : Endpoint)
    (run : RefillRuns cfg random e) (act : Act) (active : (e.step act).conn.active = true)
    (small : (e.step act).conn.sender.nextSeqno < 2 ^ 31) (acked : (e.step act).conn.sender.SynAcked) :
    (e.step act).conn.sender.Filled ↔ e.Refills act := by
  obtain ⟨outbound, full⟩ := run.full
  exact step_filled_iff outbound full act ⟨active, small, acked⟩

/-- An acknowledgement of the peer with its window. -/
def windowUpdate (ackno : UInt32) (win : UInt16) : TCPSegment where
  header := { seqno := ⟨1⟩, ack := true, ackno := ⟨ackno⟩, win := win }

/-- Five bytes are written into a window of two. -/
def throttled : List Act :=
  [.connect, .deliver { header := { syn := true, ack := true, ackno := ⟨1⟩, win := 2 } }, .write [1, 2, 3, 4, 5]]

theorem run_filled_iff_throttled :
    let e := throttled.foldl step (new Network.smallConfig ⟨0⟩)
    let after := e.step (.deliver (windowUpdate 3 8))
    (RefillRuns Network.smallConfig ⟨0⟩ e ∧ after.conn.active = true ∧
      after.conn.sender.nextSeqno < 2 ^ 31 ∧ after.conn.sender.SynAcked) ∧
    (after.conn.sender.Filled ↔ e.Refills (.deliver (windowUpdate 3 8))) := by
  have run : RefillRuns Network.smallConfig ⟨0⟩ (throttled.foldl step (new Network.smallConfig ⟨0⟩)) :=
    Run.Permits.reaches (show Run.Permits step Refills _ throttled by decide +kernel)
  exact ⟨⟨run, by decide +kernel, by decide +kernel, by decide +kernel⟩,
    run_filled_iff _ _ _ run _ (by decide +kernel) (by decide +kernel) (by decide +kernel)⟩

/-- The window grows to eight under the same acknowledgement number, and the
three bytes that wait are not sent. -/
theorem throttled_not_filled :
    let e := throttled.foldl step (new Network.smallConfig ⟨0⟩)
    let after := e.step (.deliver (windowUpdate 1 8))
    (Runs Network.smallConfig ⟨0⟩ e ∧ e.conn.active = true ∧ after.conn.active = true ∧
      after.conn.sender.nextSeqno < 2 ^ 31 ∧ after.conn.sender.SynAcked) ∧
    ¬ after.conn.sender.Filled := by
  have run : Runs Network.smallConfig ⟨0⟩ (throttled.foldl step (new Network.smallConfig ⟨0⟩)) :=
    Run.Permits.reaches (show Run.Permits step (fun _ _ => True) _ throttled by decide +kernel)
  exact ⟨⟨run, by decide +kernel, by decide +kernel, by decide +kernel, by decide +kernel⟩, by decide +kernel⟩

end Endpoint
end Sponge
