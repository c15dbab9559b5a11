import Sponge.TCP.Endpoints

/-! Every act of an endpoint as one call of its sender, up to the outbound queue
and the error flag. What the sender acknowledges, and whether its stream is
drained once the FIN is out, follow from the call alone. -/
namespace Sponge
open TCPConnection TCPSender

namespace TCPSender

variable {s u v : TCPSender}

/-- Equal up to the outbound queue and the error flag of the stream. -/
def Frame (s u : TCPSender) : Prop :=
  ∃ out error, u = { s with segmentsOut := out, stream := { s.stream with error := error } }

theorem Frame.refl (s : TCPSender) : Frame s s := ⟨_, _, rfl⟩

theorem Frame.trans (first : Frame s u) (second : Frame u v) : Frame s v := by
  obtain ⟨_, _, rfl⟩ := first
  obtain ⟨_, _, rfl⟩ := second
  exact ⟨_, _, rfl⟩

theorem Frame.symm (frame : Frame s u) : Frame u s := by
  obtain ⟨_, _, rfl⟩ := frame
  exact ⟨s.segmentsOut, s.stream.error, rfl⟩

theorem Frame.sendEmptySegment (s : TCPSender) : Frame s s.sendEmptySegment := ⟨_, _, rfl⟩

theorem Frame.next (frame : Frame s u) : u.nextSeqno = s.nextSeqno := by
  obtain ⟨_, _, rfl⟩ := frame
  rfl

theorem Frame.rcvBase (frame : Frame s u) : u.rcvBase = s.rcvBase := by
  obtain ⟨_, _, rfl⟩ := frame
  rfl

theorem Frame.window (frame : Frame s u) : u.receiverWindowSize = s.receiverWindowSize := by
  obtain ⟨_, _, rfl⟩ := frame
  rfl

theorem Frame.outstanding (frame : Frame s u) : u.outstandingSegments = s.outstandingSegments := by
  obtain ⟨_, _, rfl⟩ := frame
  rfl

/-- Nothing is left in the stream once the FIN is out. -/
def Drained (s : TCPSender) : Prop := s.finSent = true → s.stream.buffer = []

theorem Drained.frame (drained : Drained s) (frame : Frame s u) : Drained u := by
  obtain ⟨_, _, rfl⟩ := frame
  exact drained

/-- The FIN goes out with, or after, the last byte. -/
theorem Drained.fillWindow (drained : Drained s) : Drained s.fillWindow := by
  rcases s.fillWindow_cases with ⟨_, eq⟩ | ⟨_, _, eq⟩ | ⟨_, eq⟩ <;> rw [eq]
  · exact drained
  · exact drained
  · apply fillOpen_rule (P := Drained)
    · exact fun _ => drained
    · exact fun ended _ _ => ((ByteStream.eof_iff _).mp ended).1
    · intro u kept sending finished
      rw [sendData_eq] at finished ⊢
      have unsent : u.finSent = false := sending.2.1
      simp only [segmentHandler, unsent, Bool.false_or, nextFin, Bool.and_eq_true] at finished
      exact ((ByteStream.eof_iff _).mp finished.1).1

theorem Drained.ackReceived (drained : Drained s) (ackno : WrappingInt32) (window : UInt16) :
    Drained (s.ackReceived ackno window) := by
  obtain ⟨u, ⟨stream, _, fin, _⟩, eq⟩ := s.ackReceived_fill ackno window
  have kept : Drained u := by
    rw [Drained, stream, fin]
    exact drained
  rcases eq with eq | eq <;> rw [eq]
  · exact kept
  · exact kept.fillWindow

theorem Drained.tick (drained : Drained s) (ms : Nat) : Drained (s.tick ms) := by
  obtain ⟨_, _, _, _, _, eq⟩ := s.tick_eq ms
  rw [eq]
  exact drained

theorem ackReceived_inputEnd (s : TCPSender) (ackno : WrappingInt32) (window : UInt16) :
    (s.ackReceived ackno window).stream.inputEnd = s.stream.inputEnd := by
  obtain ⟨u, ⟨stream, _⟩, eq⟩ := s.ackReceived_fill ackno window
  rcases eq with eq | eq <;> rw [eq]
  · rw [stream]
  · rw [fillWindow_inputEnd, stream]

theorem Accepts.rcvBase {ackno : WrappingInt32} (accepts : s.Accepts ackno) (window : UInt16) :
    (s.ackReceived ackno window).rcvBase = FixedWidth.trunc 32 (unwrap ackno s.isn s.rcvBase) := by
  obtain ⟨_, _, _, ackEq⟩ := (s.setWindow window).acknowledge_eq (unwrap ackno s.isn s.rcvBase)
  rw [ackReceived_of_accepts accepts, fillWindow_rcvBase, ackEq]

/-- The base moves to a number that is accepted, and only then. -/
theorem ackReceived_rcvBase (s : TCPSender) (ackno : WrappingInt32) (window : UInt16) :
    (s.ackReceived ackno window).rcvBase = s.rcvBase ∨
    (s.Accepts ackno ∧
      (s.ackReceived ackno window).rcvBase = FixedWidth.trunc 32 (unwrap ackno s.isn s.rcvBase)) := by
  rcases s.ackReceived_cases ackno window with ⟨_, eq⟩ | ⟨_, eq⟩ | accepts
  · exact Or.inl (by rw [eq])
  · exact Or.inl (by rw [eq]; rfl)
  · exact Or.inr ⟨accepts, accepts.rcvBase window⟩

end TCPSender

namespace TCPConnection

variable {c : TCPConnection}

theorem sendSegsFromSender_frame (c : TCPConnection) : Frame c.sender c.sendSegsFromSender.sender := by
  obtain ⟨_, _, eq⟩ := c.flush.cleanShutdown_eq
  rw [sendSegsFromSender, eq]
  exact ⟨_, _, rfl⟩

theorem uncleanShutdown_frame (c : TCPConnection) : Frame c.sender c.uncleanShutdown.sender := by
  unfold uncleanShutdown
  dsimp only
  split <;> exact ⟨_, _, rfl⟩

theorem tick_frame (c : TCPConnection) (ms : Nat) :
    Frame c.sender (c.tick ms).sender ∨ Frame (c.sender.tick ms) (c.tick ms).sender := by
  unfold tick
  split
  · exact Or.inl (.refl _)
  · right
    dsimp only
    split
    · exact (uncleanShutdown_frame { c with
        timeSinceLastSegmentReceived := FixedWidth.add 64 c.timeSinceLastSegmentReceived ms
        sender := c.sender.tick ms }).trans (sendSegsFromSender_frame _)
    · exact sendSegsFromSender_frame { c with
        timeSinceLastSegmentReceived := FixedWidth.add 64 c.timeSinceLastSegmentReceived ms
        sender := c.sender.tick ms }

theorem answer_frame (c : TCPConnection) (seg : TCPSegment) : Frame c.sender (c.answer seg).sender := by
  unfold answer
  split_ifs
  · exact .sendEmptySegment _
  · exact .refl _

theorem established_frame (c : TCPConnection) (seg : TCPSegment) :
    Frame (c.sender.ackReceived seg.header.ackno seg.header.win) (c.established seg).sender := by
  unfold established
  dsimp only
  split
  · exact (Frame.sendEmptySegment _).trans (uncleanShutdown_frame
      { c.deliver seg with sender := (c.deliver seg).sender.sendEmptySegment })
  · exact (answer_frame (c.deliver seg) seg).trans (sendSegsFromSender_frame _)

/-- The connection looks at the acknowledgement number of a segment: past the
opening states always, while its SYN is out only under the ACK flag. -/
def Consults (c : TCPConnection) (seg : TCPSegment) : Prop :=
  c.active = true ∧ c.listening = false ∧ (c.synSent = true → seg.header.ack = true)

theorem dispatch_frame (c : TCPConnection) (seg : TCPSegment) (active : c.active = true) :
    Frame c.sender (c.dispatch seg).sender ∨ Frame c.sender.fillWindow (c.dispatch seg).sender ∨
    (c.Consults seg ∧
      Frame (c.sender.ackReceived seg.header.ackno seg.header.win) (c.dispatch seg).sender) := by
  unfold dispatch
  split
  · split
    · exact Or.inl (.refl _)
    · exact Or.inr (Or.inl (sendSegsFromSender_frame
        { c with receiver := c.receiver.segmentReceived seg, sender := c.sender.fillWindow }))
  rename_i begun
  rw [Bool.not_eq_true] at begun
  split
  · split
    · split
      · exact Or.inl (.sendEmptySegment _)
      · exact Or.inl (.refl _)
    rename_i flagged
    have flag : seg.header.ack = true := by
      by_contra unset
      exact flagged (Or.inr (by simpa using unset))
    split
    · exact Or.inl ⟨_, _, rfl⟩
    · exact Or.inr (Or.inr ⟨⟨active, begun, fun _ => flag⟩, established_frame c seg⟩)
  · rename_i other
    exact Or.inr (Or.inr ⟨⟨active, begun, fun sent => absurd sent other⟩, established_frame c seg⟩)

theorem segmentReceived_frame (c : TCPConnection) (seg : TCPSegment) :
    Frame c.sender (c.segmentReceived seg).sender ∨
    Frame c.sender.fillWindow (c.segmentReceived seg).sender ∨
    (c.Consults seg ∧
      Frame (c.sender.ackReceived seg.header.ackno seg.header.win) (c.segmentReceived seg).sender) := by
  unfold segmentReceived
  split
  · exact Or.inl (.refl _)
  · rename_i active
    exact dispatch_frame { c with timeSinceLastSegmentReceived := 0 } seg (by simpa using active)

end TCPConnection

namespace Endpoint

/-- The call an act makes of the sender. -/
def Speaks (c : TCPConnection) : Act → TCPSender → Prop
  | .connect, u => u = c.sender.fillWindow
  | .write data, u => u = c.sender ∨ u = (c.sender.write data).2.fillWindow
  | .endInputStream, u => u = c.sender.endInput.fillWindow
  | .tick ms, u => u = c.sender ∨ u = c.sender.tick ms
  | .read _, u => u = c.sender
  | .deliver seg, u => u = c.sender ∨ u = c.sender.fillWindow ∨
      (c.Consults seg ∧ u = c.sender.ackReceived seg.header.ackno seg.header.win)

/-- What holds of the sender as it is, and after each operation that an act may
use, holds of what the act leaves. -/
theorem Speaks.rule {P : TCPSender → Prop} {c : TCPConnection} {act : Act} {u : TCPSender}
    (speaks : Speaks c act u) (same : P c.sender) (fill : P c.sender.fillWindow)
    (write : ∀ data, act = .write data → P (c.sender.write data).2.fillWindow)
    (ended : act = .endInputStream → P c.sender.endInput.fillWindow)
    (tick : ∀ ms, P (c.sender.tick ms))
    (deliver : ∀ seg, act = .deliver seg → c.Consults seg →
      P (c.sender.ackReceived seg.header.ackno seg.header.win)) : P u := by
  cases act with
  | connect => exact speaks ▸ fill
  | write data =>
    rcases speaks with rfl | rfl
    · exact same
    · exact write data rfl
  | endInputStream => exact speaks ▸ ended rfl
  | tick ms =>
    rcases speaks with rfl | rfl
    · exact same
    · exact tick ms
  | read len => exact speaks ▸ same
  | deliver seg =>
    rcases speaks with rfl | rfl | ⟨consults, rfl⟩
    · exact same
    · exact fill
    · exact deliver seg rfl consults

theorem step_speaks (e : Endpoint) (act : Act) :
    ∃ u, Speaks e.conn act u ∧ Frame u (e.step act).conn.sender := by
  cases act with
  | connect => exact ⟨_, rfl, sendSegsFromSender_frame { e.conn with sender := e.conn.sender.fillWindow }⟩
  | write data =>
    simp only [step, TCPConnection.write]
    split
    · exact ⟨_, Or.inl rfl, .refl _⟩
    · exact ⟨_, Or.inr rfl, sendSegsFromSender_frame
        { e.conn with sender := (e.conn.sender.write data).2.fillWindow }⟩
  | endInputStream =>
    exact ⟨_, rfl, sendSegsFromSender_frame { e.conn with sender := e.conn.sender.endInput.fillWindow }⟩
  | tick ms =>
    rcases e.conn.tick_frame ms with frame | frame
    · exact ⟨_, Or.inl rfl, frame⟩
    · exact ⟨_, Or.inr rfl, frame⟩
  | read len => exact ⟨_, rfl, .refl _⟩
  | deliver seg =>
    rcases e.conn.segmentReceived_frame seg with frame | frame | ⟨consults, frame⟩
    · exact ⟨_, Or.inl rfl, frame⟩
    · exact ⟨_, Or.inr (Or.inl rfl), frame⟩
    · exact ⟨_, Or.inr (Or.inr ⟨consults, rfl⟩), frame⟩

/-- The acknowledged base moves only to an acceptable number of a segment. -/
theorem step_rcvBase (e : Endpoint) (act : Act) :
    (e.step act).conn.sender.rcvBase = e.conn.sender.rcvBase ∨
      ∃ seg, act = .deliver seg ∧ e.conn.Consults seg ∧ e.conn.sender.Accepts seg.header.ackno ∧
        (e.step act).conn.sender.rcvBase =
          FixedWidth.trunc 32 (unwrap seg.header.ackno e.conn.sender.isn e.conn.sender.rcvBase) := by
  obtain ⟨u, speaks, frame⟩ := e.step_speaks act
  rw [frame.rcvBase]
  refine speaks.rule (P := fun u => u.rcvBase = e.conn.sender.rcvBase ∨ ∃ seg, act = .deliver seg ∧
    e.conn.Consults seg ∧ e.conn.sender.Accepts seg.header.ackno ∧
    u.rcvBase = FixedWidth.trunc 32 (unwrap seg.header.ackno e.conn.sender.isn e.conn.sender.rcvBase))
    (Or.inl rfl) (Or.inl (fillWindow_rcvBase _)) ?_ ?_ ?_ ?_
  · exact fun data _ => Or.inl (fillWindow_rcvBase _)
  · exact fun _ => Or.inl (fillWindow_rcvBase _)
  · intro ms
    obtain ⟨_, _, _, _, _, eq⟩ := e.conn.sender.tick_eq ms
    exact Or.inl (by rw [eq])
  · intro seg delivered consults
    rcases ackReceived_rcvBase e.conn.sender seg.header.ackno seg.header.win with eq | ⟨accepts, eq⟩
    · exact Or.inl eq
    · exact Or.inr ⟨seg, delivered, consults, accepts, eq⟩

end Endpoint
end Sponge
