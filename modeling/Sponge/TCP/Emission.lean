import Sponge.TCP.Endpoints

/-! What one call puts on the outbound queue of a connection. Every segment that
is appended has passed through `setSeg`, so it says what the receiver has to say
when the call ends. The window is the one thing that `setSeg` can misstate: it
stores a `size_t` in the sixteen bits of the header. -/
namespace Sponge
open TCPConnection TCPReceiver TCPSender

/-- The header fields that belong to the receiver are those of `r`. -/
def TCPReceiver.Stamps (r : TCPReceiver) (seg : TCPSegment) : Prop :=
  match r.ackno with
  | none => seg.header.ack = false
  | some ackno => seg.header.ack = true ∧ seg.header.ackno = ackno ∧
      seg.header.win = UInt16.ofNat r.windowSize

namespace TCPConnection

variable {c d e : TCPConnection} {accepted : List UInt8} {out first second : List TCPSegment}

theorem setSeg_stamps (c : TCPConnection) {seg : TCPSegment} (plain : seg.header.ack = false) :
    c.receiver.Stamps (c.setSeg seg) := by
  unfold Stamps setSeg
  cases c.receiver.ackno with
  | none => exact plain
  | some ackno => exact ⟨rfl, rfl, rfl⟩

/-- A call that begins with the queue `out` and ends in `d` appends `new`. -/
structure Sends (out : List TCPSegment) (d : TCPConnection) (new : List TCPSegment) : Prop where
  out : d.segmentsOut = out ++ new
  stamped : ∀ seg ∈ new, d.receiver.Stamps seg

theorem Sends.none (d : TCPConnection) : Sends d.segmentsOut d [] := ⟨by rw [List.append_nil], by simp⟩

theorem Sends.trans (earlier : Sends out d first) (later : Sends d.segmentsOut e second)
    (receiver : e.receiver = d.receiver) : Sends out e (first ++ second) := by
  refine ⟨by rw [later.out, earlier.out, List.append_assoc], ?_⟩
  intro seg member
  rcases List.mem_append.mp member with member | member
  · rw [receiver]
    exact earlier.stamped seg member
  · exact later.stamped seg member

theorem sendSegsFromSender_out (c : TCPConnection) :
    c.sendSegsFromSender.segmentsOut = c.segmentsOut ++ c.sender.segmentsOut.map c.setSeg := by
  obtain ⟨_, _, eq⟩ := c.flush.cleanShutdown_eq
  rw [sendSegsFromSender, eq]
  rfl

theorem sendSegsFromSender_receiver (c : TCPConnection) : c.sendSegsFromSender.receiver = c.receiver := by
  obtain ⟨_, _, eq⟩ := c.flush.cleanShutdown_eq
  rw [sendSegsFromSender, eq]
  rfl

theorem sendSegsFromSender_sender (c : TCPConnection) :
    c.sendSegsFromSender.sender = { c.sender with segmentsOut := [] } := by
  obtain ⟨_, _, eq⟩ := c.flush.cleanShutdown_eq
  rw [sendSegsFromSender, eq]
  rfl

theorem Outbound.sendSegsFromSender_sends (outbound : Outbound accepted c) :
    Sends c.segmentsOut c.sendSegsFromSender (c.sender.segmentsOut.map c.setSeg) := by
  refine ⟨c.sendSegsFromSender_out, ?_⟩
  intro seg member
  obtain ⟨raw, queued, rfl⟩ := List.mem_map.mp member
  rw [sendSegsFromSender_receiver]
  exact c.setSeg_stamps (outbound.queued raw queued).2

/-- The front of the sender's queue goes out under the RST flag. -/
theorem Outbound.uncleanShutdown_sends (outbound : Outbound accepted c) :
    ∃ new, Sends c.segmentsOut c.uncleanShutdown new ∧ new.length = min 1 c.sender.segmentsOut.length := by
  unfold TCPConnection.uncleanShutdown
  dsimp only
  split
  · rename_i queue
    refine ⟨[], .none c.kill, ?_⟩
    rw [show c.sender.segmentsOut = [] from queue]
    rfl
  · rename_i seg rest queue
    have front : c.sender.segmentsOut = seg :: rest := queue
    refine ⟨[_], ⟨rfl, ?_⟩, by rw [front, List.length_cons, List.length_cons]; simp⟩
    intro other member
    rw [List.mem_singleton.mp member]
    have plain := (outbound.queued seg (by rw [front]; exact List.mem_cons_self)).2
    exact c.kill.setSeg_stamps plain

theorem Outbound.connect_sends (outbound : Outbound accepted c) :
    Sends c.segmentsOut c.connect (c.sender.fillWindow.segmentsOut.map c.setSeg) := by
  obtain ⟨sent, settled⟩ := outbound.settled
  exact (outbound.move settled.advance_fillWindow).outbound.sendSegsFromSender_sends

theorem Outbound.write_sends (outbound : Outbound accepted c) (data : List UInt8) :
    ∃ new, Sends c.segmentsOut (c.write data).2 new := by
  unfold TCPConnection.write
  split
  · exact ⟨[], .none c⟩
  · obtain ⟨sent, settled⟩ := outbound.settled
    have wrote := settled.advance_write data
    obtain ⟨_, settled⟩ := wrote.settled
    exact ⟨_, (outbound.move (wrote.trans settled.advance_fillWindow)).outbound.sendSegsFromSender_sends⟩

theorem Outbound.endInputStream_sends (outbound : Outbound accepted c) :
    Sends c.segmentsOut c.endInputStream (c.sender.endInput.fillWindow.segmentsOut.map c.setSeg) := by
  obtain ⟨sent, settled⟩ := outbound.settled
  exact (outbound.move settled.advance_endInput).outbound.sendSegsFromSender_sends

theorem Outbound.tick_sends (outbound : Outbound accepted c) (ms : Nat) : ∃ new, Sends c.segmentsOut (c.tick ms) new := by
  unfold TCPConnection.tick
  split
  · exact ⟨[], .none c⟩
  obtain ⟨sent, settled⟩ := outbound.settled
  have moved := outbound.move (settled.advance_tick ms)
  have timed := moved.outbound.flags c.lingerAfterStreamsFinish c.active
    (FixedWidth.add 64 c.timeSinceLastSegmentReceived ms)
  dsimp only
  split
  · obtain ⟨new, reset, _⟩ := timed.outbound.uncleanShutdown_sends
    have flushed := timed.outbound.uncleanShutdown.outbound.sendSegsFromSender_sends
    exact ⟨_, reset.trans flushed (sendSegsFromSender_receiver _)⟩
  · exact ⟨_, timed.outbound.sendSegsFromSender_sends⟩

theorem answer_queued (c : TCPConnection) (seg : TCPSegment) (known : c.receiver.ackno.isSome = true)
    (occupies : seg.lengthInSequenceSpace ≠ 0) : (c.answer seg).sender.segmentsOut ≠ [] := by
  unfold answer
  split
  · simp [sendEmptySegment]
  · rename_i quiet
    simpa [known, occupies] using quiet

/-- One RST for a RST; for any other segment that occupies sequence space at
least one answer, once the SYN of the peer is known. -/
theorem Outbound.established_sends (outbound : Outbound accepted c) (opened : c.sender.synSent = true)
    (seg : TCPSegment) : ∃ new, Sends c.segmentsOut (c.established seg) new ∧
      (seg.header.rst = true → new.length = 1) ∧
      (seg.header.rst = false → seg.lengthInSequenceSpace ≠ 0 →
        (c.receiver.segmentReceived seg).ackno.isSome = true → new ≠ []) := by
  obtain ⟨sent, settled⟩ := outbound.settled
  have advance := settled.advance_ackReceived seg.header.ackno seg.header.win
  have delivered := outbound.receive advance (advance.opened opened) (c.receiver.segmentReceived seg)
  unfold TCPConnection.established
  dsimp only
  split
  · rename_i reset
    obtain ⟨_, settled⟩ := advance.settled
    have emptied := delivered.outbound.move (settled.advance_sendEmptySegment (advance.opened opened))
    obtain ⟨new, sends, length⟩ := emptied.outbound.uncleanShutdown_sends
    refine ⟨new, sends, fun _ => ?_, by simp [reset]⟩
    simpa [sendEmptySegment] using length
  · have answered := delivered.outbound.answer (advance.opened opened) seg
    have sends := answered.outbound.sendSegsFromSender_sends
    have queue : ((c.deliver seg).answer seg).segmentsOut = c.segmentsOut := by
      unfold TCPConnection.answer
      split_ifs <;> rfl
    change Sends ((c.deliver seg).answer seg).segmentsOut _ _ at sends
    rw [queue] at sends
    refine ⟨_, sends, fun reset => absurd reset ‹_›, fun _ occupies known => ?_⟩
    rw [ne_eq, List.map_eq_nil_iff]
    exact (c.deliver seg).answer_queued seg known occupies

theorem Outbound.dispatch_sends (outbound : Outbound accepted c) (seg : TCPSegment) :
    ∃ new, Sends c.segmentsOut (c.dispatch seg) new := by
  unfold TCPConnection.dispatch
  split
  · split
    · exact ⟨[], .none c⟩
    · obtain ⟨sent, settled⟩ := outbound.settled
      have received := outbound.receive settled.advance_fillWindow (fillWindow_synSent _)
        (c.receiver.segmentReceived seg)
      exact ⟨_, received.outbound.sendSegsFromSender_sends⟩
  rename_i begun
  have opened := outbound.opened (by simpa using begun)
  obtain ⟨new, sends, _⟩ := outbound.established_sends opened seg
  split
  · split
    · split
      · exact ⟨[], ⟨by rw [List.append_nil], by simp⟩⟩
      · exact ⟨[], .none c⟩
    split
    · exact ⟨[], .none c.kill⟩
    · exact ⟨new, sends⟩
  · exact ⟨new, sends⟩

theorem Outbound.segmentReceived_sends (outbound : Outbound accepted c) (seg : TCPSegment) :
    ∃ new, Sends c.segmentsOut (c.segmentReceived seg) new := by
  unfold TCPConnection.segmentReceived
  split
  · exact ⟨[], .none c⟩
  · exact (outbound.flags c.lingerAfterStreamsFinish c.active 0).outbound.dispatch_sends seg

end TCPConnection

namespace Endpoint

variable {e : Endpoint} {cfg : TCPConfig} {random : WrappingInt32}

/-- Any calls and any incoming segments, in any order. -/
abbrev Runs (cfg : TCPConfig) (random : WrappingInt32) : Endpoint → Prop :=
  Run.Reaches step (fun _ _ => True) (new cfg random)

theorem new_runs (cfg : TCPConfig) (random : WrappingInt32) : Runs cfg random (new cfg random) := .refl _

theorem Runs.step (run : Runs cfg random e) (act : Act) : Runs cfg random (e.step act) := run.snoc act trivial

theorem Runs.outbound (run : Runs cfg random e) : Outbound e.accepted e.conn := by
  refine run.invariant (P := fun e => Outbound e.accepted e.conn) (new_outbound cfg random) ?_
  intro e act outbound _
  obtain ⟨_, _, effect⟩ := e.step_effect outbound act
  exact effect.outbound

theorem step_sends (outbound : Outbound e.accepted e.conn) (act : Act) :
    ∃ new, Sends e.conn.segmentsOut (e.step act).conn new := by
  cases act with
  | connect => exact ⟨_, outbound.connect_sends⟩
  | write data => exact outbound.write_sends data
  | endInputStream => exact ⟨_, outbound.endInputStream_sends⟩
  | tick ms => exact outbound.tick_sends ms
  | read len => exact ⟨[], .none (e.conn.readInbound len).2⟩
  | deliver seg => exact outbound.segmentReceived_sends seg

end Endpoint
end Sponge
