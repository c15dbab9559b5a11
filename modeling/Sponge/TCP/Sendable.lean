import Sponge.TCP.Endpoints

/-! Every segment a connection sends has a header without options and a payload of
at most `MAX_PAYLOAD_SIZE` bytes, whatever the peer sends; such a segment fits
any of the datagrams the adapters make of it. -/
namespace Sponge
open TCPSender TCPConnection

structure TCPSegment.Sendable (seg : TCPSegment) : Prop where
  doff : seg.header.doff = 5
  small : seg.payload.length ≤ TCPConfig.maxPayloadSize

namespace TCPSender

/-- Both queues hold segments of this kind only. -/
structure Sendable (s : TCPSender) : Prop where
  out : ∀ seg ∈ s.segmentsOut, seg.Sendable
  outstanding : ∀ seg ∈ s.outstandingSegments, seg.Sendable

variable {s : TCPSender}

theorem new_sendable (capacity : Nat) (timeout : UInt16) (isn : WrappingInt32) :
    Sendable (new capacity timeout isn) := ⟨by simp [new], by simp [new]⟩

/-- Nothing but the two queues matters. -/
theorem Sendable.frame {u : TCPSender} (sendable : Sendable s) (out : u.segmentsOut = s.segmentsOut)
    (outstanding : u.outstandingSegments = s.outstandingSegments) : Sendable u :=
  ⟨by rw [out]; exact sendable.out, by rw [outstanding]; exact sendable.outstanding⟩

theorem Sendable.segmentHandler (sendable : Sendable s) {seg : TCPSegment} (new : seg.Sendable) :
    Sendable (s.segmentHandler seg) := by
  have pushed : (seg.withSeqno (wrap s.nextSeqno s.isn)).Sendable := ⟨new.doff, new.small⟩
  refine ⟨fun other member => ?_, fun other member => ?_⟩
  · rcases List.mem_append.mp member with old | last
    · exact sendable.out other old
    · rw [List.mem_singleton.mp last]
      exact pushed
  · rcases List.mem_append.mp member with old | last
    · exact sendable.outstanding other old
    · rw [List.mem_singleton.mp last]
      exact pushed

theorem Sendable.sendData (sendable : Sendable s) (edge : Nat) : Sendable (s.sendData edge) := by
  rw [sendData_eq]
  refine Sendable.segmentHandler ?_ ?_
  · exact sendable.frame rfl rfl
  · exact ⟨rfl, s.nextPayload_small edge⟩

theorem Sendable.fillWindow (sendable : Sendable s) : Sendable s.fillWindow := by
  rcases s.fillWindow_cases with ⟨_, eq⟩ | ⟨_, _, eq⟩ | ⟨_, eq⟩ <;> rw [eq]
  · refine Sendable.segmentHandler ?_ ?_
    · exact sendable.frame rfl rfl
    · exact ⟨rfl, Nat.zero_le _⟩
  · exact sendable
  · have normal : Sendable s.normalizeWindow := sendable.frame rfl rfl
    refine fillOpen_rule s (fun _ => normal) (fun _ _ => ?_) (fun u kept _ => kept.sendData _)
    refine Sendable.segmentHandler ?_ ?_
    · exact normal.frame rfl rfl
    · exact ⟨rfl, Nat.zero_le _⟩

theorem Sendable.ackReceived (sendable : Sendable s) (ackno : WrappingInt32) (window : UInt16) :
    Sendable (s.ackReceived ackno window) := by
  unfold TCPSender.ackReceived
  dsimp only
  split
  · exact sendable
  split
  · exact sendable.frame rfl rfl
  · refine Sendable.fillWindow ?_
    obtain ⟨_, _, _, eq⟩ := (s.setWindow window).acknowledge_eq (unwrap ackno s.isn s.rcvBase)
    rw [eq]
    exact ⟨sendable.out, fun seg member => sendable.outstanding seg ((popAcked_suffix _ _ _ _ _ _).subset member)⟩

theorem Sendable.tick (sendable : Sendable s) (ms : Nat) : Sendable (s.tick ms) := by
  obtain ⟨again, _, _, _, front, eq⟩ := s.tick_eq ms
  rw [eq]
  refine ⟨fun seg member => ?_, sendable.outstanding⟩
  rcases List.mem_append.mp member with old | repeated
  · exact sendable.out seg old
  · exact sendable.outstanding seg (front.subset repeated)

theorem Sendable.sendEmptySegment (sendable : Sendable s) : Sendable s.sendEmptySegment := by
  refine ⟨fun seg member => ?_, sendable.outstanding⟩
  rcases List.mem_append.mp member with old | empty
  · exact sendable.out seg old
  · rw [List.mem_singleton.mp empty]
    exact ⟨rfl, Nat.zero_le _⟩

end TCPSender

namespace TCPConnection

structure Sendable (c : TCPConnection) : Prop where
  sender : c.sender.Sendable
  out : ∀ seg ∈ c.segmentsOut, seg.Sendable

variable {c : TCPConnection}

theorem setSeg_sendable (c : TCPConnection) {seg : TCPSegment} (sendable : seg.Sendable) :
    (c.setSeg seg).Sendable := by
  unfold setSeg
  split
  · exact sendable
  · exact ⟨sendable.doff, sendable.small⟩

theorem Sendable.move (sendable : Sendable c) {u : TCPSender} (moved : u.Sendable) :
    Sendable { c with sender := u } := ⟨moved, sendable.out⟩

theorem Sendable.sendSegsFromSender (sendable : Sendable c) : Sendable c.sendSegsFromSender := by
  obtain ⟨linger, active, eq⟩ := c.flush.cleanShutdown_eq
  rw [TCPConnection.sendSegsFromSender, eq]
  refine ⟨⟨by simp [flush], sendable.sender.outstanding⟩, fun seg member => ?_⟩
  rcases List.mem_append.mp member with old | new
  · exact sendable.out seg old
  · obtain ⟨raw, queued, rfl⟩ := List.mem_map.mp new
    exact c.setSeg_sendable (sendable.sender.out raw queued)

theorem Sendable.kill (sendable : Sendable c) : Sendable c.kill :=
  ⟨sendable.sender.frame rfl rfl, sendable.out⟩

theorem Sendable.uncleanShutdown (sendable : Sendable c) : Sendable c.uncleanShutdown := by
  have killed := sendable.kill
  unfold TCPConnection.uncleanShutdown
  dsimp only
  split
  · exact killed
  · rename_i seg rest queue
    have member : ∀ other ∈ seg :: rest, other.Sendable := by
      rw [← queue]
      exact killed.sender.out
    refine ⟨⟨fun other inside => member other (List.mem_cons_of_mem _ inside), killed.sender.outstanding⟩,
      fun other inside => ?_⟩
    rcases List.mem_append.mp inside with old | reset
    · exact killed.out other old
    · have filled := c.kill.setSeg_sendable (member seg List.mem_cons_self)
      rw [List.mem_singleton.mp reset]
      exact ⟨filled.doff, filled.small⟩

theorem Sendable.write (sendable : Sendable c) (data : List UInt8) : Sendable (c.write data).2 := by
  unfold TCPConnection.write
  split
  · exact sendable
  · have wrote : (c.sender.write data).2.Sendable := sendable.sender.frame rfl rfl
    exact (sendable.move wrote.fillWindow).sendSegsFromSender

theorem Sendable.tick (sendable : Sendable c) (ms : Nat) : Sendable (c.tick ms) := by
  unfold TCPConnection.tick
  split
  · exact sendable
  have ticked : Sendable { c with
      timeSinceLastSegmentReceived := FixedWidth.add 64 c.timeSinceLastSegmentReceived ms
      sender := c.sender.tick ms } := ⟨sendable.sender.tick ms, sendable.out⟩
  dsimp only
  split
  · exact ticked.uncleanShutdown.sendSegsFromSender
  · exact ticked.sendSegsFromSender

theorem Sendable.established (sendable : Sendable c) (seg : TCPSegment) : Sendable (c.established seg) := by
  have delivered : Sendable (c.deliver seg) := ⟨sendable.sender.ackReceived _ _, sendable.out⟩
  unfold TCPConnection.established
  dsimp only
  split
  · exact (delivered.move delivered.sender.sendEmptySegment).uncleanShutdown
  · refine Sendable.sendSegsFromSender ?_
    unfold answer
    split
    · exact delivered.move delivered.sender.sendEmptySegment
    · exact delivered

theorem Sendable.segmentReceived (sendable : Sendable c) (seg : TCPSegment) :
    Sendable (c.segmentReceived seg) := by
  unfold TCPConnection.segmentReceived
  split
  · exact sendable
  have timed : Sendable { c with timeSinceLastSegmentReceived := 0 } := ⟨sendable.sender, sendable.out⟩
  generalize { c with timeSinceLastSegmentReceived := 0 } = d at timed
  unfold dispatch
  split
  · split
    · exact timed
    · exact Sendable.sendSegsFromSender ⟨Sendable.fillWindow timed.sender, timed.out⟩
  split
  · split
    · split
      · exact ⟨timed.sender.sendEmptySegment, timed.out⟩
      · exact timed
    split
    · exact timed.kill
    · exact timed.established seg
  · exact timed.established seg

end TCPConnection

namespace Endpoint

theorem new_sendable (cfg : TCPConfig) (random : WrappingInt32) : (new cfg random).conn.Sendable :=
  ⟨TCPSender.new_sendable _ _ _, by simp [new, TCPConnection.new]⟩

theorem step_sendable {e : Endpoint} (sendable : e.conn.Sendable) (act : Act) :
    (e.step act).conn.Sendable := by
  cases act with
  | connect => exact (sendable.move sendable.sender.fillWindow).sendSegsFromSender
  | write data => exact sendable.write data
  | endInputStream =>
    have ended : e.conn.sender.endInput.Sendable := sendable.sender.frame rfl rfl
    exact (sendable.move ended.fillWindow).sendSegsFromSender
  | tick ms => exact sendable.tick ms
  | read len => exact ⟨sendable.sender, sendable.out⟩
  | deliver seg => exact sendable.segmentReceived seg

end Endpoint
end Sponge
