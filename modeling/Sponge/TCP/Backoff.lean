import Sponge.TCP.Emission
import Sponge.TCP.Progress

/-! The retransmission timeout is the configured one, doubled once for every
consecutive retransmission. The sender doubles and counts in its tick, under a
nonzero window only, and starts over when an acknowledgement retires a segment.
What keeps the doubling inside 32 bits is in the connection, which gives up at
the first retransmission past the limit. -/
namespace Sponge
open TCPConnection TCPSender

namespace TCPSender

variable {s u v : TCPSender} {accepted : List UInt8} {sent : List TCPSegment} {timeout : Nat}

/-- From `s` to `u` the timeout is left alone or started over. -/
structure Rewinds (s u : TCPSender) : Prop where
  initial : u.initialRetransmissionTimeout = s.initialRetransmissionTimeout
  timer : (u.rto = s.rto ∧ u.consecutiveRetransmission = s.consecutiveRetransmission) ∨
    (u.rto = u.initialRetransmissionTimeout ∧ u.consecutiveRetransmission = 0)

theorem Rewinds.refl (s : TCPSender) : Rewinds s s := ⟨rfl, Or.inl ⟨rfl, rfl⟩⟩

theorem Rewinds.trans (first : Rewinds s u) (second : Rewinds u v) : Rewinds s v := by
  refine ⟨second.initial.trans first.initial, ?_⟩
  rcases second.timer with ⟨rto, count⟩ | reset
  · rcases first.timer with ⟨before, counted⟩ | ⟨before, counted⟩
    · exact Or.inl ⟨rto.trans before, count.trans counted⟩
    · exact Or.inr ⟨by rw [rto, before, second.initial], count.trans counted⟩
  · exact Or.inr reset

theorem Rewinds.frame (frame : Frame s u) : Rewinds s u := by
  obtain ⟨_, _, rfl⟩ := frame
  exact ⟨rfl, Or.inl ⟨rfl, rfl⟩⟩

theorem fillWindow_rto (s : TCPSender) : s.fillWindow.rto = s.rto ∧
    s.fillWindow.initialRetransmissionTimeout = s.initialRetransmissionTimeout := by
  rcases s.fillWindow_cases with ⟨_, eq⟩ | ⟨_, _, eq⟩ | ⟨_, eq⟩ <;> rw [eq]
  · exact ⟨rfl, rfl⟩
  · exact ⟨rfl, rfl⟩
  · apply fillOpen_rule (P := fun u => u.rto = s.rto ∧
      u.initialRetransmissionTimeout = s.initialRetransmissionTimeout)
    · exact fun _ => ⟨rfl, rfl⟩
    · exact fun _ _ => ⟨rfl, rfl⟩
    · intro u kept _
      rw [sendData_eq]
      exact kept

theorem fillWindow_rewinds (s : TCPSender) : Rewinds s s.fillWindow := by
  obtain ⟨rto, initial⟩ := s.fillWindow_rto
  obtain ⟨_, pushes⟩ := s.fillWindow_pushes
  exact ⟨initial, Or.inl ⟨rto, pushes.retransmissions⟩⟩

/-- The flag of the pop loop says whether a segment was popped. -/
theorem popAcked_flag (isn : WrappingInt32) (base a : Nat) (queue : List TCPSegment) (inFlight : Nat)
    (newData : Bool) : (popAcked isn base a queue inFlight newData).2.2 = true ↔
      newData = true ∨ (popAcked isn base a queue inFlight newData).1 ≠ queue := by
  induction queue generalizing inFlight newData with
  | nil => simp [popAcked]
  | cons front rest ih =>
    unfold popAcked
    split
    · have shorter := (popAcked_suffix isn base a rest (inFlight - front.lengthInSequenceSpace) true).length_le
      have popped : (popAcked isn base a rest (inFlight - front.lengthInSequenceSpace) true).1 ≠ front :: rest := by
        intro whole
        rw [whole, List.length_cons] at shorter
        omega
      exact iff_of_true ((ih _ true).mpr (Or.inl rfl)) (Or.inr popped)
    · simp

/-- The timers of an acknowledgement follow the flag of the pop loop. -/
theorem acknowledge_timer (s : TCPSender) (a : Nat) :
    (s.acknowledge a).initialRetransmissionTimeout = s.initialRetransmissionTimeout ∧
    (s.acknowledge a).rto = (if (s.popped a).2.2 then s.initialRetransmissionTimeout else s.rto) ∧
    (s.acknowledge a).consecutiveRetransmission =
      if (s.popped a).2.2 then 0 else s.consecutiveRetransmission := by
  unfold acknowledge popped
  dsimp only
  generalize popAcked s.isn (FixedWidth.trunc 32 a) a s.outstandingSegments s.bytesInFlight false = result
  obtain ⟨queue, flight, newData⟩ := result
  cases newData <;> cases queue <;> simp

theorem acknowledge_rewinds (s : TCPSender) (a : Nat) : Rewinds s (s.acknowledge a) := by
  obtain ⟨initial, rto, count⟩ := s.acknowledge_timer a
  refine ⟨initial, ?_⟩
  rw [initial, rto, count]
  cases (s.popped a).2.2
  · exact Or.inl ⟨rfl, rfl⟩
  · exact Or.inr ⟨rfl, rfl⟩

theorem ackReceived_rewinds (s : TCPSender) (ackno : WrappingInt32) (window : UInt16) :
    Rewinds s (s.ackReceived ackno window) := by
  have windowed : Rewinds s (s.setWindow window) := ⟨rfl, Or.inl ⟨rfl, rfl⟩⟩
  rcases s.ackReceived_cases ackno window with ⟨_, eq⟩ | ⟨_, eq⟩ | accepts
  · rw [eq]
    exact .refl s
  · rw [eq]
    exact windowed
  · rw [ackReceived_of_accepts accepts]
    exact windowed.trans ((acknowledge_rewinds _ _).trans (fillWindow_rewinds _))

/-- A segment is retired exactly when the first outstanding number moves. -/
theorem Encodes.acknowledge_moves_iff (inv : Encodes s accepted sent) (a : Nat) :
    (s.acknowledge a).unackedFrom ≠ s.unackedFrom ↔ (s.popped a).1 ≠ s.outstandingSegments := by
  obtain ⟨gone, split, flight, _⟩ := inv.popped_spec a
  obtain ⟨laid, _⟩ := inv.queue_laid
  rw [inv.acknowledge_unackedFrom a split flight]
  cases gone with
  | nil => simp [split]
  | cons front rest =>
    rw [split] at laid ⊢
    have positive : 0 < front.lengthInSequenceSpace := laid.2.1
    rw [seqLen_cons]
    refine iff_of_true (by omega) (fun whole => ?_)
    have shorter := congrArg List.length whole
    rw [List.length_append, List.length_cons] at shorter
    omega

theorem Encodes.acknowledge_retires (inv : Encodes s accepted sent) (a : Nat)
    (moved : (s.acknowledge a).unackedFrom ≠ s.unackedFrom) :
    (s.acknowledge a).consecutiveRetransmission = 0 := by
  obtain ⟨_, _, count⟩ := s.acknowledge_timer a
  have popped := (inv.acknowledge_moves_iff a).mp moved
  have flag : (s.popped a).2.2 = true := (popAcked_flag _ _ _ _ _ _).mpr (Or.inr popped)
  rw [count, if_pos flag]

theorem fillWindow_unackedFrom (s : TCPSender) : s.fillWindow.unackedFrom = s.unackedFrom := by
  obtain ⟨_, pushes⟩ := s.fillWindow_pushes
  rw [unackedFrom, unackedFrom, pushes.next, pushes.flight]
  omega

theorem Encodes.ackReceived_retires (inv : Encodes s accepted sent) (ackno : WrappingInt32) (window : UInt16)
    (moved : (s.ackReceived ackno window).unackedFrom ≠ s.unackedFrom) :
    (s.ackReceived ackno window).consecutiveRetransmission = 0 := by
  rcases s.ackReceived_cases ackno window with ⟨_, eq⟩ | ⟨_, eq⟩ | accepts
  · rw [eq] at moved
    exact absurd rfl moved
  · rw [eq] at moved
    exact absurd rfl moved
  · rw [ackReceived_of_accepts accepts] at moved ⊢
    obtain ⟨_, pushes⟩ := fillWindow_pushes ((s.setWindow window).acknowledge (unwrap ackno s.isn s.rcvBase))
    rw [fillWindow_unackedFrom] at moved
    rw [pushes.retransmissions]
    exact (inv.setWindow window).acknowledge_retires _ moved

/-- The timeout as a product of integers: no doubling has wrapped. -/
structure BacksOff (timeout : Nat) (s : TCPSender) : Prop where
  initial : s.initialRetransmissionTimeout = timeout
  product : s.rto = timeout * 2 ^ s.consecutiveRetransmission

theorem BacksOff.rewinds (backs : BacksOff timeout s) (rewinds : Rewinds s u) :
    BacksOff timeout u ∧ u.consecutiveRetransmission ≤ s.consecutiveRetransmission := by
  have initial := rewinds.initial.trans backs.initial
  rcases rewinds.timer with ⟨rto, count⟩ | ⟨rto, count⟩
  · exact ⟨⟨initial, by rw [rto, count, backs.product]⟩, count.le⟩
  · exact ⟨⟨initial, by rw [rto, count, initial, Nat.pow_zero, Nat.mul_one]⟩, by omega⟩

/-- One more doubling fits while the retransmissions are within the limit. -/
theorem doubling_fits {count : Nat} (short : timeout < 2 ^ 16) (few : count ≤ TCPConfig.maxRetxAttempts) :
    timeout * 2 ^ count * 2 < 2 ^ 32 := by
  have limit : TCPConfig.maxRetxAttempts = 8 := rfl
  have power : 2 ^ count ≤ 2 ^ 8 := Nat.pow_le_pow_right (by decide) (by omega)
  have product : timeout * 2 ^ count ≤ 2 ^ 16 * 2 ^ 8 := Nat.mul_le_mul short.le power
  omega

theorem BacksOff.tick (backs : BacksOff timeout s) (short : timeout < 2 ^ 16)
    (few : s.consecutiveRetransmission ≤ TCPConfig.maxRetxAttempts) (ms : Nat) :
    BacksOff timeout (s.tick ms) ∧
      (s.tick ms).consecutiveRetransmission ≤ s.consecutiveRetransmission + 1 := by
  have fits := doubling_fits short few
  have limit : TCPConfig.maxRetxAttempts = 8 := rfl
  have counted : FixedWidth.add 32 s.consecutiveRetransmission 1 = s.consecutiveRetransmission + 1 :=
    FixedWidth.add_of_lt (by omega)
  have doubled : FixedWidth.trunc 32 (s.rto * 2) = timeout * 2 ^ (s.consecutiveRetransmission + 1) := by
    rw [backs.product, FixedWidth.trunc, Nat.mod_eq_of_lt fits, Nat.mul_assoc, ← Nat.pow_succ]
  unfold TCPSender.tick
  dsimp only
  split
  · split
    · rw [counted, doubled]
      cases s.backOff
      · exact ⟨⟨backs.initial, backs.product⟩, Nat.le_succ _⟩
      · exact ⟨⟨backs.initial, rfl⟩, Nat.le_refl _⟩
    · exact ⟨⟨backs.initial, backs.product⟩, Nat.le_succ _⟩
  · exact ⟨backs, Nat.le_succ _⟩

end TCPSender

namespace TCPConnection

variable {c d : TCPConnection} {timeout : Nat}

/-- The timeout is exact, and no retransmission has gone past the limit but the
one at which the connection gave up. -/
structure Patient (timeout : Nat) (c : TCPConnection) : Prop where
  backs : BacksOff timeout c.sender
  bounded : c.sender.consecutiveRetransmission ≤ TCPConfig.maxRetxAttempts + 1
  tolerant : c.active = true → c.sender.consecutiveRetransmission ≤ TCPConfig.maxRetxAttempts

theorem new_patient (cfg : TCPConfig) (random : WrappingInt32) :
    Patient cfg.rtTimeout.toNat (new cfg random) := by
  refine ⟨⟨rfl, ?_⟩, Nat.zero_le _, fun _ => Nat.zero_le _⟩
  simp [new, TCPSender.new]

theorem Patient.rewinds (patient : Patient timeout c) (rewinds : Rewinds c.sender d.sender)
    (active : d.active = true → c.active = true) : Patient timeout d := by
  obtain ⟨backs, fewer⟩ := patient.backs.rewinds rewinds
  exact ⟨backs, fewer.trans patient.bounded, fun alive => fewer.trans (patient.tolerant (active alive))⟩

theorem sendSegsFromSender_stopped (stopped : c.active = false) : c.sendSegsFromSender.active = false := by
  rcases c.sendSegsFromSender_outcome.how with ⟨same, _⟩ | ⟨gone, _⟩ | ⟨gone, _⟩
  · exact same.trans stopped
  · exact gone
  · exact gone

/-- One retransmission past the limit, and the connection is reset in the same tick. -/
theorem Patient.tick (patient : Patient timeout c) (short : timeout < 2 ^ 16) (ms : Nat) :
    Patient timeout (c.tick ms) := by
  unfold TCPConnection.tick
  split
  · exact patient
  rename_i alive
  have few := patient.tolerant (by simpa using alive)
  obtain ⟨backs, counted⟩ := patient.backs.tick short few ms
  dsimp only
  split
  · have frame := (uncleanShutdown_frame { c with
      timeSinceLastSegmentReceived := FixedWidth.add 64 c.timeSinceLastSegmentReceived ms
      sender := c.sender.tick ms }).trans (sendSegsFromSender_frame _)
    obtain ⟨final, fewer⟩ := backs.rewinds (.frame frame)
    obtain ⟨stopped, _⟩ := uncleanShutdown_reset { c with
      timeSinceLastSegmentReceived := FixedWidth.add 64 c.timeSinceLastSegmentReceived ms
      sender := c.sender.tick ms }
    refine ⟨final, by omega, fun active => ?_⟩
    rw [sendSegsFromSender_stopped stopped] at active
    contradiction
  · rename_i within
    have frame := sendSegsFromSender_frame { c with
      timeSinceLastSegmentReceived := FixedWidth.add 64 c.timeSinceLastSegmentReceived ms
      sender := c.sender.tick ms }
    obtain ⟨final, fewer⟩ := backs.rewinds (.frame frame)
    exact ⟨final, by omega, fun _ => fewer.trans (not_lt.mp within)⟩

end TCPConnection

namespace Endpoint

variable {e : Endpoint} {cfg : TCPConfig} {random : WrappingInt32} {timeout : Nat}

/-- Only time makes the timeout grow. -/
theorem Speaks.rewinds {c : TCPConnection} {act : Act} {u : TCPSender} (speaks : Speaks c act u)
    (timeless : ∀ ms, act ≠ .tick ms) : Rewinds c.sender u := by
  cases act with
  | tick ms => exact absurd rfl (timeless ms)
  | connect => exact speaks ▸ fillWindow_rewinds _
  | write data =>
    rcases speaks with rfl | rfl
    · exact .refl _
    · have wrote : Rewinds c.sender (c.sender.write data).2 := ⟨rfl, Or.inl ⟨rfl, rfl⟩⟩
      exact wrote.trans (fillWindow_rewinds _)
  | endInputStream =>
    have ended : Rewinds c.sender c.sender.endInput := ⟨rfl, Or.inl ⟨rfl, rfl⟩⟩
    exact speaks ▸ ended.trans (fillWindow_rewinds _)
  | read len => exact speaks ▸ .refl _
  | deliver seg =>
    rcases speaks with rfl | rfl | ⟨_, rfl⟩
    · exact .refl _
    · exact fillWindow_rewinds _
    · exact ackReceived_rewinds _ _ _

theorem step_patient (patient : Patient timeout e.conn) (short : timeout < 2 ^ 16) (act : Act) :
    Patient timeout (e.step act).conn := by
  by_cases timed : ∃ ms, act = .tick ms
  · obtain ⟨ms, rfl⟩ := timed
    exact patient.tick short ms
  · obtain ⟨u, speaks, frame⟩ := e.step_speaks act
    have rewinds := speaks.rewinds (fun ms eq => timed ⟨ms, eq⟩)
    exact patient.rewinds (rewinds.trans (.frame frame)) active_of_step

theorem Runs.patient (run : Runs cfg random e) : Patient cfg.rtTimeout.toNat e.conn :=
  run.invariant (P := fun e => Patient cfg.rtTimeout.toNat e.conn) (new_patient cfg random)
    (fun _ act patient _ => step_patient patient cfg.rtTimeout.toNat_lt act)

/-- What the peer has acknowledged moves only with an acknowledgement that
starts the count over. -/
theorem step_retires (outbound : Outbound e.accepted e.conn) (act : Act)
    (moved : (e.step act).conn.sender.unackedFrom ≠ e.conn.sender.unackedFrom) :
    (e.step act).conn.sender.consecutiveRetransmission = 0 := by
  obtain ⟨_, settled⟩ := outbound.settled
  obtain ⟨u, speaks, out, error, eq⟩ := e.step_speaks act
  rw [eq] at moved ⊢
  refine speaks.rule (P := fun u => u.unackedFrom ≠ e.conn.sender.unackedFrom →
    u.consecutiveRetransmission = 0) ?_ ?_ ?_ ?_ ?_ ?_ moved
  · exact fun moved => absurd rfl moved
  · exact fun moved => absurd (fillWindow_unackedFrom _) moved
  · exact fun data _ moved => absurd (fillWindow_unackedFrom (e.conn.sender.write data).2) moved
  · exact fun _ moved => absurd (fillWindow_unackedFrom e.conn.sender.endInput) moved
  · intro ms moved
    obtain ⟨_, _, _, _, _, eq⟩ := e.conn.sender.tick_eq ms
    rw [eq] at moved
    exact absurd rfl moved
  · exact fun seg _ _ moved => settled.toEncodes.ackReceived_retires _ _ moved

/-- Exponential backoff, in every state of every run: the timeout is exact, the
limit is passed only by a connection that has stopped, and the count starts over
with every acknowledgement that retires a segment. -/
theorem run_backoff (cfg : TCPConfig) (random : WrappingInt32) (e : Endpoint) (run : Runs cfg random e) :
    (e.conn.sender.rto = cfg.rtTimeout.toNat * 2 ^ e.conn.sender.consecutiveRetransmission ∧
      cfg.rtTimeout.toNat * 2 ^ e.conn.sender.consecutiveRetransmission < 2 ^ 32) ∧
    e.conn.sender.consecutiveRetransmission ≤ TCPConfig.maxRetxAttempts + 1 ∧
    (e.conn.sender.consecutiveRetransmission = TCPConfig.maxRetxAttempts + 1 → e.conn.active = false) ∧
    ∀ act, (e.step act).conn.sender.unackedFrom ≠ e.conn.sender.unackedFrom →
      (e.step act).conn.sender.consecutiveRetransmission = 0 := by
  have patient := run.patient
  have limit : TCPConfig.maxRetxAttempts = 8 := rfl
  have bounded := patient.bounded
  refine ⟨⟨patient.backs.product, ?_⟩, bounded, ?_, step_retires run.outbound⟩
  · have power : 2 ^ e.conn.sender.consecutiveRetransmission ≤ 2 ^ 9 :=
      Nat.pow_le_pow_right (by decide) (by omega)
    have product := Nat.mul_le_mul cfg.rtTimeout.toNat_lt.le power
    omega
  · intro passed
    by_contra alive
    have few := patient.tolerant (by simpa using alive)
    omega

/-- Two unanswered retransmissions of the SYN, then the handshake. -/
def backedOff : List Act := [.connect, .tick 1000, .tick 2000]

theorem run_backoff_handshake :
    let waiting := backedOff.foldl step (new Network.smallConfig ⟨0⟩)
    let opened := waiting.step (.deliver Network.synAckSegment)
    (waiting.conn.sender.consecutiveRetransmission = 2 ∧ waiting.conn.sender.unackedFrom = 0 ∧
      opened.conn.sender.unackedFrom = 1) ∧
    (waiting.conn.sender.rto = 1000 * 2 ^ 2 ∧ opened.conn.sender.consecutiveRetransmission = 0) := by
  have run : Runs Network.smallConfig ⟨0⟩ (backedOff.foldl step (new Network.smallConfig ⟨0⟩)) :=
    Run.Permits.reaches (show Run.Permits step (fun _ _ => True) _ backedOff by decide +kernel)
  obtain ⟨⟨product, _⟩, _, _, retires⟩ := run_backoff Network.smallConfig ⟨0⟩ _ run
  have counts : (backedOff.foldl step (new Network.smallConfig ⟨0⟩)).conn.sender.consecutiveRetransmission = 2 := by
    decide +kernel
  rw [counts] at product
  exact ⟨by decide +kernel, product, retires (.deliver Network.synAckSegment) (by decide +kernel)⟩

end Endpoint
end Sponge
