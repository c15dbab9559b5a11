import Sponge.TCP.Sender.Window

/-! The sender never forgets to send. Whenever the stream has ended, is fully
read and the handshake is done, the FIN is out or something is unacknowledged:
every event that could change this is followed by `fillWindow`. -/
namespace Sponge.TCPSender

structure Settled (s : TCPSender) (accepted : List UInt8) (sent : List TCPSegment) : Prop
    extends Encodes s accepted sent where
  bounded : Bounded s
  acked : s.nextSeqno < 2 ^ 31 → Acked s.rcvBase s
  driven : s.nextSeqno < 2 ^ 31 → s.stream.eof = true → s.synOutstanding = false →
    s.finSent = true ∨ s.rcvBase < s.nextSeqno
  began : s.stream.inputEnd = true → s.synSent = true

variable {s : TCPSender} {accepted : List UInt8} {sent : List TCPSegment}

/-- A stream that has ended is empty only behind its FIN or a full window: the
last segment carries the FIN unless it is as long as the window. -/
theorem Bounded.fillOpen_ended (bounded : Bounded s) (small : s.nextSeqno < 2 ^ 31)
    (ended : s.fillOpen.stream.eof = true) :
    s.fillOpen.finSent = true ∨ s.edge ≤ s.fillOpen.nextSeqno := by
  have base := bounded.base
  suffices loop : (s.rcvBase ≤ s.fillOpen.nextSeqno ∧
      s.fillOpen.receiverWindowSize = max 1 s.receiverWindowSize) ∧
      (s.fillOpen.stream.eof = true → s.fillOpen.finSent = true ∨ s.edge ≤ s.fillOpen.nextSeqno) from
    loop.2 ended
  have window := s.normalizeWindow_size
  apply fillOpen_rule (P := fun u =>
    (s.rcvBase ≤ u.nextSeqno ∧ u.receiverWindowSize = max 1 s.receiverWindowSize) ∧
      (u.stream.eof = true → u.finSent = true ∨ s.edge ≤ u.nextSeqno))
  · intro more
    rw [bounded.winRightEdge small] at more
    refine ⟨⟨base, window⟩, fun ended => Or.inr ?_⟩
    exact not_lt.mp (fun room => more ⟨ended, room⟩)
  · exact fun _ _ => ⟨⟨base.trans (Nat.le_add_right _ _), window⟩, fun _ => Or.inl rfl⟩
  · rintro u ⟨⟨reached, size⟩, _⟩ _
    have length := u.nextSegment_length s.normalizeWindow.winRightEdge
    refine ⟨⟨by rw [sendData_nextSeqno]; omega, by rw [sendData_eq]; exact size⟩, ?_⟩
    intro eof
    rw [sendData_finSent, sendData_nextSeqno, Bool.or_eq_true]
    cases fin : u.nextFin s.normalizeWindow.winRightEdge with
    | true => exact Or.inl (Or.inr rfl)
    | false =>
      right
      -- The stream is at its end, so the FIN is missing because of the length alone.
      rw [sendData_stream] at eof
      simp only [nextFin, eof, Bool.true_and, decide_eq_false_iff_not, not_lt, size] at fin
      rw [TCPSender.edge]
      omega

/-- After `fillOpen` an ended and drained stream has its FIN out or is waiting
for an acknowledgement. -/
theorem Bounded.fillOpen_driven (bounded : Bounded s) (small : s.nextSeqno < 2 ^ 31)
    (ended : s.fillOpen.stream.eof = true) :
    s.fillOpen.finSent = true ∨ s.rcvBase < s.fillOpen.nextSeqno := by
  rcases bounded.fillOpen_ended small ended with fin | full
  · exact Or.inl fin
  · rw [TCPSender.edge] at full
    exact Or.inr (by omega)

theorem Encodes.sendSyn_outstanding (inv : Encodes s accepted sent) (unsent : s.synSent = false) :
    s.sendSyn.synOutstanding = true := by
  have empty : s.outstandingSegments = [] := by
    have suffix := inv.outstanding
    rwa [inv.closed unsent, List.suffix_nil] at suffix
  simp [synOutstanding, TCPSender.sendSyn, segmentHandler, empty, TCPSegment.withSeqno]

theorem Encodes.fillWindow_driven (inv : Encodes s accepted sent) (bounded : Bounded s)
    (small : s.nextSeqno < 2 ^ 31) (ended : s.fillWindow.stream.eof = true)
    (acked : s.fillWindow.synOutstanding = false) :
    s.fillWindow.finSent = true ∨ s.rcvBase < s.fillWindow.nextSeqno := by
  rcases s.fillWindow_cases with ⟨unsent, eq⟩ | ⟨_, closed, eq⟩ | ⟨_, eq⟩
  · rw [eq, inv.sendSyn_outstanding unsent] at acked
    exact absurd acked (by decide)
  · rw [eq] at acked ⊢
    exact Or.inl (by simpa [acked] using closed)
  · rw [eq] at ended ⊢
    exact bounded.fillOpen_driven small ended

/-- `fillWindow` settles a sender. -/
theorem Encodes.fillWindow_settled (inv : Encodes s accepted sent) (bounded : Bounded s)
    (acked : s.nextSeqno < 2 ^ 31 → Acked s.rcvBase s) :
    ∃ new, Emits accepted sent s s.fillWindow new ∧ Settled s.fillWindow accepted (sent ++ new) := by
  obtain ⟨new, emits⟩ := inv.fillWindow
  obtain ⟨_, pushes⟩ := s.fillWindow_pushes
  have before : s.fillWindow.nextSeqno < 2 ^ 31 → s.nextSeqno < 2 ^ 31 := by
    rw [pushes.next]
    omega
  refine ⟨new, emits, emits.encodes, bounded.pushes pushes, ?_, ?_, fun _ => s.fillWindow_synSent⟩
  · intro small
    rw [pushes.rcvBase]
    exact (acked (before small)).pushes inv pushes
  · intro small ended opened
    rw [pushes.rcvBase]
    exact inv.fillWindow_driven bounded (before small) ended opened

/-- Whatever an acknowledgement number is, below 2^31 it is read exactly, and
the segments it covers are the ones retired. -/
theorem Acked.acknowledge_small (acked : Acked s.rcvBase s) (inv : Encodes s accepted sent)
    (small : s.nextSeqno < 2 ^ 31) {ackno : WrappingInt32} (accepts : s.Accepts ackno) :
    Acked (unwrap ackno s.isn s.rcvBase) (s.acknowledge (unwrap ackno s.isn s.rcvBase)) ∧
      (s.acknowledge (unwrap ackno s.isn s.rcvBase)).rcvBase = unwrap ackno s.isn s.rcvBase := by
  obtain ⟨v, bound, rfl⟩ := wrap_surjective ackno s.isn
  have reached := acked.reached
  have decoded : unwrap (wrap v s.isn) s.isn s.rcvBase = v := by
    rw [unwrap_wrap_of_small v _ _ (by omega), Nat.mod_eq_of_lt bound]
  obtain ⟨sentOf, fresh⟩ := accepts
  rw [decoded] at sentOf fresh
  have safe : AckSafe s.rcvBase s v := by
    refine Or.inr ⟨fresh, ?_⟩
    by_cases whole : v = s.nextSeqno
    · exact Or.inl whole
    · -- The last outstanding segment ends at the next sequence number.
      obtain ⟨_, next⟩ := inv.queue_laid
      have first := acked.first
      have waiting : s.outstandingSegments ≠ [] := by
        intro empty
        rw [empty, seqLen_nil] at next
        omega
      exact Or.inr ⟨_, seqLen_mem_ends waiting, by omega, by omega⟩
  obtain ⟨_, _, _, _, after⟩ := acked.retires inv sentOf (by omega) safe
    ⟨by rwa [decoded], by rwa [decoded]⟩
  have base := after.base
  rw [decoded] at after base ⊢
  exact ⟨after, base.trans (Nat.mod_eq_of_lt bound)⟩

theorem Settled.ackReceived (inv : Settled s accepted sent) (ackno : WrappingInt32) (window : UInt16) :
    ∃ new, Emits accepted sent s (s.ackReceived ackno window) new ∧
      Settled (s.ackReceived ackno window) accepted (sent ++ new) := by
  rcases s.ackReceived_cases ackno window with ⟨_, eq⟩ | ⟨_, eq⟩ | accepts
  · rw [eq]
    exact ⟨[], .none inv.toEncodes, by simpa using inv⟩
  · rw [eq]
    refine ⟨[], (Emits.none (inv.toEncodes.setWindow window)).of_frame rfl, ?_⟩
    rw [List.append_nil]
    exact ⟨inv.toEncodes.setWindow window, inv.bounded.setWindow window,
      fun small => (inv.acked small).setWindow window, inv.driven, inv.began⟩
  · have encodes := inv.toEncodes.setWindow window
    obtain ⟨_, _, _, ackEq⟩ := (s.setWindow window).acknowledge_eq (unwrap ackno s.isn s.rcvBase)
    obtain ⟨new, emits, settled⟩ := (encodes.acknowledge (unwrap ackno s.isn s.rcvBase)).fillWindow_settled
      ((inv.bounded.setWindow window).acknowledge accepts.1) (by
        intro small
        rw [ackEq] at small
        obtain ⟨acked, base⟩ := ((inv.acked small).setWindow window).acknowledge_small encodes small accepts
        exact base.symm ▸ acked)
    rw [ackReceived_of_accepts accepts]
    exact ⟨new, emits.of_frame (acknowledge_segmentsOut _ _), settled⟩

/-- Changes to the outbound queue, the timers and the error flag are invisible here. -/
theorem Settled.frame {u : TCPSender} (inv : Settled s accepted sent)
    (same : u = { s with
      segmentsOut := u.segmentsOut, rto := u.rto, timeElipsed := u.timeElipsed,
      consecutiveRetransmission := u.consecutiveRetransmission, stream := u.stream })
    (stream : u.stream.buffer = s.stream.buffer ∧ u.stream.readBytes = s.stream.readBytes ∧
      u.stream.inputEnd = s.stream.inputEnd) : Settled u accepted sent := by
  rw [same]
  obtain ⟨buffer, read, ended⟩ := stream
  have eof : u.stream.eof = s.stream.eof := by
    simp only [ByteStream.eof, ByteStream.bufferEmpty, ByteStream.bufferSize, ByteStream.inputEnded,
      buffer, ended]
  refine ⟨⟨inv.laid, inv.next, inv.closed, inv.opened, ?_, ?_, inv.finLast, inv.finSent, ?_,
    inv.outstanding, inv.flight, inv.timer⟩, ⟨inv.bounded.base, inv.bounded.window⟩,
    fun small => (inv.acked small).same rfl rfl rfl rfl, ?_, ?_⟩
  · rw [buffer]
    exact inv.unread
  · rw [read]
    exact inv.read
  · rw [ended]
    exact inv.finEnded
  · rw [eof]
    exact inv.driven
  · rw [ended]
    exact inv.began

/-- A sender with a closed stream and nothing in flight has sent its FIN. -/
theorem Settled.finished (inv : Settled s accepted sent) (small : s.nextSeqno < 2 ^ 31)
    (ended : s.stream.eof = true) (landed : s.bytesInFlight = 0) : s.finSent = true := by
  have empty : s.outstandingSegments = [] := by
    by_contra waiting
    obtain ⟨front, rest, queue⟩ := List.exists_cons_of_ne_nil waiting
    have laid := inv.queue_laid.1
    have flight := inv.flight
    rw [queue] at laid flight
    have := laid.2.1
    rw [seqLen_cons] at flight
    omega
  have acked := inv.acked small
  have reached := acked.first
  rw [unackedFrom, landed] at reached
  rcases inv.driven small ended (by simp [synOutstanding, empty]) with fin | ahead
  · exact fin
  · omega

theorem Settled.tick (inv : Settled s accepted sent) (ms : Nat) : Settled (s.tick ms) accepted sent := by
  obtain ⟨_, _, _, _, _, eq⟩ := s.tick_eq ms
  rw [eq]
  exact inv.frame rfl ⟨rfl, rfl, rfl⟩

theorem Settled.write (inv : Settled s accepted sent) (data : List UInt8) :
    Settled (s.write data).2 (accepted ++ data.take (s.write data).1) sent := by
  refine ⟨inv.toEncodes.write data, ⟨inv.bounded.base, inv.bounded.window⟩,
    fun small => (inv.acked small).same rfl rfl rfl rfl, ?_, inv.began⟩
  intro small ended acked
  refine inv.driven small ?_ acked
  -- A stream that is drained after a write was drained before it.
  rw [ByteStream.eof_iff] at ended ⊢
  exact ⟨(List.append_eq_nil_iff.mp ended.1).1, ended.2⟩

theorem Settled.fillWindow (inv : Settled s accepted sent) :
    ∃ new, Emits accepted sent s s.fillWindow new ∧ Settled s.fillWindow accepted (sent ++ new) :=
  inv.toEncodes.fillWindow_settled inv.bounded inv.acked

theorem Settled.endInput_fillWindow (inv : Settled s accepted sent) :
    ∃ new, Emits accepted sent s s.endInput.fillWindow new ∧
      Settled s.endInput.fillWindow accepted (sent ++ new) := by
  obtain ⟨new, emits, settled⟩ := inv.toEncodes.endInput.fillWindow_settled
    ⟨inv.bounded.base, inv.bounded.window⟩ (fun small => (inv.acked small).same rfl rfl rfl rfl)
  exact ⟨new, emits.of_frame rfl, settled⟩

theorem new_settled (capacity : Nat) (timeout : UInt16) (isn : WrappingInt32) :
    Settled (new capacity timeout isn) [] [] := by
  refine ⟨new_encodes capacity timeout isn, ⟨Nat.le_refl _, (by decide : 1 < 2 ^ 16)⟩,
    fun _ => new_acked capacity timeout isn, ?_, ?_⟩
  · simp [new, ByteStream.new, ByteStream.eof, ByteStream.inputEnded]
  · simp [new, ByteStream.new]

end Sponge.TCPSender
