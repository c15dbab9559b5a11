import Sponge.TCP.Sender

/-! Rules for `fillWindow`: its cases, an invariant rule for the send loop, and
what one iteration of the loop does. Later modules prove their invariants for a
single emission and obtain them for the whole call from here. -/
namespace Sponge.TCPSender

/-- Total length in sequence space. -/
def seqLen (segs : List TCPSegment) : Nat := (segs.map TCPSegment.lengthInSequenceSpace).sum

@[simp] theorem seqLen_nil : seqLen [] = 0 := rfl

@[simp] theorem seqLen_cons (seg : TCPSegment) (rest : List TCPSegment) :
    seqLen (seg :: rest) = seg.lengthInSequenceSpace + seqLen rest := rfl

@[simp] theorem seqLen_append (left right : List TCPSegment) :
    seqLen (left ++ right) = seqLen left + seqLen right := by simp [seqLen]

/-- The condition of the send loop. -/
def Sending (s : TCPSender) (edge : Nat) : Prop :=
  s.freeBytes edge ≠ 0 ∧ s.finSent = false ∧ s.stream.bufferEmpty = false

/-- `fillWindow` passes its SYN and FIN guards. -/
def Filling (s : TCPSender) : Prop :=
  s.synSent = true ∧ s.synOutstanding = false ∧ s.finSent = false

theorem fillWindow_cases (s : TCPSender) :
    (s.synSent = false ∧ s.fillWindow = s.sendSyn) ∨
    (s.synSent = true ∧ (s.synOutstanding = true ∨ s.finSent = true) ∧ s.fillWindow = s) ∨
    (s.Filling ∧ s.fillWindow = s.fillOpen) := by
  unfold fillWindow
  by_cases unsent : s.synSent = false
  · exact Or.inl ⟨unsent, if_pos unsent⟩
  rw [if_neg unsent]
  have opened : s.synSent = true := by simpa using unsent
  by_cases waiting : s.synOutstanding = true
  · exact Or.inr (Or.inl ⟨opened, Or.inl waiting, if_pos waiting⟩)
  rw [if_neg waiting]
  by_cases finished : s.finSent = true
  · exact Or.inr (Or.inl ⟨opened, Or.inr finished, if_pos finished⟩)
  · exact Or.inr (Or.inr ⟨⟨opened, by simpa using waiting, by simpa using finished⟩, if_neg finished⟩)

/-- After the handshake only the FIN guard is left. -/
theorem fillWindow_of_acked {s : TCPSender} (acked : s.synSent = true ∧ s.synOutstanding = false) :
    (s.finSent = true ∧ s.fillWindow = s) ∨ (s.finSent = false ∧ s.fillWindow = s.fillOpen) := by
  rcases s.fillWindow_cases with ⟨unsent, _⟩ | ⟨_, closed, eq⟩ | ⟨filling, eq⟩
  · simp [acked.1] at unsent
  · exact Or.inl ⟨by simpa [acked.2] using closed, eq⟩
  · exact Or.inr ⟨filling.2.2, eq⟩

variable {P : TCPSender → Prop} {edge : Nat}

theorem fillLoop_rule (step : ∀ u, P u → u.Sending edge → P (u.sendData edge)) (fuel : Nat)
    (s : TCPSender) (start : P s) : P (fillLoop edge fuel s) := by
  induction fuel generalizing s with
  | zero => exact start
  | succ fuel ih =>
    unfold fillLoop
    split
    · rename_i sending
      exact ih _ (step s start sending)
    · exact start

theorem fillLoop_done (fuel : Nat) {s : TCPSender} (done : ¬ s.Sending edge) :
    fillLoop edge fuel s = s := by
  cases fuel with
  | zero => rfl
  | succ fuel => exact if_neg done

theorem fillLoop_succ (fuel : Nat) {s : TCPSender} (sending : s.Sending edge) :
    fillLoop edge (fuel + 1) s = fillLoop edge fuel (s.sendData edge) := if_pos sending

theorem fillOpen_rule (s : TCPSender)
    (start : ¬ (s.stream.eof = true ∧ s.normalizeWindow.winRightEdge > s.nextSeqno) →
      P s.normalizeWindow)
    (fin : s.stream.eof = true → s.normalizeWindow.winRightEdge > s.nextSeqno →
      P s.normalizeWindow.sendFin)
    (step : ∀ u, P u → u.Sending s.normalizeWindow.winRightEdge →
      P (u.sendData s.normalizeWindow.winRightEdge)) : P s.fillOpen := by
  unfold fillOpen
  apply fillLoop_rule step
  split
  · rename_i ended
    exact fin ended.1 ended.2
  · rename_i more
    exact start more

/-- The payload of one iteration. -/
def nextPayload (s : TCPSender) (edge : Nat) : List UInt8 :=
  s.stream.buffer.take (min (s.freeBytes edge) TCPConfig.maxPayloadSize)

/-- Whether the iteration's segment carries the FIN. -/
def nextFin (s : TCPSender) (edge : Nat) : Bool :=
  (s.stream.read (min (s.freeBytes edge) TCPConfig.maxPayloadSize)).2.eof &&
    decide ((s.nextPayload edge).length < s.receiverWindowSize)

theorem sendData_eq (s : TCPSender) (edge : Nat) : s.sendData edge =
    { s with
      stream := (s.stream.read (min (s.freeBytes edge) TCPConfig.maxPayloadSize)).2
      finSent := s.finSent || s.nextFin edge }.segmentHandler
        { header := { fin := s.nextFin edge }, payload := s.nextPayload edge } := by
  have size : (if s.freeBytes edge > TCPConfig.maxPayloadSize then TCPConfig.maxPayloadSize
      else s.freeBytes edge) = min (s.freeBytes edge) TCPConfig.maxPayloadSize := by
    split <;> omega
  simp only [sendData, size, nextFin, nextPayload, ByteStream.read_fst]
  rfl

/-- The segment that one iteration pushes. -/
def nextSegment (s : TCPSender) (edge : Nat) : TCPSegment :=
  ({ header := { fin := s.nextFin edge }, payload := s.nextPayload edge } : TCPSegment).withSeqno
    (wrap s.nextSeqno s.isn)

theorem sendData_segmentsOut (s : TCPSender) (edge : Nat) :
    (s.sendData edge).segmentsOut = s.segmentsOut ++ [s.nextSegment edge] := by
  rw [sendData_eq]
  rfl

theorem sendData_nextSeqno (s : TCPSender) (edge : Nat) :
    (s.sendData edge).nextSeqno = s.nextSeqno + (s.nextSegment edge).lengthInSequenceSpace := by
  rw [sendData_eq]
  rfl

theorem sendData_finSent (s : TCPSender) (edge : Nat) :
    (s.sendData edge).finSent = (s.finSent || s.nextFin edge) := by
  rw [sendData_eq]
  rfl

theorem nextSegment_length (s : TCPSender) (edge : Nat) :
    (s.nextSegment edge).lengthInSequenceSpace =
      (s.nextPayload edge).length + if s.nextFin edge then 1 else 0 := rfl

theorem nextPayload_small (s : TCPSender) (edge : Nat) :
    (s.nextPayload edge).length ≤ TCPConfig.maxPayloadSize := by
  rw [nextPayload, List.length_take]
  omega

theorem nextPayload_le_free (s : TCPSender) (edge : Nat) :
    (s.nextPayload edge).length ≤ s.freeBytes edge := by
  rw [nextPayload, List.length_take]
  omega

theorem Sending.buffered {s : TCPSender} (sending : s.Sending edge) : s.stream.buffer ≠ [] :=
  (ByteStream.bufferEmpty_eq_false_iff _).mp sending.2.2

theorem Sending.payload_pos {s : TCPSender} (sending : s.Sending edge) :
    0 < (s.nextPayload edge).length := by
  have free : s.freeBytes edge ≠ 0 := sending.1
  have nonempty := List.length_pos_of_ne_nil sending.buffered
  have size : TCPConfig.maxPayloadSize = 1452 := rfl
  rw [nextPayload, List.length_take]
  omega

theorem nextPayload_append (s : TCPSender) (edge : Nat) :
    s.nextPayload edge ++ (s.stream.read (min (s.freeBytes edge) TCPConfig.maxPayloadSize)).2.buffer =
      s.stream.buffer := by
  rw [nextPayload, ← ByteStream.read_fst, ByteStream.read_append]

theorem sendData_stream (s : TCPSender) (edge : Nat) : (s.sendData edge).stream =
    (s.stream.read (min (s.freeBytes edge) TCPConfig.maxPayloadSize)).2 := by
  rw [sendData_eq]
  rfl

/-- What an iteration leaves in the stream. -/
theorem sendData_left (s : TCPSender) (edge : Nat) : (s.sendData edge).stream.buffer.length =
    s.stream.buffer.length - (s.nextPayload edge).length := by
  rw [sendData_stream, ByteStream.read_buffer, List.length_drop, nextPayload, List.length_take]
  omega

theorem normalizeWindow_size (s : TCPSender) :
    s.normalizeWindow.receiverWindowSize = max 1 s.receiverWindowSize := by
  simp only [normalizeWindow]
  split <;> omega

theorem normalizeWindow_of_pos {s : TCPSender} (window : 0 < s.receiverWindowSize) : s.normalizeWindow = s := by
  simp only [normalizeWindow]
  rw [if_neg (by omega)]

/-- `u` is `s` after pushing the segments `new`: what changes with them, and
what every emission leaves alone. -/
structure Pushes (s u : TCPSender) (new : List TCPSegment) : Prop where
  out : u.segmentsOut = s.segmentsOut ++ new
  queue : u.outstandingSegments = s.outstandingSegments ++ new
  next : u.nextSeqno = s.nextSeqno + seqLen new
  flight : u.bytesInFlight = s.bytesInFlight + seqLen new
  positive : ∀ seg ∈ new, 0 < seg.lengthInSequenceSpace
  isn : u.isn = s.isn
  rcvBase : u.rcvBase = s.rcvBase
  retransmissions : u.consecutiveRetransmission = s.consecutiveRetransmission
  error : u.stream.error = s.stream.error
  inputEnd : u.stream.inputEnd = s.stream.inputEnd
  written : u.stream.writeBytes = s.stream.writeBytes
  window : max 1 u.receiverWindowSize = max 1 s.receiverWindowSize

theorem Pushes.refl (s : TCPSender) : Pushes s s [] :=
  ⟨by simp, by simp, by simp, by simp, by simp, rfl, rfl, rfl, rfl, rfl, rfl, rfl⟩

/-- One more push, by a sender that differs from `u` in its stream and flags only. -/
theorem Pushes.segmentHandler {s u v : TCPSender} {new : List TCPSegment} {seg : TCPSegment}
    (pushes : Pushes s u new) (positive : 0 < seg.lengthInSequenceSpace)
    (same : v = { u with stream := v.stream, finSent := v.finSent, synSent := v.synSent })
    (stream : v.stream.error = u.stream.error ∧ v.stream.inputEnd = u.stream.inputEnd ∧
      v.stream.writeBytes = u.stream.writeBytes) :
    ∃ new, Pushes s (v.segmentHandler seg) new := by
  refine ⟨new ++ [seg.withSeqno (wrap u.nextSeqno u.isn)], ?_⟩
  rw [same]
  refine ⟨?_, ?_, ?_, ?_, ?_, pushes.isn, pushes.rcvBase, pushes.retransmissions,
    stream.1.trans pushes.error, stream.2.1.trans pushes.inputEnd, stream.2.2.trans pushes.written,
    pushes.window⟩
  · simp [TCPSender.segmentHandler, pushes.out]
  · simp [TCPSender.segmentHandler, pushes.queue]
  · simp [TCPSender.segmentHandler, pushes.next, Nat.add_assoc]
  · simp [TCPSender.segmentHandler, pushes.flight, Nat.add_assoc]
  · intro other member
    rcases List.mem_append.mp member with member | member
    · exact pushes.positive other member
    · rw [List.mem_singleton.mp member]
      exact positive

theorem normalizeWindow_pushes (s : TCPSender) : Pushes s s.normalizeWindow [] := by
  refine ⟨by simp [normalizeWindow], by simp [normalizeWindow], rfl, rfl, by simp, rfl, rfl, rfl, rfl,
    rfl, rfl, ?_⟩
  rw [normalizeWindow_size]
  omega

theorem fillOpen_pushes (s : TCPSender) : ∃ new, Pushes s s.fillOpen new := by
  have start := s.normalizeWindow_pushes
  apply fillOpen_rule (P := fun u => ∃ new, Pushes s u new)
  · exact fun _ => ⟨[], start⟩
  · exact fun _ _ => start.segmentHandler (by decide) rfl ⟨rfl, rfl, rfl⟩
  · rintro u ⟨new, pushes⟩ sending
    have positive := sending.payload_pos
    rw [sendData_eq]
    exact pushes.segmentHandler (by simp [TCPSegment.lengthInSequenceSpace]; omega) rfl ⟨rfl, rfl, rfl⟩

theorem fillWindow_pushes (s : TCPSender) : ∃ new, Pushes s s.fillWindow new := by
  rcases s.fillWindow_cases with ⟨_, eq⟩ | ⟨_, _, eq⟩ | ⟨_, eq⟩ <;> rw [eq]
  · exact (Pushes.refl s).segmentHandler (by decide) rfl ⟨rfl, rfl, rfl⟩
  · exact ⟨[], .refl s⟩
  · exact s.fillOpen_pushes

theorem fillWindow_rcvBase (s : TCPSender) : s.fillWindow.rcvBase = s.rcvBase := by
  obtain ⟨_, pushes⟩ := s.fillWindow_pushes
  exact pushes.rcvBase

theorem fillWindow_error (s : TCPSender) : s.fillWindow.stream.error = s.stream.error := by
  obtain ⟨_, pushes⟩ := s.fillWindow_pushes
  exact pushes.error

theorem fillWindow_inputEnd (s : TCPSender) : s.fillWindow.stream.inputEnd = s.stream.inputEnd := by
  obtain ⟨_, pushes⟩ := s.fillWindow_pushes
  exact pushes.inputEnd

/-- Every call leaves the handshake begun. -/
theorem fillWindow_synSent (s : TCPSender) : s.fillWindow.synSent = true := by
  rcases s.fillWindow_cases with ⟨_, eq⟩ | ⟨opened, _, eq⟩ | ⟨filling, eq⟩ <;> rw [eq]
  · rfl
  · exact opened
  · apply fillOpen_rule (P := fun u => u.synSent = true)
    · exact fun _ => filling.1
    · exact fun _ _ => filling.1
    · intro u opened _
      rw [sendData_eq]
      exact opened

/-- A tick repeats at most the front of the queue and sets the timers. -/
theorem tick_eq (s : TCPSender) (ms : Nat) : ∃ again rto elapsed retransmissions,
    again <+: s.outstandingSegments ∧ s.tick ms =
      { s with
        segmentsOut := s.segmentsOut ++ again
        rto := rto
        timeElipsed := elapsed
        consecutiveRetransmission := retransmissions } := by
  unfold tick
  dsimp only
  split
  · split
    · exact ⟨_, _, _, _, List.take_prefix 1 _, rfl⟩
    · exact ⟨[], _, _, _, List.nil_prefix, by rw [List.append_nil]⟩
  · exact ⟨[], _, _, _, List.nil_prefix, by rw [List.append_nil]⟩

end Sponge.TCPSender
