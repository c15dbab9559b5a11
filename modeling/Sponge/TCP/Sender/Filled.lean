import Sponge.TCP.Sender.Settled

/-! What `fillWindow` leaves behind. The send loop stops only when the window is
full, the stream is empty or the FIN is out, and a stream that has ended is
empty only after its FIN or behind a full window. Conversely the call sends
something unless one of its guards or the loop condition stops it at once. -/
namespace Sponge.TCPSender

variable {s : TCPSender} {edge : Nat} {accepted : List UInt8} {sent : List TCPSegment}

/-- The handshake of the outbound direction is done. -/
def SynAcked (s : TCPSender) : Prop := s.synSent = true ∧ s.synOutstanding = false

instance (s : TCPSender) : Decidable s.SynAcked := inferInstanceAs (Decidable (_ ∧ _))

/-- Nothing more can be sent: the FIN is out, the window is full, or the stream
holds nothing and has not been ended. -/
def Filled (s : TCPSender) : Prop :=
  s.finSent = true ∨ s.rcvBase + max 1 s.receiverWindowSize ≤ s.nextSeqno ∨
  (s.stream.bufferEmpty = true ∧ s.stream.inputEnded = false)

instance (s : TCPSender) : Decidable s.Filled := inferInstanceAs (Decidable (_ ∨ _ ∨ (_ ∧ _)))

/-- As many iterations as there are bytes are enough to end the loop. -/
theorem fillLoop_ends (fuel : Nat) (enough : s.stream.bufferSize ≤ fuel) :
    ¬ (fillLoop edge fuel s).Sending edge := by
  induction fuel generalizing s with
  | zero =>
    rintro ⟨_, _, buffered⟩
    have size : s.stream.bufferSize = 0 := by omega
    simp [fillLoop, ByteStream.bufferEmpty, size] at buffered
  | succ fuel ih =>
    by_cases sending : s.Sending edge
    · rw [fillLoop_succ fuel sending]
      apply ih
      have positive := sending.payload_pos
      have left := s.sendData_left edge
      rw [ByteStream.bufferSize] at enough ⊢
      omega
    · rw [fillLoop_done _ sending]
      exact sending

theorem fillOpen_ends (s : TCPSender) : ¬ s.fillOpen.Sending s.normalizeWindow.winRightEdge :=
  fillLoop_ends _ (Nat.le_refl _)

theorem Bounded.fillOpen_filled (bounded : Bounded s) (small : s.fillOpen.nextSeqno < 2 ^ 31) :
    s.fillOpen.Filled := by
  obtain ⟨new, pushes⟩ := s.fillOpen_pushes
  have before : s.nextSeqno < 2 ^ 31 := by
    have := pushes.next
    omega
  have edgeEq : s.fillOpen.rcvBase + max 1 s.fillOpen.receiverWindowSize = s.edge := by
    rw [pushes.rcvBase, pushes.window, TCPSender.edge]
  rw [Filled, edgeEq]
  by_contra unfilled
  simp only [not_or, not_and, Bool.not_eq_true, Bool.not_eq_false] at unfilled
  obtain ⟨unfinished, room, waiting⟩ := unfilled
  cases empty : s.fillOpen.stream.bufferEmpty with
  | true =>
    have eof : s.fillOpen.stream.eof = true := by simp [ByteStream.eof, empty, waiting empty]
    rcases bounded.fillOpen_ended before eof with fin | full
    · simp [unfinished] at fin
    · exact room full
  | false =>
    -- Only a full window can have stopped the loop.
    apply s.fillOpen_ends
    refine ⟨?_, unfinished, empty⟩
    have base := bounded.base
    have wide := bounded.window
    rw [bounded.winRightEdge before, freeBytes]
    have edgeDef : s.edge = s.rcvBase + max 1 s.receiverWindowSize := rfl
    rw [FixedWidth.sub_of_le (by omega) (by omega)]
    omega

/-- After `fillWindow` the window is filled, once the SYN is acknowledged. -/
theorem Encodes.fillWindow_filled (inv : Encodes s accepted sent) (bounded : Bounded s)
    (small : s.fillWindow.nextSeqno < 2 ^ 31) (acked : s.fillWindow.SynAcked) : s.fillWindow.Filled := by
  rcases s.fillWindow_cases with ⟨unsent, eq⟩ | ⟨_, closed, eq⟩ | ⟨_, eq⟩
  · have waiting := acked.2
    rw [eq, inv.sendSyn_outstanding unsent] at waiting
    exact absurd waiting (by decide)
  · have acked := acked.2
    rw [eq] at acked ⊢
    exact Or.inl (by simpa [acked] using closed)
  · rw [eq] at small ⊢
    exact bounded.fillOpen_filled small

/-- `fillWindow` has nothing to send. -/
def Stalled (s : TCPSender) : Prop :=
  s.synSent = true ∧
  (s.synOutstanding = true ∨ s.finSent = true ∨
    (¬ (s.stream.eof = true ∧ s.normalizeWindow.winRightEdge > s.nextSeqno) ∧
      (s.freeBytes s.normalizeWindow.winRightEdge = 0 ∨ s.stream.bufferEmpty = true)))

instance (s : TCPSender) : Decidable s.Stalled :=
  inferInstanceAs (Decidable (_ ∧ (_ ∨ _ ∨ (¬ (_ ∧ _) ∧ (_ ∨ _)))))

theorem fillLoop_out (edge fuel : Nat) (s : TCPSender) :
    s.segmentsOut <+: (fillLoop edge fuel s).segmentsOut := by
  apply fillLoop_rule (P := fun u => s.segmentsOut <+: u.segmentsOut)
  · intro u kept _
    rw [sendData_segmentsOut]
    exact kept.trans (List.prefix_append _ _)
  · exact List.prefix_rfl

theorem fillOpen_of_ending (ending : s.stream.eof = true ∧ s.normalizeWindow.winRightEdge > s.nextSeqno) :
    s.fillOpen = fillLoop s.normalizeWindow.winRightEdge s.normalizeWindow.sendFin.stream.bufferSize
      s.normalizeWindow.sendFin := by
  rw [fillOpen]
  exact congrArg (fun u => fillLoop _ u.stream.bufferSize u) (if_pos ending)

theorem fillOpen_of_more (more : ¬ (s.stream.eof = true ∧ s.normalizeWindow.winRightEdge > s.nextSeqno)) :
    s.fillOpen = fillLoop s.normalizeWindow.winRightEdge s.normalizeWindow.stream.bufferSize
      s.normalizeWindow := by
  rw [fillOpen]
  exact congrArg (fun u => fillLoop _ u.stream.bufferSize u) (if_neg more)

theorem out_ne_of_pushed {out final : List TCPSegment} {seg : TCPSegment} (more : out ++ [seg] <+: final) :
    final ≠ out := by
  intro same
  have length := more.length_le
  rw [same, List.length_append, List.length_singleton] at length
  omega

theorem fillOpen_quiet_iff (unfinished : s.finSent = false) :
    s.fillOpen.segmentsOut = s.segmentsOut ↔
      ¬ (s.stream.eof = true ∧ s.normalizeWindow.winRightEdge > s.nextSeqno) ∧
      (s.freeBytes s.normalizeWindow.winRightEdge = 0 ∨ s.stream.bufferEmpty = true) := by
  by_cases ending : s.stream.eof = true ∧ s.normalizeWindow.winRightEdge > s.nextSeqno
  · refine iff_of_false ?_ (fun quiet => quiet.1 ending)
    rw [fillOpen_of_ending ending]
    exact out_ne_of_pushed (fillLoop_out _ _ s.normalizeWindow.sendFin)
  · rw [fillOpen_of_more ending]
    by_cases sending : s.normalizeWindow.Sending s.normalizeWindow.winRightEdge
    · obtain ⟨free, _, buffered⟩ := sending
      have some : s.normalizeWindow.stream.bufferSize ≠ 0 := by simpa [ByteStream.bufferEmpty] using buffered
      obtain ⟨fuel, size⟩ := Nat.exists_eq_succ_of_ne_zero some
      rw [size, fillLoop_succ fuel ⟨free, unfinished, buffered⟩]
      have first := fillLoop_out s.normalizeWindow.winRightEdge fuel
        (s.normalizeWindow.sendData s.normalizeWindow.winRightEdge)
      rw [sendData_segmentsOut] at first
      refine iff_of_false (out_ne_of_pushed first) ?_
      rintro ⟨_, none | empty⟩
      · exact free none
      · exact absurd (buffered.symm.trans empty) (by decide)
    · rw [fillLoop_done _ sending]
      refine iff_of_true rfl ⟨ending, ?_⟩
      by_contra room
      simp only [not_or, Bool.not_eq_true] at room
      exact sending ⟨room.1, unfinished, room.2⟩

/-- `fillWindow` leaves the outbound queue alone exactly if it is stalled. -/
theorem fillWindow_quiet_iff (s : TCPSender) : s.fillWindow.segmentsOut = s.segmentsOut ↔ s.Stalled := by
  rcases s.fillWindow_cases with ⟨unsent, eq⟩ | ⟨opened, closed, eq⟩ | ⟨⟨opened, acked, unfinished⟩, eq⟩
  · rw [eq]
    simp [Stalled, unsent, TCPSender.sendSyn, segmentHandler]
  · rw [eq]
    exact iff_of_true rfl ⟨opened, closed.imp_right Or.inl⟩
  · rw [eq, fillOpen_quiet_iff unfinished]
    simp [Stalled, opened, acked, unfinished]

end Sponge.TCPSender
