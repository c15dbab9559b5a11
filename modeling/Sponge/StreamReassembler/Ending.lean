import Sponge.StreamReassembler.Push

/-! When one push ends the output. The last of the source's three tests
(`eof && empty()`) looks at the stored bytes only, so an eof push of which
nothing is stored can end the output early; `EndSafeAt` says exactly when it
does not. -/
namespace Sponge.StreamReassembler

variable {r s : StreamReassembler} {data : List UInt8} {index : Nat}

theorem writeFirst_ending (r : StreamReassembler) :
    r.writeFirst.output.inputEnd = r.output.inputEnd ∧ r.writeFirst.inputEndIdx = r.inputEndIdx := by
  rcases r.writeFirst_cases with ⟨same, _⟩ | ⟨_, _, _, _, wrote⟩
  · rw [same]
    exact ⟨rfl, rfl⟩
  · rw [wrote]
    exact ⟨rfl, rfl⟩

/-- The three tests of the source, for any state and in its own arithmetic. -/
theorem pushSubstring_tests (r : StreamReassembler) (data : List UInt8) (index : Nat) (eof : Bool) :
    (r.pushSubstring data index eof).inputEndIdx =
      (if eof then FixedWidth.add 64 index data.length else r.inputEndIdx) ∧
    ((r.pushSubstring data index eof).output.inputEnd = true ↔ r.output.inputEnd = true ∨
      (index ≤ r.maxIdx ∧ (r.pushSubstring data index eof).unassembledBytes = 0 ∧
        ((r.pushSubstring data index eof).inputEndIdx ≤ (r.pushSubstring data index eof).curIdx ∨
          (eof = true ∧ r.curIdx < FixedWidth.add 64 index data.length)))) := by
  have noted : (r.noteEnd data index eof).inputEndIdx =
      (if eof then FixedWidth.add 64 index data.length else r.inputEndIdx) ∧
      (r.noteEnd data index eof).output = r.output := by
    cases eof <;> exact ⟨rfl, rfl⟩
  rcases pushSubstring_cases r data index eof with ⟨beyond, eq⟩ | ⟨inside, old, eq⟩ |
    ⟨inside, fresh, eq⟩
  · rw [eq, noted.1, noted.2]
    exact ⟨rfl, by simp [Nat.not_le.mpr beyond]⟩
  · have curEq : (r.noteEnd data index eof).curIdx = r.curIdx := (noteEnd_same r data index eof).curIdx
    rw [eq, ← noted.1, ← noted.2]
    simp only [endIfReached, empty, beq_iff_eq]
    split_ifs with test
    · exact ⟨rfl, iff_of_true rfl (Or.inr ⟨inside, test.2, Or.inl test.1⟩)⟩
    · refine ⟨rfl, ⟨Or.inl, ?_⟩⟩
      rintro (h | ⟨_, zero, h | h⟩)
      · exact h
      · exact absurd ⟨h, zero⟩ test
      · omega
  · rw [eq]
    have ending := writeFirst_ending
      ((r.noteEnd data index eof).store (clip index data r.maxIdx r.curIdx))
    rw [store_output, store_inputEndIdx, noted.1, noted.2] at ending
    generalize ((r.noteEnd data index eof).store (clip index data r.maxIdx r.curIdx)).writeFirst = s
      at ending ⊢
    rw [← ending.1, ← ending.2]
    simp only [endIfEmpty, endIfReached, empty, beq_iff_eq]
    by_cases zero : s.unassembledBytes = 0 <;> by_cases test : s.inputEndIdx ≤ s.curIdx <;>
      cases eof <;> simp [zero, test, inside, fresh, endInput, ByteStream.endInput]

/-- When one push signals the end, in terms of the state after the call. -/
theorem Valid.signals (valid : Valid r) (data : List UInt8) (index : Nat)
    (fits : index + data.length < 2 ^ 64) (eof : Bool) :
    (r.pushSubstring data index eof).inputEndIdx =
      (if eof then index + data.length else r.inputEndIdx) ∧
    ((r.pushSubstring data index eof).output.inputEnd = true ↔ r.output.inputEnd = true ∨
      (index ≤ r.wrappedLimit ∧ (r.pushSubstring data index eof).unassembledBytes = 0 ∧
        ((r.pushSubstring data index eof).inputEndIdx ≤ (r.pushSubstring data index eof).curIdx ∨
          (eof = true ∧ r.curIdx < index + data.length)))) := by
  have tests := r.pushSubstring_tests data index eof
  rwa [valid.toShape.maxIdx_eq, FixedWidth.add_of_lt fits] at tests

theorem pushSubstring_ending (valid : Valid r) (room : r.limit < 2 ^ 64)
    (data : List UInt8) (index : Nat) (fits : index + data.length < 2 ^ 64) (eof : Bool) :
    (r.pushSubstring data index eof).inputEndIdx =
      (if eof then index + data.length else r.inputEndIdx) ∧
    ((r.pushSubstring data index eof).output.inputEnd = true ↔ r.output.inputEnd = true ∨
      (index ≤ r.limit ∧ (r.pushSubstring data index eof).unassembledBytes = 0 ∧
        ((r.pushSubstring data index eof).inputEndIdx ≤ (r.pushSubstring data index eof).curIdx ∨
          (eof = true ∧ r.curIdx < index + data.length)))) := by
  have signal := valid.signals data index fits eof
  rwa [wrappedLimit_eq room] at signal

/-- An eof push of `len` bytes at `index` is harmless if everything up to its end
is assembled already, if it lies past the window, if it continues the assembled
bytes and fits in the window, or if it lies ahead of a hole and some byte is
stored after it. -/
def EndSafeAt (r : StreamReassembler) (index len : Nat) : Prop :=
  index + len ≤ r.curIdx ∨ r.limit < index ∨ (index ≤ r.curIdx ∧ index + len ≤ r.limit) ∨
  (r.curIdx < index ∧ (0 < r.unassembledBytes ∨ (0 < len ∧ index < r.limit)))

/-- The last test of the source asks for too little exactly when the push is unsafe. -/
theorem Pushed.whole_iff_safe (pushed : Pushed r data index s) (valid : Valid r)
    (inside : ∀ i ∈ s.held, i < index + data.length) (waiting : r.curIdx < index + data.length) :
    (index ≤ r.limit → s.unassembledBytes = 0 → s.curIdx = index + data.length) ↔
      EndSafeAt r index data.length := by
  have reached := valid.toShape.cur_le_limit
  have cur : s.curIdx ≤ index + data.length := by
    by_contra past
    have := inside (s.curIdx - 1) (Finset.mem_union_left _ (Finset.mem_range.mpr (by omega)))
    omega
  unfold EndSafeAt
  by_cases outside : r.limit < index
  · exact iff_of_true (fun inWindow => by omega) (Or.inr (Or.inl outside))
  by_cases start : index ≤ r.curIdx
  · have assembled := pushed.cur_ge start
    by_cases fits : index + data.length ≤ r.limit
    · exact iff_of_true (fun _ _ => by omega) (Or.inr (Or.inr (Or.inl ⟨start, fits⟩)))
    · -- The window ends inside the pushed bytes: they are assembled up to the limit.
      have atLimit := pushed.valid.toShape.cur_le_limit
      rw [pushed.limit] at atLimit
      have nothing := pushed.valid.unassembled_zero_iff.mpr (by
        intro i member
        have := pushed.valid.held_lt_limit i member
        rw [pushed.limit] at this
        omega)
      refine iff_of_false (fun law => ?_) (by omega)
      have := law (by omega) nothing
      omega
  · have same := pushed.cur_of_ahead valid (by omega)
    have zero := pushed.zero_of_ahead valid (by omega)
    rw [zero]
    omega

end Sponge.StreamReassembler
