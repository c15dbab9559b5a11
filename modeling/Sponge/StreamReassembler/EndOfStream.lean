import Sponge.StreamReassembler.ByteMap
import Sponge.StreamReassembler.Ending
import Sponge.Lib.Run

/-! When the reassembler signals the end of its output over whole runs. Slices
carry the eof flag exactly when they reach the end of the stream. -/
namespace Sponge.StreamReassembler

variable {stream : List UInt8}

/-- The eof flag of an honest caller. -/
def Slice.eof (slice : Slice stream) : Bool := slice.index + slice.len == stream.length

/-- Calls whose eof flag is honest. -/
inductive HonestCall (stream : List UInt8) where
  | push (slice : Slice stream)
  | read (len : Nat)

def HonestCall.call : HonestCall stream → Call stream
  | .push slice => .push slice slice.eof
  | .read len => .read len

/-- An eof slice does no harm. Once the limit has wrapped, the slice is dropped
or there is nothing left to assemble. -/
def EndSafe (r : StreamReassembler) (slice : Slice stream) : Prop :=
  slice.eof = true → 2 ^ 64 ≤ r.limit ∨ EndSafeAt r slice.index slice.len

def HonestCall.Safe (r : StreamReassembler) : HonestCall stream → Prop
  | .push slice => EndSafe r slice
  | .read _ => True

def HonestCall.Unwrapped (r : StreamReassembler) : HonestCall stream → Prop
  | .push slice => r.Unwrapped slice.index slice.len
  | .read _ => True

instance HonestCall.decidableUnwrapped (r : StreamReassembler) :
    ∀ call : HonestCall stream, Decidable (call.Unwrapped r)
  | .push slice => inferInstanceAs (Decidable (r.Unwrapped slice.index slice.len))
  | .read _ => isTrue trivial

namespace Trace

/-- The end is signalled exactly when the stream is complete. -/
def EndsExactly (t : Trace stream) : Prop :=
  t.reassembler.inputEnded = true ↔
    t.sawEof = true ∧ t.reassembler.output.bytesWritten = stream.length

def apply (t : Trace stream) (call : HonestCall stream) : Trace stream := t.step call.call

def honestRun (stream : List UInt8) (capacity : Nat) (calls : List (HonestCall stream)) :
    Trace stream :=
  calls.foldl apply (start stream capacity)

/-- What the honest pushes keep, however far the limit has moved: the end index
is the stream's length once it is known, and the last byte comes with it. -/
structure Within (t : Trace stream) : Prop where
  valid : t.reassembler.Valid
  size : t.reassembler.capacity < 2 ^ 64
  known : t.reassembler.inputEndIdx = if t.sawEof then stream.length else int32Max
  inside : ∀ i ∈ t.reassembler.held, i < stream.length
  last : t.sawEof = false → ∀ i ∈ t.reassembler.held, i + 1 < stream.length

variable {t : Trace stream} {cap : Nat}

theorem start_within (size : cap < 2 ^ 64) : Within (start stream cap) := by
  refine ⟨new_valid cap, size, rfl, ?_, fun _ => ?_⟩ <;>
    simp [start, held, new, cover]

theorem Within.cur_le (within : Within t) : t.reassembler.curIdx ≤ stream.length := by
  by_contra past
  have := within.inside (t.reassembler.curIdx - 1)
    (Finset.mem_union_left _ (Finset.mem_range.mpr (by omega)))
  omega

theorem Within.zero_of_complete (within : Within t)
    (complete : t.reassembler.curIdx = stream.length) : t.reassembler.unassembledBytes = 0 := by
  rw [within.valid.unassembled_zero_iff, complete]
  exact within.inside

/-- A nonempty stream is complete only after an eof slice. -/
theorem Within.sawEof_of_complete (within : Within t) (nonempty : 0 < stream.length)
    (complete : t.reassembler.curIdx = stream.length) : t.sawEof = true := by
  by_contra unseen
  have := within.last (by simpa using unseen) (stream.length - 1)
    (Finset.mem_union_left _ (Finset.mem_range.mpr (by omega)))
  omega

theorem Within.endsExactly_iff (within : Within t) :
    EndsExactly t ↔ (t.reassembler.output.inputEnd = true ↔
      t.sawEof = true ∧ t.reassembler.curIdx = stream.length) := by
  rw [within.valid.written]
  rfl

theorem Slice.fits (short : stream.length < int32Max) (slice : Slice stream) :
    slice.index + slice.data.length < 2 ^ 64 := by
  have inside := slice.inside
  have small : int32Max < 2 ^ 64 := by decide
  rw [length_data]
  omega

theorem mem_arriving {r : StreamReassembler} (short : stream.length < int32Max) {slice : Slice stream}
    {i : Nat} (new : i ∈ r.arriving slice.index slice.data.length) : i < slice.index + slice.len := by
  rw [arriving, FixedWidth.add_of_lt (Slice.fits short slice), length_data] at new
  have := Finset.mem_Ico.mp new
  omega

theorem apply_within (short : stream.length < int32Max) (within : Within t) (call : HonestCall stream)
    (unwrapped : call.Unwrapped t.reassembler) : Within (t.apply call) := by
  cases call with
  | read len =>
    exact ⟨within.valid.readOutput len, within.size, within.known, within.inside, within.last⟩
  | push slice =>
    have inside := slice.inside
    rw [HonestCall.Unwrapped, ← length_data] at unwrapped
    obtain ⟨valid, held, capacity⟩ := within.valid.push unwrapped slice.eof
    obtain ⟨endIdx, _⟩ := within.valid.signals slice.data slice.index (Slice.fits short slice) slice.eof
    refine ⟨valid, capacity.trans_lt within.size, ?_, ?_, ?_⟩
    · have known := within.known
      simp only [apply, HonestCall.call, step]
      rw [endIdx, length_data]
      by_cases flag : slice.eof = true
      · have whole : slice.index + slice.len = stream.length := by simpa [Slice.eof] using flag
        simp only [flag, if_true, Bool.or_true, whole]
      · simp only [flag, Bool.false_eq_true, if_false, known, Bool.or_eq_true, or_false]
    · intro i member
      rcases Finset.mem_union.mp (held ▸ member) with old | new
      · exact within.inside i old
      · have := mem_arriving short new
        omega
    · intro unseen i member
      obtain ⟨before, more⟩ := Bool.or_eq_false_iff.mp unseen
      have early : slice.index + slice.len ≠ stream.length := by simpa [Slice.eof] using more
      rcases Finset.mem_union.mp (held ▸ member) with old | new
      · exact within.last before i old
      · have := mem_arriving short new
        omega

/-- The law after a push, by the three tests of the source. -/
theorem push_endsExactly_iff (short : stream.length < int32Max) (within : Within t) (slice : Slice stream)
    (next : Within (t.apply (.push slice))) :
    EndsExactly (t.apply (.push slice)) ↔
      (t.reassembler.output.inputEnd = true ∨
        (slice.index ≤ t.reassembler.wrappedLimit ∧ (t.apply (.push slice)).reassembler.unassembledBytes = 0 ∧
          ((t.apply (.push slice)).reassembler.inputEndIdx ≤ (t.apply (.push slice)).reassembler.curIdx ∨
            (slice.eof = true ∧ t.reassembler.curIdx < slice.index + slice.len))) ↔
        (t.apply (.push slice)).sawEof = true ∧ (t.apply (.push slice)).reassembler.curIdx = stream.length) := by
  have signals := (within.valid.signals slice.data slice.index (Slice.fits short slice) slice.eof).2
  rw [length_data] at signals
  rw [next.endsExactly_iff]
  exact iff_congr signals Iff.rfl

theorem sawEof_push (slice : Slice stream) : (t.apply (.push slice)).sawEof = (t.sawEof || slice.eof) := rfl

/-- A push without the flag never breaks the law. -/
theorem push_ends_of_more (short : stream.length < int32Max) (within : Within t) (exact : EndsExactly t)
    (slice : Slice stream) (unwrapped : t.reassembler.Unwrapped slice.index slice.len)
    (more : slice.eof = false) : EndsExactly (t.apply (.push slice)) := by
  have next := apply_within short within (.push slice) unwrapped
  have nextCur := next.cur_le
  have nextZero := next.zero_of_complete
  have advance : t.reassembler.curIdx ≤ (t.apply (.push slice)).reassembler.curIdx :=
    t.reassembler.curIdx_le_pushSubstring slice.data slice.index slice.eof
  rw [push_endsExactly_iff short within slice next, next.known, sawEof_push]
  rw [within.endsExactly_iff] at exact
  simp only [more, Bool.or_false, Bool.false_eq_true, false_and, or_false]
  by_cases saw : t.sawEof = true
  · simp only [saw, if_true, true_and] at exact ⊢
    constructor
    · rintro (ended | ⟨_, _, complete⟩)
      · have := exact.mp ended
        omega
      · omega
    · intro complete
      by_cases inWindow : slice.index ≤ t.reassembler.wrappedLimit
      · exact Or.inr ⟨inWindow, nextZero complete, complete.ge⟩
      · have same := pushSubstring_old slice.index slice.data slice.eof
          (Or.inl (by rw [within.valid.toShape.maxIdx_eq]; omega))
        exact Or.inl (exact.mpr (same.curIdx ▸ complete))
  · simp only [saw, Bool.false_eq_true, if_false, false_and, iff_false] at exact ⊢
    rintro (ended | ⟨_, _, complete⟩)
    · exact exact ended
    · omega

/-- An eof push whose limit has wrapped keeps the law: it is dropped, or the
stream is complete. -/
theorem push_ends_of_wrapped (short : stream.length < int32Max) (within : Within t) (exact : EndsExactly t)
    (slice : Slice stream) (unwrapped : t.reassembler.Unwrapped slice.index slice.len)
    (last : slice.eof = true) (wrapped : 2 ^ 64 ≤ t.reassembler.limit) :
    EndsExactly (t.apply (.push slice)) := by
  have whole : slice.index + slice.len = stream.length := by simpa [Slice.eof] using last
  have next := apply_within short within (.push slice) unwrapped
  have nextZero := next.zero_of_complete
  have cur := within.cur_le
  -- Something has been read, so the stream is not empty.
  have read := t.reassembler.output.counted
  have written := within.valid.written
  have size := within.size
  have seen := within.sawEof_of_complete (by simp only [limit] at wrapped; omega)
  have dropped : t.reassembler.wrappedLimit < slice.index ∨
      FixedWidth.add 64 slice.index slice.data.length ≤ t.reassembler.curIdx := by
    rw [length_data]
    by_contra kept
    have := (unwrapped (by omega) (by omega)).1
    omega
  have same : (t.apply (.push slice)).reassembler.curIdx = t.reassembler.curIdx :=
    (pushSubstring_old slice.index slice.data slice.eof (by rwa [within.valid.toShape.maxIdx_eq])).curIdx
  rw [FixedWidth.add_of_lt (Slice.fits short slice), length_data, whole] at dropped
  rw [push_endsExactly_iff short within slice next, next.known, sawEof_push, whole, same]
  rw [same] at nextZero
  rw [within.endsExactly_iff] at exact
  simp only [exact, last, Bool.or_true, true_and, if_true]
  constructor
  · rintro (⟨_, complete⟩ | ⟨inWindow, _⟩)
    · exact complete
    · omega
  · exact fun complete => Or.inl ⟨seen complete, complete⟩

/-- An eof push keeps the law exactly when it is safe. -/
theorem push_ends_iff (short : stream.length < int32Max) (within : Within t) (exact : EndsExactly t)
    (slice : Slice stream) (unwrapped : t.reassembler.Unwrapped slice.index slice.len)
    (last : slice.eof = true) :
    EndsExactly (t.apply (.push slice)) ↔ EndSafe t.reassembler slice := by
  rcases Nat.lt_or_ge t.reassembler.limit (2 ^ 64) with room | wrapped
  swap
  · exact iff_of_true (push_ends_of_wrapped short within exact slice unwrapped last wrapped)
      fun _ => Or.inl wrapped
  have whole : slice.index + slice.len = stream.length := by simpa [Slice.eof] using last
  have next := apply_within short within (.push slice) unwrapped
  have pushed : Pushed t.reassembler slice.data slice.index (t.apply (.push slice)).reassembler :=
    pushSubstring_spec within.valid room (Slice.fits short slice) slice.eof
  have cur := within.cur_le
  have nextCur := next.cur_le
  have nextZero := next.zero_of_complete
  have reached := within.valid.toShape.cur_le_limit
  have advance := pushed.cur_le
  rw [push_endsExactly_iff short within slice next, next.known, sawEof_push, whole, wrappedLimit_eq room]
  rw [within.endsExactly_iff] at exact
  simp only [EndSafe, last, true_implies, Nat.not_le.mpr room, false_or, Bool.or_true, true_and, if_true]
  by_cases complete : t.reassembler.curIdx = stream.length
  · exact iff_of_true (iff_of_true (Or.inr ⟨by omega, nextZero (by omega), by omega⟩)
      (by omega)) (Or.inl (by omega))
  have unended : t.reassembler.output.inputEnd ≠ true := fun h => complete (exact.mp h).2
  have safe := pushed.whole_iff_safe within.valid (by rw [length_data, whole]; exact next.inside)
    (by rw [length_data]; omega)
  rw [length_data, whole] at safe
  simp only [unended, Bool.false_eq_true, false_or, show t.reassembler.curIdx < stream.length by omega, or_true,
    and_true]
  rw [← safe]
  constructor
  · exact fun law inWindow zero => law.mp ⟨inWindow, zero⟩
  · intro law
    refine ⟨fun both => law both.1 both.2, fun done => ⟨?_, nextZero done⟩⟩
    -- A dropped push assembles nothing.
    by_contra outside
    have same := pushed.cur_of_ahead within.valid (by omega)
    omega

theorem apply_ends_iff (short : stream.length < int32Max) (within : Within t) (exact : EndsExactly t)
    (call : HonestCall stream) (unwrapped : call.Unwrapped t.reassembler) :
    EndsExactly (t.apply call) ↔ call.Safe t.reassembler := by
  cases call with
  | read len => exact iff_of_true exact trivial
  | push slice =>
    cases last : slice.eof with
    | false =>
      refine iff_of_true (push_ends_of_more short within exact slice unwrapped last) ?_
      simp [HonestCall.Safe, EndSafe, last]
    | true => exact push_ends_iff short within exact slice unwrapped last

theorem honestRun_append (calls : List (HonestCall stream)) (call : HonestCall stream) :
    honestRun stream cap (calls ++ [call]) = (honestRun stream cap calls).apply call := by
  simp [honestRun]

/-- No call of the run is made with a wrapped sum, unless it is dropped. -/
def Unwrapped (stream : List UInt8) (capacity : Nat) (calls : List (HonestCall stream)) : Prop :=
  Run.Permits apply (fun t call => call.Unwrapped t.reassembler) (start stream capacity) calls

/-- Over a whole run, the end is signalled exactly when the stream is complete,
after every call, if and only if every eof push of the run was safe. -/
theorem run_ends_exactly_iff_safe (stream : List UInt8) (capacity : Nat)
    (short : stream.length < int32Max) (size : capacity < 2 ^ 64)
    (calls : List (HonestCall stream)) (unwrapped : Unwrapped stream capacity calls) :
    (∀ done, done <+: calls → EndsExactly (honestRun stream capacity done)) ↔
      ∀ done call, done ++ [call] <+: calls →
        call.Safe (honestRun stream capacity done).reassembler := by
  suffices Within (honestRun stream capacity calls) ∧ (_ ↔ _) from this.2
  induction calls using List.reverseRecOn with
  | nil =>
    refine ⟨start_within size, iff_of_true ?_ ?_⟩
    · intro done first
      rw [List.prefix_nil.mp first]
      simp [EndsExactly, honestRun, start, new, inputEnded, ByteStream.inputEnded, ByteStream.new]
    · intro done call first
      simpa using first.length_le
  | append_singleton calls call ih =>
    obtain ⟨earlier, now⟩ := Run.permits_concat.mp unwrapped
    obtain ⟨within, ih⟩ := ih earlier
    have step := fun exact => apply_ends_iff short within exact call now
    rw [← honestRun_append] at step
    refine ⟨honestRun_append calls call ▸ apply_within short within call now, ?_⟩
    -- Prefixes of the longer run are those of the shorter one and the run itself.
    constructor
    · intro law done next first
      have before := ih.mp (fun done h => law done (h.trans (List.prefix_append _ _)))
      rcases List.prefix_concat_iff.mp first with whole | first
      · obtain ⟨rfl, rfl⟩ := List.append_singleton_inj.mp whole
        exact (step (law _ (List.prefix_append _ _))).mp (law _ List.prefix_rfl)
      · exact before done next first
    · intro safe done first
      have before := ih.mpr (fun done next h => safe done next (h.trans (List.prefix_append _ _)))
      rcases List.prefix_concat_iff.mp first with rfl | first
      · exact (step (before _ List.prefix_rfl)).mpr (safe _ _ List.prefix_rfl)
      · exact before done first

/-- Two slices in reverse order: the eof slice comes first and its byte is stored. -/
def reordered : List (HonestCall [97, 98]) := [.push ⟨1, 1, by decide⟩, .push ⟨0, 1, by decide⟩]

/-- All of memory as capacity, so that the limit is the largest `size_t`. -/
theorem run_ends_exactly_iff_safe_reordered :
    [97, 98].length < int32Max ∧ 2 ^ 64 - 1 < 2 ^ 64 ∧ Unwrapped [97, 98] (2 ^ 64 - 1) reordered ∧
    ((∀ done, done <+: reordered → EndsExactly (honestRun [97, 98] (2 ^ 64 - 1) done)) ↔
      ∀ done call, done ++ [call] <+: reordered →
        call.Safe (honestRun [97, 98] (2 ^ 64 - 1) done).reassembler) := by
  have unwrapped : Unwrapped [97, 98] (2 ^ 64 - 1) reordered := by
    unfold Unwrapped
    decide
  exact ⟨by decide, by decide, unwrapped,
    run_ends_exactly_iff_safe [97, 98] (2 ^ 64 - 1) (by decide) (by decide) _ unwrapped⟩

/-- A lone eof push ahead of a one-byte hole ends the output with nothing written. -/
theorem lone_eof_ends_early :
    ¬ ∀ (stream : List UInt8) (capacity : Nat) (calls : List (HonestCall stream)),
      stream.length < int32Max → EndsExactly (honestRun stream capacity calls) := by
  intro law
  have bad := law [97] 8 [.push ⟨1, 0, by decide⟩] (by decide)
  rw [EndsExactly] at bad
  revert bad
  decide

end Trace
end Sponge.StreamReassembler
