import Sponge.StreamReassembler.Store

/-! What one `pushSubstring` call does to the set of held indices, to the stored
bytes and to the end-of-input flag. Later modules use these laws and never unfold
the call. -/
namespace Sponge.StreamReassembler

variable {r : StreamReassembler} {stream data : List UInt8} {index : Nat} {eof : Bool}

/-- What is left of a push that reaches past the assembled index. -/
structure Clipped (index : Nat) (data : List UInt8) (maxIdx curIdx : Nat) (block : Node) : Prop where
  sized : block.Sized
  idx : block.idx = max index curIdx
  stop : block.stop = min (index + data.length) maxIdx
  slice : ∀ stream, SliceAt stream index data → SliceAt stream block.idx block.data

theorem clip_spec {maxIdx curIdx : Nat} (inside : index ≤ maxIdx) (reached : curIdx ≤ maxIdx)
    (fresh : curIdx < index + data.length) (fits : index + data.length < 2 ^ 64) :
    Clipped index data maxIdx curIdx (clip index data maxIdx curIdx) := by
  have wide : FixedWidth.add 64 index data.length = index + data.length := FixedWidth.add_of_lt fits
  simp only [clip, Node.new, wide]
  -- Cutting the right end keeps at least the bytes up to the assembled index.
  split_ifs with long old old <;>
    refine ⟨⟨rfl, ?_⟩, ?_, ?_, ?_⟩ <;>
    simp only [Node.stop, List.length_take, List.length_drop] at * <;> try omega
  · intro stream slice
    exact (slice.take _).drop _
  · exact fun stream slice => slice.take _
  · exact fun stream slice => slice.drop _
  · exact fun stream slice => slice

/-- The three exits of `pushSubstring`. -/
theorem pushSubstring_cases (r : StreamReassembler) (data : List UInt8) (index : Nat) (eof : Bool) :
    (r.maxIdx < index ∧ r.pushSubstring data index eof = r.noteEnd data index eof) ∨
    (index ≤ r.maxIdx ∧ FixedWidth.add 64 index data.length ≤ r.curIdx ∧
      r.pushSubstring data index eof = (r.noteEnd data index eof).endIfReached) ∨
    (index ≤ r.maxIdx ∧ r.curIdx < FixedWidth.add 64 index data.length ∧
      r.pushSubstring data index eof = (((r.noteEnd data index eof).store
        (clip index data r.maxIdx r.curIdx)).writeFirst.endIfReached).endIfEmpty eof) := by
  have same : (r.noteEnd data index eof).maxIdx = r.maxIdx ∧
      (r.noteEnd data index eof).curIdx = r.curIdx := by
    cases eof <;> exact ⟨rfl, rfl⟩
  simp only [pushSubstring, same]
  split_ifs with beyond old
  · exact Or.inl ⟨beyond, rfl⟩
  · exact Or.inr (Or.inl ⟨by omega, old, rfl⟩)
  · exact Or.inr (Or.inr ⟨by omega, by omega, rfl⟩)

theorem endIfReached_rule {P : ByteStream → Prop} (r : StreamReassembler) (start : P r.output)
    (ends : P r.output.endInput) : P r.endIfReached.output := by
  unfold endIfReached
  split_ifs
  · exact ends
  · exact start

/-- The output is only written to and ended: what these two keep, a push keeps. -/
theorem pushSubstring_output_rule {P : ByteStream → Prop} (r : StreamReassembler) (data : List UInt8)
    (index : Nat) (eof : Bool) (start : P r.output) (write : ∀ s data, P s → P (ByteStream.write s data).2)
    (ends : ∀ s, P s → P (ByteStream.endInput s)) : P (r.pushSubstring data index eof).output := by
  have noted : P (r.noteEnd data index eof).output := by
    cases eof <;> exact start
  rcases r.pushSubstring_cases data index eof with ⟨_, eq⟩ | ⟨_, _, eq⟩ | ⟨_, _, eq⟩ <;> rw [eq]
  · exact noted
  · exact endIfReached_rule _ noted (ends _ noted)
  · have written : P ((r.noteEnd data index eof).store (clip index data r.maxIdx r.curIdx)).writeFirst.output := by
      rcases writeFirst_cases _ with ⟨same, _⟩ | ⟨first, _, _, _, wrote⟩
      · rwa [same]
      · rw [wrote]
        exact write _ first.data noted
    have reached := endIfReached_rule _ written (ends _ written)
    unfold endIfEmpty
    split_ifs
    · exact ends _ reached
    · exact reached

/-- Whatever is pushed, the assembled index does not go back. -/
theorem curIdx_le_pushSubstring (r : StreamReassembler) (data : List UInt8) (index : Nat) (eof : Bool) :
    r.curIdx ≤ (r.pushSubstring data index eof).curIdx := by
  have noted : (r.noteEnd data index eof).curIdx = r.curIdx := by cases eof <;> rfl
  have reached : ∀ s : StreamReassembler, s.endIfReached.curIdx = s.curIdx := by
    intro s
    unfold endIfReached
    split_ifs <;> rfl
  have emptied : ∀ s : StreamReassembler, (s.endIfEmpty eof).curIdx = s.curIdx := by
    intro s
    unfold endIfEmpty
    split_ifs <;> rfl
  have written : ∀ s : StreamReassembler, s.curIdx ≤ s.writeFirst.curIdx := by
    intro s
    rcases s.writeFirst_cases with ⟨same, _⟩ | ⟨_, _, _, _, wrote⟩
    · rw [same]
    · rw [wrote]
      exact Nat.le_add_right _ _
  rcases r.pushSubstring_cases data index eof with ⟨_, eq⟩ | ⟨_, _, eq⟩ | ⟨_, _, eq⟩ <;> rw [eq]
  · exact noted.ge
  · rw [reached]
    exact noted.ge
  · rw [emptied, reached]
    exact noted.ge.trans (written ((r.noteEnd data index eof).store (clip index data r.maxIdx r.curIdx)))

/-- Equal up to the end-of-input bookkeeping, which no data law depends on. -/
structure SameData (r s : StreamReassembler) : Prop where
  dataBuffer : s.dataBuffer = r.dataBuffer
  unassembledBytes : s.unassembledBytes = r.unassembledBytes
  curIdx : s.curIdx = r.curIdx
  capacity : s.capacity = r.capacity
  buffer : s.output.buffer = r.output.buffer
  readBytes : s.output.readBytes = r.output.readBytes
  writeBytes : s.output.writeBytes = r.output.writeBytes
  outCapacity : s.output.capacity = r.output.capacity

theorem noteEnd_same (r : StreamReassembler) (data : List UInt8) (index : Nat) (eof : Bool) :
    SameData r (r.noteEnd data index eof) := by
  cases eof <;> exact ⟨rfl, rfl, rfl, rfl, rfl, rfl, rfl, rfl⟩

theorem endIfReached_same (r : StreamReassembler) : SameData r r.endIfReached := by
  unfold endIfReached
  split_ifs <;> exact ⟨rfl, rfl, rfl, rfl, rfl, rfl, rfl, rfl⟩

theorem endIfEmpty_same (r : StreamReassembler) (eof : Bool) : SameData r (r.endIfEmpty eof) := by
  unfold endIfEmpty
  split_ifs <;> exact ⟨rfl, rfl, rfl, rfl, rfl, rfl, rfl, rfl⟩

theorem SameData.trans {s t : StreamReassembler} (first : SameData r s) (second : SameData s t) :
    SameData r t := by
  constructor
  · exact second.dataBuffer.trans first.dataBuffer
  · exact second.unassembledBytes.trans first.unassembledBytes
  · exact second.curIdx.trans first.curIdx
  · exact second.capacity.trans first.capacity
  · exact second.buffer.trans first.buffer
  · exact second.readBytes.trans first.readBytes
  · exact second.writeBytes.trans first.writeBytes
  · exact second.outCapacity.trans first.outCapacity

theorem SameData.limit {s : StreamReassembler} (same : SameData r s) : s.limit = r.limit := by
  simp only [StreamReassembler.limit, same.readBytes, same.capacity]

theorem SameData.held {s : StreamReassembler} (same : SameData r s) : s.held = r.held := by
  simp only [StreamReassembler.held, same.curIdx, same.dataBuffer]

theorem SameData.shape {s : StreamReassembler} (same : SameData r s) (shape : Shape r) :
    Shape s := by
  constructor <;> simp only [same.dataBuffer, same.curIdx, same.limit, same.unassembledBytes,
    same.writeBytes, same.outCapacity, same.capacity]
  exacts [shape.separated, shape.len, shape.above, shape.below, shape.count, shape.written,
    shape.capacity]

theorem SameData.valid {s : StreamReassembler} (same : SameData r s) (valid : Valid r) :
    Valid s := by
  refine ⟨same.shape valid.toShape, ?_⟩
  simpa only [same.dataBuffer, same.curIdx] using valid.missing

theorem SameData.holds {s : StreamReassembler} (same : SameData r s) (holds : Holds stream r) :
    Holds stream s := by
  constructor
  · simpa only [same.readBytes, same.buffer] using holds.output
  · simpa only [same.dataBuffer] using holds.nodes

/-- A read moves the window and nothing else. -/
theorem Valid.readOutput (valid : Valid r) (len : Nat) : Valid (r.readOutput len).2 := by
  have shape := valid.toShape
  have read := ByteStream.read_readBytes r.output len
  refine ⟨⟨shape.separated, shape.len, shape.above, ?_, shape.count, shape.written, shape.capacity⟩,
    valid.missing⟩
  intro n member
  have below := shape.below n member
  simp only [StreamReassembler.readOutput, limit, read] at below ⊢
  omega

theorem Holds.readOutput (holds : Holds stream r) (len : Nat) : Holds stream (r.readOutput len).2 := by
  refine ⟨?_, holds.nodes⟩
  have tail := holds.output.drop (min len r.output.buffer.length)
  simp only [StreamReassembler.readOutput]
  rw [ByteStream.read_readBytes, ByteStream.read_buffer, List.drop_eq_drop_min]
  exact tail

/-- The data law of one push. The window is the one before the call. -/
structure Pushed (r : StreamReassembler) (data : List UInt8) (index : Nat)
    (s : StreamReassembler) : Prop where
  valid : s.Valid
  held : s.held = r.held ∪ Finset.Ico (max index r.curIdx) (min (index + data.length) r.limit)
  limit : s.limit = r.limit
  readBytes : s.output.readBytes = r.output.readBytes
  capacity : s.capacity = r.capacity
  holds : ∀ stream, Holds stream r → SliceAt stream index data → Holds stream s

theorem SameData.pushed_empty {s : StreamReassembler} (same : SameData r s) (valid : Valid r)
    (outside : min (index + data.length) r.limit ≤ max index r.curIdx) : Pushed r data index s := by
  refine ⟨same.valid valid, ?_, same.limit, same.readBytes, same.capacity,
    fun _ holds _ => same.holds holds⟩
  rw [same.held, Finset.Ico_eq_empty_of_le outside, Finset.union_empty]

theorem writeFirst_readBytes (r : StreamReassembler) :
    r.writeFirst.output.readBytes = r.output.readBytes ∧ r.writeFirst.capacity = r.capacity := by
  rcases r.writeFirst_cases with ⟨same, _⟩ | ⟨_, _, _, _, wrote⟩
  · rw [same]
    exact ⟨rfl, rfl⟩
  · rw [wrote]
    exact ⟨rfl, rfl⟩

/-- The block of a push that reaches past the assembled index is stored among the
nodes, and leaves them in shape. -/
theorem Valid.stored (valid : Valid r) (room : r.limit < 2 ^ 64) (fits : index + data.length < 2 ^ 64)
    (inside : index ≤ r.limit) (fresh : r.curIdx < index + data.length) (eof : Bool) :
    Clipped index data r.limit r.curIdx (clip index data r.limit r.curIdx) ∧
    (∃ before merged after, Stored (r.noteEnd data index eof) (clip index data r.limit r.curIdx) before merged after) ∧
    Shape ((r.noteEnd data index eof).store (clip index data r.limit r.curIdx)) := by
  have noted := noteEnd_same r data index eof
  have clipped := clip_spec inside valid.toShape.cur_le_limit fresh fits
  have shape := noted.shape valid.toShape
  have notedRoom : (r.noteEnd data index eof).limit < 2 ^ 64 := by rwa [noted.limit]
  obtain ⟨before, merged, after, stored⟩ := store_split shape notedRoom clipped.sized
  have reached := valid.toShape.cur_le_limit
  exact ⟨clipped, ⟨before, merged, after, stored⟩, stored.shape shape notedRoom
    (by rw [noted.curIdx, clipped.idx]; omega) (by rw [noted.limit, clipped.stop]; omega)⟩

theorem pushSubstring_spec (valid : Valid r) (room : r.limit < 2 ^ 64)
    (fits : index + data.length < 2 ^ 64) (eof : Bool) :
    Pushed r data index (r.pushSubstring data index eof) := by
  have maxEq := valid.toShape.maxIdx room
  have wide : FixedWidth.add 64 index data.length = index + data.length := FixedWidth.add_of_lt fits
  have noted := noteEnd_same r data index eof
  rcases pushSubstring_cases r data index eof with ⟨beyond, eq⟩ | ⟨inside, old, eq⟩ |
    ⟨inside, fresh, eq⟩
  · rw [eq]
    exact noted.pushed_empty valid (by omega)
  · rw [eq]
    exact (noted.trans (endIfReached_same _)).pushed_empty valid (by omega)
  · rw [maxEq, wide] at *
    obtain ⟨clipped, ⟨before, merged, after, stored⟩, storedShape⟩ := valid.stored room fits inside fresh eof
    have storedLimit : ((r.noteEnd data index eof).store
        (clip index data r.limit r.curIdx)).limit = r.limit := noted.limit
    obtain ⟨written, writtenHeld, writtenLimit⟩ :=
      writeFirst_spec storedShape (by rwa [storedLimit])
    have ended := (endIfReached_same _).trans (endIfEmpty_same (StreamReassembler.writeFirst
      ((r.noteEnd data index eof).store (clip index data r.limit r.curIdx))).endIfReached eof)
    obtain ⟨readEq, capEq⟩ := writeFirst_readBytes
      ((r.noteEnd data index eof).store (clip index data r.limit r.curIdx))
    rw [eq]
    refine ⟨ended.valid written, ?_, ?_, ?_, ?_, ?_⟩
    · rw [ended.held, writtenHeld, StreamReassembler.held, stored.buffer, stored.cover,
        StreamReassembler.cover, Span.cover_cons, clipped.idx, clipped.stop, store_curIdx, noted.curIdx, noted.dataBuffer]
      ext i
      simp only [StreamReassembler.held, Finset.mem_union]
      tauto
    · rw [ended.limit, writtenLimit, storedLimit]
    · rw [ended.readBytes, readEq, store_output, noted.readBytes]
    · rw [ended.capacity, capEq, store_capacity, noted.capacity]
    · intro stream holds slice
      exact ended.holds (writeFirst_holds storedShape
        (stored.holds (noted.holds holds) (clipped.slice stream slice)))

/-- A push past the limit or of assembled bytes only leaves the data alone,
whatever wraps. -/
theorem pushSubstring_old (index : Nat) (data : List UInt8) (eof : Bool)
    (dropped : r.maxIdx < index ∨ FixedWidth.add 64 index data.length ≤ r.curIdx) :
    SameData r (r.pushSubstring data index eof) := by
  have noted := noteEnd_same r data index eof
  rcases pushSubstring_cases r data index eof with ⟨_, eq⟩ | ⟨_, _, eq⟩ | ⟨inside, fresh, _⟩
  · rw [eq]
    exact noted
  · rw [eq]
    exact noted.trans (endIfReached_same _)
  · omega

/-- A push that is not dropped is made without a wrapped sum. -/
def Unwrapped (r : StreamReassembler) (index len : Nat) : Prop :=
  index ≤ r.wrappedLimit → r.curIdx < FixedWidth.add 64 index len →
    r.limit < 2 ^ 64 ∧ index + len < 2 ^ 64

instance decidableUnwrapped (r : StreamReassembler) (index len : Nat) : Decidable (r.Unwrapped index len) :=
  inferInstanceAs (Decidable (_ → _ → _ ∧ _))

theorem Valid.push_cases (valid : Valid r) (unwrapped : r.Unwrapped index data.length) (eof : Bool) :
    (r.wrappedLimit < index ∨ FixedWidth.add 64 index data.length ≤ r.curIdx) ∧
      SameData r (r.pushSubstring data index eof) ∨
    r.limit < 2 ^ 64 ∧ index + data.length < 2 ^ 64 ∧
      Pushed r data index (r.pushSubstring data index eof) := by
  by_cases dropped : r.wrappedLimit < index ∨ FixedWidth.add 64 index data.length ≤ r.curIdx
  · refine Or.inl ⟨dropped, pushSubstring_old index data eof ?_⟩
    rwa [valid.toShape.maxIdx_eq]
  · obtain ⟨room, fits⟩ := unwrapped (by omega) (by omega)
    exact Or.inr ⟨room, fits, pushSubstring_spec valid room fits eof⟩

/-- The indices a push adds: its slice inside the window. -/
def arriving (r : StreamReassembler) (index len : Nat) : Finset Nat :=
  Finset.Ico (max index r.curIdx) (min (FixedWidth.add 64 index len) r.wrappedLimit)

/-- What a push does to the held indices, as long as it makes no wrapped sum. -/
theorem Valid.push (valid : Valid r) (unwrapped : r.Unwrapped index data.length) (eof : Bool) :
    Valid (r.pushSubstring data index eof) ∧
    (r.pushSubstring data index eof).held = r.held ∪ r.arriving index data.length ∧
    (r.pushSubstring data index eof).capacity = r.capacity := by
  rcases valid.push_cases unwrapped eof with ⟨dropped, same⟩ | ⟨room, fits, pushed⟩
  · refine ⟨same.valid valid, ?_, same.capacity⟩
    rw [same.held, arriving, Finset.Ico_eq_empty_of_le (by omega), Finset.union_empty]
  · refine ⟨pushed.valid, ?_, pushed.capacity⟩
    rw [pushed.held, arriving, FixedWidth.add_of_lt fits, wrappedLimit_eq room]

theorem Valid.cur_not_held (valid : Valid r) : r.curIdx ∉ r.held := by
  simp only [held, Finset.mem_union, Finset.mem_range, Span.mem_cover]
  rintro (h | ⟨n, member, lower, _⟩)
  · omega
  · have := valid.missing n member
    omega

theorem Pushed.cur_le {s : StreamReassembler} (pushed : Pushed r data index s) :
    r.curIdx ≤ s.curIdx := by
  by_contra less
  apply pushed.valid.cur_not_held
  rw [pushed.held]
  exact Finset.mem_union_left _ (Finset.mem_union_left _ (Finset.mem_range.mpr (by omega)))

/-- The stored bytes are counted without repetition. -/
theorem Valid.unassembled_eq (valid : Valid r) :
    r.unassembledBytes = (r.held.filter (r.curIdx ≤ ·)).card := by
  rw [valid.count, StreamReassembler.total, ← Span.card_cover valid.separated]
  congr 1
  ext i
  simp only [held, Finset.mem_filter, Finset.mem_union, Finset.mem_range]
  constructor
  · intro member
    obtain ⟨n, stored, lower, _⟩ := Span.mem_cover.mp member
    have := valid.missing n stored
    exact ⟨Or.inr member, by omega⟩
  · rintro ⟨h | h, above⟩
    · omega
    · exact h

theorem Valid.unassembled_zero_iff (valid : Valid r) :
    r.unassembledBytes = 0 ↔ ∀ i ∈ r.held, i < r.curIdx := by
  rw [valid.unassembled_eq, Finset.card_eq_zero, Finset.filter_eq_empty_iff]
  simp only [not_le]

/-- The assembled index is determined by the held indices. -/
theorem Valid.cur_eq (valid : Valid r) {k : Nat} (below : ∀ i < k, i ∈ r.held) (gap : k ∉ r.held) :
    r.curIdx = k := by
  rcases Nat.lt_trichotomy r.curIdx k with h | h | h
  · exact absurd (below _ h) valid.cur_not_held
  · exact h
  · exact absurd (Finset.mem_union_left _ (Finset.mem_range.mpr h)) gap

theorem Valid.held_lt_limit (valid : Valid r) : ∀ i ∈ r.held, i < r.limit := by
  intro i member
  have reached := valid.toShape.cur_le_limit
  simp only [held, Finset.mem_union, Finset.mem_range, Span.mem_cover] at member
  rcases member with h | ⟨n, stored, _, upper⟩
  · omega
  · exact upper.trans_le (valid.below n stored)

/-- A push that starts at or before the assembled index is assembled up to its
end or to the limit. -/
theorem Pushed.cur_ge {s : StreamReassembler} (pushed : Pushed r data index s)
    (start : index ≤ r.curIdx) : min (index + data.length) r.limit ≤ s.curIdx := by
  by_contra less
  apply pushed.valid.cur_not_held
  have := pushed.cur_le
  rw [pushed.held]
  exact Finset.mem_union_right _ (Finset.mem_Ico.mpr (by omega))

/-- A push ahead of the assembled index assembles nothing. -/
theorem Pushed.cur_of_ahead {s : StreamReassembler} (pushed : Pushed r data index s)
    (valid : Valid r) (ahead : r.curIdx < index) : s.curIdx = r.curIdx := by
  apply pushed.valid.cur_eq
  · intro i below
    rw [pushed.held]
    exact Finset.mem_union_left _ (Finset.mem_union_left _ (Finset.mem_range.mpr below))
  · rw [pushed.held, Finset.mem_union, not_or]
    exact ⟨valid.cur_not_held, by rw [Finset.mem_Ico]; omega⟩

theorem Pushed.zero_of_ahead {s : StreamReassembler} (pushed : Pushed r data index s)
    (valid : Valid r) (ahead : r.curIdx < index) :
    s.unassembledBytes = 0 ↔
      r.unassembledBytes = 0 ∧ min (index + data.length) r.limit ≤ index := by
  rw [pushed.valid.unassembled_zero_iff, valid.unassembled_zero_iff, pushed.held,
    pushed.cur_of_ahead valid ahead, Nat.max_eq_left ahead.le]
  constructor
  · intro all
    refine ⟨fun i member => all i (Finset.mem_union_left _ member), ?_⟩
    by_contra longer
    have := all index (Finset.mem_union_right _ (Finset.mem_Ico.mpr ⟨le_rfl, by omega⟩))
    omega
  · rintro ⟨all, short⟩ i member
    rw [Finset.Ico_eq_empty_of_le short, Finset.union_empty] at member
    exact all i member

end Sponge.StreamReassembler
