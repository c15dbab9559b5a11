import Sponge.StreamReassembler.Arbitrary

/-! Runs without an eof. The end index that is not yet known is an ordinary number
in the source, so the output ends once as many bytes are assembled as that
placeholder says and none is stored beyond a hole. -/
namespace Sponge.StreamReassembler

variable {r : StreamReassembler} {data : List UInt8} {index capacity : Nat} {op : Op}

def Op.NoEof : Op → Prop
  | .push _ _ eof => eof = false
  | .read _ => True

def Op.Unwrapped (r : StreamReassembler) : Op → Prop
  | .push data index _ => r.Unwrapped index data.length
  | .read _ => True

instance Op.decidableUnwrapped (r : StreamReassembler) : ∀ op : Op, Decidable (op.Unwrapped r)
  | .push data index _ => inferInstanceAs (Decidable (r.Unwrapped index data.length))
  | .read _ => isTrue trivial

def run (capacity : Nat) (ops : List Op) : StreamReassembler := ops.foldl apply (new capacity)

theorem run_append (ops : List Op) (op : Op) : run capacity (ops ++ [op]) = (run capacity ops).apply op := by
  simp [run]

/-- A push without eof ends the output if it reaches the placeholder. -/
theorem apply_ended_iff (unknown : r.inputEndIdx = int32Max) (noEof : op.NoEof) :
    (r.apply op).inputEndIdx = int32Max ∧
      ((r.apply op).inputEnded = true ↔ r.inputEnded = true ∨
        ∃ data index, op = .push data index false ∧ index ≤ r.maxIdx ∧
          int32Max ≤ (r.apply op).curIdx ∧ (r.apply op).unassembledBytes = 0) := by
  cases op with
  | read len => exact ⟨unknown, by simp [apply, readOutput, inputEnded, ByteStream.inputEnded]⟩
  | push data index eof =>
    obtain rfl : eof = false := noEof
    obtain ⟨endIdx, ended⟩ := r.pushSubstring_tests data index false
    have still : (r.pushSubstring data index false).inputEndIdx = int32Max := endIdx.trans unknown
    rw [still] at ended
    refine ⟨still, ended.trans (or_congr_right ?_)⟩
    simp only [Bool.false_eq_true, false_and, or_false]
    constructor
    · rintro ⟨inside, zero, past⟩
      exact ⟨data, index, rfl, inside, past, zero⟩
    · rintro ⟨_, _, same, inside, past, zero⟩
      cases same
      exact ⟨inside, zero, past⟩

/-- The push lies in the window, and with its slice the held indices are an
initial segment as long as the placeholder for the end index, or longer. -/
def Fills (r : StreamReassembler) (data : List UInt8) (index : Nat) : Prop :=
  index ≤ r.wrappedLimit ∧
    ∃ k, int32Max ≤ k ∧ r.held ∪ r.arriving index data.length = Finset.range k

/-- Nothing is stored exactly when the held indices are an initial segment. -/
theorem Valid.segment_iff (valid : Valid r) (n : Nat) :
    n ≤ r.curIdx ∧ r.unassembledBytes = 0 ↔ ∃ k, n ≤ k ∧ r.held = Finset.range k := by
  rw [valid.unassembled_zero_iff]
  constructor
  · rintro ⟨reached, below⟩
    refine ⟨r.curIdx, reached, Finset.Subset.antisymm ?_ Finset.subset_union_left⟩
    exact fun i member => Finset.mem_range.mpr (below i member)
  · rintro ⟨k, reached, segment⟩
    have cur : r.curIdx = k := by
      apply valid.cur_eq <;> rw [segment]
      · exact fun i => Finset.mem_range.mpr
      · simp
    rw [segment, cur]
    exact ⟨reached, fun i => Finset.mem_range.mp⟩

theorem Valid.ended_iff (valid : Valid r) (unknown : r.inputEndIdx = int32Max)
    (unwrapped : r.Unwrapped index data.length) :
    (r.apply (.push data index false)).inputEnded = true ↔ r.inputEnded = true ∨ Fills r data index := by
  obtain ⟨next, held, _⟩ := valid.push unwrapped false
  rw [(apply_ended_iff unknown (show Op.NoEof (.push data index false) from rfl)).2, Fills, ← held, ← next.segment_iff,
    ← valid.toShape.maxIdx_eq]
  constructor
  · rintro (before | ⟨_, _, same, now⟩)
    · exact Or.inl before
    · cases same
      exact Or.inr now
  · rintro (before | now)
    · exact Or.inl before
    · exact Or.inr ⟨data, index, rfl, now⟩

section Light

/-- The bytes of the nodes. -/
def stored (nodes : List Node) : Nat := (nodes.map fun n => n.data.length).sum

theorem stored_append (left right : List Node) : stored (left ++ right) = stored left + stored right := by
  simp [stored]

theorem stored_cons (n : Node) (rest : List Node) : stored (n :: rest) = n.data.length + stored rest := rfl

theorem mergeTo_length {a b merged : Node} {overlap : Nat} (eq : mergeTo a b = some (merged, overlap)) :
    merged.data.length ≤ a.data.length + b.data.length := by
  simp only [mergeTo] at eq
  split_ifs at eq <;> cases eq <;> simp [Node.new]
  all_goals omega

theorem absorb_length (nodes : List Node) (block : Node) (count : Nat) :
    (absorb block count nodes).1.data.length + stored (absorb block count nodes).2.1 ≤
      block.data.length + stored nodes := by
  induction nodes generalizing block count with
  | nil => exact le_rfl
  | cons it rest ih =>
    rw [absorb, stored_cons]
    cases merge : mergeTo block it with
    | none => exact le_rfl
    | some pair =>
      have shorter := mergeTo_length merge
      have := ih pair.1 (FixedWidth.sub 64 count pair.2)
      simp only
      omega

theorem lowerBound_eq (buffer : List Node) (block : Node) :
    (lowerBound buffer block).1 ++ (lowerBound buffer block).2 = buffer := by
  rw [lowerBound, List.span_eq_takeWhile_dropWhile]
  exact List.takeWhile_append_dropWhile

theorem insertNode_length (buffer : List Node) (block : Node) :
    stored (insertNode buffer block) ≤ stored buffer + block.data.length := by
  have whole := lowerBound_eq buffer block
  unfold insertNode
  cases split : lowerBound buffer block with
  | mk before after =>
    rw [split] at whole
    rw [← whole]
    cases after with
    | nil => simp [stored]
    | cons it after =>
      simp only
      split_ifs
      · omega
      · simp only [stored_append, stored_cons]
        omega

theorem store_length (r : StreamReassembler) (block : Node) :
    stored (r.store block).dataBuffer ≤ stored r.dataBuffer + block.data.length := by
  have whole := lowerBound_eq r.dataBuffer block
  have reversed : ∀ nodes, stored (List.reverse nodes) = stored nodes := by simp [stored]
  simp only [store]
  generalize lowerBound r.dataBuffer block = split at whole ⊢
  obtain ⟨before, after⟩ := split
  have succ := absorb_length after block (FixedWidth.add 64 r.unassembledBytes block.len)
  generalize absorb block (FixedWidth.add 64 r.unassembledBytes block.len) after = absorbed at succ ⊢
  obtain ⟨enlarged, right, count⟩ := absorbed
  have pred := absorb_length before.reverse enlarged count
  generalize absorb enlarged count before.reverse = absorbed at pred ⊢
  obtain ⟨merged, left, last⟩ := absorbed
  refine (insertNode_length _ _).trans ?_
  rw [← whole]
  simp only [stored_append, reversed] at succ pred ⊢
  omega

theorem clip_length (index : Nat) (data : List UInt8) (maxIdx curIdx : Nat) :
    (clip index data maxIdx curIdx).data.length ≤ data.length := by
  simp only [clip]
  split_ifs <;> simp [Node.new]

/-- A push assembles at most what was assembled, stored or pushed. -/
theorem curIdx_pushSubstring_le (r : StreamReassembler) (data : List UInt8) (index : Nat) (eof : Bool) :
    (r.pushSubstring data index eof).curIdx ≤ r.curIdx + stored r.dataBuffer + data.length := by
  have noted := noteEnd_same r data index eof
  rcases pushSubstring_cases r data index eof with ⟨_, eq⟩ | ⟨_, _, eq⟩ | ⟨_, _, eq⟩ <;> rw [eq]
  · have := noted.curIdx
    omega
  · have := (noted.trans (endIfReached_same _)).curIdx
    omega
  · rw [((endIfReached_same _).trans (endIfEmpty_same _ eof)).curIdx]
    have kept := store_length (r.noteEnd data index eof) (clip index data r.maxIdx r.curIdx)
    have clipped := clip_length index data r.maxIdx r.curIdx
    rw [noted.dataBuffer] at kept
    rcases writeFirst_cases ((r.noteEnd data index eof).store (clip index data r.maxIdx r.curIdx)) with
      ⟨same, _⟩ | ⟨first, rest, buffer, _, wrote⟩
    · rw [same, store_curIdx, noted.curIdx]
      omega
    · have written := ByteStream.writeLen_le (r.noteEnd data index eof).output first.data
      rw [buffer, stored_cons] at kept
      rw [wrote]
      simp only [store_curIdx, store_output, noted.curIdx, ByteStream.write]
      omega

/-- Not as many bytes as the placeholder says, wherever they lie. -/
def Light (r : StreamReassembler) (data : List UInt8) : Prop :=
  r.curIdx + stored r.dataBuffer + data.length < int32Max

theorem Light.open_of_open (light : Light r data) (unknown : r.inputEndIdx = int32Max)
    (before : r.inputEnded = false) : (r.apply (.push data index false)).inputEnded = false := by
  rw [← Bool.not_eq_true, (apply_ended_iff unknown (show Op.NoEof (.push data index false) from rfl)).2]
  rintro (ended | ⟨_, _, _, _, reached, _⟩)
  · rw [before] at ended
    cases ended
  · have := r.curIdx_pushSubstring_le data index false
    have bound : r.curIdx + stored r.dataBuffer + data.length < int32Max := light
    simp only [apply] at reached
    omega

end Light

theorem run_unknown {ops : List Op} (noEof : ∀ op ∈ ops, op.NoEof) : (run capacity ops).inputEndIdx = int32Max := by
  induction ops using List.reverseRecOn with
  | nil => rfl
  | append_singleton ops op ih =>
    rw [run_append]
    exact (apply_ended_iff (ih fun other member => noEof other (List.mem_append_left _ member))
      (noEof op (by simp))).1

theorem run_open_iff_unfilled {ops : List Op} (noEof : ∀ op ∈ ops, op.NoEof)
    (unwrapped : Run.Permits apply (fun r op => op.Unwrapped r) (new capacity) ops) :
    Valid (run capacity ops) ∧ ((run capacity ops).inputEnded = false ↔
      ∀ done data index, done ++ [.push data index false] <+: ops → ¬ Fills (run capacity done) data index) := by
  induction ops using List.reverseRecOn with
  | nil =>
    refine ⟨new_valid capacity, iff_of_true rfl fun done data index first => ?_⟩
    simpa using first.length_le
  | append_singleton ops op ih =>
    obtain ⟨earlier, now⟩ := Run.permits_concat.mp unwrapped
    have noEofs : ∀ other ∈ ops, other.NoEof := fun other member => noEof other (List.mem_append_left _ member)
    obtain ⟨valid, before⟩ := ih noEofs earlier
    have unknown : (run capacity ops).inputEndIdx = int32Max := run_unknown noEofs
    rw [run_append]
    cases op with
    | read len =>
      refine ⟨valid.readOutput len, before.trans ?_⟩
      constructor
      · intro law done data index first
        rcases List.prefix_concat_iff.mp first with whole | first
        · simp at whole
        · exact law done data index first
      · exact fun law done data index first => law done data index (first.trans (List.prefix_append _ _))
    | push data index eof =>
      obtain rfl : eof = false := noEof (.push data index eof) (by simp)
      refine ⟨(valid.push now false).1, ?_⟩
      rw [← Bool.not_eq_true, valid.ended_iff unknown now, not_or, Bool.not_eq_true, before]
      constructor
      · rintro ⟨law, unfilled⟩ done other offset first
        rcases List.prefix_concat_iff.mp first with whole | first
        · obtain ⟨rfl, last⟩ := List.append_singleton_inj.mp whole
          cases last
          exact unfilled
        · exact law done other offset first
      · exact fun law => ⟨fun done other offset first => law done other offset
          (first.trans (List.prefix_append _ _)), law ops data index List.prefix_rfl⟩

/-- Pushes of few bytes never end the output, whatever wraps. -/
theorem run_open_of_light {ops : List Op} (noEof : ∀ op ∈ ops, op.NoEof)
    (light : ∀ done data index, done ++ [.push data index false] <+: ops → Light (run capacity done) data) :
    (run capacity ops).inputEnded = false := by
  induction ops using List.reverseRecOn with
  | nil => rfl
  | append_singleton ops op ih =>
    have noEofs : ∀ other ∈ ops, other.NoEof := fun other member => noEof other (List.mem_append_left _ member)
    have before := ih noEofs fun done data index first => light done data index (first.trans (List.prefix_append _ _))
    rw [run_append]
    cases op with
    | read len => exact before
    | push data index eof =>
      obtain rfl : eof = false := noEof (.push data index eof) (by simp)
      exact (light ops data index List.prefix_rfl).open_of_open (run_unknown noEofs) before

/-- Without an eof and without a wrapped sum the output stays open if and only if
no push fills 2³¹ - 1 or more indices from the start and none beyond a hole; and
whatever wraps, it stays open as long as there are fewer bytes than that. -/
theorem run_open_iff (capacity : Nat) (ops : List Op) (noEof : ∀ op ∈ ops, op.NoEof) :
    (Run.Permits apply (fun r op => op.Unwrapped r) (new capacity) ops →
      ((run capacity ops).inputEnded = false ↔
        ∀ done data index, done ++ [.push data index false] <+: ops → ¬ Fills (run capacity done) data index)) ∧
    ((∀ done data index, done ++ [.push data index false] <+: ops → Light (run capacity done) data) →
      (run capacity ops).inputEnded = false) :=
  ⟨fun unwrapped => (run_open_iff_unfilled noEof unwrapped).2, run_open_of_light noEof⟩

/-- All of memory as capacity: the read makes the limit wrap, and the second byte is dropped. -/
def dropping : List Op := [.push [1] 0 false, .read 1, .push [2] 1 false]

theorem run_open_iff_dropping :
    (∀ op ∈ dropping, op.NoEof) ∧ (run (2 ^ 64 - 1) dropping).inputEnded = false ∧
    ((run (2 ^ 64 - 1) dropping).inputEnded = false ↔
      ∀ done data index, done ++ [.push data index false] <+: dropping →
        ¬ Fills (run (2 ^ 64 - 1) done) data index) := by
  have noEof : ∀ op ∈ dropping, op.NoEof := by simp [dropping, Op.NoEof]
  exact ⟨noEof, by decide, (run_open_iff (2 ^ 64 - 1) dropping noEof).1 (by decide)⟩

/-- A stream whose first 2³¹ - 1 bytes arrive at once. -/
theorem long_stream_ends :
    ¬ ∀ (capacity : Nat) (ops : List Op), (∀ op ∈ ops, op.NoEof) → (run capacity ops).inputEnded = false := by
  intro law
  obtain ⟨data, size⟩ : ∃ data : List UInt8, data.length = int32Max := ⟨List.replicate _ 0, List.length_replicate⟩
  have stays : ((new int32Max).pushSubstring data 0 false).output.inputEnd = false :=
    law int32Max [.push data 0 false] (by simp [Op.NoEof])
  have small : int32Max < 2 ^ 64 := by decide
  have top : (new int32Max).limit = int32Max := Nat.zero_add _
  have valid := new_valid int32Max
  have pushed := pushSubstring_spec valid (by rw [top]; exact small)
    (by rw [size, Nat.zero_add]; exact small) false
  have assembled := pushed.cur_ge (Nat.zero_le _)
  rw [size, top, Nat.zero_add, Nat.min_self] at assembled
  have nothing := pushed.valid.unassembled_zero_iff.mpr (by
    intro i member
    have := pushed.valid.held_lt_limit i member
    rw [pushed.limit, top] at this
    omega)
  obtain ⟨endIdx, ended⟩ := (new int32Max).pushSubstring_tests data 0 false
  have reached : ((new int32Max).pushSubstring data 0 false).inputEndIdx ≤
      ((new int32Max).pushSubstring data 0 false).curIdx := endIdx.trans_le assembled
  rw [ended.mpr (.inr ⟨Nat.zero_le _, nothing, .inl reached⟩)] at stays
  cases stays

end Sponge.StreamReassembler
