import Sponge.StreamReassembler.Merge
import Mathlib.Data.List.TakeWhile

/-! The representation invariant of the reassembler, and its preservation by
the two stateful steps of a push: storing a block among the nodes and writing
the first node to the output. -/
namespace Sponge.StreamReassembler

variable {r : StreamReassembler} {block : Node} {stream data : List UInt8} {index : Nat} {eof : Bool}

/-- The first index that does not fit: everything already read plus the capacity. -/
def limit (r : StreamReassembler) : Nat := r.output.readBytes + r.capacity

/-- What the source's `size_t` makes of the limit. -/
def wrappedLimit (r : StreamReassembler) : Nat := FixedWidth.trunc 64 r.limit

/-- Stored nodes are separated ranges between the assembled index and the
limit, and the counters describe them. -/
structure Shape (r : StreamReassembler) : Prop where
  separated : Separated r.dataBuffer
  len : ∀ n ∈ r.dataBuffer, n.len = n.data.length
  above : ∀ n ∈ r.dataBuffer, r.curIdx ≤ n.idx
  below : ∀ n ∈ r.dataBuffer, n.stop ≤ r.limit
  count : r.unassembledBytes = total r.dataBuffer
  written : r.curIdx = r.output.writeBytes
  capacity : r.output.capacity = r.capacity

/-- Between calls the byte at the assembled index itself is never stored. -/
structure Valid (r : StreamReassembler) : Prop extends Shape r where
  missing : ∀ n ∈ r.dataBuffer, r.curIdx < n.idx

/-- The indices assembled or stored. -/
def held (r : StreamReassembler) : Finset Nat := Finset.range r.curIdx ∪ cover r.dataBuffer

/-- Every byte in the output buffer and in a node is the stream's byte there. -/
structure Holds (stream : List UInt8) (r : StreamReassembler) : Prop where
  output : SliceAt stream r.output.readBytes r.output.buffer
  nodes : ∀ n ∈ r.dataBuffer, SliceAt stream n.idx n.data

theorem new_valid (capacity : Nat) : (new capacity).Valid := by
  constructor
  · constructor <;> simp [new, ByteStream.new, Span.Separated]
  · simp [new]

theorem new_holds (stream : List UInt8) (capacity : Nat) : Holds stream (new capacity) :=
  ⟨.nil _ _, by simp [new]⟩

theorem Shape.cur_le_limit (shape : Shape r) : r.curIdx ≤ r.limit := by
  have counted := r.output.counted
  have fits := r.output.fits
  have written := shape.written
  have capacity := shape.capacity
  simp only [limit]
  omega

theorem Shape.maxIdx_eq (shape : Shape r) : r.maxIdx = r.wrappedLimit := by
  have counted := r.output.counted
  have written := shape.written
  have size : r.output.bufferSize = r.output.buffer.length := rfl
  rw [StreamReassembler.maxIdx, FixedWidth.sub_eq_mod (by omega), FixedWidth.add, Nat.mod_add_mod,
    wrappedLimit, FixedWidth.trunc, limit]
  congr 2
  omega

theorem wrappedLimit_eq (room : r.limit < 2 ^ 64) : r.wrappedLimit = r.limit := Nat.mod_eq_of_lt room

theorem Shape.maxIdx (shape : Shape r) (room : r.limit < 2 ^ 64) : r.maxIdx = r.limit :=
  shape.maxIdx_eq.trans (wrappedLimit_eq room)

theorem Shape.sized (shape : Shape r) (room : r.limit < 2 ^ 64) :
    ∀ n ∈ r.dataBuffer, n.Sized :=
  fun n h => ⟨shape.len n h, (shape.below n h).trans_lt room⟩

theorem lowerBound_append {before after : List Node}
    (ahead : ∀ n ∈ before, n.idx < block.idx) (behind : ∀ n ∈ after, block.idx ≤ n.idx) :
    lowerBound (before ++ after) block = (before, after) := by
  have first : ∀ n ∈ before, decide (n.idx < block.idx) = true := by simpa using ahead
  rw [lowerBound, List.span_eq_takeWhile_dropWhile, List.takeWhile_append_of_pos first,
    List.dropWhile_append_of_pos first]
  cases after with
  | nil => simp
  | cons n rest =>
    have := behind n (by simp)
    simp [show ¬ n.idx < block.idx by omega]

theorem insertNode_append {before after : List Node}
    (ahead : ∀ n ∈ before, n.idx < block.idx) (behind : ∀ n ∈ after, block.idx < n.idx) :
    insertNode (before ++ after) block = before ++ block :: after := by
  rw [insertNode, lowerBound_append ahead (fun n h => (behind n h).le)]
  cases after with
  | nil => rfl
  | cons n rest =>
    have := behind n (by simp)
    simp [show n.idx ≠ block.idx by omega]

/-- The split at `lower_bound` in an ordered buffer. -/
theorem lowerBound_spec (buffer : List Node) (block : Node)
    (separated : Separated buffer) :
    (lowerBound buffer block).1 ++ (lowerBound buffer block).2 = buffer ∧
      (∀ n ∈ (lowerBound buffer block).1, n.idx < block.idx) ∧
      (∀ n ∈ (lowerBound buffer block).2, block.idx ≤ n.idx) := by
  simp only [lowerBound, List.span_eq_takeWhile_dropWhile]
  refine ⟨List.takeWhile_append_dropWhile, ?_, ?_⟩
  · intro n member
    simpa using List.mem_takeWhile_imp member
  · have ordered := separated.sublist (List.dropWhile_sublist (fun n => decide (n.idx < block.idx)))
    cases shape : buffer.dropWhile (fun n => decide (n.idx < block.idx)) with
    | nil => simp
    | cons first rest =>
      rw [shape] at ordered
      have notBelow : ¬ first.idx < block.idx := by
        have := List.head?_dropWhile_not (fun n : Node => decide (n.idx < block.idx)) buffer
        simpa [shape] using this
      intro n member
      rcases List.mem_cons.mp member with rfl | member
      · omega
      · have gap := (List.pairwise_cons.mp ordered).1 n member
        simp only [Node.stop] at gap
        omega

@[simp] theorem store_curIdx (r : StreamReassembler) (block : Node) :
    (r.store block).curIdx = r.curIdx := rfl
@[simp] theorem store_output (r : StreamReassembler) (block : Node) :
    (r.store block).output = r.output := rfl
@[simp] theorem store_capacity (r : StreamReassembler) (block : Node) :
    (r.store block).capacity = r.capacity := rfl
@[simp] theorem store_inputEndIdx (r : StreamReassembler) (block : Node) :
    (r.store block).inputEndIdx = r.inputEndIdx := rfl

/-- Storing a block merges it with some nodes; the others keep their order on
its two sides. -/
structure Stored (r : StreamReassembler) (block : Node) (before : List Node) (merged : Node)
    (after : List Node) : Prop where
  buffer : (r.store block).dataBuffer = before ++ merged :: after
  ahead : ∀ n ∈ before, n ∈ r.dataBuffer ∧ n.stop < merged.idx
  behind : ∀ n ∈ after, n ∈ r.dataBuffer ∧ merged.stop < n.idx
  beforeOrder : Separated before
  afterOrder : Separated after
  sized : merged.Sized
  lower : ∀ bound, bound ≤ block.idx → (∀ n ∈ r.dataBuffer, bound ≤ n.idx) → bound ≤ merged.idx
  upper : ∀ bound, block.stop ≤ bound → (∀ n ∈ r.dataBuffer, n.stop ≤ bound) → merged.stop ≤ bound
  cover : cover (before ++ merged :: after) = cover (block :: r.dataBuffer)
  counted : (r.store block).unassembledBytes % 2 ^ 64 = total (before ++ merged :: after) % 2 ^ 64
  fits : (r.store block).unassembledBytes < 2 ^ 64
  slice : ∀ stream, SliceAt stream block.idx block.data →
    (∀ n ∈ r.dataBuffer, SliceAt stream n.idx n.data) → SliceAt stream merged.idx merged.data

theorem store_split (shape : Shape r) (room : r.limit < 2 ^ 64) (sized : block.Sized) :
    ∃ before merged after, Stored r block before merged after := by
  obtain ⟨split, ahead, behind⟩ := lowerBound_spec r.dataBuffer block shape.separated
  set left := (lowerBound r.dataBuffer block).1 with leftEq
  set right := (lowerBound r.dataBuffer block).2 with rightEq
  have all := shape.sized room
  have inLeft : ∀ n ∈ left, n ∈ r.dataBuffer := fun n h => split ▸ List.mem_append_left _ h
  have inRight : ∀ n ∈ right, n ∈ r.dataBuffer := fun n h => split ▸ List.mem_append_right _ h
  obtain ⟨leftOrder, rightOrder, crossing⟩ := List.pairwise_append.mp (split ▸ shape.separated)
  set count := FixedWidth.add 64 r.unassembledBytes block.len with countEq
  have countBound : count < 2 ^ 64 := Nat.mod_lt _ (by positivity)
  -- First loop: the successors.
  have succ := absorb_spec block right count (total left) sized
    (fun n h => all n (inRight n h))
  have succAfter := succ.after rightOrder behind
  set succs := absorb block count right with succsEq
  -- Second loop: the predecessors, nearest first, with the enlarged block.
  have prev := absorb_spec succs.1 left.reverse succs.2.2
    (total succs.2.1) succ.sized (fun n h => all n (inLeft n (List.mem_reverse.mp h)))
  have prevAhead : ∀ n ∈ left, n.idx < succs.1.idx := by
    intro n member
    exact Nat.lt_of_lt_of_le (ahead n member) (succ.lower block.idx le_rfl behind)
  have prevBefore := prev.before leftOrder prevAhead
  set prevs := absorb succs.1 succs.2.2 left.reverse with prevsEq
  have memLeft : ∀ n ∈ prevs.2.1, n ∈ left :=
    fun n h => List.mem_reverse.mp (prev.suffix.subset h)
  have memRight : ∀ n ∈ succs.2.1, n ∈ right := fun n h => succ.suffix.subset h
  have gapAfter := prev.after_both succAfter (fun m inside n member => crossing m inside n (memRight n member))
  have buffer : (r.store block).dataBuffer =
      prevs.2.1.reverse ++ prevs.1 :: succs.2.1 := by
    change insertNode (prevs.2.1.reverse ++ succs.2.1) prevs.1 = _
    apply insertNode_append
    · intro n member
      have := prevBefore n (List.mem_reverse.mp member)
      simp only [Node.stop] at this
      omega
    · intro n member
      have := gapAfter n member
      simp only [Node.stop] at this
      omega
  refine ⟨prevs.2.1.reverse, prevs.1, succs.2.1, buffer, ?_, ?_, ?_, ?_, prev.sized, ?_, ?_, ?_, ?_,
    prev.fits (succ.fits countBound), ?_⟩
  · intro n member
    have inside := List.mem_reverse.mp member
    exact ⟨inLeft n (memLeft n inside), prevBefore n inside⟩
  · exact fun n member => ⟨inRight n (memRight n member), gapAfter n member⟩
  · have reversed : left.reverse.Pairwise (fun a b => b.stop < a.idx) :=
      List.pairwise_reverse.mpr leftOrder
    exact List.pairwise_reverse.mpr (reversed.sublist prev.suffix.sublist)
  · exact rightOrder.sublist succ.suffix.sublist
  · intro bound start nodes
    apply prev.lower bound (succ.lower bound start (fun n h => nodes n (inRight n h)))
    exact fun n h => nodes n (inLeft n (List.mem_reverse.mp h))
  · intro bound stop nodes
    apply prev.upper bound (succ.upper bound stop (fun n h => nodes n (inRight n h)))
    exact fun n h => nodes n (inLeft n (List.mem_reverse.mp h))
  · rw [succ.cover_both prev, split]
  · refine succ.counted_both prev ?_
    rw [countEq, split, shape.count, FixedWidth.add, Nat.mod_mod]
  · intro stream slice slices
    apply absorb_slice succ.sized (fun n h => all n (inLeft n (List.mem_reverse.mp h)))
    · exact absorb_slice sized (fun n h => all n (inRight n h)) slice
        (fun n h => slices n (inRight n h))
    · exact fun n h => slices n (inLeft n (List.mem_reverse.mp h))

section
variable {before after : List Node} {merged : Node} (stored : Stored r block before merged after)
include stored

/-- Each stored node is the merged one or was there before. -/
theorem Stored.mem {n : Node} (member : n ∈ (r.store block).dataBuffer) :
    n = merged ∨ n ∈ r.dataBuffer := by
  rw [stored.buffer] at member
  rcases List.mem_append.mp member with h | h
  · exact Or.inr (stored.ahead n h).1
  · rcases List.mem_cons.mp h with rfl | h
    · exact Or.inl rfl
    · exact Or.inr (stored.behind n h).1

theorem Stored.separated : Separated (r.store block).dataBuffer := by
  rw [stored.buffer]
  refine List.pairwise_append.mpr ⟨stored.beforeOrder,
    List.pairwise_cons.mpr ⟨fun n h => (stored.behind n h).2, stored.afterOrder⟩, ?_⟩
  intro n member m inside
  have near := (stored.ahead n member).2
  rcases List.mem_cons.mp inside with rfl | inside
  · exact near
  · have far := (stored.behind m inside).2
    simp only [Node.stop] at near far ⊢
    omega

/-- The counter is exact once the nodes are known to end below 2^64. -/
theorem Stored.count {limit : Nat} (room : limit < 2 ^ 64)
    (below : ∀ n ∈ (r.store block).dataBuffer, n.stop ≤ limit) :
    (r.store block).unassembledBytes = total (r.store block).dataBuffer := by
  have small : total (r.store block).dataBuffer ≤ limit := Span.total_le stored.separated below
  have counted := stored.counted
  rw [← stored.buffer] at counted
  rwa [Nat.mod_eq_of_lt stored.fits, Nat.mod_eq_of_lt (small.trans_lt room)] at counted

theorem Stored.shape (shape : Shape r) (room : r.limit < 2 ^ 64)
    (lower : r.curIdx ≤ block.idx) (upper : block.stop ≤ r.limit) : Shape (r.store block) := by
  have below : ∀ n ∈ (r.store block).dataBuffer, n.stop ≤ r.limit := by
    intro n member
    cases stored.mem member with
    | inl same => exact same ▸ stored.upper r.limit upper shape.below
    | inr old => exact shape.below n old
  refine ⟨stored.separated, ?_, ?_, below, stored.count room below, shape.written, shape.capacity⟩
  · intro n member
    cases stored.mem member with
    | inl same => exact same ▸ stored.sized.len
    | inr old => exact shape.len n old
  · intro n member
    cases stored.mem member with
    | inl same => exact same ▸ stored.lower r.curIdx lower shape.above
    | inr old => exact shape.above n old

theorem Stored.holds (holds : Holds stream r)
    (slice : SliceAt stream block.idx block.data) : Holds stream (r.store block) := by
  refine ⟨holds.output, ?_⟩
  intro n member
  cases stored.mem member with
  | inl same => exact same ▸ stored.slice stream slice holds.nodes
  | inr old => exact holds.nodes n old

end

/-- The first node, if it is due, is written whole: it ends below the limit. -/
theorem Shape.writeLen {first : Node} {rest : List Node} (shape : Shape r)
    (buffer : r.dataBuffer = first :: rest) (due : first.idx = r.curIdx) :
    r.output.writeLen first.data = first.len := by
  have len := shape.len first (by simp [buffer])
  have below := shape.below first (by simp [buffer])
  have counted := r.output.counted
  have written := shape.written
  have capacity := shape.capacity
  rw [len]
  apply ByteStream.writeLen_of_fits
  simp only [Node.stop, limit] at below
  omega

/-- The first node waits, or it is due and goes to the output whole or in part. -/
theorem writeFirst_cases (r : StreamReassembler) :
    (r.writeFirst = r ∧ ∀ first ∈ r.dataBuffer.head?, first.idx ≠ r.curIdx) ∨
    ∃ first rest, r.dataBuffer = first :: rest ∧ first.idx = r.curIdx ∧
      r.writeFirst = { r with
        dataBuffer := rest
        unassembledBytes := FixedWidth.sub 64 r.unassembledBytes (r.output.write first.data).1
        curIdx := r.curIdx + (r.output.write first.data).1
        output := (r.output.write first.data).2 } := by
  cases buffer : r.dataBuffer with
  | nil => exact Or.inl ⟨by simp only [writeFirst, buffer], by simp⟩
  | cons first rest =>
    by_cases due : first.idx = r.curIdx
    · exact Or.inr ⟨first, rest, rfl, due, by simp only [writeFirst, buffer, due, if_true]⟩
    · exact Or.inl ⟨by simp only [writeFirst, buffer, due, if_false], by simpa using due⟩

theorem Shape.valid_of_waits (shape : Shape r)
    (waits : ∀ first ∈ r.dataBuffer.head?, first.idx ≠ r.curIdx) : Valid r := by
  refine ⟨shape, ?_⟩
  cases buffer : r.dataBuffer with
  | nil => simp
  | cons first rest =>
    obtain ⟨behind, _⟩ := List.pairwise_cons.mp (buffer ▸ shape.separated)
    have above := shape.above first (by simp [buffer])
    have other : first.idx ≠ r.curIdx := waits first (by simp [buffer])
    intro n member
    rcases List.mem_cons.mp member with rfl | h
    · omega
    · have := behind n h
      simp only [Node.stop] at this
      omega

theorem Shape.count_rest {first : Node} {rest : List Node} (shape : Shape r)
    (room : r.limit < 2 ^ 64) (buffer : r.dataBuffer = first :: rest) :
    FixedWidth.sub 64 r.unassembledBytes first.len = total rest := by
  have len := shape.len first (by simp [buffer])
  have count := shape.count
  have small := Span.total_le shape.separated shape.below
  have totalEq := total_cons_sized first rest
  rw [buffer] at count small
  simp only [StreamReassembler.total] at *
  rw [FixedWidth.sub_of_le (by omega) (by omega)]
  omega

/-- Writing the first node restores the strict bound, keeps what is held and
leaves the limit alone. -/
theorem writeFirst_spec (shape : Shape r) (room : r.limit < 2 ^ 64) :
    r.writeFirst.Valid ∧ r.writeFirst.held = r.held ∧ r.writeFirst.limit = r.limit := by
  rcases r.writeFirst_cases with ⟨same, waits⟩ | ⟨first, rest, buffer, due, eq⟩
  · rw [same]
    exact ⟨shape.valid_of_waits waits, rfl, rfl⟩
  · obtain ⟨behind, order⟩ := List.pairwise_cons.mp (buffer ▸ shape.separated)
    have wrote : (r.output.write first.data).1 = first.len := shape.writeLen buffer due
    have gap : ∀ n ∈ rest, r.curIdx + first.len < n.idx := by
      intro n member
      have := behind n member
      simp only [Node.stop] at this
      omega
    rw [eq, wrote]
    refine ⟨⟨⟨order, ?_, fun n h => (gap n h).le, ?_, shape.count_rest room buffer, ?_,
      shape.capacity⟩, gap⟩, ?_, rfl⟩
    · exact fun n h => shape.len n (by simp [buffer, h])
    · exact fun n h => shape.below n (by simp [buffer, h])
    · change r.curIdx + first.len = r.output.writeBytes + (r.output.write first.data).1
      rw [shape.written, wrote]
    · ext i
      have stop : first.stop = first.idx + first.len := rfl
      simp only [held, buffer, Span.cover_cons, Finset.mem_union, Finset.mem_range, Finset.mem_Ico]
      by_cases later : i ∈ cover rest
      · simp only [later, or_true]
      · simp only [later, or_false]
        omega

theorem writeFirst_holds (shape : Shape r) (holds : Holds stream r) :
    Holds stream r.writeFirst := by
  rcases r.writeFirst_cases with ⟨same, _⟩ | ⟨first, rest, buffer, due, eq⟩
  · rwa [same]
  · have writeLen := shape.writeLen buffer due
    have len := shape.len first (by simp [buffer])
    rw [eq]
    refine ⟨?_, fun n h => holds.nodes n (by simp [buffer, h])⟩
    simp only [ByteStream.write, writeLen, len, List.take_length]
    apply holds.output.append
    rw [← r.output.counted, ← shape.written, ← due]
    exact holds.nodes first (by simp [buffer])

end Sponge.StreamReassembler
