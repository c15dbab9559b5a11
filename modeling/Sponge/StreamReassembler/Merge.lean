import Sponge.StreamReassembler
import Sponge.Lib.Slice
import Sponge.Lib.Span

/-! What one merge and one merge loop do to the stored ranges. Both loops are
the same function on lists in opposite order, so their common effect (covered
indices, byte count, bounds, contents) is stated once and the two orders differ
only in which side of the block is left separated. -/
namespace Sponge

/-- The index after the node's last byte. -/
def Node.stop (n : Node) : Nat := n.idx + n.len

/-- The recorded length is the real one and the end index does not wrap. -/
structure Node.Sized (n : Node) : Prop where
  len : n.len = n.data.length
  stop : n.stop < 2 ^ 64

namespace StreamReassembler

abbrev cover (nodes : List Node) : Finset Nat := Span.cover Node.idx Node.stop nodes

abbrev total (nodes : List Node) : Nat := Span.total Node.idx Node.stop nodes

abbrev Separated (nodes : List Node) : Prop := Span.Separated Node.idx Node.stop nodes

theorem mergeTo_none {a b : Node} (sa : a.Sized) (sb : b.Sized) (h : mergeTo a b = none) :
    a.stop < b.idx ∨ b.stop < a.idx := by
  have ea : FixedWidth.add 64 a.idx a.len = a.stop := FixedWidth.add_of_lt sa.stop
  have eb : FixedWidth.add 64 b.idx b.len = b.stop := FixedWidth.add_of_lt sb.stop
  unfold mergeTo at h
  by_cases order : a.idx ≤ b.idx
  · simp only [order, if_true, ea, eb] at h
    split_ifs at h with contained apart
    exact Or.inl apart
  · simp only [order, if_false, ea, eb] at h
    split_ifs at h with contained apart
    exact Or.inr apart

/-- A successful merge joins two touching ranges and reports their overlap. -/
structure Joins (a b merged : Node) (overlap : Nat) : Prop where
  left : b.idx ≤ a.stop
  right : a.idx ≤ b.stop
  idx : merged.idx = min a.idx b.idx
  stop : merged.stop = max a.stop b.stop
  len : merged.len = merged.data.length
  overlap : overlap + merged.len = a.len + b.len

theorem mergeTo_some {a b merged : Node} {overlap : Nat} (sa : a.Sized) (sb : b.Sized)
    (h : mergeTo a b = some (merged, overlap)) : Joins a b merged overlap := by
  have ea : FixedWidth.add 64 a.idx a.len = a.stop := FixedWidth.add_of_lt sa.stop
  have eb : FixedWidth.add 64 b.idx b.len = b.stop := FixedWidth.add_of_lt sb.stop
  have la := sa.len
  have lb := sb.len
  have stopA : a.stop = a.idx + a.len := rfl
  have stopB : b.stop = b.idx + b.len := rfl
  unfold mergeTo at h
  by_cases order : a.idx ≤ b.idx
  · simp only [order, if_true, ea, eb] at h
    split_ifs at h with contained <;> cases h
    · constructor <;> omega
    · constructor <;>
        simp only [Node.stop, Node.new, List.length_append, List.length_drop] at * <;> omega
  · simp only [order, if_false, ea, eb] at h
    split_ifs at h with contained <;> cases h
    · constructor <;> omega
    · constructor <;>
        simp only [Node.stop, Node.new, List.length_append, List.length_drop] at * <;> omega

variable {a b merged block : Node} {overlap count extra left : Nat} {nodes rest : List Node}

theorem Joins.sized (joins : Joins a b merged overlap) (sa : a.Sized) (sb : b.Sized) :
    merged.Sized := by
  refine ⟨joins.len, ?_⟩
  have := sa.stop
  have := sb.stop
  rw [joins.stop]
  omega

theorem Joins.cover (joins : Joins a b merged overlap) (rest : List Node) :
    cover (merged :: rest) = cover (a :: b :: rest) := by
  ext i
  have touchesLeft := joins.left
  have touchesRight := joins.right
  simp only [Span.cover_cons, Finset.mem_union, Finset.mem_Ico, joins.idx, joins.stop]
  by_cases later : i ∈ StreamReassembler.cover rest
  · simp only [later, or_true]
  · simp only [later, or_false]
    omega

theorem mergeTo_slice {stream : List UInt8} {a b merged : Node} {overlap : Nat}
    (sa : a.Sized) (sb : b.Sized) (h : mergeTo a b = some (merged, overlap))
    (ha : SliceAt stream a.idx a.data) (hb : SliceAt stream b.idx b.data) :
    SliceAt stream merged.idx merged.data := by
  have joins := mergeTo_some sa sb h
  have ea : FixedWidth.add 64 a.idx a.len = a.stop := FixedWidth.add_of_lt sa.stop
  have eb : FixedWidth.add 64 b.idx b.len = b.stop := FixedWidth.add_of_lt sb.stop
  have left := joins.left
  have right := joins.right
  simp only [Node.stop, sa.len, sb.len] at left right
  unfold mergeTo at h
  by_cases order : a.idx ≤ b.idx
  · simp only [order, if_true, ea, eb] at h
    split_ifs at h <;> cases h
    · exact ha
    · simpa only [Node.new, Node.stop, sa.len] using ha.join hb left
  · simp only [order, if_false, ea, eb] at h
    split_ifs at h <;> cases h
    · exact hb
    · simpa only [Node.new, Node.stop, sb.len] using hb.join ha right

/-- The effect of a merge loop, whichever way its nodes are ordered. `extra`
counts the bytes of nodes that the loop does not visit; the running count is
right modulo its width even while it double counts an overlap. -/
structure Absorbed (block : Node) (count extra : Nat) (nodes : List Node)
    (merged : Node) (rest : List Node) (after : Nat) : Prop where
  sized : merged.Sized
  suffix : rest <:+ nodes
  cover : cover (merged :: rest) = cover (block :: nodes)
  counted : count % 2 ^ 64 = (extra + block.len + total nodes) % 2 ^ 64 →
    after % 2 ^ 64 = (extra + merged.len + total rest) % 2 ^ 64
  fits : count < 2 ^ 64 → after < 2 ^ 64
  idx : merged.idx ≤ block.idx
  stop : block.stop ≤ merged.stop
  lower : ∀ bound, bound ≤ block.idx → (∀ n ∈ nodes, bound ≤ n.idx) → bound ≤ merged.idx
  upper : ∀ bound, block.stop ≤ bound → (∀ n ∈ nodes, n.stop ≤ bound) → merged.stop ≤ bound
  head : ∀ n, rest.head? = some n → merged.stop < n.idx ∨ n.stop < merged.idx

theorem total_cons_sized (n : Node) (rest : List Node) : total (n :: rest) = n.len + total rest := by
  have stop : n.stop = n.idx + n.len := rfl
  change n.stop - n.idx + total rest = _
  omega

theorem absorb_spec (block : Node) (nodes : List Node) (count extra : Nat)
    (sized : block.Sized) (all : ∀ n ∈ nodes, n.Sized) :
    Absorbed block count extra nodes (absorb block count nodes).1 (absorb block count nodes).2.1
      (absorb block count nodes).2.2 := by
  induction nodes generalizing block count with
  | nil =>
    exact ⟨sized, List.suffix_rfl, rfl, id, id, le_rfl, le_rfl, fun _ h _ => h, fun _ h _ => h,
      by simp [absorb]⟩
  | cons it rest ih =>
    have sit := all it (by simp)
    simp only [absorb]
    cases step : mergeTo block it with
    | none =>
      refine ⟨sized, List.suffix_rfl, rfl, id, id, le_rfl, le_rfl, fun _ h _ => h,
        fun _ h _ => h, ?_⟩
      intro n first
      cases Option.some.inj first
      exact mergeTo_none sized sit step
    | some pair =>
      obtain ⟨merged, overlap⟩ := pair
      have joins := mergeTo_some sized sit step
      have spec := ih merged (FixedWidth.sub 64 count overlap) (joins.sized sized sit)
        (fun n h => all n (by simp [h]))
      have hIdx := joins.idx
      have hStop := joins.stop
      refine ⟨spec.sized, spec.suffix.trans (List.suffix_cons _ _), ?_, ?_,
        fun _ => spec.fits (FixedWidth.sub_lt 64 count overlap), ?_, ?_, ?_, ?_, spec.head⟩
      · rw [spec.cover, joins.cover]
      · intro counted
        have overlapEq := joins.overlap
        apply spec.counted
        rw [total_cons_sized] at counted
        rw [FixedWidth.sub, FixedWidth.ofInt]
        omega
      · exact spec.idx.trans (by omega)
      · exact le_trans (by omega) spec.stop
      · intro lower hb hn
        have := hn it (by simp)
        exact spec.lower lower (by omega) (fun n h => hn n (by simp [h]))
      · intro upper hb hn
        have := hn it (by simp)
        exact spec.upper upper (by omega) (fun n h => hn n (by simp [h]))

theorem absorb_slice {stream : List UInt8} {block : Node} {nodes : List Node} {count : Nat}
    (sized : block.Sized) (all : ∀ n ∈ nodes, n.Sized)
    (slice : SliceAt stream block.idx block.data)
    (slices : ∀ n ∈ nodes, SliceAt stream n.idx n.data) :
    SliceAt stream (absorb block count nodes).1.idx (absorb block count nodes).1.data := by
  induction nodes generalizing block count with
  | nil => exact slice
  | cons it rest ih =>
    have sit := all it (by simp)
    simp only [absorb]
    cases step : mergeTo block it with
    | none => exact slice
    | some pair =>
      obtain ⟨merged, overlap⟩ := pair
      exact ih ((mergeTo_some sized sit step).sized sized sit) (fun n h => all n (by simp [h]))
        (mergeTo_slice sized sit step slice (slices it (by simp)))
        (fun n h => slices n (by simp [h]))

/-- Visiting successors in order leaves everything behind the merged block. -/
theorem Absorbed.after (spec : Absorbed block count extra nodes merged rest left)
    (ordered : Separated nodes) (behind : ∀ n ∈ nodes, block.idx ≤ n.idx) :
    ∀ n ∈ rest, merged.stop < n.idx := by
  have suffix := ordered.sublist spec.suffix.sublist
  cases shape : rest with
  | nil => simp
  | cons first others =>
    rw [shape] at suffix
    have memFirst : first ∈ nodes := spec.suffix.subset (by simp [shape])
    have gap := List.pairwise_cons.mp suffix
    have near : merged.stop < first.idx := by
      have startsBefore := behind first memFirst
      rcases spec.head first (by simp [shape]) with h | h
      · exact h
      · have := spec.idx
        simp only [Node.stop] at h
        omega
    intro n member
    rcases List.mem_cons.mp member with rfl | member
    · exact near
    · have := gap.1 n member
      simp only [Node.stop] at this near ⊢
      omega

/-- Visiting predecessors outwards leaves everything before the merged block. -/
theorem Absorbed.before (spec : Absorbed block count extra nodes.reverse merged rest left)
    (ordered : Separated nodes) (ahead : ∀ n ∈ nodes, n.idx < block.idx) :
    ∀ n ∈ rest, n.stop < merged.idx := by
  have reversed : nodes.reverse.Pairwise (fun a b => b.stop < a.idx) :=
    List.pairwise_reverse.mpr ordered
  have suffix := reversed.sublist spec.suffix.sublist
  cases shape : rest with
  | nil => simp
  | cons first others =>
    rw [shape] at suffix
    have memFirst : first ∈ nodes.reverse := spec.suffix.subset (by simp [shape])
    have gap := List.pairwise_cons.mp suffix
    have near : first.stop < merged.idx := by
      have startsBefore := ahead first (by simpa using memFirst)
      rcases spec.head first (by simp [shape]) with h | h
      · have := spec.stop
        simp only [Node.stop] at h this
        omega
      · exact h
    intro n member
    rcases List.mem_cons.mp member with rfl | member
    · exact near
    · have := gap.1 n member
      simp only [Node.stop] at this near ⊢
      omega

section BothLoops
variable {block enlarged whole : Node} {left right before after : List Node} {count between last extra : Nat}

/-- The loop over the successors and then, with the enlarged block, the one over
the predecessors lose and invent no index. -/
theorem Absorbed.cover_both (succ : Absorbed block count extra right enlarged after between)
    (prev : Absorbed enlarged between (total after) left.reverse whole before last) :
    StreamReassembler.cover (before.reverse ++ whole :: after) =
      StreamReassembler.cover (block :: (left ++ right)) := by
  have first := succ.cover
  have second := prev.cover
  simp only [Span.cover_cons, Span.cover_append, Span.cover_reverse] at first second ⊢
  rw [Finset.union_left_comm, ← Finset.union_assoc, second, Finset.union_right_comm, first, Finset.union_assoc,
    Finset.union_comm (StreamReassembler.cover right)]

/-- Nor do they lose count, modulo the width of the counter. -/
theorem Absorbed.counted_both (succ : Absorbed block count (total left) right enlarged after between)
    (prev : Absorbed enlarged between (total after) left.reverse whole before last)
    (counted : count % 2 ^ 64 = (total (left ++ right) + block.len) % 2 ^ 64) :
    last % 2 ^ 64 = total (before.reverse ++ whole :: after) % 2 ^ 64 := by
  have first := succ.counted
  have second := prev.counted
  have merged := total_cons_sized whole after
  simp only [total, Span.total_append, Span.total_reverse] at *
  omega

/-- What is behind the enlarged block is behind the whole one, since the
predecessors end before it. -/
theorem Absorbed.after_both (prev : Absorbed enlarged between extra left.reverse whole before last)
    (behind : ∀ n ∈ after, enlarged.stop < n.idx) (crossing : ∀ m ∈ left, ∀ n ∈ after, m.stop < n.idx) :
    ∀ n ∈ after, whole.stop < n.idx := by
  intro n member
  have near := behind n member
  have far := prev.upper (n.idx - 1) (by omega) (by
    intro m inside
    have := crossing m (List.mem_reverse.mp inside) n member
    omega)
  omega

end BothLoops

end StreamReassembler
end Sponge
