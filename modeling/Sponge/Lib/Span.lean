import Mathlib.Tactic
import Mathlib.Data.Finset.Card
import Mathlib.Order.Interval.Finset.Nat

/-! Ordered lists of half-open index ranges. The element type is arbitrary: a
range is given by two projections, so a list of records that carry other data
is covered without being translated first. Empty ranges are allowed. -/
namespace Span
variable {α : Type} (start stop : α → Nat)

/-- Strictly ordered, with at least one uncovered index between neighbours. -/
def Separated (spans : List α) : Prop := spans.Pairwise (fun a b => stop a < start b)

/-- All indices in one of the ranges. -/
def cover (spans : List α) : Finset Nat :=
  spans.foldr (fun a rest => Finset.Ico (start a) (stop a) ∪ rest) ∅

def total (spans : List α) : Nat := (spans.map (fun a => stop a - start a)).sum

@[simp] theorem cover_nil : cover start stop [] = ∅ := rfl

@[simp] theorem cover_cons (a : α) (rest : List α) :
    cover start stop (a :: rest) = Finset.Ico (start a) (stop a) ∪ cover start stop rest := rfl

@[simp] theorem total_nil : total start stop [] = 0 := rfl

@[simp] theorem total_cons (a : α) (rest : List α) :
    total start stop (a :: rest) = stop a - start a + total start stop rest := rfl

variable {start stop}

theorem mem_cover {spans : List α} {i : Nat} :
    i ∈ cover start stop spans ↔ ∃ a ∈ spans, start a ≤ i ∧ i < stop a := by
  induction spans with
  | nil => simp
  | cons a rest ih => simp [ih, Finset.mem_Ico]

theorem cover_append (left right : List α) :
    cover start stop (left ++ right) = cover start stop left ∪ cover start stop right := by
  ext i
  simp only [Finset.mem_union, mem_cover, List.mem_append]
  grind

theorem cover_reverse (spans : List α) : cover start stop spans.reverse = cover start stop spans := by
  ext i
  simp [mem_cover]

theorem total_append (start stop : α → Nat) (left right : List α) :
    total start stop (left ++ right) = total start stop left + total start stop right := by
  simp [total]

theorem total_reverse (start stop : α → Nat) (spans : List α) : total start stop spans.reverse = total start stop spans := by
  simp [total]

/-- Separated ranges do not overlap, so their lengths count distinct indices. -/
theorem card_cover {spans : List α} (separated : Separated start stop spans) :
    (cover start stop spans).card = total start stop spans := by
  induction spans with
  | nil => rfl
  | cons a rest ih =>
    obtain ⟨behind, tail⟩ := List.pairwise_cons.mp separated
    have disjoint : Disjoint (Finset.Ico (start a) (stop a)) (cover start stop rest) := by
      rw [Finset.disjoint_left]
      intro i inside later
      obtain ⟨b, member, lower, _⟩ := mem_cover.mp later
      have gap := behind b member
      have upper := (Finset.mem_Ico.mp inside).2
      omega
    rw [cover_cons, Finset.card_union_of_disjoint disjoint, Nat.card_Ico, ih tail, total_cons]

theorem total_le {spans : List α} {limit : Nat} (separated : Separated start stop spans)
    (below : ∀ a ∈ spans, stop a ≤ limit) : total start stop spans ≤ limit := by
  rw [← card_cover separated]
  calc (cover start stop spans).card ≤ (Finset.range limit).card := by
        apply Finset.card_le_card
        intro i member
        obtain ⟨a, inside, _, upper⟩ := mem_cover.mp member
        exact Finset.mem_range.mpr (upper.trans_le (below a inside))
    _ = limit := Finset.card_range limit

end Span
