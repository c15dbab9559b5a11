import Mathlib.Tactic

/-! Contiguous runs of a list at a given index. A run is stated as a prefix of
the list dropped to its index, so runs are stable under extension of the list
and overlapping runs of one list join without a comparison of elements. -/

/-- `data` is a run of `stream` whose first element has the given index. -/
def SliceAt {α : Type} (stream : List α) (index : Nat) (data : List α) : Prop :=
  data <+: stream.drop index

namespace SliceAt
variable {α : Type} {stream data : List α} {index : Nat}

theorem nil (stream : List α) (index : Nat) : SliceAt stream index [] := List.nil_prefix

theorem take (h : SliceAt stream index data) (n : Nat) : SliceAt stream index (data.take n) :=
  (List.take_prefix n data).trans h

theorem drop (h : SliceAt stream index data) (n : Nat) :
    SliceAt stream (index + n) (data.drop n) := by
  obtain ⟨rest, same⟩ := h
  by_cases inside : n ≤ data.length
  · refine ⟨rest, ?_⟩
    rw [← List.drop_drop, ← same, List.drop_append_of_le_length inside]
  · rw [List.drop_eq_nil_of_le (by omega)]
    exact nil _ _

theorem append {more : List α} (h : SliceAt stream index data)
    (next : SliceAt stream (index + data.length) more) : SliceAt stream index (data ++ more) := by
  obtain ⟨rest, same⟩ := h
  have tail : stream.drop (index + data.length) = rest := by
    rw [← List.drop_drop, ← same, List.drop_left]
  rw [SliceAt, tail] at next
  rw [SliceAt, ← same]
  exact (List.prefix_append_right_inj data).mpr next

/-- A run that starts inside another, or right behind it, extends it by the
elements the other does not have. -/
theorem join {other : List α} {start : Nat} (h : SliceAt stream index data)
    (overlap : SliceAt stream start other)
    (touches : start ≤ index + data.length) :
    SliceAt stream index (data ++ other.drop (index + data.length - start)) := by
  apply h.append
  have tail := overlap.drop (index + data.length - start)
  rwa [Nat.add_sub_of_le touches] at tail

theorem extend (h : SliceAt stream index data) (more : List α) :
    SliceAt (stream ++ more) index data := by
  rw [SliceAt, List.drop_append]
  exact h.trans (List.prefix_append _ _)

theorem length_le (h : SliceAt stream index data) (nonempty : data ≠ []) :
    index + data.length ≤ stream.length := by
  have bound := List.IsPrefix.length_le h
  rw [List.length_drop] at bound
  have : 0 < data.length := List.length_pos_of_ne_nil nonempty
  omega

theorem take_append (h : SliceAt stream index data) :
    stream.take index ++ data = stream.take (index + data.length) := by
  obtain ⟨rest, same⟩ := h
  rw [List.take_add, ← same, List.take_left]

/-- The middle part of a concatenation, found at the length of what precedes it. -/
theorem of_append (before data after : List α) :
    SliceAt (before ++ data ++ after) before.length data := by
  rw [SliceAt, List.append_assoc, List.drop_left]
  exact List.prefix_append _ _

end SliceAt
