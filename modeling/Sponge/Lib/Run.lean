import Mathlib.Logic.Relation

/-! Runs of a deterministic step function under a per-step permission, and of one
that may throw. A run whose steps are all allowed keeps every invariant that one
allowed step keeps. -/
namespace Run

variable {σ ι : Type} {step : σ → ι → σ} {allowed : σ → ι → Prop}

/-- `t` is reached from `s` by allowed steps. -/
def Reaches (step : σ → ι → σ) (allowed : σ → ι → Prop) : σ → σ → Prop :=
  Relation.ReflTransGen (fun s t => ∃ i, allowed s i ∧ step s i = t)

theorem Reaches.refl (s : σ) : Reaches step allowed s s := Relation.ReflTransGen.refl

theorem Reaches.snoc {s t : σ} (reach : Reaches step allowed s t) (i : ι) (ok : allowed t i) :
    Reaches step allowed s (step t i) := Relation.ReflTransGen.tail reach ⟨i, ok, rfl⟩

/-- The invariant rule. -/
theorem Reaches.invariant {P : σ → Prop} {s t : σ} (reach : Reaches step allowed s t)
    (init : P s) (preserve : ∀ u i, P u → allowed u i → P (step u i)) : P t := by
  induction reach with
  | refl => exact init
  | tail _ last ih =>
    obtain ⟨i, ok, rfl⟩ := last
    exact preserve _ i ih ok

/-- Every step of a list of inputs is allowed where it is taken. -/
def Permits (step : σ → ι → σ) (allowed : σ → ι → Prop) : σ → List ι → Prop
  | _, [] => True
  | s, i :: rest => allowed s i ∧ Permits step allowed (step s i) rest

instance Permits.decidable [decide : ∀ s i, Decidable (allowed s i)] :
    ∀ (s : σ) (inputs : List ι), Decidable (Permits step allowed s inputs)
  | _, [] => isTrue trivial
  | s, i :: rest => @instDecidableAnd _ _ (decide s i) (Permits.decidable (step s i) rest)

theorem permits_append {s : σ} {left right : List ι} : Permits step allowed s (left ++ right) ↔
    Permits step allowed s left ∧ Permits step allowed (left.foldl step s) right := by
  induction left generalizing s with
  | nil => simp [Permits]
  | cons j rest ih => simp [Permits, ih, and_assoc]

theorem permits_concat {s : σ} {inputs : List ι} {i : ι} :
    Permits step allowed s (inputs ++ [i]) ↔
      Permits step allowed s inputs ∧ allowed (inputs.foldl step s) i := by
  simp [permits_append, Permits]

theorem Permits.reaches : ∀ {s : σ} {inputs : List ι}, Permits step allowed s inputs →
    Reaches step allowed s (inputs.foldl step s)
  | s, [], _ => .refl s
  | _, i :: _, ⟨ok, rest⟩ => Relation.ReflTransGen.head ⟨i, ok, rfl⟩ rest.reaches

section Fallible

variable {ε α β : Type} {attempt : σ → ι → Except ε σ}

/-- A computation in two parts returned because both did. -/
theorem bind_eq_ok {first : Except ε α} {second : α → Except ε β} {b : β} :
    (first >>= second) = .ok b ↔ ∃ a, first = .ok a ∧ second a = .ok b := by
  cases first with
  | error message => simp [bind, Except.bind]
  | ok a => simp [bind, Except.bind]

theorem toOption_eq_some {x : Except ε α} {a : α} : x.toOption = some a ↔ x = .ok a := by
  cases x <;> simp [Except.toOption]

/-- The invariant rule for steps that may throw: none of the run does. -/
theorem foldlM_ok {P : σ → Prop} {inputs : List ι}
    (preserve : ∀ s, ∀ i ∈ inputs, P s → ∃ t, attempt s i = .ok t ∧ P t) {s : σ} (init : P s) :
    ∃ t, inputs.foldlM attempt s = .ok t ∧ P t := by
  induction inputs generalizing s with
  | nil => exact ⟨s, rfl, init⟩
  | cons i rest ih =>
    obtain ⟨t, first, kept⟩ := preserve s i List.mem_cons_self init
    obtain ⟨u, others, last⟩ := ih (fun s j member => preserve s j (List.mem_cons_of_mem i member)) kept
    refine ⟨u, ?_, last⟩
    rw [List.foldlM_cons, first]
    exact others

/-- Steps that return what a total step function gives do so all along a run. -/
theorem foldlM_eq {P : σ → Prop} (agree : ∀ s i, P s → attempt s i = .ok (step s i))
    (preserve : ∀ s i, P s → P (step s i)) {inputs : List ι} {s : σ} (init : P s) :
    inputs.foldlM attempt s = .ok (inputs.foldl step s) ∧ P (inputs.foldl step s) := by
  induction inputs generalizing s with
  | nil => exact ⟨rfl, init⟩
  | cons i rest ih =>
    rw [List.foldlM_cons, agree s i init]
    exact ih (preserve s i init)

/-- Steps that do nothing. -/
theorem foldlM_idle {inputs : List ι} (idle : ∀ s, ∀ i ∈ inputs, attempt s i = .ok s) (s : σ) :
    inputs.foldlM attempt s = .ok s := by
  induction inputs with
  | nil => rfl
  | cons i rest ih =>
    rw [List.foldlM_cons, idle s i List.mem_cons_self]
    exact ih fun s j member => idle s j (List.mem_cons_of_mem i member)

/-- Only one step of the run does anything. -/
theorem foldlM_single {inputs : List ι} (nodup : inputs.Nodup) {i : ι} (member : i ∈ inputs)
    (idle : ∀ s, ∀ j ∈ inputs, j ≠ i → attempt s j = .ok s) (s : σ) : inputs.foldlM attempt s = attempt s i := by
  obtain ⟨before, after, rfl⟩ := List.append_of_mem member
  obtain ⟨_, _, apart⟩ := List.nodup_append.mp nodup
  obtain ⟨absent, _⟩ := List.nodup_cons.mp (List.nodup_append.mp nodup).2.1
  have first : ∀ s, ∀ j ∈ before, attempt s j = .ok s := fun s j here =>
    idle s j (List.mem_append_left _ here) (apart j here i List.mem_cons_self)
  have last : ∀ s, ∀ j ∈ after, attempt s j = .ok s := fun s j here =>
    idle s j (List.mem_append_right _ (List.mem_cons_of_mem i here)) (fun same => absent (same ▸ here))
  rw [List.foldlM_append, foldlM_idle first]
  change List.foldlM attempt s (i :: after) = attempt s i
  rw [List.foldlM_cons]
  cases attempt s i with
  | error message => rfl
  | ok t => exact foldlM_idle last t

/-- `t` is reached from `s` by allowed steps that do not throw. -/
def Attains (attempt : σ → ι → Except ε σ) (allowed : σ → ι → Prop) : σ → σ → Prop :=
  Relation.ReflTransGen (fun s t => ∃ i, allowed s i ∧ attempt s i = .ok t)

theorem Attains.of_foldlM {inputs : List ι} (ok : ∀ s, ∀ i ∈ inputs, allowed s i) {s t : σ}
    (eq : inputs.foldlM attempt s = .ok t) : Attains attempt allowed s t := by
  induction inputs generalizing s with
  | nil =>
    cases eq
    exact Relation.ReflTransGen.refl
  | cons i rest ih =>
    rw [List.foldlM_cons] at eq
    obtain ⟨u, first, others⟩ := bind_eq_ok.mp eq
    exact Relation.ReflTransGen.head ⟨i, ok s i List.mem_cons_self, first⟩
      (ih (fun s j member => ok s j (List.mem_cons_of_mem i member)) others)

theorem Attains.invariant {P : σ → Prop} {s t : σ} (run : Attains attempt allowed s t) (init : P s)
    (preserve : ∀ u i v, P u → allowed u i → attempt u i = .ok v → P v) : P t := by
  induction run with
  | refl => exact init
  | tail _ last ih =>
    obtain ⟨i, ok, eq⟩ := last
    exact preserve _ i _ ih ok eq

end Fallible
end Run
