import Sponge.Lib.Run
import Mathlib.Logic.Function.Basic

/-! Computations that may throw, judged by what they return and by what is to
blame when they throw. An outcome with nothing to blame is total correctness. -/

/-- What returns satisfies `Q`; whoever throws can point at `blame`. -/
def Outcome {ε α : Type} (x : Except ε α) (Q : α → Prop) (blame : Prop) : Prop :=
  match x with
  | .ok a => Q a
  | .error _ => blame

namespace Outcome

variable {ε α β : Type} {x : Except ε α} {f : α → Except ε β} {P Q : α → Prop} {R : β → Prop}
  {blame worse : Prop}

@[simp] theorem ok_iff {a : α} : Outcome (.ok a : Except ε α) Q blame ↔ Q a := Iff.rfl

@[simp] theorem pure_iff {a : α} : Outcome (pure a : Except ε α) Q blame ↔ Q a := Iff.rfl

@[simp] theorem error_iff {e : ε} : Outcome (.error e : Except ε α) Q blame ↔ blame := Iff.rfl

@[simp] theorem throw_iff {e : ε} : Outcome (throw e : Except ε α) Q blame ↔ blame := Iff.rfl

theorem mono (outcome : Outcome x P blame) (post : ∀ a, P a → Q a) (worsens : blame → worse) :
    Outcome x Q worse := by
  cases x with
  | ok a => exact post a outcome
  | error e => exact worsens outcome

theorem weaken (outcome : Outcome x P blame) (post : ∀ a, P a → Q a) : Outcome x Q blame :=
  outcome.mono post id

/-- One computation after the other. -/
theorem bind (first : Outcome x P blame) (second : ∀ a, P a → Outcome (f a) R blame) :
    Outcome (x >>= f) R blame := by
  cases x with
  | ok a => exact second a first
  | error e => exact first

theorem and (left : Outcome x P blame) (right : Outcome x Q worse) :
    Outcome x (fun a => P a ∧ Q a) blame := by
  cases x with
  | ok a => exact ⟨left, right⟩
  | error e => exact left

/-- What holds of every value returned. -/
theorem of_ok {a : α} (outcome : Outcome x Q blame) (eq : x = .ok a) : Q a := by
  rw [eq] at outcome
  exact outcome

/-- Of what returns alone. -/
theorem of_forall (post : ∀ a, x = .ok a → Q a) : Outcome x Q True := by
  cases x with
  | ok a => exact post a rfl
  | error e => trivial

/-- With nobody to blame the computation returns. -/
theorem returns (outcome : Outcome x Q blame) (fair : ¬ blame) : ∃ a, x = .ok a ∧ Q a := by
  cases x with
  | ok a => exact ⟨a, rfl, outcome⟩
  | error e => exact absurd outcome fair

/-- A fold of steps, each from the invariant to the invariant. -/
theorem foldlM {σ ι : Type} {attempt : σ → ι → Except ε σ} {inv : σ → Prop} {inputs : List ι}
    (step : ∀ s, ∀ i ∈ inputs, inv s → Outcome (attempt s i) inv blame) {s : σ} (init : inv s) :
    Outcome (inputs.foldlM attempt s) inv blame := by
  induction inputs generalizing s with
  | nil => exact init
  | cons i rest ih =>
    rw [List.foldlM_cons]
    refine (step s i List.mem_cons_self init).bind (fun t kept => ?_)
    exact ih (fun s j member => step s j (List.mem_cons_of_mem i member)) kept

/-- A fold in which each step changes one entry of what the state shows, from
`view` to `after`, and each entry at most once. -/
theorem foldlM_update {σ κ τ : Type} [DecidableEq κ] {attempt : σ → κ → Except ε σ} {inv : (κ → τ) → σ → Prop}
    {keys : List κ} (nodup : keys.Nodup) {view after : κ → τ}
    (step : ∀ s, ∀ k ∈ keys, ∀ now, now k = view k → inv now s →
      Outcome (attempt s k) (inv (Function.update now k (after k))) blame)
    {s : σ} {now : κ → τ} (agree : ∀ k ∈ keys, now k = view k) (init : inv now s) :
    Outcome (keys.foldlM attempt s) (inv fun k => if k ∈ keys then after k else now k) blame := by
  induction keys generalizing now s with
  | nil => simpa using init
  | cons k rest ih =>
    obtain ⟨absent, distinct⟩ := List.nodup_cons.mp nodup
    rw [List.foldlM_cons]
    refine (step s k List.mem_cons_self now (agree k List.mem_cons_self) init).bind fun t kept => ?_
    have others : ∀ j ∈ rest, Function.update now k (after k) j = view j := by
      intro j member
      rw [Function.update_of_ne (ne_of_mem_of_not_mem member absent)]
      exact agree j (List.mem_cons_of_mem k member)
    have entries : (fun j => if j ∈ rest then after j else Function.update now k (after k) j) =
        fun j => if j ∈ k :: rest then after j else now j := by
      funext j
      by_cases same : j = k
      · subst same
        simp [absent]
      · simp [same]
    rw [← entries]
    exact ih distinct (fun s j member => step s j (List.mem_cons_of_mem k member)) others kept

end Outcome
