import Sponge.EventLoop

/-! The life of a rule. A run is repeated with rules that write down what the loop
calls; the log shows that a rule is cancelled at most once and is never called
after that. -/
namespace Sponge.EventLoop

inductive Event (κ : Type) where
  | called (k : κ)
  | cancelled (k : κ)
deriving DecidableEq, Repr

def Event.key {κ : Type} : Event κ → κ
  | .called k => k
  | .cancelled k => k

variable {κ σ ι : Type}

/-- The rules with a log beside the state they work on. -/
def logged (rule : κ → Rule σ ι) (k : κ) : Rule (σ × List (Event κ)) ι where
  fd s := (rule k).fd s.1
  direction := (rule k).direction
  callback answer s := do return (← (rule k).callback answer s.1, s.2 ++ [.called k])
  interest s := (rule k).interest s.1
  cancel s := ((rule k).cancel s.1, s.2 ++ [.cancelled k])

/-- The loop without its log. -/
def Loop.forget (l : Loop κ (σ × List (Event κ))) : Loop κ σ := ⟨l.rules, l.data.1⟩

section Forget

variable (rule : κ → Rule σ ι)

theorem logged_setUp (rules : List κ) (s : σ × List (Event κ)) :
    (setUp (logged rule) rules s).1 = (setUp rule rules s.1).1 ∧
      (setUp (logged rule) rules s).2.1 = (setUp rule rules s.1).2 := by
  induction rules generalizing s with
  | nil => exact ⟨rfl, rfl⟩
  | cons k rest ih =>
    have same : (logged rule k).defunct s = (rule k).defunct s.1 := rfl
    rw [setUp, setUp, same]
    split
    · exact ih _
    · obtain ⟨pollfds, data⟩ := ih s
      exact ⟨by rw [pollfds]; rfl, data⟩

theorem logged_service (k : κ) (answer : ι) (s : σ × List (Event κ)) :
    ((logged rule k).service answer s).map Prod.fst = (rule k).service answer s.1 := by
  simp only [Rule.service, logged]
  cases (rule k).callback answer s.1 with
  | error message => rfl
  | ok t =>
    exact apply_ite (Except.map Prod.fst) _ _ _

theorem logged_visit (k : κ) (ready : Bool) (answer : ι) (s : σ × List (Event κ)) :
    ((logged rule k).visit ready answer s).map Prod.fst = (rule k).visit ready answer s.1 := by
  rw [Rule.visit, Rule.visit]
  split
  · exact logged_service rule k answer s
  · rfl

theorem logged_serve (revents : κ → Revents) (answers : κ → ι) (pollfds : List (κ × Bool))
    (s : σ × List (Event κ)) :
    (serve (logged rule) revents answers pollfds s).map (fun out => (out.1, out.2.1)) =
      serve rule revents answers pollfds s.1 := by
  induction pollfds generalizing s with
  | nil => rfl
  | cons p rest ih =>
    obtain ⟨k, asked⟩ := p
    rw [serve, serve]
    split
    · rfl
    split
    · exact ih _
    · rw [← logged_visit]
      cases (logged rule k).visit ((revents k).event && asked) (answers k) s with
      | error message => rfl
      | ok t =>
        change Except.map _ (serve (logged rule) revents answers rest t >>= _) =
          serve rule revents answers rest t.1 >>= _
        rw [← ih]
        cases serve (logged rule) revents answers rest t with
        | error message => rfl
        | ok out => rfl

theorem logged_pollAndServe (poll : Poll κ ι) (pollfds : List (κ × Bool)) (s : σ × List (Event κ)) :
    (pollAndServe (logged rule) poll pollfds s).map (fun out => (out.1, out.2.forget)) =
      pollAndServe rule poll pollfds s.1 := by
  unfold pollAndServe
  split
  · rfl
  cases poll with
  | timeout => rfl
  | interrupted => rfl
  | failed => rfl
  | ready revents answers =>
    simp only [← logged_serve]
    cases serve (logged rule) revents answers pollfds s with
    | error message => rfl
    | ok out => rfl

theorem logged_waitNextEvent (poll : Poll κ ι) (l : Loop κ (σ × List (Event κ))) :
    (waitNextEvent (logged rule) poll l).map (fun out => (out.1, out.2.forget)) =
      waitNextEvent rule poll l.forget := by
  obtain ⟨pollfds, data⟩ := logged_setUp rule l.rules l.data
  rw [waitNextEvent, waitNextEvent, logged_pollAndServe, pollfds, data]
  rfl

/-- The log changes nothing of a run. -/
theorem logged_untilExit (polls : List (Poll κ ι)) (l : Loop κ (σ × List (Event κ))) :
    (untilExit (logged rule) polls l).map (fun out => (out.1, out.2.forget)) =
      untilExit rule polls l.forget := by
  induction polls generalizing l with
  | nil => rfl
  | cons poll polls ih =>
    rw [untilExit, untilExit, ← logged_waitNextEvent]
    cases waitNextEvent (logged rule) poll l with
    | error message => rfl
    | ok out =>
      change Except.map _ (ite _ _ _) = ite _ _ _
      split
      · rfl
      · exact ih out.2

end Forget

/-- What the log shows of the rules: the ones left are in their order, the others
were cancelled, and nothing of a cancelled rule comes after its cancellation. -/
structure Lifecycle (rules live : List κ) (log : List (Event κ)) : Prop where
  left : live.Sublist rules
  known : ∀ event ∈ log, event.key ∈ rules
  gone : ∀ k ∈ rules, k ∉ live → .cancelled k ∈ log
  last : ∀ before k after, log = before ++ .cancelled k :: after →
    k ∉ live ∧ ∀ event ∈ after, event.key ≠ k

namespace Lifecycle

variable {rules live before after : List κ} {log : List (Event κ)}

theorem snoc_split {front back : List (Event κ)} {event mark : Event κ}
    (eq : log ++ [event] = front ++ mark :: back) :
    (back = [] ∧ event = mark ∧ log = front) ∨ ∃ init, back = init ++ [event] ∧ log = front ++ mark :: init := by
  induction back using List.reverseRecOn with
  | nil =>
    obtain ⟨same, only⟩ := List.append_inj' eq rfl
    exact Or.inl ⟨rfl, by simpa using only, same⟩
  | append_singleton init last _ =>
    rw [← List.cons_append, ← List.append_assoc] at eq
    obtain ⟨same, only⟩ := List.append_inj' eq rfl
    exact Or.inr ⟨init, by rw [only], same⟩

theorem called {k : κ} (life : Lifecycle rules live log) (member : k ∈ live) :
    Lifecycle rules live (log ++ [.called k]) := by
  refine ⟨life.left, ?_, fun j known absent => List.mem_append_left _ (life.gone j known absent), ?_⟩
  · intro event logged
    rcases List.mem_append.mp logged with old | new
    · exact life.known event old
    · rw [List.mem_singleton.mp new]
      exact life.left.subset member
  · intro front j back eq
    rcases snoc_split eq with ⟨_, clash, _⟩ | ⟨init, rfl, split⟩
    · cases clash
    · obtain ⟨absent, quiet⟩ := life.last front j init split
      refine ⟨absent, fun event later => ?_⟩
      rcases List.mem_append.mp later with old | new
      · exact quiet event old
      · rw [List.mem_singleton.mp new]
        rintro rfl
        exact absent member

theorem cancelled {k : κ} (distinct : rules.Nodup) (life : Lifecycle rules (before ++ k :: after) log) :
    Lifecycle rules (before ++ after) (log ++ [.cancelled k]) := by
  have fewer : (before ++ after).Sublist (before ++ k :: after) := (List.sublist_cons_self k after).append_left before
  have member : k ∈ before ++ k :: after := List.mem_append_right _ List.mem_cons_self
  have alone : k ∉ before ++ after := by
    have once := distinct.sublist life.left
    rw [List.nodup_append, List.nodup_cons] at once
    obtain ⟨_, ⟨notAfter, _⟩, apart⟩ := once
    rw [List.mem_append]
    rintro (inside | inside)
    · exact apart k inside k List.mem_cons_self rfl
    · exact notAfter inside
  refine ⟨fewer.trans life.left, ?_, ?_, ?_⟩
  · intro event logged
    rcases List.mem_append.mp logged with old | new
    · exact life.known event old
    · rw [List.mem_singleton.mp new]
      exact life.left.subset member
  · intro j known absent
    by_cases same : j = k
    · rw [same]
      exact List.mem_append_right _ (List.mem_singleton.mpr rfl)
    · refine List.mem_append_left _ (life.gone j known (fun present => absent ?_))
      rcases List.mem_append.mp present with inside | inside
      · exact List.mem_append_left _ inside
      · exact List.mem_append_right _ ((List.mem_cons.mp inside).resolve_left same)
  · intro front j back eq
    rcases snoc_split eq with ⟨rfl, same, _⟩ | ⟨init, rfl, split⟩
    · cases same
      exact ⟨alone, fun _ none => by cases none⟩
    · obtain ⟨absent, quiet⟩ := life.last front j init split
      refine ⟨fun present => absent (fewer.subset present), fun event later => ?_⟩
      rcases List.mem_append.mp later with old | new
      · exact quiet event old
      · rw [List.mem_singleton.mp new]
        rintro rfl
        exact absent member

end Lifecycle

theorem lifecycle_discipline (rule : κ → Rule σ ι) {rules : List κ} (distinct : rules.Nodup) :
    Discipline (logged rule) (fun live _ s => Lifecycle rules live s.2) (fun _ => True)
      (fun _ _ => True) (fun _ => True) where
  poll _ _ life := life
  defunct _ _ life := life.cancelled distinct
  hangup _ _ life := life.cancelled distinct
  skip life := life
  service {live rest s} k answer _ member life := by
    refine .of_forall (fun t eq => ?_)
    obtain ⟨called, ran, checked⟩ := Run.bind_eq_ok.mp eq
    obtain ⟨u, _, made⟩ := Run.bind_eq_ok.mp ran
    split at checked
    · cases checked
    · cases checked
      cases made
      exact life.called member

/-- Over a whole run, whatever the callbacks do and the kernel answers: the log
changes nothing, and it obeys the life cycle. -/
theorem run_lifecycle (rule : κ → Rule σ ι) (rules : List κ) (s : σ) (polls : List (Poll κ ι))
    (distinct : rules.Nodup) :
    (untilExit (logged rule) polls ⟨rules, (s, [])⟩).map (fun out => (out.1, out.2.forget)) =
        untilExit rule polls ⟨rules, s⟩ ∧
      ∀ out, untilExit (logged rule) polls ⟨rules, (s, [])⟩ = .ok out →
        Lifecycle rules out.2.rules out.2.data.2 := by
  refine ⟨logged_untilExit rule polls _, fun out eq => ?_⟩
  have begun : Lifecycle rules rules ([] : List (Event κ)) := by
    refine ⟨.refl _, by simp, fun k known absent => absurd known absent, fun before k after eq => ?_⟩
    simp at eq
  exact ((lifecycle_discipline rule distinct).untilExit polls (fun poll _ => poll.fair_any) ⟨rules, (s, [])⟩
    (fun _ _ => trivial) begun).of_ok eq

/-- Each rule reads its own descriptor to the end. -/
def readToEnd (key : Fin 3) : Rule (Fin 3 → FileDescriptor) Kernel where
  fd fds := fds key
  direction := .input
  callback k fds := do return Function.update fds key (← (fds key).read 4 k).2

/-- A kernel that has these bytes to read and takes every write whole. -/
def readingKernel (bytes : List UInt8) : Kernel where
  read _ _ := .ok bytes
  writev _ views := .ok views.size
  shutdown _ := .ok ()
  close _ := .ok ()

/-- The descriptor in the middle comes to its end, which the second turn finds. -/
def twoTurns : List (Poll (Fin 3) Kernel) :=
  [.ready (fun key => { event := key != 0 }) (fun key => readingKernel (if key = 1 then [] else [33])),
    .ready (fun key => { event := key == 0 }) (fun _ => readingKernel [34])]

theorem run_lifecycle_readToEnd :
    ∃ out, untilExit (logged readToEnd) twoTurns ⟨[0, 1, 2], (fun _ => {}, [])⟩ = .ok out ∧
      out.2.rules = [0, 2] ∧ out.2.data.2 = [.called 1, .called 2, .cancelled 1, .called 0] ∧
      Lifecycle [0, 1, 2] out.2.rules out.2.data.2 :=
  ⟨_, rfl, rfl, rfl, (run_lifecycle readToEnd [0, 1, 2] (fun _ => {}) twoTurns (by decide)).2 _ rfl⟩

end Sponge.EventLoop
