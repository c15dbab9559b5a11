import Sponge.FileDescriptor

/-! The event loop as the source computes it. The rules are named by keys, and
`_rules` is the list of the keys that are left; callbacks act on a state that
holds the descriptors. What `poll` and the calls of the callbacks answer is an
input of each turn. -/
namespace Sponge.EventLoop

inductive Direction where
  | input
  | output
deriving DecidableEq, Repr

structure Rule (σ ι : Type) where
  fd : σ → FileDescriptor
  direction : Direction
  callback : ι → σ → Except String σ
  interest : σ → Bool := fun _ => true
  cancel : σ → σ := id

/-- The `revents` of one descriptor: the event it was asked for, `POLLHUP`, and
`POLLERR` or `POLLNVAL`. -/
structure Revents where
  event : Bool := false
  hup : Bool := false
  error : Bool := false
deriving DecidableEq, Repr

/-- What `poll` answers. Any failure but `EINTR` is swallowed by the source. -/
inductive Poll (κ ι : Type) where
  | timeout
  | interrupted
  | failed
  | ready (revents : κ → Revents) (answers : κ → ι)

inductive Result where
  | success
  | timeout
  | exit
deriving DecidableEq, Repr

/-- The rules that are left, and what their callbacks work on. -/
structure Loop (κ σ : Type) where
  rules : List κ
  data : σ

variable {κ σ ι : Type}

namespace Rule

def serviceCount (r : Rule σ ι) (s : σ) : UInt32 :=
  match r.direction with
  | .input => (r.fd s).readCount
  | .output => (r.fd s).writeCount

/-- The rule is cancelled before polling: end of file, or a closed descriptor. -/
def defunct (r : Rule σ ι) (s : σ) : Bool :=
  (r.direction == .input && (r.fd s).eof) || (r.fd s).closed

/-- The callback, and the check for a busy wait. -/
def service (r : Rule σ ι) (answer : ι) (s : σ) : Except String σ := do
  let t ← r.callback answer s
  if r.serviceCount s = r.serviceCount t ∧ r.interest t = true then
    .error "EventLoop: busy wait detected: callback did not read/write fd and is still interested"
  else return t

/-- A callback that uses its descriptor, or is done with it, is no busy wait. -/
theorem service_outcome {r : Rule σ ι} {answer : ι} {s : σ} {Q : σ → Prop} {blame : Prop}
    (callback : Outcome (r.callback answer s) Q blame)
    (busy : ∀ t, Q t → r.serviceCount s ≠ r.serviceCount t ∨ r.interest t = false) :
    Outcome (r.service answer s) Q blame := by
  refine callback.bind (fun t holds => ?_)
  split
  · rename_i waits
    rcases busy t holds with used | done
    · exact absurd waits.1 used
    · simp [done] at waits
  · exact holds

/-- A descriptor that neither fails nor only hangs up is served if it is ready. -/
def visit (r : Rule σ ι) (ready : Bool) (answer : ι) (s : σ) : Except String σ :=
  if ready then r.service answer s else .ok s

end Rule

variable (rule : κ → Rule σ ι)

/-- The `pollfd` of each rule that stays, flagged if its event is asked for. -/
def setUp : List κ → σ → List (κ × Bool) × σ
  | [], s => ([], s)
  | k :: rest, s =>
    if (rule k).defunct s then setUp rest ((rule k).cancel s)
    else ((k, (rule k).interest s) :: (setUp rest s).1, (setUp rest s).2)

/-- The pass over the poll results. -/
def serve (revents : κ → Revents) (answers : κ → ι) : List (κ × Bool) → σ → Except String (List κ × σ)
  | [], s => .ok ([], s)
  | (k, asked) :: rest, s =>
    if (revents k).error then .error "EventLoop: error on polled file descriptor"
    else if (revents k).hup ∧ asked ∧ (revents k).event = false then
      serve revents answers rest ((rule k).cancel s)
    else do
      let s ← (rule k).visit ((revents k).event && asked) (answers k) s
      let (rules, s) ← serve revents answers rest s
      return (k :: rules, s)

/-- What follows the set-up: quit, or poll and go through the results. -/
def pollAndServe (poll : Poll κ ι) (pollfds : List (κ × Bool)) (s : σ) : Except String (Result × Loop κ σ) :=
  if pollfds.any Prod.snd = false then .ok (.exit, ⟨pollfds.map Prod.fst, s⟩)
  else
    match poll with
    | .timeout => .ok (.timeout, ⟨pollfds.map Prod.fst, s⟩)
    | .interrupted => .ok (.exit, ⟨pollfds.map Prod.fst, s⟩)
    | .failed => .ok (.success, ⟨pollfds.map Prod.fst, s⟩)
    | .ready revents answers => do
      let (rules, s) ← serve rule revents answers pollfds s
      return (.success, ⟨rules, s⟩)

def waitNextEvent (poll : Poll κ ι) (l : Loop κ σ) : Except String (Result × Loop κ σ) :=
  pollAndServe rule poll (setUp rule l.rules l.data).1 (setUp rule l.rules l.data).2

/-- Wait for events until the loop says to exit; the flag tells that it has. -/
def untilExit : List (Poll κ ι) → Loop κ σ → Except String (Bool × Loop κ σ)
  | [], l => .ok (false, l)
  | poll :: polls, l => do
    let (result, l) ← waitNextEvent rule poll l
    if result = .exit then return (true, l) else untilExit polls l

/-- What the callbacks and cancellations of a set of rules keep. `P` speaks of the
rules that are left, of those polled and not yet gone through, and of the state.
Only the rules in `hangs` are cancelled by a hangup, and the callbacks get `fair`
answers. -/
structure Discipline (P : List κ → List (κ × Bool) → σ → Prop) (hangs : κ → Prop)
    (fair : κ → ι → Prop) (guilty : ι → Prop) : Prop where
  poll : ∀ {polled after s} k, (rule k).defunct s = false →
    P (polled.map Prod.fst ++ k :: after) polled s →
    P (polled.map Prod.fst ++ k :: after) (polled ++ [(k, (rule k).interest s)]) s
  defunct : ∀ {before after polled s} k, (rule k).defunct s = true → P (before ++ k :: after) polled s →
    P (before ++ after) polled ((rule k).cancel s)
  hangup : ∀ {before after rest s} k, hangs k → P (before ++ k :: after) ((k, true) :: rest) s →
    P (before ++ after) rest ((rule k).cancel s)
  service : ∀ {live rest s} k answer, fair k answer → k ∈ live → P live ((k, true) :: rest) s →
    Outcome ((rule k).service answer s) (P live rest) (guilty answer)
  skip : ∀ {live p rest s}, P live (p :: rest) s → P live rest s

/-- The kernel is to blame: it reports an error, or a call of a callback failed. -/
def Poll.Guilty (guilty : ι → Prop) : Poll κ ι → Prop
  | .ready revents answers => ∃ k, (revents k).error = true ∨ guilty (answers k)
  | _ => False

/-- All that the kernel reports of this rule is a hangup. -/
def Poll.OnlyHangsUp (k : κ) : Poll κ ι → Prop
  | .ready revents _ => (revents k).hup = true ∧ (revents k).event = false
  | _ => False

/-- A turn in which this happens to a rule that was asked for, which is cancelled. -/
def HangsUp (poll : Poll κ ι) (l : Loop κ σ) (k : κ) : Prop :=
  (k, true) ∈ (setUp rule l.rules l.data).1 ∧ poll.OnlyHangsUp k

/-- A run with such a turn. -/
def RunHangsUp : List (Poll κ ι) → Loop κ σ → κ → Prop
  | [], _, _ => False
  | poll :: polls, l, k => HangsUp rule poll l k ∨
      ∃ result next, waitNextEvent rule poll l = .ok (result, next) ∧ result ≠ .exit ∧ RunHangsUp polls next k

/-- What a set of rules assumes of the answers to its callbacks. -/
def Poll.Fair (fair : κ → ι → Prop) : Poll κ ι → Prop
  | .ready _ answers => ∀ k, fair k (answers k)
  | _ => True

namespace Discipline

variable {rule} {P : List κ → List (κ × Bool) → σ → Prop} {hangs : κ → Prop} {fair : κ → ι → Prop}
  {guilty : ι → Prop}

theorem skips (discipline : Discipline rule P hangs fair guilty) {live : List κ} {polled : List (κ × Bool)} {s : σ}
    (holds : P live polled s) : P live [] s := by
  induction polled with
  | nil => exact holds
  | cons p rest ih => exact ih (discipline.skip holds)

theorem setUp (discipline : Discipline rule P hangs fair guilty) (rules : List κ) (polled : List (κ × Bool)) (s : σ)
    (holds : P (polled.map Prod.fst ++ rules) polled s) :
    P ((polled ++ (setUp rule rules s).1).map Prod.fst) (polled ++ (setUp rule rules s).1)
      (setUp rule rules s).2 := by
  induction rules generalizing polled s with
  | nil => simpa [EventLoop.setUp] using holds
  | cons k rest ih =>
    rw [EventLoop.setUp]
    split
    · rename_i gone
      exact ih polled _ (discipline.defunct k gone holds)
    · rename_i stays
      have asked := discipline.poll k (by simpa using stays) holds
      have others := ih (polled ++ [(k, (rule k).interest s)]) s (by simpa using asked)
      simpa using others

theorem serve (discipline : Discipline rule P hangs fair guilty) (revents : κ → Revents) (answers : κ → ι)
    (fairly : ∀ k, fair k (answers k)) (pollfds : List (κ × Bool))
    (hups : ∀ k, (k, true) ∈ pollfds → (revents k).hup = true ∧ (revents k).event = false → hangs k)
    (before : List κ) (s : σ) (holds : P (before ++ pollfds.map Prod.fst) pollfds s) :
    Outcome (serve rule revents answers pollfds s) (fun out => P (before ++ out.1) [] out.2)
      (∃ k, (revents k).error = true ∨ guilty (answers k)) := by
  induction pollfds generalizing before s with
  | nil => exact holds
  | cons p rest ih =>
    obtain ⟨k, asked⟩ := p
    have ih := ih fun j member => hups j (List.mem_cons_of_mem _ member)
    have stays : ∀ t, P (before ++ k :: rest.map Prod.fst) rest t →
        Outcome (EventLoop.serve rule revents answers rest t) (fun out => P (before ++ k :: out.1) [] out.2)
          (∃ k, (revents k).error = true ∨ guilty (answers k)) := by
      intro t kept
      have others := ih (before ++ [k]) t (by simpa using kept)
      simpa using others
    rw [EventLoop.serve]
    split
    · rename_i bad
      exact ⟨k, Or.inl bad⟩
    split
    · rename_i hup
      have wanted : asked = true := hup.2.1
      subst wanted
      exact ih before _ (discipline.hangup k (hups k List.mem_cons_self ⟨hup.1, hup.2.2⟩) holds)
    · refine Outcome.bind (P := P (before ++ k :: rest.map Prod.fst) rest) ?_ (fun t kept => ?_)
      · rw [Rule.visit]
        split
        · rename_i ready
          have wanted : asked = true := (Bool.and_eq_true_iff.mp ready).2
          subst wanted
          refine (discipline.service k (answers k) (fairly k) (List.mem_append_right _ List.mem_cons_self) holds).mono
            (fun _ => id) (fun bad => ⟨k, Or.inr bad⟩)
        · exact discipline.skip holds
      · exact (stays t kept).bind (fun out kept => kept)

/-- One turn of the loop. -/
theorem waitNextEvent (discipline : Discipline rule P hangs fair guilty) (poll : Poll κ ι) (fairly : poll.Fair fair)
    (l : Loop κ σ) (hups : ∀ k, HangsUp rule poll l k → hangs k) (holds : P l.rules [] l.data) :
    Outcome (waitNextEvent rule poll l) (fun out => P out.2.rules [] out.2.data) (poll.Guilty guilty) := by
  have ready := discipline.setUp l.rules [] l.data (by simpa using holds)
  rw [List.nil_append] at ready
  have rest := discipline.skips ready
  unfold EventLoop.waitNextEvent pollAndServe
  split
  · exact rest
  cases poll with
  | timeout => exact rest
  | interrupted => exact rest
  | failed => exact rest
  | ready revents answers =>
    have served := discipline.serve revents answers fairly _ (fun k asked only => hups k ⟨asked, only⟩) [] _ ready
    exact served.bind (fun out kept => kept)

/-- Every turn of a run. -/
theorem untilExit (discipline : Discipline rule P hangs fair guilty) (polls : List (Poll κ ι))
    (fairly : ∀ poll ∈ polls, poll.Fair fair) (l : Loop κ σ) (hups : ∀ k, RunHangsUp rule polls l k → hangs k)
    (holds : P l.rules [] l.data) :
    Outcome (untilExit rule polls l) (fun out => P out.2.rules [] out.2.data)
      (∃ poll ∈ polls, poll.Guilty guilty) := by
  induction polls generalizing l with
  | nil => exact holds
  | cons poll polls ih =>
    rw [EventLoop.untilExit]
    have first := discipline.waitNextEvent poll (fairly poll List.mem_cons_self) l (fun k hup => hups k (.inl hup)) holds
    have others := fun other member => fairly other (List.mem_cons_of_mem poll member)
    cases turned : EventLoop.waitNextEvent rule poll l with
    | error message =>
      rw [turned] at first
      exact ⟨poll, List.mem_cons_self, first⟩
    | ok out =>
      obtain ⟨result, next⟩ := out
      have kept := first.of_ok turned
      change Outcome (ite _ _ _) _ _
      split
      · exact kept
      · rename_i goes
        refine (ih others next (fun k later => hups k (.inr ⟨result, next, turned, goes, later⟩)) kept).mono (fun _ => id) ?_
        rintro ⟨other, member, bad⟩
        exact ⟨other, List.mem_cons_of_mem _ member, bad⟩

end Discipline

section Quiet

/-- Neither asked for nor cancelled when the loop is set up. -/
def Rule.Quiet (r : Rule σ ι) (s : σ) : Prop := r.interest s = false ∧ r.defunct s = false

/-- Cancelling a rule leaves the quiet rules before it quiet. -/
def Settles (rules : List κ) : Prop :=
  rules.Pairwise (fun j k => ∀ s, (rule j).Quiet s → (rule j).Quiet ((rule k).cancel s))

variable {rule}

/-- No turn adds a rule. -/
theorem sublist_discipline (rule : κ → Rule σ ι) (rules : List κ) :
    Discipline rule (fun live _ _ => live.Sublist rules) (fun _ => True) (fun _ _ => True)
      (fun _ => True) where
  poll _ _ kept := kept
  defunct k _ kept := ((List.sublist_cons_self k _).append_left _).trans kept
  hangup k _ kept := ((List.sublist_cons_self k _).append_left _).trans kept
  service _ _ _ _ kept := .of_forall (fun _ _ => kept)
  skip kept := kept

/-- Nothing is assumed of this poll. -/
theorem Poll.fair_any (poll : Poll κ ι) : poll.Fair (fun _ _ => True) := by
  cases poll with
  | ready revents answers => exact fun _ => trivial
  | _ => trivial

theorem waitNextEvent_sublist {l : Loop κ σ} {poll : Poll κ ι} {out : Result × Loop κ σ}
    (turn : waitNextEvent rule poll l = .ok out) : out.2.rules.Sublist l.rules :=
  ((sublist_discipline rule l.rules).waitNextEvent poll poll.fair_any l (fun _ _ => trivial) (.refl _)).of_ok turn

/-- What was quiet before the set-up of the rules after it still is. -/
theorem setUp_keeps {j : κ} {rules : List κ} {s : σ}
    (settles : ∀ k ∈ rules, ∀ s, (rule j).Quiet s → (rule j).Quiet ((rule k).cancel s))
    (quiet : (rule j).Quiet s) : (rule j).Quiet (setUp rule rules s).2 := by
  induction rules generalizing s with
  | nil => exact quiet
  | cons k rest ih =>
    have others := fun k member => settles k (List.mem_cons_of_mem _ member)
    rw [setUp]
    split
    · exact ih others (settles k List.mem_cons_self s quiet)
    · exact ih others quiet

theorem setUp_quiet {rules : List κ} {s : σ} (settles : Settles rule rules)
    (idle : (setUp rule rules s).1.any Prod.snd = false) :
    ∀ p ∈ (setUp rule rules s).1, (rule p.1).Quiet (setUp rule rules s).2 := by
  induction rules generalizing s with
  | nil => simp [setUp]
  | cons k rest ih =>
    obtain ⟨first, others⟩ := List.pairwise_cons.mp settles
    rw [setUp] at idle ⊢
    split at idle
    · rename_i gone
      rw [if_pos gone]
      exact ih others idle
    · rename_i stays
      rw [if_neg stays]
      simp only [List.any_cons, Bool.or_eq_false_iff] at idle
      intro p member
      rcases List.mem_cons.mp member with rfl | member
      · exact setUp_keeps first ⟨idle.1, by simpa using stays⟩
      · exact ih others idle.2 p member

/-- The loop exits by itself when all rules that are left are quiet. -/
theorem waitNextEvent_quiet {l next : Loop κ σ} {poll : Poll κ ι} (settles : Settles rule l.rules)
    (uninterrupted : poll ≠ .interrupted) (exits : waitNextEvent rule poll l = .ok (.exit, next)) :
    ∀ k ∈ next.rules, (rule k).Quiet next.data := by
  unfold waitNextEvent pollAndServe at exits
  split at exits
  · rename_i idle
    cases exits
    intro k member
    obtain ⟨p, polled, rfl⟩ := List.mem_map.mp member
    exact setUp_quiet settles idle p polled
  cases poll with
  | interrupted => exact absurd rfl uninterrupted
  | timeout => cases exits
  | failed => cases exits
  | ready revents answers =>
    obtain ⟨_, _, eq⟩ := Run.bind_eq_ok.mp exits
    cases eq

theorem untilExit_quiet {polls : List (Poll κ ι)} {l : Loop κ σ} (settles : Settles rule l.rules) :
    Outcome (untilExit rule polls l)
      (fun out => (∀ poll ∈ polls, poll ≠ .interrupted) → out.1 = true →
        ∀ k ∈ out.2.rules, (rule k).Quiet out.2.data) True := by
  induction polls generalizing l with
  | nil => exact fun _ returned => by cases returned
  | cons poll polls ih =>
    rw [untilExit]
    cases turn : waitNextEvent rule poll l with
    | error message => trivial
    | ok out =>
      obtain ⟨result, next⟩ := out
      change Outcome (ite _ _ _) _ _
      split
      · rename_i exits
        rw [exits] at turn
        exact fun uninterrupted _ =>
          waitNextEvent_quiet settles (uninterrupted poll List.mem_cons_self) turn
      · refine (ih (settles.sublist (waitNextEvent_sublist turn))).weaken (fun out quiet uninterrupted => ?_)
        exact quiet (fun other member => uninterrupted other (List.mem_cons_of_mem _ member))

end Quiet

end Sponge.EventLoop
