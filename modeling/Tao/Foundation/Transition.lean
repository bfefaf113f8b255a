import Mathlib.Init

/-! # Partial transition systems

A step function `State → Action → Option State` models code that may have no
defined result: a store past an array, a dereference of freed memory.  `run`
folds it over a list of actions, `Guarded` says that every action of a run meets
a condition on the state it is taken in, and `Always` that every state of the run
is defined and satisfies a predicate. -/

namespace Tao.Foundation

variable {State Action : Type*} (step : State → Action → Option State)

def run : State → List Action → Option State
  | state, [] => some state
  | state, action :: actions => (step state action).bind fun next => run next actions

/-- Every action meets `ok` in the state in which it is taken. -/
def Guarded (ok : State → Action → Prop) : State → List Action → Prop
  | _, [] => True
  | state, action :: actions =>
    ok state action ∧ ∀ next, step state action = some next → Guarded ok next actions

/-- Every step is defined and `good` holds of every state reached, the first one included. -/
def Always (good : State → Prop) : State → List Action → Prop
  | state, [] => good state
  | state, action :: actions =>
    good state ∧ ∃ next, step state action = some next ∧ Always good next actions

variable {step}

theorem Always.head {good : State → Prop} {state : State} {actions : List Action}
    (always : Always step good state actions) : good state := by
  cases actions with
  | nil => exact always
  | cons _ _ => exact always.1

theorem Always.imp {good better : State → Prop} (implies : ∀ state, good state → better state)
    {state : State} {actions : List Action} (always : Always step good state actions) :
    Always step better state actions := by
  induction actions generalizing state with
  | nil => exact implies _ always
  | cons action actions inductionHypothesis =>
    obtain ⟨holds, next, stepped, rest⟩ := always
    exact ⟨implies _ holds, next, stepped, inductionHypothesis rest⟩

theorem Always.reaches {good : State → Prop} {state : State} {actions : List Action}
    (always : Always step good state actions) : ∃ final, run step state actions = some final ∧ good final := by
  induction actions generalizing state with
  | nil => exact ⟨state, rfl, always⟩
  | cons action actions inductionHypothesis =>
    obtain ⟨_, next, stepped, rest⟩ := always
    obtain ⟨final, reached, holds⟩ := inductionHypothesis rest
    exact ⟨final, by simp [run, stepped, reached], holds⟩

theorem Guarded.imp {ok weaker : State → Action → Prop}
    (implies : ∀ state action, ok state action → weaker state action)
    {state : State} {actions : List Action} (guarded : Guarded step ok state actions) :
    Guarded step weaker state actions := by
  induction actions generalizing state with
  | nil => trivial
  | cons action actions inductionHypothesis =>
    exact ⟨implies _ _ guarded.1, fun next stepped => inductionHypothesis (guarded.2 next stepped)⟩

theorem guarded_of_forall {ok : State → Action → Prop} (always : ∀ state action, ok state action) (state : State)
    (actions : List Action) : Guarded step ok state actions := by
  induction actions generalizing state with
  | nil => trivial
  | cons action actions inductionHypothesis => exact ⟨always state action, fun next _ => inductionHypothesis next⟩

/-- Conditions on the steps that agree in the states of an invariant. -/
theorem Guarded.congr {inv : State → Prop} {ok other : State → Action → Prop}
    (preserved : ∀ state action next, inv state → step state action = some next → inv next)
    (same : ∀ state action, inv state → (ok state action ↔ other state action)) {state : State}
    {actions : List Action} (holds : inv state) :
    Guarded step ok state actions ↔ Guarded step other state actions := by
  induction actions generalizing state with
  | nil => exact Iff.rfl
  | cons action actions inductionHypothesis =>
    refine and_congr (same state action holds) (forall_congr' fun next => forall_congr' fun stepped => ?_)
    exact inductionHypothesis (preserved state action next holds stepped)

/-- A condition on the steps of a run whose states are all good may use that they are. -/
theorem Always.guarded {good : State → Prop} {ok stronger : State → Action → Prop}
    (implies : ∀ state action, good state → ok state action → stronger state action)
    {state : State} {actions : List Action} (always : Always step good state actions)
    (guarded : Guarded step ok state actions) : Guarded step stronger state actions := by
  induction actions generalizing state with
  | nil => trivial
  | cons action actions inductionHypothesis =>
    obtain ⟨holds, next, stepped, rest⟩ := always
    refine ⟨implies _ _ holds guarded.1, fun later laterStepped => ?_⟩
    obtain rfl := Option.some.inj (stepped.symm.trans laterStepped)
    exact inductionHypothesis rest (guarded.2 next stepped)

/-- The invariant rule: what every allowed step is defined on and preserves holds of every
    state of a guarded run. -/
theorem Guarded.always {ok : State → Action → Prop} (inv : State → Prop)
    (preserved : ∀ state action, inv state → ok state action →
      ∃ next, step state action = some next ∧ inv next)
    {state : State} {actions : List Action} (holds : inv state)
    (guarded : Guarded step ok state actions) : Always step inv state actions := by
  induction actions generalizing state with
  | nil => exact holds
  | cons action actions inductionHypothesis =>
    obtain ⟨next, stepped, nextHolds⟩ := preserved state action holds guarded.1
    exact ⟨holds, next, stepped, inductionHypothesis nextHolds (guarded.2 next stepped)⟩

/-- The invariant rule for a step that is defined and preserves the invariant for every action. -/
theorem always_of_preserved (inv : State → Prop)
    (preserved : ∀ state action, inv state → ∃ next, step state action = some next ∧ inv next)
    {state : State} {actions : List Action} (holds : inv state) : Always step inv state actions := by
  induction actions generalizing state with
  | nil => exact holds
  | cons action actions inductionHypothesis =>
    obtain ⟨next, stepped, nextHolds⟩ := preserved state action holds
    exact ⟨holds, next, stepped, inductionHypothesis nextHolds⟩

theorem guarded_of_mem {ok : State → Action → Prop} {actions : List Action}
    (always : ∀ state, ∀ action ∈ actions, ok state action) (state : State) : Guarded step ok state actions := by
  induction actions generalizing state with
  | nil => trivial
  | cons action actions inductionHypothesis =>
    refine ⟨always state action List.mem_cons_self, fun next _ => ?_⟩
    exact inductionHypothesis (fun other later member => always other later (List.mem_cons_of_mem action member)) next

/-- A condition on the states together with one that all actions meet. -/
theorem Guarded.and_of_mem {ok : State → Action → Prop} {permitted : Action → Prop} {state : State}
    {actions : List Action} (guarded : Guarded step ok state actions) (all : ∀ action ∈ actions, permitted action) :
    Guarded step (fun state action => ok state action ∧ permitted action) state actions := by
  induction actions generalizing state with
  | nil => trivial
  | cons action actions inductionHypothesis =>
    refine ⟨⟨guarded.1, all action List.mem_cons_self⟩, fun next stepped => ?_⟩
    exact inductionHypothesis (guarded.2 next stepped) fun other later => all other (List.mem_cons_of_mem action later)

/-- The invariant rule for guarded runs that need not be defined to the end. -/
theorem Guarded.kept {ok : State → Action → Prop} {inv : State → Prop}
    (preserved : ∀ state action next, inv state → ok state action → step state action = some next → inv next)
    {state final : State} {actions : List Action} (holds : inv state) (guarded : Guarded step ok state actions)
    (reached : run step state actions = some final) : inv final := by
  induction actions generalizing state with
  | nil => cases reached; exact holds
  | cons action actions inductionHypothesis =>
    obtain ⟨next, stepped, rest⟩ := Option.bind_eq_some_iff.mp reached
    exact inductionHypothesis (preserved state action next holds guarded.1 stepped) (guarded.2 next stepped) rest

/-- The progress rule: as long as the goal is not met, no action sets a bounded measure back and each
    action that counts adds to it, so the goal is met once there were enough of those. -/
theorem Guarded.reaches_goal {ok : State → Action → Prop} {goal : State → Prop} {measure : State → Nat}
    {limit : Nat} {counts : Action → Bool}
    (stays : ∀ state action next, goal state → ok state action → step state action = some next → goal next)
    (advances : ∀ state action next, ¬goal state → measure state < limit → ok state action →
      step state action = some next →
      goal next ∨ measure next < limit ∧ measure state + (counts action).toNat ≤ measure next)
    {state final : State} {actions : List Action} (start : goal state ∨ measure state < limit)
    (guarded : Guarded step ok state actions) (reached : run step state actions = some final) :
    goal final ∨ measure final < limit ∧ measure state + actions.countP counts ≤ measure final := by
  induction actions generalizing state with
  | nil =>
    cases reached
    exact start.imp_right fun below => ⟨below, Nat.le_refl _⟩
  | cons action actions inductionHypothesis =>
    obtain ⟨next, stepped, rest⟩ := Option.bind_eq_some_iff.mp reached
    have later := guarded.2 next stepped
    by_cases met : goal state
    · exact .inl (Guarded.kept stays met guarded reached)
    · have below := start.resolve_left met
      rcases advances state action next met below guarded.1 stepped with nextMet | ⟨nextBelow, more⟩
      · exact .inl (Guarded.kept stays nextMet later rest)
      · refine (inductionHypothesis (.inr nextBelow) later rest).imp_right fun ⟨finalBelow, most⟩ => ⟨finalBelow, ?_⟩
        rw [List.countP_cons]
        cases counted : counts action <;> simp [counted] at more ⊢ <;> omega

theorem run_eq_some_getD {state : State} {actions : List Action} (defined : (run step state actions).isSome = true)
    (other : State) : run step state actions = some ((run step state actions).getD other) := by
  rw [← Option.get_eq_getD _ (h := defined), Option.some_get defined]

/-- The invariant rule for runs that need not be defined to the end, with certain actions only. -/
theorem run_invariant_mem {inv : State → Prop} {state final : State} {actions : List Action}
    (preserved : ∀ state, ∀ action ∈ actions, ∀ next, inv state → step state action = some next → inv next)
    (holds : inv state) (reached : run step state actions = some final) : inv final := by
  induction actions generalizing state with
  | nil => cases reached; exact holds
  | cons action actions inductionHypothesis =>
    obtain ⟨next, stepped, rest⟩ := Option.bind_eq_some_iff.mp reached
    refine inductionHypothesis (fun state later member => ?_) ?_ rest
    · exact preserved state later (List.mem_cons_of_mem _ member)
    · exact preserved state action List.mem_cons_self next holds stepped

theorem run_invariant {inv : State → Prop}
    (preserved : ∀ state action next, inv state → step state action = some next → inv next)
    {state final : State} {actions : List Action} (holds : inv state)
    (reached : run step state actions = some final) : inv final :=
  run_invariant_mem (fun state action _ => preserved state action) holds reached

/-- The invariant rule for a loop whose body is defined while the invariant holds. -/
theorem foldlM_invariant {α : Type*} {f : State → α → Option State} (inv : State → Prop) {l : List α}
    (preserved : ∀ state, ∀ x ∈ l, inv state → ∃ next, f state x = some next ∧ inv next)
    {state : State} (holds : inv state) : ∃ final, l.foldlM f state = some final ∧ inv final := by
  induction l generalizing state with
  | nil => exact ⟨state, rfl, holds⟩
  | cons x rest inductionHypothesis =>
    obtain ⟨next, stepped, nextHolds⟩ := preserved state x List.mem_cons_self holds
    obtain ⟨final, reached, finalHolds⟩ :=
      inductionHypothesis (fun state y member => preserved state y (List.mem_cons_of_mem _ member)) nextHolds
    exact ⟨final, by rw [List.foldlM_cons, stepped]; exact reached, finalHolds⟩

/-- The same rule with an invariant that speaks of the elements the loop is done with. -/
theorem foldlM_invariant_done {α : Type*} {f : State → α → Option State} (inv : List α → State → Prop) {l : List α}
    (preserved : ∀ done x state, x ∈ l → inv done state → ∃ next, f state x = some next ∧ inv (x :: done) next)
    {done : List α} {state : State} (holds : inv done state) :
    ∃ final, l.foldlM f state = some final ∧ inv (l.reverse ++ done) final := by
  induction l generalizing done state with
  | nil => exact ⟨state, rfl, holds⟩
  | cons x rest inductionHypothesis =>
    obtain ⟨next, stepped, nextHolds⟩ := preserved done x state List.mem_cons_self holds
    obtain ⟨final, reached, finalHolds⟩ := inductionHypothesis
      (fun done y state member => preserved done y state (List.mem_cons_of_mem _ member)) nextHolds
    refine ⟨final, by rw [List.foldlM_cons, stepped]; exact reached, ?_⟩
    rwa [List.reverse_cons, List.append_assoc, List.singleton_append]

/-- When `ok` is exact at every step (an allowed step keeps `good`, any other one loses it at
    once), a run is good throughout exactly when every step of it is allowed. -/
theorem always_iff_guarded {ok : State → Action → Prop} (inv : State → Prop) {good : State → Prop}
    (allowed : ∀ state action, inv state → good state → ok state action →
      ∃ next, step state action = some next ∧ inv next ∧ good next)
    (excluded : ∀ state action next, inv state → good state → ¬ ok state action →
      step state action = some next → ¬ good next)
    {state : State} {actions : List Action} (invariant : inv state) (holds : good state) :
    Always step good state actions ↔ Guarded step ok state actions := by
  induction actions generalizing state with
  | nil => exact ⟨fun _ => trivial, fun _ => holds⟩
  | cons action actions inductionHypothesis =>
    constructor
    · rintro ⟨_, next, stepped, rest⟩
      -- a forbidden step would have lost `good` at once
      have permitted : ok state action := Classical.byContradiction fun forbidden =>
        excluded state action next invariant holds forbidden stepped rest.head
      obtain ⟨next', stepped', invariant', holds'⟩ := allowed state action invariant holds permitted
      have same : next' = next := Option.some.inj (stepped'.symm.trans stepped)
      subst same
      refine ⟨permitted, fun later laterStepped => ?_⟩
      have sameLater : later = next' := Option.some.inj (laterStepped.symm.trans stepped)
      subst sameLater
      exact (inductionHypothesis invariant' holds').mp rest
    · rintro ⟨permitted, rest⟩
      obtain ⟨next, stepped, invariant', holds'⟩ := allowed state action invariant holds permitted
      exact ⟨holds, next, stepped, (inductionHypothesis invariant' holds').mpr (rest next stepped)⟩

/-- The same for a run that is defined to its end, with an invariant that every step keeps. -/
theorem always_iff_guarded_of_run {ok : State → Action → Prop} (inv : State → Prop) {good : State → Prop}
    (preserved : ∀ state action next, inv state → step state action = some next → inv next)
    (allowed : ∀ state action next, inv state → good state → ok state action →
      step state action = some next → good next)
    (excluded : ∀ state action next, inv state → good state → ¬ ok state action →
      step state action = some next → ¬ good next)
    {state final : State} {actions : List Action} (invariant : inv state) (holds : good state)
    (ran : run step state actions = some final) :
    Always step good state actions ↔ Guarded step ok state actions := by
  induction actions generalizing state with
  | nil => exact ⟨fun _ => trivial, fun _ => holds⟩
  | cons action actions inductionHypothesis =>
    obtain ⟨next, stepped, rest⟩ := Option.bind_eq_some_iff.mp ran
    have nextInvariant := preserved state action next invariant stepped
    constructor
    · rintro ⟨_, later, laterStepped, always⟩
      obtain rfl := Option.some.inj (stepped.symm.trans laterStepped)
      have permitted : ok state action := Classical.byContradiction fun forbidden =>
        excluded state action next invariant holds forbidden stepped always.head
      refine ⟨permitted, fun later laterStepped => ?_⟩
      obtain rfl := Option.some.inj (stepped.symm.trans laterStepped)
      exact (inductionHypothesis nextInvariant always.head rest).mp always
    · rintro ⟨permitted, guarded⟩
      have nextHolds := allowed state action next invariant holds permitted stepped
      exact ⟨holds, next, stepped, (inductionHypothesis nextInvariant nextHolds rest).mpr (guarded next stepped)⟩

end Tao.Foundation
