import Mathlib.Data.List.Perm.Basic

/-! # Independent cells

A machine whose memory is a family of cells, where every action works on one cell
or on none.  What an action answers and leaves behind then depends on the earlier
actions of its own cell only, so two runs that agree cell by cell cannot be told
apart, however they interleave the cells. -/

namespace Tao.Foundation

variable {State Action Index Cell Output : Type*}

/-- `step` works on the cell `index` names: it reads and writes no other. -/
structure Localized (step : State → Action → State × Output) (cell : State → Index → Cell)
    (index : Action → Option Index) : Prop where
  own : ∀ state state' action i, index action = some i → cell state i = cell state' i →
    cell (step state action).1 i = cell (step state' action).1 i ∧
    (step state action).2 = (step state' action).2
  others : ∀ state action i, index action ≠ some i → cell (step state action).1 i = cell state i
  without : ∀ state state' action, index action = none →
    (step state action).2 = (step state' action).2

def after (step : State → Action → State × Output) : State → List Action → State
  | state, [] => state
  | state, action :: actions => after step (step state action).1 actions

def receipts (step : State → Action → State × Output) : State → List Action → List (Action × Output)
  | _, [] => []
  | state, action :: actions =>
    (action, (step state action).2) :: receipts step (step state action).1 actions

variable {step : State → Action → State × Output} {cell : State → Index → Cell}
  {index : Action → Option Index}

/-! ## Counters and memory along a run -/

/-- A counter that certain actions increment. -/
theorem after_counter {w : Nat} {counter : State → BitVec w} {counted : Action → Bool}
    (counts : ∀ state action,
      counter (step state action).1 = if counted action then counter state + 1 else counter state)
    (state : State) (actions : List Action) :
    counter (after step state actions) = counter state + BitVec.ofNat w (actions.filter counted).length := by
  induction actions generalizing state with
  | nil => simp [after]
  | cons action actions inductionHypothesis =>
    rw [after, inductionHypothesis, counts, List.filter_cons]
    split
    · rw [List.length_cons, BitVec.ofNat_add, BitVec.add_assoc, BitVec.add_comm (BitVec.ofNat w _)]
      rfl
    · rfl

/-- A cell that certain actions overwrite holds what the last of them wrote. -/
theorem after_lastWrite {Value : Type*} (value : State → Value) {written : Action → Option Value}
    (writes : ∀ state action, value (step state action).1 = (written action).getD (value state))
    (state : State) (actions : List Action) :
    value (after step state actions) = ((actions.filterMap written).getLast?).getD (value state) := by
  induction actions generalizing state with
  | nil => rfl
  | cons action actions inductionHypothesis =>
    rw [after, inductionHypothesis, writes]
    cases here : written action with
    | none => rw [List.filterMap_cons_none here, Option.getD_none]
    | some value => rw [List.filterMap_cons_some here, List.getLast?_cons, Option.getD_some, Option.getD_some]

/-! ## Runs over independent cells -/

/-- The answers to the actions without a cell do not depend on the run at all. -/
theorem Localized.receipts_without (localized : Localized step cell index) (state state' : State)
    (actions : List Action) :
    (receipts step state actions).filter (fun receipt => index receipt.1 = none) =
      (actions.filter fun action => index action = none).map
        fun action => (action, (step state' action).2) := by
  induction actions generalizing state with
  | nil => rfl
  | cons action actions inductionHypothesis =>
    rw [receipts]
    by_cases nowhere : index action = none
    · rw [List.filter_cons_of_pos (by simpa using nowhere), List.filter_cons_of_pos (by simpa using nowhere),
        List.map_cons, inductionHypothesis, localized.without state state' action nowhere]
    · rw [List.filter_cons_of_neg (by simpa using nowhere), List.filter_cons_of_neg (by simpa using nowhere)]
      exact inductionHypothesis _

variable [DecidableEq Index]

/-- A run looks to a cell like the run of the actions that name it. -/
theorem Localized.project (localized : Localized step cell index) (i : Index) {state state' : State}
    (agree : cell state i = cell state' i) (actions : List Action) :
    cell (after step state actions) i =
      cell (after step state' (actions.filter fun action => index action = some i)) i ∧
    (receipts step state actions).filter (fun receipt => index receipt.1 = some i) =
      receipts step state' (actions.filter fun action => index action = some i) := by
  induction actions generalizing state state' with
  | nil => exact ⟨agree, rfl⟩
  | cons action actions inductionHypothesis =>
    rw [after, receipts]
    by_cases here : index action = some i
    · obtain ⟨kept, answer⟩ := localized.own state state' action i here agree
      obtain ⟨final, later⟩ := inductionHypothesis kept
      rw [List.filter_cons_of_pos (by simpa using here), List.filter_cons_of_pos (by simpa using here),
        after, receipts, later, answer]
      exact ⟨final, rfl⟩
    · have kept : cell (step state action).1 i = cell state' i := by
        rw [localized.others state action i here, agree]
      rw [List.filter_cons_of_neg (by simpa using here), List.filter_cons_of_neg (by simpa using here)]
      exact inductionHypothesis kept

/-- Two runs of the same actions, in the same order within every cell, leave the same cells and
    answer every action alike. -/
theorem Localized.independent (localized : Localized step cell index) (state : State)
    {actions actions' : List Action} (same : actions.Perm actions')
    (ordered : ∀ i, (actions.filter fun action => index action = some i) =
      actions'.filter fun action => index action = some i) :
    (∀ i, cell (after step state actions) i = cell (after step state actions') i) ∧
    (∀ i, (receipts step state actions).filter (fun receipt => index receipt.1 = some i) =
      (receipts step state actions').filter fun receipt => index receipt.1 = some i) ∧
    (receipts step state actions).Perm (receipts step state actions') := by
  have projected := fun i => localized.project i (rfl : cell state i = cell state i) actions
  have projected' := fun i => localized.project i (rfl : cell state i = cell state i) actions'
  have cells : ∀ i, (receipts step state actions).filter (fun receipt => index receipt.1 = some i) =
      (receipts step state actions').filter fun receipt => index receipt.1 = some i := by
    intro i
    rw [(projected i).2, (projected' i).2, ordered]
  refine ⟨fun i => by rw [(projected i).1, (projected' i).1, ordered], cells, ?_⟩
  classical
  -- count every receipt among those of its own cell
  refine List.perm_iff_count.mpr fun receipt => ?_
  cases place : index receipt.1 with
  | some i =>
    rw [← List.count_filter (p := fun receipt => index receipt.1 = some i) (by simpa using place), cells i,
      List.count_filter (by simpa using place)]
  | none =>
    have counted : ∀ l, List.count receipt (receipts step state l) =
        List.count receipt ((l.filter fun action => index action = none).map
          fun action => (action, (step state action).2)) := by
      intro l
      rw [← localized.receipts_without state state l, List.count_filter (by simpa using place)]
    rw [counted, counted]
    exact ((same.filter _).map _).count_eq receipt

end Tao.Foundation
