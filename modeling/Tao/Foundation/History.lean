import Mathlib.Data.List.Basic
import Tao.Foundation.Transition

/-! # Histories

An invariant of a run may speak of the actions that were taken so far, for instance of
the last one of a kind and of what came before it. -/

namespace Tao.Foundation

variable {State Action : Type*} {step : State → Action → Option State}

/-- The invariant rule with an invariant that speaks of the actions taken so far. -/
theorem run_history {inv : List Action → State → Prop}
    (preserved : ∀ before state action, inv before state →
      ∃ next, step state action = some next ∧ inv (before ++ [action]) next)
    {before : List Action} {state : State} (holds : inv before state) (actions : List Action) :
    ∃ final, run step state actions = some final ∧ inv (before ++ actions) final := by
  induction actions generalizing before state with
  | nil => exact ⟨state, rfl, by simpa using holds⟩
  | cons action actions inductionHypothesis =>
    obtain ⟨next, stepped, nextHolds⟩ := preserved before state action holds
    obtain ⟨final, reached, finalHolds⟩ := inductionHypothesis nextHolds
    exact ⟨final, by simp [run, stepped, reached], by simpa using finalHolds⟩

/-- The last action of the history with the property comes after `before`. -/
def LastAfter (p : Action → Prop) (before history : List Action) : Prop :=
  ∃ action after, history = before ++ action :: after ∧ p action ∧ ∀ later ∈ after, ¬p later

namespace LastAfter

variable {p : Action → Prop} {before history : List Action} {action : Action}

@[simp] theorem nil : ¬LastAfter p before [] := by simp [LastAfter]

theorem snoc_of_pos (holds : p action) : LastAfter p before (history ++ [action]) ↔ before = history := by
  constructor
  · rintro ⟨other, after, same, -, fails⟩
    rcases List.eq_nil_or_concat after with rfl | ⟨middle, last, rfl⟩
    · exact (List.append_inj_left' same rfl).symm
    · have split : history ++ [action] = (before ++ other :: middle) ++ [last] := by simpa using same
      obtain rfl : action = last := by simpa using List.append_inj_right' split rfl
      exact absurd holds (fails action (by simp))
  · rintro rfl
    exact ⟨action, [], rfl, holds, by simp⟩

theorem snoc_of_neg (fails : ¬p action) : LastAfter p before (history ++ [action]) ↔ LastAfter p before history := by
  constructor
  · rintro ⟨other, after, same, otherHolds, none⟩
    rcases List.eq_nil_or_concat after with rfl | ⟨middle, last, rfl⟩
    · obtain rfl : action = other := by simpa using List.append_inj_right' same rfl
      exact absurd otherHolds fails
    · have split : history ++ [action] = (before ++ other :: middle) ++ [last] := by simpa using same
      refine ⟨other, middle, List.append_inj_left' split rfl, otherHolds, fun later member => ?_⟩
      exact none later (by simp [member])
  · rintro ⟨other, after, rfl, otherHolds, none⟩
    refine ⟨other, after ++ [action], by simp, otherHolds, fun later member => ?_⟩
    rcases List.mem_append.mp member with old | new
    · exact none later old
    · rw [List.mem_singleton.mp new]
      exact fails

end LastAfter

end Tao.Foundation
