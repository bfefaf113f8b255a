import Mathlib.Data.Option.Basic

/-! # Runs with assertions

A checked run ends with a result, stops at an assertion that does not hold, or does
something that has no defined behaviour.  The lemmas turn "it ends with this result" into
conditions on its parts. -/

namespace Tao.Foundation

/-- Why a run stops before its end. -/
inductive Stop where
  | undefined
  | asserted
  deriving DecidableEq

abbrev Checked (α : Type*) := Except Stop α

namespace Checked

variable {α β : Type}

def check (holds : Prop) [Decidable holds] : Checked Unit := if holds then .ok () else .error .asserted

def ofOption : Option α → Checked α
  | none => .error .undefined
  | some a => .ok a

theorem bind_eq_ok {x : Checked α} {f : α → Checked β} {b : β} :
    (x >>= f) = .ok b ↔ ∃ a, x = .ok a ∧ f a = .ok b := by
  cases x with
  | error stop =>
    refine iff_of_false (fun impossible => by cases impossible) ?_
    rintro ⟨_, impossible, _⟩
    cases impossible
  | ok a =>
    refine ⟨fun rest => ⟨a, rfl, rest⟩, ?_⟩
    rintro ⟨_, same, rest⟩
    cases same
    exact rest

theorem check_eq_ok {holds : Prop} [Decidable holds] {u : Unit} : check holds = .ok u ↔ holds := by
  by_cases h : holds
  · exact iff_of_true (if_pos h) h
  · refine iff_of_false (fun ended => ?_) h
    rw [check, if_neg h] at ended
    cases ended

theorem ofOption_eq_ok {o : Option α} {a : α} : ofOption o = .ok a ↔ o = some a := by
  cases o with
  | none => exact iff_of_false (fun impossible => by cases impossible) (fun impossible => by cases impossible)
  | some b => exact ⟨fun same => by cases same; rfl, fun same => by cases same; rfl⟩

@[simp] theorem ok_bind (a : α) (f : α → Checked β) : (Except.ok a >>= f) = f a := rfl

@[simp] theorem error_bind (stop : Stop) (f : α → Checked β) : (Except.error stop >>= f) = .error stop := rfl

@[simp] theorem ofOption_none : ofOption (none : Option α) = .error .undefined := rfl

@[simp] theorem ofOption_some (a : α) : ofOption (some a) = .ok a := rfl

@[simp] theorem check_true : check True = .ok () := rfl

theorem check_of {holds : Prop} [Decidable holds] (h : holds) : check holds = .ok () := if_pos h

theorem check_not {holds : Prop} [Decidable holds] (h : ¬ holds) : check holds = .error .asserted := if_neg h

end Checked

end Tao.Foundation
