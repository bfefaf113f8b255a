import Tao.Foundation.Scan
import Mathlib.Data.Finset.Card
import Mathlib.Data.Finset.Range
import Mathlib.Logic.Function.Basic

/-! # Slot arrays

An array of `n` slots, each of which is free or holds a value.  A value is looked up
with a scan from the first slot.  While the values held are distinct, the array is a
finite map from values to slots. -/

namespace Tao.Foundation.SlotArray

variable {α : Type*} [DecidableEq α] {n : Nat} {held : Nat → Option α} {i : Nat} {a b : α}

def find (n : Nat) (held : Nat → Option α) (a : α) : Option Nat := scan (fun i => decide (held i = some a)) n 0

def occupied (n : Nat) (held : Nat → Option α) : Nat := ((Finset.range n).filter fun i => (held i).isSome).card

def Distinct (n : Nat) (held : Nat → Option α) : Prop :=
  ∀ i < n, ∀ j < n, ∀ a, held i = some a → held j = some a → i = j

theorem find_holds (found : find n held a = some i) : i < n ∧ held i = some a := by
  obtain ⟨_, high, holds, _⟩ := scan_eq_some.mp found
  exact ⟨by omega, by simpa using holds⟩

theorem find_eq_some (distinct : Distinct n held) : find n held a = some i ↔ i < n ∧ held i = some a := by
  refine ⟨find_holds, fun ⟨inside, holds⟩ => ?_⟩
  refine scan_eq_some.mpr ⟨Nat.zero_le i, by omega, by simpa using holds, fun j _ before => ?_⟩
  -- an earlier slot with the value would be the same slot
  refine decide_eq_false fun other => ?_
  have same := distinct j (by omega) i inside a other holds
  omega

theorem find_eq_none : find n held a = none ↔ ∀ i < n, held i ≠ some a := by
  rw [find, scan_eq_none]
  constructor
  · exact fun missed i inside => of_decide_eq_false (missed i (Nat.zero_le i) (by omega))
  · exact fun nowhere i _ inside => decide_eq_false (nowhere i (by omega))

/-! ## A slot is filled -/

theorem Distinct.fill (distinct : Distinct n held) (missing : find n held a = none) (i : Nat) :
    Distinct n (Function.update held i (some a)) := by
  have nowhere := find_eq_none.mp missing
  intro j insideJ k insideK b atJ atK
  by_cases here : j = i <;> by_cases there : k = i
  · rw [here, there]
  · rw [here, Function.update_self] at atJ
    rw [Function.update_of_ne there, ← atJ] at atK
    exact absurd atK (nowhere k insideK)
  · rw [there, Function.update_self] at atK
    rw [Function.update_of_ne here, ← atK] at atJ
    exact absurd atJ (nowhere j insideJ)
  · rw [Function.update_of_ne here] at atJ
    rw [Function.update_of_ne there] at atK
    exact distinct j insideJ k insideK b atJ atK

theorem find_fill (distinct : Distinct n held) (missing : find n held a = none) (inside : i < n)
    (free : held i = none) (b : α) :
    find n (Function.update held i (some a)) b = if b = a then some i else find n held b := by
  by_cases same : b = a
  · rw [if_pos same, same]
    exact (find_eq_some (distinct.fill missing i)).mpr ⟨inside, Function.update_self i _ held⟩
  · rw [if_neg same]
    have elsewhere (j : Nat) : Function.update held i (some a) j = some b ↔ held j = some b := by
      by_cases here : j = i
      · rw [here, Function.update_self, free]
        exact iff_of_false (fun equal => same (Option.some.inj equal).symm) (by simp)
      · rw [Function.update_of_ne here]
    unfold find
    simp only [elsewhere]

omit [DecidableEq α] in
theorem occupied_fill (inside : i < n) (free : held i = none) (a : α) :
    occupied n (Function.update held i (some a)) = occupied n held + 1 := by
  have filled : (Finset.range n).filter (fun j => (Function.update held i (some a) j).isSome) =
      insert i ((Finset.range n).filter fun j => (held j).isSome) := by
    ext j
    by_cases here : j = i
    · simp [here, inside]
    · simp [here]
  rw [occupied, filled, Finset.card_insert_of_notMem (by simp [free]), occupied]

/-! ## A slot is cleared -/

omit [DecidableEq α] in
theorem Distinct.clear (distinct : Distinct n held) (i : Nat) : Distinct n (Function.update held i none) := by
  have older (j : Nat) {b : α} (holds : Function.update held i none j = some b) : held j = some b := by
    by_cases here : j = i
    · rw [here, Function.update_self] at holds; cases holds
    · rwa [Function.update_of_ne here] at holds
  intro j insideJ k insideK b atJ atK
  exact distinct j insideJ k insideK b (older j atJ) (older k atK)

theorem find_clear (distinct : Distinct n held) (inside : i < n) (holds : held i = some a) (b : α) :
    find n (Function.update held i none) b = if b = a then none else find n held b := by
  by_cases same : b = a
  · rw [if_pos same, same]
    refine find_eq_none.mpr fun j insideJ other => ?_
    by_cases here : j = i
    · rw [here, Function.update_self] at other; cases other
    · rw [Function.update_of_ne here] at other
      exact here (distinct j insideJ i inside a other holds)
  · rw [if_neg same]
    have elsewhere (j : Nat) : Function.update held i none j = some b ↔ held j = some b := by
      by_cases here : j = i
      · rw [here, Function.update_self, holds]
        exact iff_of_false (by simp) fun equal => same (Option.some.inj equal).symm
      · rw [Function.update_of_ne here]
    unfold find
    simp only [elsewhere]

omit [DecidableEq α] in
theorem occupied_clear (inside : i < n) (holds : held i = some a) :
    occupied n (Function.update held i none) + 1 = occupied n held := by
  have refilled : Function.update (Function.update held i none) i (some a) = held := by
    rw [Function.update_idem, ← holds, Function.update_eq_self]
  have filled := occupied_fill inside (Function.update_self i none held) a
  rw [refilled] at filled
  exact filled.symm

end Tao.Foundation.SlotArray
