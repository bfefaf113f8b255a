import Mathlib.Data.Finset.Card
import Mathlib.Tactic.Linarith

/-! # Ordered maps

An ordered map is given the order of its keys as a test `a < b`, and takes two keys
for the same when neither is less.  `cmpOfLt` is the comparison it makes; where the
test agrees with a comparison that is known to be an order, it is this comparison. -/

namespace Tao.Foundation

variable {α : Type*} {lt : α → α → Bool}

def cmpOfLt (lt : α → α → Bool) (a b : α) : Ordering :=
  if lt a b then .lt else if lt b a then .gt else .eq

theorem cmpOfLt_eq {cmp : α → α → Ordering} [Std.OrientedCmp cmp]
    (agrees : ∀ a b, lt a b = true ↔ cmp a b = .lt) : cmpOfLt lt = cmp := by
  funext a b
  have swapped : cmp a b = (cmp b a).swap := Std.OrientedCmp.eq_swap
  unfold cmpOfLt
  cases result : cmp a b with
  | lt => rw [if_pos ((agrees a b).mpr result)]
  | gt =>
    rw [result, eq_comm, Ordering.swap_eq_gt] at swapped
    have notLess : ¬ lt a b = true := by rw [agrees, result]; decide
    rw [if_neg notLess, if_pos ((agrees b a).mpr swapped)]
  | eq =>
    rw [result, eq_comm, Ordering.swap_eq_eq] at swapped
    have notLess : ¬ lt a b = true := by rw [agrees, result]; decide
    have notGreater : ¬ lt b a = true := by rw [agrees, swapped]; decide
    rw [if_neg notLess, if_neg notGreater]

theorem cmpOfLt_eq_lt {a b : α} : cmpOfLt lt a b = .lt ↔ lt a b = true := by
  unfold cmpOfLt
  split
  · next less => exact iff_of_true rfl less
  · next notLess =>
    refine iff_of_false ?_ notLess
    split <;> decide

theorem cmpOfLt_eq_eq {a b : α} : cmpOfLt lt a b = .eq ↔ lt a b = false ∧ lt b a = false := by
  unfold cmpOfLt
  cases lt a b <;> cases lt b a <;> decide

/-- The test is a strict total order when the comparison is an order. -/
theorem isStrictTotalOrder_of_cmpOfLt [Std.TransCmp (cmpOfLt lt)] [Std.LawfulEqCmp (cmpOfLt lt)] :
    IsStrictTotalOrder α (fun a b => lt a b = true) where
  irrefl := fun a less => by
    have itself : cmpOfLt lt a a = .eq := Std.ReflCmp.compare_self
    rw [(cmpOfLt_eq_eq.mp itself).1] at less
    cases less
  trans := fun a b c first second =>
    cmpOfLt_eq_lt.mp (Std.TransCmp.lt_trans (cmpOfLt_eq_lt.mpr first) (cmpOfLt_eq_lt.mpr second))
  trichotomous := fun a b notLess notGreater => Std.LawfulEqCmp.eq_of_compare
    (cmpOfLt_eq_eq.mpr ⟨Bool.eq_false_iff.mpr notLess, Bool.eq_false_iff.mpr notGreater⟩)

/-! ## Maps that are filled entry by entry -/

section Filled

variable {κ β : Type*} {cmp : κ → κ → Ordering}

/-- The map with the entries put in one after the other. -/
def filled (cmp : κ → κ → Ordering) (entries : List (κ × β)) : Std.TreeMap κ β cmp :=
  entries.foldl (fun m entry => m.insert entry.1 entry.2) ∅

theorem filled_append (entries : List (κ × β)) (k : κ) (v : β) :
    filled cmp (entries ++ [(k, v)]) = (filled cmp entries).insert k v := by
  rw [filled, List.foldl_append]
  rfl

variable [Std.TransCmp cmp] [Std.LawfulEqCmp cmp]

theorem mem_filled {entries : List (κ × β)} {k : κ} : k ∈ filled cmp entries ↔ k ∈ entries.map Prod.fst := by
  induction entries using List.reverseRecOn with
  | nil => exact iff_of_false Std.TreeMap.not_mem_emptyc List.not_mem_nil
  | append_singleton entries entry inductionHypothesis =>
    rw [filled_append, Std.TreeMap.mem_insert, inductionHypothesis, List.map_append, List.mem_append,
      Std.LawfulEqCmp.compare_eq_iff_eq, or_comm, List.map_singleton, List.mem_singleton, eq_comm]

theorem size_filled [DecidableEq κ] (entries : List (κ × β)) :
    (filled cmp entries).size = (entries.map Prod.fst).toFinset.card := by
  rw [← Std.TreeMap.length_keys, ← List.toFinset_card_of_nodup Std.TreeMap.nodup_keys]
  congr 1
  ext k
  rw [List.mem_toFinset, List.mem_toFinset, Std.TreeMap.mem_keys, mem_filled]

theorem insert_toList_equiv (s : Std.TreeSet κ cmp) :
    (s.toList.foldl (fun t k => t.insert k) (∅ : Std.TreeSet κ cmp)).Equiv s := by
  have inserted (l : List κ) (t : Std.TreeSet κ cmp) (k : κ) :
      k ∈ l.foldl (fun t k => t.insert k) t ↔ k ∈ l ∨ k ∈ t := by
    induction l generalizing t with
    | nil => simp
    | cons first l inductionHypothesis =>
      rw [List.foldl_cons, inductionHypothesis, Std.TreeSet.mem_insert, Std.LawfulEqCmp.compare_eq_iff_eq,
        List.mem_cons, eq_comm (a := first), or_left_comm, or_assoc]
  refine Std.TreeSet.Equiv.of_forall_mem_iff fun k => ?_
  rw [inserted, Std.TreeSet.mem_toList, or_iff_left Std.TreeSet.not_mem_emptyc]

end Filled

end Tao.Foundation
