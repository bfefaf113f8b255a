import Mathlib.Data.List.Basic

/-! # Trailing runs

`trailingRun l` is the length of the longest constant suffix of `l`: what a
counter holds that is stepped when an element equals its predecessor and reset
otherwise. -/

namespace Tao.Foundation

variable {α : Type*} [DecidableEq α]

/-- Length of the longest constant prefix. -/
def leadingRun : List α → Nat
  | [] => 0
  | x :: rest => if rest.head? = some x then leadingRun rest + 1 else 1

/-- Length of the longest constant suffix. -/
def trailingRun (l : List α) : Nat := leadingRun l.reverse

theorem replicate_prefix_iff {n : Nat} {x : α} {l : List α} :
    List.replicate (n + 1) x <+: l ↔ l.head? = some x ∧ n + 1 ≤ leadingRun l := by
  induction l generalizing n with
  | nil => simp
  | cons y rest inductionHypothesis =>
    rw [List.replicate_succ, List.cons_prefix_cons, List.head?_cons, Option.some.injEq, leadingRun]
    -- one copy says nothing about the rest of the list, more copies say it of the tail
    cases n with
    | zero =>
      constructor
      · rintro ⟨rfl, _⟩; exact ⟨rfl, by split <;> omega⟩
      · rintro ⟨rfl, _⟩; exact ⟨rfl, List.nil_prefix⟩
    | succ n =>
      rw [inductionHypothesis]
      constructor
      · rintro ⟨rfl, same, long⟩
        exact ⟨rfl, by rw [if_pos same]; omega⟩
      · rintro ⟨rfl, long⟩
        split at long
        next same => exact ⟨rfl, same, by omega⟩
        next different => omega

theorem replicate_suffix_iff {n : Nat} {x : α} {l : List α} :
    List.replicate (n + 1) x <:+ l ↔ l.getLast? = some x ∧ n + 1 ≤ trailingRun l := by
  rw [← List.reverse_prefix, List.reverse_replicate, replicate_prefix_iff, List.head?_reverse]
  rfl

theorem trailingRun_concat (l : List α) (x : α) :
    trailingRun (l ++ [x]) = if l.getLast? = some x then trailingRun l + 1 else 1 := by
  simp [trailingRun, leadingRun, List.head?_reverse]

/-- Appending copies of the last element lengthens its run; copies of anything else start a new one. -/
theorem trailingRun_append_replicate (l : List α) (x : α) (n : Nat) :
    trailingRun (l ++ List.replicate (n + 1) x) =
      if l.getLast? = some x then trailingRun l + (n + 1) else n + 1 := by
  induction n with
  | zero => simpa using trailingRun_concat l x
  | succ n inductionHypothesis =>
    rw [List.replicate_succ', ← List.append_assoc, trailingRun_concat]
    have last : (l ++ List.replicate (n + 1) x).getLast? = some x := by
      rw [List.replicate_succ', ← List.append_assoc, List.getLast?_concat]
    rw [if_pos last, inductionHypothesis]
    split <;> omega

omit [DecidableEq α] in
/-- A prefix of what a filter keeps is kept from a prefix of the list, which ends at the
    element that supplied its last entry. -/
theorem exists_append_of_filterMap_prefix {β : Type*} {f : α → Option β} {kept : List β} {last : β}
    {l : List α} (isPrefix : kept ++ [last] <+: l.filterMap f) :
    ∃ earlier a rest, l = earlier ++ a :: rest ∧ f a = some last ∧ earlier.filterMap f = kept := by
  induction l generalizing kept with
  | nil => simp at isPrefix
  | cons a rest inductionHypothesis =>
    cases kept with
    | nil =>
      cases value : f a with
      | none =>
        rw [List.filterMap_cons_none value] at isPrefix
        obtain ⟨earlier, b, later, rfl, found, empty⟩ := inductionHypothesis isPrefix
        exact ⟨a :: earlier, b, later, rfl, found, by rw [List.filterMap_cons_none value, empty]⟩
      | some b =>
        rw [List.filterMap_cons_some value, List.nil_append, List.cons_prefix_cons] at isPrefix
        exact ⟨[], a, rest, rfl, by rw [value, isPrefix.1], rfl⟩
    | cons k kept =>
      cases value : f a with
      | none =>
        rw [List.filterMap_cons_none value] at isPrefix
        obtain ⟨earlier, b, later, rfl, found, same⟩ := inductionHypothesis isPrefix
        exact ⟨a :: earlier, b, later, rfl, found, by rw [List.filterMap_cons_none value, same]⟩
      | some b =>
        rw [List.filterMap_cons_some value, List.cons_append, List.cons_prefix_cons] at isPrefix
        obtain ⟨earlier, c, later, rfl, found, same⟩ := inductionHypothesis isPrefix.2
        exact ⟨a :: earlier, c, later, rfl, found, by rw [List.filterMap_cons_some value, same, isPrefix.1]⟩

end Tao.Foundation
