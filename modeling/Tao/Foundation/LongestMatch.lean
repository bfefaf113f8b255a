import Mathlib.Data.List.Basic

/-! # Longest-prefix match

`stored` is a partial map from words.  The longest match of a word is the value of
the longest of its prefixes, itself and the empty one included, that has one.  A loop
finds it by trying the lengths from the longest down. -/

namespace Tao.Foundation

variable {α β : Type*}

/-- A value is that of the longest prefix of the word that has one. -/
def LongestMatch (stored : List α → Option β) (word : List α) (b : β) : Prop :=
  ∃ p, p <+: word ∧ stored p = some b ∧ ∀ q, q <+: word → stored q ≠ none → q.length ≤ p.length

/-- The lengths below `n` are tried, the longest first. -/
def matchBelow (stored : List α → Option β) (word : List α) : Nat → Option β
  | 0 => none
  | n + 1 =>
    match stored (word.take n) with
    | some b => some b
    | none => matchBelow stored word n

variable {stored : List α → Option β} {word : List α} {n : Nat} {b : β}

theorem matchBelow_eq_none : matchBelow stored word n = none ↔ ∀ m < n, stored (word.take m) = none := by
  induction n with
  | zero => exact iff_of_true rfl fun m low => absurd low (Nat.not_lt_zero m)
  | succ n inductionHypothesis =>
    rw [matchBelow]
    cases there : stored (word.take n) with
    | some b =>
      refine iff_of_false (by simp) fun missing => ?_
      rw [missing n (Nat.lt_succ_self n)] at there; cases there
    | none =>
      dsimp only
      rw [inductionHypothesis]
      constructor
      · intro missing m low
        rcases Nat.lt_or_eq_of_le (Nat.le_of_lt_succ low) with less | rfl
        · exact missing m less
        · exact there
      · exact fun missing m low => missing m (Nat.lt_succ_of_lt low)

theorem matchBelow_eq_some : matchBelow stored word n = some b ↔
    ∃ m < n, stored (word.take m) = some b ∧ ∀ k, m < k → k < n → stored (word.take k) = none := by
  induction n with
  | zero => exact iff_of_false (by simp [matchBelow]) fun ⟨m, low, _⟩ => Nat.not_lt_zero m low
  | succ n inductionHypothesis =>
    rw [matchBelow]
    cases there : stored (word.take n) with
    | some c =>
      dsimp only
      constructor
      · intro same
        exact ⟨n, Nat.lt_succ_self n, by rw [there, same], fun k longer low => by omega⟩
      · rintro ⟨m, low, found, longest⟩
        -- a shorter match would have nothing at `n` above it
        rcases Nat.lt_or_eq_of_le (Nat.le_of_lt_succ low) with less | rfl
        · rw [longest n less (Nat.lt_succ_self n)] at there; cases there
        · rw [← there, found]
    | none =>
      dsimp only
      rw [inductionHypothesis]
      constructor
      · rintro ⟨m, low, found, longest⟩
        refine ⟨m, Nat.lt_succ_of_lt low, found, fun k longer below => ?_⟩
        rcases Nat.lt_or_eq_of_le (Nat.le_of_lt_succ below) with less | rfl
        · exact longest k longer less
        · exact there
      · rintro ⟨m, low, found, longest⟩
        have different : m ≠ n := by
          rintro rfl
          rw [there] at found; cases found
        exact ⟨m, by omega, found, fun k longer below => longest k longer (Nat.lt_succ_of_lt below)⟩

/-- The loop over all lengths of the word finds the longest match. -/
theorem matchBelow_longest :
    matchBelow stored word (word.length + 1) = some b ↔ LongestMatch stored word b := by
  rw [matchBelow_eq_some]
  constructor
  · rintro ⟨m, low, found, longest⟩
    refine ⟨word.take m, List.take_prefix m word, found, fun q part present => ?_⟩
    rw [List.length_take, Nat.min_eq_left (Nat.le_of_lt_succ low)]
    by_contra longer
    have shorter := part.length_le
    refine present ?_
    rw [List.prefix_iff_eq_take.mp part]
    exact longest q.length (by omega) (by omega)
  · rintro ⟨p, part, found, longest⟩
    have shorter := part.length_le
    rw [List.prefix_iff_eq_take.mp part] at found
    refine ⟨p.length, by omega, found, fun k longer low => ?_⟩
    by_contra present
    have bound := longest (word.take k) (List.take_prefix k word) present
    rw [List.length_take] at bound
    omega

theorem matchBelow_missing :
    matchBelow stored word (word.length + 1) = none ↔ ∀ p, p <+: word → stored p = none := by
  rw [matchBelow_eq_none]
  constructor
  · intro missing p part
    have shorter := part.length_le
    rw [List.prefix_iff_eq_take.mp part]
    exact missing p.length (by omega)
  · exact fun missing m _ => missing (word.take m) (List.take_prefix m word)

end Tao.Foundation
