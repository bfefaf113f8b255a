import Mathlib.Data.List.Basic
import Mathlib.Logic.Function.Basic

/-! # Numbers in texts

`Nat.toDigits` writes a number in a base up to sixteen.  Numbers between separators
are read back: the separator is not a digit, and different numbers have different digits. -/

namespace Tao.Foundation

variable {base : Nat}

theorem digitChar_injective {m n : Nat} (small : m < 16) (otherSmall : n < 16)
    (same : m.digitChar = n.digitChar) : m = n := by
  have all : ∀ m n : Fin 16, m.1.digitChar = n.1.digitChar → m = n := by decide
  exact congrArg Fin.val (all ⟨m, small⟩ ⟨n, otherSmall⟩ same)

theorem exists_digit_of_mem_toDigits (large : 1 < base) {n : Nat} {c : Char} (written : c ∈ Nat.toDigits base n) :
    ∃ d < base, c = d.digitChar := by
  induction n using Nat.strongRecOn with
  | ind n inductionHypothesis =>
    rw [Nat.toDigits_eq_if large] at written
    split at written
    · next digit => exact ⟨n, digit, List.mem_singleton.mp written⟩
    · next more =>
      rcases List.mem_append.mp written with front | last
      · exact inductionHypothesis (n / base) (Nat.div_lt_self (by omega) large) front
      · exact ⟨n % base, Nat.mod_lt n (by omega), List.mem_singleton.mp last⟩

theorem toDigits_injective (large : 1 < base) (small : base ≤ 16) : Function.Injective (Nat.toDigits base) := by
  intro m
  induction m using Nat.strongRecOn with
  | ind m inductionHypothesis =>
    intro n same
    rw [Nat.toDigits_eq_if (n := m) large, Nat.toDigits_eq_if (n := n) large] at same
    have nonempty (k : Nat) : (Nat.toDigits base k).length ≠ 0 := fun empty =>
      Nat.toDigits_ne_nil (List.length_eq_zero_iff.mp empty)
    split at same <;> split at same
    · next digit otherDigit => exact digitChar_injective (by omega) (by omega) (List.cons.inj same).1
    · -- one digit on the left, more on the right
      have lengths := congrArg List.length same
      rw [List.length_append] at lengths
      exact absurd (Nat.add_right_cancel (lengths.symm.trans (Nat.zero_add 1).symm)) (nonempty _)
    · have lengths := congrArg List.length same
      rw [List.length_append] at lengths
      exact absurd (Nat.add_right_cancel (lengths.trans (Nat.zero_add 1).symm)) (nonempty _)
    · next more otherMore =>
      obtain ⟨front, last⟩ := List.append_inj' same rfl
      have quotient := inductionHypothesis (m / base) (Nat.div_lt_self (by omega) large) front
      have positive : 0 < base := by omega
      have rest := digitChar_injective (Nat.lt_of_lt_of_le (Nat.mod_lt m positive) small)
        (Nat.lt_of_lt_of_le (Nat.mod_lt n positive) small) (List.cons.inj last).1
      rw [← Nat.div_add_mod m base, ← Nat.div_add_mod n base, quotient, rest]

/-- Numbers in digits with a separator between them. -/
def separated (base : Nat) (separator : Char) (numbers : List Nat) : List Char :=
  [separator].intercalate (numbers.map (Nat.toDigits base))

theorem mem_separated {separator c : Char} (large : 1 < base) {numbers : List Nat}
    (written : c ∈ separated base separator numbers) : c = separator ∨ ∃ d < base, c = d.digitChar := by
  induction numbers with
  | nil => cases written
  | cons n numbers inductionHypothesis =>
    cases numbers with
    | nil =>
      rw [separated, List.map_singleton, List.intercalate_singleton] at written
      exact .inr (exists_digit_of_mem_toDigits large written)
    | cons next rest =>
      rw [separated, List.map_cons, List.map_cons, List.intercalate_cons_cons, List.append_assoc] at written
      rcases List.mem_append.mp written with digits | more
      · exact .inr (exists_digit_of_mem_toDigits large digits)
      · rcases List.mem_cons.mp more with same | later
        · exact .inl same
        · exact inductionHypothesis later

theorem separator_mem_separated (base : Nat) (separator : Char) (first second : Nat) (rest : List Nat) :
    separator ∈ separated base separator (first :: second :: rest) := by
  rw [separated, List.map_cons, List.map_cons, List.intercalate_cons_cons, List.append_assoc]
  exact List.mem_append_right _ List.mem_cons_self

theorem separated_injective {separator : Char} (large : 1 < base) (small : base ≤ 16)
    (apart : ∀ d < base, separator ≠ d.digitChar) {numbers others : List Nat} (nonempty : numbers ≠ [])
    (otherNonempty : others ≠ []) (same : separated base separator numbers = separated base separator others) :
    numbers = others := by
  have pieces {numbers : List Nat} (nonempty : numbers ≠ []) :
      (separated base separator numbers).splitOn separator = numbers.map (Nat.toDigits base) := by
    refine List.splitOn_intercalate separator (fun digits piece => ?_) (by simpa using nonempty)
    obtain ⟨n, _, rfl⟩ := List.mem_map.mp piece
    intro written
    obtain ⟨d, digit, rfl⟩ := exists_digit_of_mem_toDigits large written
    exact apart d digit rfl
  refine List.map_injective_iff.mpr (toDigits_injective large small) ?_
  rw [← pieces nonempty, same, pieces otherNonempty]

end Tao.Foundation
