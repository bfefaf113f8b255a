import Tao.Foundation.Netmask
import Mathlib.Tactic.Ring

/-! # Bit strings as numbers

A bit string writes a number, the most significant bit first.  Strings of one length
are ordered like their numbers, and those that begin with the same bits are an interval:
it goes from the string that continues with zeros to the one that continues with ones. -/

namespace Tao.Foundation

/-- The number that a bit string writes. -/
def bitsNat : Bits → Nat
  | [] => 0
  | b :: l => b.toNat * 2 ^ l.length + bitsNat l

theorem bitsNat_append (l r : Bits) : bitsNat (l ++ r) = bitsNat l * 2 ^ r.length + bitsNat r := by
  induction l with
  | nil => simp [bitsNat]
  | cons b l inductionHypothesis =>
    rw [List.cons_append, bitsNat, bitsNat, inductionHypothesis, List.length_append, Nat.pow_add]
    ring

theorem bitsNat_lt (l : Bits) : bitsNat l < 2 ^ l.length := by
  induction l with
  | nil => exact Nat.one_pos
  | cons b l inductionHypothesis =>
    rw [bitsNat, List.length_cons, Nat.pow_succ]
    have digit : b.toNat * 2 ^ l.length ≤ 2 ^ l.length := by
      cases b <;> simp
    omega

theorem bitsNat_injective {l r : Bits} (length : l.length = r.length) (same : bitsNat l = bitsNat r) : l = r := by
  induction l generalizing r with
  | nil => exact (List.length_eq_zero_iff.mp length.symm).symm
  | cons b l inductionHypothesis =>
    cases r with
    | nil => cases length
    | cons c r =>
      have rest : l.length = r.length := Nat.succ.inj length
      have below := bitsNat_lt l
      have otherBelow := bitsNat_lt r
      rw [bitsNat, bitsNat, rest] at same
      rw [rest] at below
      -- unlike first bits would put the numbers in different halves
      cases b <;> cases c <;> simp only [Bool.toNat_false, Bool.toNat_true, Nat.zero_mul, Nat.one_mul] at same
      · rw [inductionHypothesis rest (by omega)]
      · omega
      · omega
      · rw [inductionHypothesis rest (by omega)]

theorem bitsNat_bits {w : Nat} (x : BitVec w) : bitsNat (bits x) = x.toNat := by
  induction w with
  | zero => rw [BitVec.of_length_zero (x := x)]; rfl
  | succ w inductionHypothesis =>
    have split : x = BitVec.cons x.msb (x.setWidth w) := (BitVec.cons_msb_setWidth x).symm
    rw [split, bits_cons, bitsNat, inductionHypothesis, length_bits, BitVec.toNat_cons,
      ← Nat.shiftLeft_add_eq_or_of_lt (BitVec.isLt _), Nat.shiftLeft_eq]

theorem bitsNat_zeros (n : Nat) : bitsNat (List.replicate n false) = 0 := by
  induction n with
  | zero => rfl
  | succ n inductionHypothesis =>
    rw [List.replicate_succ, bitsNat, inductionHypothesis, Bool.toNat_false, Nat.zero_mul]

theorem bitsNat_ones (n : Nat) : bitsNat (List.replicate n true) + 1 = 2 ^ n := by
  induction n with
  | zero => rfl
  | succ n inductionHypothesis =>
    rw [List.replicate_succ, bitsNat, Nat.add_assoc, inductionHypothesis, List.length_replicate,
      Bool.toNat_true, Nat.one_mul, Nat.pow_succ, Nat.mul_two]

theorem block_lt_iff {quotient other remainder otherRemainder size : Nat} (below : remainder < size)
    (otherBelow : otherRemainder < size) :
    quotient * size + remainder < other * size + otherRemainder ↔
      quotient < other ∨ quotient = other ∧ remainder < otherRemainder := by
  rcases Nat.lt_trichotomy quotient other with less | rfl | greater
  · have next := Nat.mul_le_mul_right size (Nat.succ_le_of_lt less)
    rw [Nat.succ_mul] at next
    omega
  · omega
  · have next := Nat.mul_le_mul_right size (Nat.succ_le_of_lt greater)
    rw [Nat.succ_mul] at next
    omega

/-- A multiple of a power is hit by one quotient only. -/
theorem block_iff {quotient other remainder size : Nat} (below : remainder < size) :
    quotient = other ↔
      quotient * size ≤ other * size + remainder ∧ other * size + remainder < quotient * size + size := by
  have positive : 0 < size := by omega
  have under : other * size + remainder < quotient * size + 0 ↔ _ := block_lt_iff below positive
  have within : other * size + remainder < (quotient + 1) * size + 0 ↔ _ := block_lt_iff below positive
  rw [Nat.succ_mul] at within
  omega

/-- The strings that begin with given bits are an interval. -/
theorem take_eq_iff_interval {start l : Bits} {n : Nat} (first : start.length = n) (fits : n ≤ l.length) :
    start = l.take n ↔
      bitsNat (start ++ List.replicate (l.length - n) false) ≤ bitsNat l ∧
        bitsNat l ≤ bitsNat (start ++ List.replicate (l.length - n) true) := by
  have taken : (l.take n).length = n := by rw [List.length_take, Nat.min_eq_left fits]
  have below := bitsNat_lt (l.drop n)
  have ones := bitsNat_ones (l.length - n)
  have whole : bitsNat l = bitsNat (l.take n) * 2 ^ (l.length - n) + bitsNat (l.drop n) := by
    rw [← List.length_drop, ← bitsNat_append, List.take_append_drop]
  rw [List.length_drop] at below
  rw [bitsNat_append, bitsNat_append, List.length_replicate, List.length_replicate, bitsNat_zeros, whole]
  have numbers : start = l.take n ↔ bitsNat start = bitsNat (l.take n) :=
    ⟨congrArg bitsNat, bitsNat_injective (first.trans taken.symm)⟩
  rw [numbers, block_iff below]
  exact and_congr Iff.rfl (by omega)

end Tao.Foundation
