import Tao.Foundation.Bits
import Mathlib.Algebra.BigOperators.Group.List.Basic

/-! # The internet checksum

Sixteen-bit ones' complement sums: a carry out of the top is added back at the
bottom.  Such a sum stands for the plain sum modulo 65535, with 65535 and not 0 for
the multiples that are not 0 themselves (`onesSum_eq`). -/

namespace Tao.Foundation

def onesAdd (a b : Nat) : Nat := if a + b < 2 ^ 16 then a + b else a + b - (2 ^ 16 - 1)

def onesSum (words : List Nat) : Nat := words.foldl onesAdd 0

/-- The complement of the sum, the value a checksum field is given. -/
def internetChecksum (words : List Nat) : Nat := 2 ^ 16 - 1 - onesSum words

/-- What receivers check of a header that contains its checksum: the sum is all ones. -/
def SumsToOnes (words : List Nat) : Prop := onesSum words = 2 ^ 16 - 1

instance (words : List Nat) : Decidable (SumsToOnes words) := inferInstanceAs (Decidable (_ = _))

/-- The first `n` sixteen-bit words of a bit string. -/
def words : Nat → Bits → List Nat
  | 0, _ => []
  | n + 1, l => (field 0 16 l).toNat :: words n (l.drop 16)

theorem word_le {n : Nat} {l : Bits} {word : Nat} (member : word ∈ words n l) : word ≤ 65535 := by
  induction n generalizing l with
  | zero => cases member
  | succ n inductionHypothesis =>
    rcases List.mem_cons.mp member with rfl | later
    · exact Nat.le_of_lt_succ (field 0 16 l).isLt
    · exact inductionHypothesis later

theorem words_add (m n : Nat) (l : Bits) : words (m + n) l = words m l ++ words n (l.drop (16 * m)) := by
  induction m generalizing l with
  | zero => rw [Nat.zero_add, Nat.mul_zero, List.drop_zero]; rfl
  | succ m inductionHypothesis =>
    have advanced : 16 + 16 * m = 16 * (m + 1) := by omega
    rw [Nat.succ_add, words, words, inductionHypothesis, List.drop_drop, List.cons_append, advanced]

theorem words_take (n : Nat) (l : Bits) : words n (l.take (16 * n)) = words n l := by
  induction n generalizing l with
  | zero => rfl
  | succ n inductionHypothesis =>
    have shorter : 16 * (n + 1) - 16 = 16 * n := by omega
    rw [words, words, List.drop_take, shorter, inductionHypothesis, field, field, List.drop_zero,
      List.drop_zero, ofBits_take (by omega)]

theorem words_slice (n offset : Nat) (l : Bits) : words n (slice offset (16 * n) l) = words n (l.drop offset) :=
  words_take n _

theorem words_append {m : Nat} {front : Bits} (covers : front.length = 16 * m) (n : Nat) (back : Bits) :
    words (m + n) (front ++ back) = words m front ++ words n back := by
  rw [words_add, ← words_take m (front ++ back), ← covers, List.take_left, List.drop_left]

/-- The value of a ones' complement sum of total `t`. -/
theorem foldl_onesAdd {l : List Nat} (small : ∀ word ∈ l, word ≤ 65535) (start : Nat)
    (fits : start ≤ 65535) :
    l.foldl onesAdd start =
      if start + l.sum = 0 then 0 else (start + l.sum - 1) % 65535 + 1 := by
  induction l generalizing start with
  | nil =>
    rw [List.foldl_nil, List.sum_nil]
    split <;> omega
  | cons word rest inductionHypothesis =>
    have bound := small word List.mem_cons_self
    have carried : onesAdd start word ≤ 65535 ∧ (onesAdd start word = start + word ∨
        onesAdd start word + 65535 = start + word ∧ 0 < onesAdd start word) := by
      unfold onesAdd
      split <;> omega
    rw [List.foldl_cons, List.sum_cons,
      inductionHypothesis (fun other member => small other (List.mem_cons_of_mem _ member)) _ carried.1]
    rcases carried.2 with same | ⟨less, positive⟩
    · rw [same, Nat.add_assoc]
    · -- the carry takes 65535 off a positive total
      rw [if_neg (by omega), if_neg (by omega)]
      omega

theorem onesSum_eq {l : List Nat} (small : ∀ word ∈ l, word ≤ 65535) :
    onesSum l = if l.sum = 0 then 0 else (l.sum - 1) % 65535 + 1 := by
  rw [onesSum, foldl_onesAdd small 0 (Nat.zero_le _), Nat.zero_add]

theorem sumsToOnes_iff {l : List Nat} (small : ∀ word ∈ l, word ≤ 65535) :
    SumsToOnes l ↔ 0 < l.sum ∧ l.sum % 65535 = 0 := by
  rw [SumsToOnes, onesSum_eq small]
  split <;> omega

/-- A checksum is computed again as it was exactly when the total with it is a multiple of 65535
    and it is not the other zero. -/
theorem internetChecksum_eq_iff {l : List Nat} (small : ∀ word ∈ l, word ≤ 65535) (positive : 0 < l.sum)
    {checksum : Nat} (fits : checksum ≤ 65535) :
    internetChecksum l = checksum ↔ checksum ≠ 65535 ∧ (l.sum + checksum) % 65535 = 0 := by
  rw [internetChecksum, onesSum_eq small, if_neg (by omega)]
  omega

/-- With the checksum the words make a multiple of 65535. -/
theorem sum_add_internetChecksum {l : List Nat} (small : ∀ word ∈ l, word ≤ 65535) :
    0 < l.sum + internetChecksum l ∧ (l.sum + internetChecksum l) % 65535 = 0 := by
  rw [internetChecksum, onesSum_eq small]
  split <;> omega

theorem internetChecksum_lt (l : List Nat) : internetChecksum l < 2 ^ 16 := by
  unfold internetChecksum
  omega

end Tao.Foundation
