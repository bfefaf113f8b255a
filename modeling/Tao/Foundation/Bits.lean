import Mathlib.Data.BitVec
import Mathlib.Data.List.Basic

/-! # Bit strings

A packet is the list of its bits in the order of transmission.  `field offset width`
reads a number out of it, most significant bit first, and `bits` writes one back;
fields that lie next to each other are written back as the slice they cover. -/

namespace Tao.Foundation

abbrev Bits := List Bool

/-- The bits of a number, most significant first. -/
def bits {w : Nat} (x : BitVec w) : Bits := List.ofFn fun i : Fin w => x.getMsbD i

/-- The number that the first `w` bits of a string write. -/
def ofBits : (w : Nat) → Bits → BitVec w
  | 0, _ => 0
  | w + 1, l => BitVec.cons (l.headD false) (ofBits w l.tail)

/-- The number of `width` bits at a bit offset. -/
def field (offset width : Nat) (l : Bits) : BitVec width := ofBits width (l.drop offset)

/-- The bits from an offset on, `width` of them. -/
def slice (offset width : Nat) (l : Bits) : Bits := (l.drop offset).take width

@[simp] theorem length_bits {w : Nat} (x : BitVec w) : (bits x).length = w := List.length_ofFn

theorem length_slice {offset width : Nat} {l : Bits} (fits : offset + width ≤ l.length) :
    (slice offset width l).length = width := by
  rw [slice, List.length_take, List.length_drop]
  omega

theorem bits_injective {w : Nat} {x y : BitVec w} (same : bits x = bits y) : x = y := by
  apply BitVec.eq_of_getMsbD_eq
  intro i inside
  have at_i := congrArg (fun l : Bits => l.getD i false) same
  simpa [bits, inside] using at_i

theorem bits_cons {w : Nat} (b : Bool) (x : BitVec w) : bits (BitVec.cons b x) = b :: bits x := by
  simp [bits, List.ofFn_succ]

theorem bits_append {w v : Nat} (x : BitVec w) (y : BitVec v) : bits (x ++ y) = bits x ++ bits y := by
  apply List.ext_getElem
  · simp
  · intro i inside _
    rw [length_bits] at inside
    simp only [bits, List.getElem_ofFn, List.getElem_append, List.length_ofFn, BitVec.getMsbD_append]
    by_cases front : i < w
    · rw [if_neg (by omega), dif_pos front]
    · rw [if_pos (by omega), dif_neg front]

theorem bits_ofBits {w : Nat} {l : Bits} (fits : w ≤ l.length) : bits (ofBits w l) = l.take w := by
  induction w generalizing l with
  | zero => rfl
  | succ w inductionHypothesis =>
    cases l with
    | nil => exact absurd fits (by simp)
    | cons b l =>
      rw [ofBits, bits_cons, List.headD_cons, List.tail_cons, List.take_succ_cons,
        inductionHypothesis (Nat.le_of_succ_le_succ fits)]

theorem ofBits_take {w k : Nat} (enough : w ≤ k) (l : Bits) : ofBits w (l.take k) = ofBits w l := by
  induction w generalizing k l with
  | zero => rfl
  | succ w inductionHypothesis =>
    obtain ⟨k, rfl⟩ := Nat.exists_eq_add_of_le' (Nat.lt_of_lt_of_le (Nat.succ_pos w) enough)
    cases l with
    | nil => rw [List.take_nil]
    | cons b l =>
      rw [List.take_succ_cons, ofBits, ofBits, List.headD_cons, List.headD_cons, List.tail_cons,
        List.tail_cons, inductionHypothesis (Nat.le_of_succ_le_succ enough)]

theorem bits_field {offset width : Nat} {l : Bits} (fits : offset + width ≤ l.length) :
    bits (field offset width l) = slice offset width l :=
  bits_ofBits (by rw [List.length_drop]; omega)

theorem ofBits_setWidth {w k : Nat} {l : Bits} {n : Nat} (total : n = k + w) :
    (ofBits n l).setWidth w = ofBits w (l.drop k) := by
  induction k generalizing n l with
  | zero =>
    have same : n = w := by omega
    subst same
    rw [BitVec.setWidth_eq, List.drop_zero]
  | succ k inductionHypothesis =>
    obtain ⟨m, rfl⟩ : ∃ m, n = m + 1 := ⟨k + w, by omega⟩
    have rest : m = k + w := by omega
    rw [ofBits, ← BitVec.setWidth_setWidth_of_le _ (show w ≤ m by omega), BitVec.setWidth_cons,
      inductionHypothesis rest, ← List.drop_one, List.drop_drop, Nat.add_comm]

theorem field_setWidth {offset width w : Nat} (k : Nat) (total : width = k + w) (l : Bits) :
    (field offset width l).setWidth w = field (offset + k) w l := by
  rw [field, ofBits_setWidth total, List.drop_drop, field]

theorem toNat_and_mask {n w : Nat} (x : BitVec n) {mask : BitVec n} (ones : mask.toNat = 2 ^ w - 1) :
    (x &&& mask).toNat = (x.setWidth w).toNat := by
  rw [BitVec.toNat_and, ones, Nat.and_two_pow_sub_one_eq_mod, BitVec.toNat_setWidth]

theorem setWidth_injective {n w : Nat} (wider : n ≤ w) {x y : BitVec n}
    (same : x.setWidth w = y.setWidth w) : x = y := by
  have narrowed := congrArg (BitVec.setWidth n) same
  rwa [BitVec.setWidth_setWidth_of_le _ wider, BitVec.setWidth_setWidth_of_le _ wider, BitVec.setWidth_eq,
    BitVec.setWidth_eq] at narrowed

theorem bits_shiftRight {width w : Nat} (k : Nat) (total : width = w + k) (x : BitVec width) :
    bits ((x >>> k).setWidth w) = (bits x).take w := by
  apply List.ext_getElem
  · rw [length_bits, List.length_take, length_bits, Nat.min_eq_left (by omega)]
  · intro i inside _
    rw [length_bits] at inside
    have shifted : i + width - w - k = i := by omega
    have notShiftedIn : ¬i + width - w < k := by omega
    have inRange : i + width - w < width := by omega
    simp [bits, BitVec.getMsbD_setWidth, BitVec.getMsbD_ushiftRight, shifted, notShiftedIn, inRange]
    omega

theorem field_shiftRight {offset width w : Nat} {l : Bits} (k : Nat) (total : width = w + k)
    (fits : offset + width ≤ l.length) : ((field offset width l) >>> k).setWidth w = field offset w l := by
  apply bits_injective
  rw [bits_shiftRight k total, bits_field fits, bits_field (by omega), slice, slice, List.take_take,
    Nat.min_eq_left (by omega)]

theorem field_eq_zero {offset width inner innerWidth : Nat} {l : Bits} (fits : offset + width ≤ l.length)
    (starts : offset ≤ inner) (ends : inner + innerWidth ≤ offset + width)
    (zero : field offset width l = 0) : field inner innerWidth l = 0 := by
  have zeros {w : Nat} : bits (0 : BitVec w) = List.replicate w false := by
    rw [bits, ← List.ofFn_const]
    congr 1
    funext i
    exact BitVec.getMsbD_zero
  have covering : slice offset width l = List.replicate width false := by
    rw [← bits_field fits, zero, zeros]
  have inside : slice inner innerWidth l = ((slice offset width l).drop (inner - offset)).take innerWidth := by
    rw [slice, slice, List.drop_take, List.drop_drop, List.take_take, Nat.add_sub_cancel' starts,
      Nat.min_eq_left (by omega)]
  apply bits_injective
  rw [bits_field (by omega), inside, covering, List.drop_replicate, List.take_replicate, zeros,
    Nat.min_eq_left (by omega)]

theorem slice_append (offset first second : Nat) (l : Bits) :
    slice offset first l ++ slice (offset + first) second l = slice offset (first + second) l := by
  rw [slice, slice, slice, ← List.drop_drop, List.take_add]

theorem slice_zero_append_drop (width : Nat) (l : Bits) : slice 0 width l ++ l.drop width = l := by
  rw [slice, List.drop_zero, List.take_append_drop]

theorem field_drop (offset width dropped : Nat) (l : Bits) :
    field offset width (l.drop dropped) = field (dropped + offset) width l := by
  rw [field, field, List.drop_drop]

/-! ### Reading back what was written -/

theorem ofBits_bits_append {w : Nat} (x : BitVec w) (l : Bits) : ofBits w (bits x ++ l) = x := by
  apply bits_injective
  rw [bits_ofBits (by simp), List.take_left' (length_bits x)]

@[simp] theorem field_front {w : Nat} (x : BitVec w) (l : Bits) : field 0 w (bits x ++ l) = x := by
  rw [field, List.drop_zero, ofBits_bits_append]

theorem field_behind {w offset width : Nat} (x : BitVec w) (l : Bits) (behind : w ≤ offset) :
    field offset width (bits x ++ l) = field (offset - w) width l := by
  rw [field, field, List.drop_append, length_bits, List.drop_eq_nil_of_le (by simpa using behind), List.nil_append]

end Tao.Foundation
