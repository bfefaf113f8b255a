import Tao.Foundation.Netmask

/-! # Bytes of a packet

A packet that arrives as a string of bytes is read bit by bit.  A field that starts at a
byte is written by the bytes there, the first one in front. -/

namespace Tao.Foundation

theorem byteBits_drop (k : Nat) (l : List (BitVec 8)) : byteBits (l.drop k) = (byteBits l).drop (8 * k) := by
  induction k generalizing l with
  | zero => rfl
  | succ k inductionHypothesis =>
    cases l with
    | nil => simp
    | cons x l =>
      have behind : (bits x ++ byteBits l).drop 8 = byteBits l := List.drop_left' (length_bits x)
      rw [List.drop_succ_cons, inductionHypothesis, byteBits_cons, Nat.mul_succ, Nat.add_comm, ← List.drop_drop,
        behind]

theorem field_bits_append {w offset : Nat} {before : Bits} (length : before.length = offset) (x : BitVec w)
    (after : Bits) : field offset w (before ++ (bits x ++ after)) = x := by
  rw [field, List.drop_left' length, ofBits_bits_append]

theorem byteBits_flatMap {α : Type*} (f : α → List (BitVec 8)) (l : List α) :
    byteBits (l.flatMap f) = l.flatMap fun x => byteBits (f x) := by
  rw [byteBits, List.flatMap_assoc]
  rfl

theorem drop_eq_cons {α : Type*} {l : List α} {k : Nat} {x : α} (there : l[k]? = some x) :
    l.drop k = x :: l.drop (k + 1) := by
  obtain ⟨inside, rfl⟩ := List.getElem?_eq_some_iff.mp there
  exact List.drop_eq_getElem_cons inside

theorem field_byte {l : List (BitVec 8)} {k : Nat} {x : BitVec 8} (there : l[k]? = some x) :
    field (8 * k) 8 (byteBits l) = x := by
  rw [field, ← byteBits_drop, drop_eq_cons there, byteBits_cons, ofBits_bits_append]

theorem field_halfword {l : List (BitVec 8)} {k : Nat} {hi lo : BitVec 8} (first : l[k]? = some hi)
    (second : l[k + 1]? = some lo) : field (8 * k) 16 (byteBits l) = hi ++ lo := by
  rw [field, ← byteBits_drop, drop_eq_cons first, drop_eq_cons second, byteBits_cons, byteBits_cons,
    ← List.append_assoc, ← bits_append]
  exact ofBits_bits_append (hi ++ lo) _

theorem byteBits_take (n : Nat) (l : List (BitVec 8)) : byteBits (l.take n) = (byteBits l).take (8 * n) := by
  have parts : byteBits (l.take n) ++ byteBits (l.drop n) = byteBits l := by
    rw [← byteBits_append, List.take_append_drop]
  have behind : (byteBits (l.take n)).length = 8 * n ∨ l.drop n = [] := by
    rw [length_byteBits, List.length_take, List.drop_eq_nil_iff]
    omega
  rcases behind with length | empty
  · rw [← parts, List.take_left' length]
  · have short : l.length ≤ n := List.drop_eq_nil_iff.mp empty
    rw [List.take_of_length_le short, List.take_of_length_le (by rw [length_byteBits]; omega)]

theorem field_congr {l l' : List (BitVec 8)} {k n : Nat} (same : ∀ i < n, l[k + i]? = l'[k + i]?) :
    field (8 * k) (8 * n) (byteBits l) = field (8 * k) (8 * n) (byteBits l') := by
  have bytes : (l.drop k).take n = (l'.drop k).take n := by
    apply List.ext_getElem?
    intro i
    rw [List.getElem?_take, List.getElem?_take]
    split
    next inside => rw [List.getElem?_drop, List.getElem?_drop, same i inside]
    next => rfl
  rw [field, field, ← ofBits_take (Nat.le_refl _), ← ofBits_take (Nat.le_refl (8 * n)) (List.drop _ (byteBits l')),
    ← byteBits_drop, ← byteBits_drop, ← byteBits_take, ← byteBits_take, bytes]

end Tao.Foundation
