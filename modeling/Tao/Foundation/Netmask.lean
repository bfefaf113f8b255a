import Tao.Foundation.Bits

/-! # Masking byte strings

A string of bytes is a string of bits, eight for each byte.  Combining it byte by byte
with a mask of leading ones keeps its first bits and gives the others one value. -/

namespace Tao.Foundation

def byteBits (l : List (BitVec 8)) : Bits := l.flatMap bits

/-- `ones` leading ones, followed by zeros. -/
def netmask (ones zeros : Nat) : Bits := List.replicate ones true ++ List.replicate zeros false

@[simp] theorem byteBits_nil : byteBits [] = [] := rfl

@[simp] theorem byteBits_cons (x : BitVec 8) (l : List (BitVec 8)) : byteBits (x :: l) = bits x ++ byteBits l := rfl

theorem byteBits_append (l l' : List (BitVec 8)) : byteBits (l ++ l') = byteBits l ++ byteBits l' :=
  List.flatMap_append

theorem length_byteBits (l : List (BitVec 8)) : (byteBits l).length = 8 * l.length := by
  induction l with
  | nil => rfl
  | cons x l inductionHypothesis =>
    rw [byteBits_cons, List.length_append, length_bits, inductionHypothesis, List.length_cons]
    omega

theorem byteBits_injective {l l' : List (BitVec 8)} (same : byteBits l = byteBits l') : l = l' := by
  have lengths : l.length = l'.length := by
    have counted := congrArg List.length same
    rw [length_byteBits, length_byteBits] at counted
    omega
  induction l generalizing l' with
  | nil => exact (List.length_eq_zero_iff.mp lengths.symm).symm
  | cons x l inductionHypothesis =>
    cases l' with
    | nil => cases lengths
    | cons y l' =>
      rw [byteBits_cons, byteBits_cons] at same
      obtain ⟨first, rest⟩ := List.append_inj same (by rw [length_bits, length_bits])
      rw [bits_injective first, inductionHypothesis rest (Nat.succ.inj lengths)]

/-! ## Masking -/

theorem bits_and {w : Nat} (x y : BitVec w) : bits (x &&& y) = List.zipWith and (bits x) (bits y) := by
  apply List.ext_getElem
  · simp
  · intro i _ _
    simp [bits]

theorem bits_or_not {w : Nat} (x y : BitVec w) :
    bits (x ||| ~~~y) = List.zipWith (fun b m => b || !m) (bits x) (bits y) := by
  apply List.ext_getElem
  · simp
  · intro i _ _
    simp [bits]

theorem byteBits_zipWith {f : BitVec 8 → BitVec 8 → BitVec 8} {g : Bool → Bool → Bool}
    (bitwise : ∀ x y, bits (f x y) = List.zipWith g (bits x) (bits y)) {l l' : List (BitVec 8)}
    (lengths : l.length = l'.length) :
    byteBits (List.zipWith f l l') = List.zipWith g (byteBits l) (byteBits l') := by
  induction l generalizing l' with
  | nil => rfl
  | cons x l inductionHypothesis =>
    cases l' with
    | nil => cases lengths
    | cons y l' =>
      rw [List.zipWith_cons_cons, byteBits_cons, byteBits_cons, byteBits_cons, bitwise,
        inductionHypothesis (Nat.succ.inj lengths), List.zipWith_append (by rw [length_bits, length_bits])]

theorem zipWith_replicate_keep {g : Bool → Bool → Bool} {m : Bool} (keeps : ∀ b, g b m = b) (l : Bits) :
    List.zipWith g l (List.replicate l.length m) = l := by
  induction l with
  | nil => rfl
  | cons b l inductionHypothesis =>
    rw [List.length_cons, List.replicate_succ, List.zipWith_cons_cons, keeps, inductionHypothesis]

theorem zipWith_replicate_const {g : Bool → Bool → Bool} {m c : Bool} (const : ∀ b, g b m = c) (l : Bits) :
    List.zipWith g l (List.replicate l.length m) = List.replicate l.length c := by
  induction l with
  | nil => rfl
  | cons b l inductionHypothesis =>
    rw [List.length_cons, List.replicate_succ, List.zipWith_cons_cons, const, inductionHypothesis,
      List.replicate_succ]

theorem zipWith_netmask {g : Bool → Bool → Bool} {c : Bool} (keeps : ∀ b, g b true = b)
    (const : ∀ b, g b false = c) {l : Bits} {ones zeros : Nat} (length : l.length = ones + zeros) :
    List.zipWith g l (netmask ones zeros) = l.take ones ++ List.replicate zeros c := by
  have first : (l.take ones).length = ones := by rw [List.length_take]; omega
  have rest : (l.drop ones).length = zeros := by rw [List.length_drop]; omega
  have kept := zipWith_replicate_keep keeps (l.take ones)
  have covered := zipWith_replicate_const const (l.drop ones)
  rw [first] at kept
  rw [rest] at covered
  calc List.zipWith g l (netmask ones zeros)
      = List.zipWith g (l.take ones ++ l.drop ones) (List.replicate ones true ++ List.replicate zeros false) := by
        rw [List.take_append_drop, netmask]
    _ = List.zipWith g (l.take ones) (List.replicate ones true) ++
          List.zipWith g (l.drop ones) (List.replicate zeros false) :=
        List.zipWith_append (by rw [first, List.length_replicate])
    _ = l.take ones ++ List.replicate zeros c := by rw [kept, covered]

theorem byteBits_replicate {x : BitVec 8} {b : Bool} (same : bits x = List.replicate 8 b) (n : Nat) :
    byteBits (List.replicate n x) = List.replicate (8 * n) b := by
  induction n with
  | zero => rfl
  | succ n inductionHypothesis =>
    rw [List.replicate_succ, byteBits_cons, inductionHypothesis, same, List.replicate_append_replicate]
    congr 1
    omega

theorem byteBits_replicate_ones (n : Nat) : byteBits (List.replicate n 0xFF#8) = List.replicate (8 * n) true :=
  byteBits_replicate (by decide) n

theorem byteBits_replicate_zeros (n : Nat) : byteBits (List.replicate n 0#8) = List.replicate (8 * n) false :=
  byteBits_replicate (by decide) n

end Tao.Foundation
