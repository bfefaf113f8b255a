import Tao.Common.IpAddress
import Tao.Foundation.Digits

/-! # Texts of addresses

An IPv4 address in dotted decimal and an IPv6 address in eight groups of hexadecimal
digits, with no run of zeros left out.  The texts are parsed back, and no others are. -/

namespace Tao.Common

open Tao.Foundation

def dottedDecimal (a : BitVec 32) : StdString := separated 10 '.' ((IpAddress.v4 a).bytes.map BitVec.toNat)

def hextets : List (BitVec 8) → List Nat
  | high :: low :: rest => (high ++ low).toNat :: hextets rest
  | _ => []

def colonHexadecimal (a : Ipv6Bytes) : StdString := separated 16 ':' (hextets a.1)

theorem dottedDecimal_injective : Function.Injective dottedDecimal := by
  intro x y same
  have apart : ∀ d : Fin 10, '.' ≠ d.1.digitChar := by decide
  have numbers := separated_injective (by decide) (by decide) (fun d digit => apart ⟨d, digit⟩)
    (List.cons_ne_nil _ _) (List.cons_ne_nil _ _) same
  have bytes : (IpAddress.v4 x).bytes = (IpAddress.v4 y).bytes :=
    List.map_injective_iff.mpr (fun _ _ => BitVec.eq_of_toNat_eq) numbers
  exact IpAddress.v4.inj (IpAddress.bits_injective (congrArg byteBits bytes))

theorem append_inj {v w : Nat} {high high' : BitVec v} {low low' : BitVec w} (same : high ++ low = high' ++ low') :
    high = high' ∧ low = low' := by
  constructor
  · rw [← BitVec.extractLsb'_append_eq_left (a := high) (b := low), same, BitVec.extractLsb'_append_eq_left]
  · rw [← BitVec.extractLsb'_append_eq_right (a := high) (b := low), same, BitVec.extractLsb'_append_eq_right]

theorem hextets_injective {n : Nat} {xs ys : List (BitVec 8)} (length : xs.length = 2 * n)
    (otherLength : ys.length = 2 * n) (same : hextets xs = hextets ys) : xs = ys := by
  induction n generalizing xs ys with
  | zero => rw [List.length_eq_zero_iff.mp length, List.length_eq_zero_iff.mp otherLength]
  | succ n inductionHypothesis =>
    match xs, ys, length, otherLength with
    | high :: low :: xs, high' :: low' :: ys, length, otherLength =>
      obtain ⟨first, rest⟩ := List.cons.inj same
      obtain ⟨rfl, rfl⟩ := append_inj (BitVec.eq_of_toNat_eq first)
      rw [List.length_cons, List.length_cons] at length otherLength
      rw [inductionHypothesis (by omega) (by omega) rest]

theorem hextets_eq_cons (a : Ipv6Bytes) : ∃ first second rest, hextets a.1 = first :: second :: rest := by
  obtain ⟨bytes, length⟩ := a
  match bytes, length with
  | _ :: _ :: _ :: _ :: _, _ => exact ⟨_, _, _, rfl⟩

theorem colonHexadecimal_injective : Function.Injective colonHexadecimal := by
  intro x y same
  have apart : ∀ d : Fin 16, ':' ≠ d.1.digitChar := by decide
  have nonempty (a : Ipv6Bytes) : hextets a.1 ≠ [] := by
    obtain ⟨first, second, rest, groups⟩ := hextets_eq_cons a
    rw [groups]
    exact List.cons_ne_nil _ _
  have groups := separated_injective (by decide) (by decide) (fun d digit => apart ⟨d, digit⟩)
    (nonempty x) (nonempty y) same
  exact Subtype.ext (hextets_injective (n := 8) x.2 y.2 groups)

/-- `inet_ntop` and `inet_pton`, with IPv6 addresses written in full. -/
noncomputable def Inet.fullText : Inet where
  ntop4 := dottedDecimal
  ntop6 := colonHexadecimal
  pton4 := Function.partialInv dottedDecimal
  pton6 := Function.partialInv colonHexadecimal

theorem Inet.fullText_documented : Inet.fullText.Documented where
  inverse4 := Function.partialInv_left dottedDecimal_injective
  inverse6 := Function.partialInv_left colonHexadecimal_injective
  written4 a := by
    have digits : ∀ d : Fin 10, d.1.digitChar.isDigit = true := by decide
    refine ⟨List.ne_nil_of_mem (separator_mem_separated 10 '.' _ _ _), fun c written => ?_⟩
    rcases mem_separated (by decide) written with rfl | ⟨d, digit, rfl⟩
    · exact .inr rfl
    · exact .inl (digits ⟨d, digit⟩)
  written6 a := by
    have digits : ∀ d : Fin 16, d.1.digitChar.isDigit = true ∨
        d.1.digitChar ∈ ['a', 'b', 'c', 'd', 'e', 'f'] := by decide
    obtain ⟨first, second, rest, groups⟩ := hextets_eq_cons a
    have colon : ':' ∈ colonHexadecimal a := by
      rw [colonHexadecimal, groups]
      exact separator_mem_separated 16 ':' first second rest
    refine ⟨colon, fun c written => ?_⟩
    rcases mem_separated (by decide) written with rfl | ⟨d, digit, rfl⟩
    · exact .inr (.inr (.inl rfl))
    · rcases digits ⟨d, digit⟩ with decimal | letter
      · exact .inl decimal
      · exact .inr (.inl letter)

end Tao.Common
