import Mathlib.Init

/-! # Bounded scans

`scan p fuel start` is the loop `for (i = start; i < start + fuel; i++) if (p(i)) break;`:
the first index of the range that satisfies `p`, or `none` when the loop runs out. -/

namespace Tao.Foundation

/-- The first index in `[start, start + fuel)` that satisfies `p`. -/
def scan (p : Nat → Bool) : Nat → Nat → Option Nat
  | 0, _ => none
  | fuel + 1, start => if p start then some start else scan p fuel (start + 1)

theorem scan_eq_some {p : Nat → Bool} {fuel start i : Nat} :
    scan p fuel start = some i ↔
      start ≤ i ∧ i < start + fuel ∧ p i = true ∧ ∀ j, start ≤ j → j < i → p j = false := by
  induction fuel generalizing start with
  | zero =>
    constructor
    · intro found; cases found
    · rintro ⟨low, high, _⟩; omega
  | succ fuel inductionHypothesis =>
    rw [scan]
    split
    next found =>
      constructor
      · intro same
        obtain rfl := Option.some.inj same
        exact ⟨Nat.le_refl _, by omega, found, fun j low high => by omega⟩
      · rintro ⟨low, _, _, first⟩
        rcases Nat.lt_or_eq_of_le low with less | same
        · rw [first start (Nat.le_refl _) less] at found; cases found
        · rw [same]
    next missed =>
      rw [inductionHypothesis]
      constructor
      · rintro ⟨low, high, found, first⟩
        refine ⟨by omega, by omega, found, fun j lowJ highJ => ?_⟩
        -- the scan has already passed `start` itself
        rcases Nat.lt_or_eq_of_le lowJ with less | rfl
        · exact first j less highJ
        · simpa using missed
      · rintro ⟨low, high, found, first⟩
        have different : start ≠ i := fun same => missed (same ▸ found)
        exact ⟨by omega, by omega, found, fun j lowJ highJ => first j (by omega) highJ⟩

theorem scan_congr {p q : Nat → Bool} {fuel start : Nat}
    (agree : ∀ i, start ≤ i → i < start + fuel → p i = q i) : scan p fuel start = scan q fuel start := by
  induction fuel generalizing start with
  | zero => rfl
  | succ fuel inductionHypothesis =>
    rw [scan, scan, agree start (Nat.le_refl _) (by omega),
      inductionHypothesis fun i low high => agree i (by omega) (by omega)]

theorem scan_eq_none {p : Nat → Bool} {fuel start : Nat} :
    scan p fuel start = none ↔ ∀ j, start ≤ j → j < start + fuel → p j = false := by
  induction fuel generalizing start with
  | zero => exact iff_of_true rfl fun j low high => by omega
  | succ fuel inductionHypothesis =>
    rw [scan]
    split
    next found =>
      refine iff_of_false (by simp) fun missed => ?_
      rw [missed start (Nat.le_refl _) (by omega)] at found; cases found
    next missed =>
      rw [inductionHypothesis]
      constructor
      · intro rest j low high
        rcases Nat.lt_or_eq_of_le low with less | rfl
        · exact rest j less (by omega)
        · simpa using missed
      · exact fun all j low high => all j (by omega) (by omega)

end Tao.Foundation
