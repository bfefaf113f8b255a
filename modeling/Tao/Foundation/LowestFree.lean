import Mathlib.Data.Finset.Card
import Mathlib.Data.Nat.Find
import Mathlib.Order.Interval.Finset.Nat

/-! # Pools that hand out the lowest free id

A pool numbers its ids from a first one upwards without an end, and hands out the lowest
id that it does not hold yet. -/

namespace Tao.Foundation

structure FreeIds where
  first : Nat
  held : Finset Nat
  deriving DecidableEq

namespace FreeIds

theorem exists_free (s : FreeIds) : ∃ n, s.first ≤ n ∧ n ∉ s.held := by
  refine ⟨s.first + s.held.sup id + 1, by omega, fun held => ?_⟩
  have bound : s.first + s.held.sup id + 1 ≤ s.held.sup id := Finset.le_sup (f := id) held
  omega

def lowest (s : FreeIds) : Nat := Nat.find s.exists_free

def take (s : FreeIds) : FreeIds := { s with held := insert s.lowest s.held }

def release (s : FreeIds) (n : Nat) : FreeIds := { s with held := s.held.erase n }

theorem first_le_lowest (s : FreeIds) : s.first ≤ s.lowest := (Nat.find_spec s.exists_free).1

theorem lowest_notMem (s : FreeIds) : s.lowest ∉ s.held := (Nat.find_spec s.exists_free).2

theorem lowest_le {s : FreeIds} {n : Nat} (numbered : s.first ≤ n) (free : n ∉ s.held) : s.lowest ≤ n :=
  Nat.find_min' s.exists_free ⟨numbered, free⟩

theorem first_le_of_take {s : FreeIds} (numbered : ∀ n ∈ s.held, s.first ≤ n) :
    ∀ n ∈ s.take.held, s.first ≤ n := by
  intro n held
  rcases Finset.mem_insert.mp held with rfl | older
  · exact s.first_le_lowest
  · exact numbered n older

theorem lowest_lt {s : FreeIds} {limit : Nat}
    (room : (s.held.filter (· < limit)).card < limit - s.first) : s.lowest < limit := by
  by_contra high
  have full : Finset.Ico s.first limit ⊆ s.held.filter (· < limit) := by
    intro n inRange
    obtain ⟨numbered, below⟩ := Finset.mem_Ico.mp inRange
    refine Finset.mem_filter.mpr ⟨?_, below⟩
    by_contra free
    exact high (Nat.lt_of_le_of_lt (lowest_le numbered free) below)
  have cards := Finset.card_le_card full
  rw [Nat.card_Ico] at cards
  omega

end FreeIds

end Tao.Foundation
