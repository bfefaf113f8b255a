import Mathlib.Data.Set.Card
import Mathlib.Data.Fintype.Card
import Mathlib.Data.Fintype.BigOperators

/-! # Words with a given beginning

The words of one length that begin with a given word.  They are included in those that
begin with another word when that one is a beginning of the first. -/

namespace Tao.Foundation

variable {α : Type*} {n : Nat} {p q w : List α}

/-- The words of length `n` that begin with `p`. -/
def cylinder (n : Nat) (p : List α) : Set (List α) := {w | w.length = n ∧ p <+: w}

/-- Two words that differ but have the beginning, when it is not the whole word. -/
theorem exists_not_prefix [Nontrivial α] (shorter : p.length < n) (longer : p.length < q.length) :
    ∃ w ∈ cylinder n p, ¬q <+: w := by
  obtain ⟨a, different⟩ := exists_ne q[p.length]
  refine ⟨p ++ List.replicate (n - p.length) a, ⟨?_, List.prefix_append _ _⟩, fun begins => different ?_⟩
  · rw [List.length_append, List.length_replicate]
    omega
  · have inside : p.length < (p ++ List.replicate (n - p.length) a).length := by
      rw [List.length_append, List.length_replicate]
      omega
    rw [begins.getElem longer, List.getElem_append_right (Nat.le_refl _), List.getElem_replicate]

theorem cylinder_subset_iff [Nontrivial α] (fits : q.length ≤ n) (otherFits : p.length ≤ n) :
    cylinder n q ⊆ cylinder n p ↔ p <+: q := by
  constructor
  · intro within
    rcases Nat.lt_or_ge q.length p.length with shorter | longer
    · -- a word that goes on in another way than `p`
      obtain ⟨w, ⟨length, begins⟩, leaves⟩ := exists_not_prefix (n := n) (by omega) shorter
      exact absurd (within ⟨length, begins⟩).2 leaves
    · obtain ⟨w, length, begins⟩ : ∃ w, w.length = n ∧ q <+: w := by
        cases n with
        | zero => exact ⟨q, by omega, List.prefix_rfl⟩
        | succ n =>
          obtain ⟨a, _⟩ := exists_pair_ne α
          exact ⟨q ++ List.replicate (n + 1 - q.length) a, by simp; omega, List.prefix_append _ _⟩
      exact List.prefix_of_prefix_length_le (within ⟨length, begins⟩).2 begins longer
  · rintro begins w ⟨length, inside⟩
    exact ⟨length, begins.trans inside⟩

theorem ncard_cylinder [Fintype α] (fits : p.length ≤ n) :
    (cylinder n p).ncard = Fintype.card α ^ (n - p.length) := by
  have rests : cylinder n p = (p ++ ·) '' {rest | rest.length = n - p.length} := by
    ext w
    constructor
    · rintro ⟨length, rest, rfl⟩
      refine ⟨rest, ?_, rfl⟩
      rw [List.length_append] at length
      exact Nat.eq_sub_of_add_eq' length
    · rintro ⟨rest, length, rfl⟩
      refine ⟨?_, List.prefix_append _ _⟩
      have counted : rest.length = n - p.length := length
      rw [List.length_append]
      omega
  rw [rests, Set.ncard_image_of_injective _ (List.append_right_injective p), ← Nat.card_coe_set_eq,
    ← card_vector, ← Nat.card_eq_fintype_card]
  rfl

end Tao.Foundation
