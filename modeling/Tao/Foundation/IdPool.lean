import Tao.Foundation.Table
import Mathlib.Data.Finset.Card

/-! # Ids held by the entries of a table

Some entries of a table hold an id from a pool.  `IdsMatch` says that none is shared
and none is lost: the ids outstanding are those that the entries in use hold, one
each.  It is kept by drawing an id for a new entry, and broken by every update that
takes an id without an entry or an entry without its id. -/

namespace Tao.Foundation

variable {κ α ι : Type*} [DecidableEq κ]

def Table.count (p : α → Prop) [DecidablePred p] (t : Table κ α) : Nat :=
  total (fun _ a => if p a then 1 else 0) t

/-- The entries that satisfy `uses` hold pairwise distinct ids of the pool, and all of them. -/
structure IdsMatch (uses : α → Prop) [DecidablePred uses] (id : α → ι) (t : Table κ α) (pool : Finset ι) :
    Prop where
  drawn : ∀ k a, t.lookup k = some a → uses a → id a ∈ pool
  distinct : ∀ k k' a a', t.lookup k = some a → t.lookup k' = some a' → uses a → uses a' → id a = id a' → k = k'
  count : pool.card = Table.count uses t

variable {uses : α → Prop} [DecidablePred uses] {id : α → ι} {t : Table κ α} {pool : Finset ι}

theorem IdsMatch.empty : IdsMatch uses id (∅ : Table κ α) ∅ where
  drawn := by intro k a held; cases held
  distinct := by intro k k' a a' held; cases held
  count := rfl

/-! ## Counting -/

theorem Table.count_insert_of_notMem (uses : α → Prop) [DecidablePred uses] {k : κ} {a : α} (absent : k ∉ t) :
    Table.count uses (t.insert k a) = Table.count uses t + if uses a then 1 else 0 := by
  rw [count, count, total_insert_of_notMem _ absent, Nat.add_comm]

theorem Table.count_overwrite (uses : α → Prop) [DecidablePred uses] {k : κ} {a : α} (b : α)
    (held : t.lookup k = some a) :
    Table.count uses (t.insert k b) + (if uses a then 1 else 0) = Table.count uses t + if uses b then 1 else 0 :=
  total_overwrite _ held

theorem Table.count_erase (uses : α → Prop) [DecidablePred uses] {k : κ} {a : α} (held : t.lookup k = some a) :
    Table.count uses (t.erase k) + (if uses a then 1 else 0) = Table.count uses t :=
  total_erase _ held

/-! ## What keeps the ids matched -/

theorem IdsMatch.overwrite (ids : IdsMatch uses id t pool) {k : κ} {a b : α} (held : t.lookup k = some a)
    (same : uses b ↔ uses a) (sameId : id b = id a) : IdsMatch uses id (t.insert k b) pool := by
  have older : ∀ k' b', (t.insert k b).lookup k' = some b' → uses b' →
      ∃ a', t.lookup k' = some a' ∧ uses a' ∧ id b' = id a' := by
    intro k' b' found used
    rw [Table.lookup_insert_eq_some] at found
    rcases found with ⟨here, rfl⟩ | ⟨_, found⟩
    · exact ⟨a, by rw [here, held], same.mp used, sameId⟩
    · exact ⟨b', found, used, rfl⟩
  refine ⟨fun k' b' found used => ?_, fun k₁ k₂ b₁ b₂ found₁ found₂ used₁ used₂ equal => ?_, ?_⟩
  · obtain ⟨a', found', used', idEq⟩ := older k' b' found used
    rw [idEq]
    exact ids.drawn k' a' found' used'
  · obtain ⟨a₁, held₁, uses₁, id₁⟩ := older k₁ b₁ found₁ used₁
    obtain ⟨a₂, held₂, uses₂, id₂⟩ := older k₂ b₂ found₂ used₂
    exact ids.distinct k₁ k₂ a₁ a₂ held₁ held₂ uses₁ uses₂ (by rw [← id₁, ← id₂, equal])
  · have counted := Table.count_overwrite uses b held
    rw [ids.count]
    simp only [same] at counted
    omega

theorem IdsMatch.idle (ids : IdsMatch uses id t pool) {k : κ} {a : α} (absent : k ∉ t) (unused : ¬ uses a) :
    IdsMatch uses id (t.insert k a) pool := by
  have older : ∀ k' a', (t.insert k a).lookup k' = some a' → uses a' → t.lookup k' = some a' := by
    intro k' a' found used
    rw [Table.lookup_insert_eq_some] at found
    rcases found with ⟨_, rfl⟩ | ⟨_, found⟩
    · exact absurd used unused
    · exact found
  refine ⟨fun k' a' found used => ids.drawn k' a' (older k' a' found used) used, ?_, ?_⟩
  · intro k₁ k₂ a₁ a₂ found₁ found₂ used₁ used₂
    exact ids.distinct k₁ k₂ a₁ a₂ (older k₁ a₁ found₁ used₁) (older k₂ a₂ found₂ used₂) used₁ used₂
  · rw [ids.count, Table.count_insert_of_notMem uses absent, if_neg unused, Nat.add_zero]

theorem IdsMatch.draw [DecidableEq ι] (ids : IdsMatch uses id t pool) {k : κ} {a : α} (absent : k ∉ t) (used : uses a)
    (fresh : id a ∉ pool) : IdsMatch uses id (t.insert k a) (insert (id a) pool) := by
  -- the ids of the older entries are in the pool, the new one was not
  have older : ∀ k' a', (t.insert k a).lookup k' = some a' → k' ≠ k → t.lookup k' = some a' := by
    intro k' a' found different
    rwa [Finmap.lookup_insert_of_ne _ different] at found
  refine ⟨fun k' a' found used' => ?_, fun k₁ k₂ a₁ a₂ found₁ found₂ used₁ used₂ equal => ?_, ?_⟩
  · rw [Table.lookup_insert_eq_some] at found
    rcases found with ⟨_, rfl⟩ | ⟨_, found⟩
    · exact Finset.mem_insert_self _ _
    · exact Finset.mem_insert_of_mem (ids.drawn k' a' found used')
  · by_cases first : k₁ = k <;> by_cases second : k₂ = k
    · rw [first, second]
    · rw [first, Finmap.lookup_insert, Option.some.injEq] at found₁
      exact absurd (ids.drawn k₂ a₂ (older k₂ a₂ found₂ second) used₂) (by rw [← equal, ← found₁]; exact fresh)
    · rw [second, Finmap.lookup_insert, Option.some.injEq] at found₂
      exact absurd (ids.drawn k₁ a₁ (older k₁ a₁ found₁ first) used₁) (by rw [equal, ← found₂]; exact fresh)
    · exact ids.distinct k₁ k₂ a₁ a₂ (older k₁ a₁ found₁ first) (older k₂ a₂ found₂ second) used₁ used₂ equal
  · rw [Finset.card_insert_of_notMem fresh, ids.count, Table.count_insert_of_notMem uses absent, if_pos used]

/-! ## What breaks the match -/

theorem IdsMatch.not_of_leak [DecidableEq ι] (ids : IdsMatch uses id t pool) {i : ι} (fresh : i ∉ pool) :
    ¬ IdsMatch uses id t (insert i pool) := by
  intro after
  have counted := after.count
  rw [Finset.card_insert_of_notMem fresh, ids.count] at counted
  omega

theorem IdsMatch.not_of_adopt (ids : IdsMatch uses id t pool) {k : κ} {a b : α} (held : t.lookup k = some a)
    (unused : ¬ uses a) (used : uses b) : ¬ IdsMatch uses id (t.insert k b) pool := by
  intro after
  have counted := Table.count_overwrite uses b held
  rw [if_neg unused, if_pos used, ← after.count, ids.count] at counted
  omega

end Tao.Foundation
