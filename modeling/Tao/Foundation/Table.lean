import Mathlib.Data.Finmap
import Mathlib.Algebra.BigOperators.Group.Multiset.Basic

/-! # Exact-match tables

A table is a finite map; Mathlib's `Finmap` supplies `lookup`, `insert`, `erase`
and extensionality.  This module adds what stores built on such tables need: a
store that may refuse a *new* key, and `total`, the sum of a weight over the
entries, with its behaviour under every update.  Reference counts and entry
counters are totals of suitable weights. -/

namespace Tao.Foundation

abbrev Table (κ α : Type*) := Finmap fun _ : κ => α

namespace Table

variable {κ α : Type*} [DecidableEq κ]

/-- Store a datum.  A key that is present is overwritten in place; a key that is
    not needs `room`. -/
def add (room : Bool) (t : Table κ α) (k : κ) (a : α) : Option (Table κ α) :=
  if k ∈ t ∨ room = true then some (t.insert k a) else none

def total (weight : κ → α → Nat) (t : Table κ α) : Nat :=
  (t.entries.map fun entry => weight entry.1 entry.2).sum

/-- The table with the entry of one key, if that key has one. -/
def only (t : Table κ α) (k : κ) : Table κ α := (t.lookup k).elim ∅ fun a => Finmap.insert k a ∅

/-! ## Storing -/

theorem add_some {room : Bool} {t t' : Table κ α} {k : κ} {a : α}
    (added : add room t k a = some t') : t' = t.insert k a := by
  unfold add at added
  split at added
  · exact (Option.some.inj added).symm
  · cases added

theorem add_none {room : Bool} {t : Table κ α} {k : κ} {a : α} :
    add room t k a = none ↔ k ∉ t ∧ room = false := by
  unfold add
  split
  next fits => rcases fits with present | fits <;> simp_all
  next full => simpa [not_or] using full

theorem add_of_room {t : Table κ α} {k : κ} {a : α} :
    add true t k a = some (t.insert k a) := by
  simp [add]

/-! ## Taking an update back -/

theorem erase_insert_of_notMem {t : Table κ α} {k : κ} (a : α) (absent : k ∉ t) :
    (t.insert k a).erase k = t := by
  apply Finmap.ext_lookup
  intro other
  by_cases same : other = k
  · subst same
    rw [Finmap.lookup_erase, Finmap.lookup_eq_none.mpr absent]
  · rw [Finmap.lookup_erase_ne same, Finmap.lookup_insert_of_ne _ same]

theorem insert_lookup {t : Table κ α} {k : κ} {a : α} (held : t.lookup k = some a) :
    t.insert k a = t := by
  apply Finmap.ext_lookup
  intro other
  by_cases same : other = k
  · subst same
    rw [Finmap.lookup_insert, held]
  · rw [Finmap.lookup_insert_of_ne _ same]

theorem insert_erase {t : Table κ α} {k : κ} (a : α) : (t.erase k).insert k a = t.insert k a := by
  apply Finmap.ext_lookup
  intro other
  by_cases same : other = k
  · subst same
    rw [Finmap.lookup_insert, Finmap.lookup_insert]
  · rw [Finmap.lookup_insert_of_ne _ same, Finmap.lookup_insert_of_ne _ same,
      Finmap.lookup_erase_ne same]

/-! ## Lookups after an update -/

theorem lookup_insert_eq {t : Table κ α} {k other : κ} {a : α} :
    (t.insert k a).lookup other = if other = k then some a else t.lookup other := by
  by_cases same : other = k
  · subst same; simp
  · simp [same]

theorem lookup_erase_eq {t : Table κ α} {k other : κ} :
    (t.erase k).lookup other = if other = k then none else t.lookup other := by
  by_cases same : other = k
  · subst same; simp
  · simp [same]

theorem lookup_insert_eq_some {t : Table κ α} {k other : κ} {a b : α} :
    (t.insert k a).lookup other = some b ↔ (other = k ∧ b = a) ∨ (other ≠ k ∧ t.lookup other = some b) := by
  rw [lookup_insert_eq]
  by_cases same : other = k
  · simp [same, eq_comm]
  · simp [same]

theorem lookup_insert_eq_none {t : Table κ α} {k other : κ} {a : α} :
    (t.insert k a).lookup other = none ↔ other ≠ k ∧ t.lookup other = none := by
  rw [lookup_insert_eq]
  by_cases same : other = k
  · simp [same]
  · simp [same]

theorem lookup_erase_eq_some {t : Table κ α} {k other : κ} {b : α} :
    (t.erase k).lookup other = some b ↔ other ≠ k ∧ t.lookup other = some b := by
  rw [lookup_erase_eq]
  by_cases same : other = k
  · simp [same]
  · simp [same]

/-- The removal of an entry is seen at its own key, if it was there, and at no other. -/
theorem lookup_erase_eq_self {t : Table κ α} (k : κ) {other : κ} (present : other ∈ t) :
    (t.erase k).lookup other = t.lookup other ↔ k ≠ other := by
  constructor
  · rintro same rfl
    rw [Finmap.lookup_erase] at same
    exact Finmap.lookup_eq_none.mp same.symm present
  · exact fun different => Finmap.lookup_erase_ne different.symm

theorem lookup_only {t : Table κ α} {k other : κ} :
    (t.only k).lookup other = if other = k then t.lookup k else none := by
  unfold only
  cases held : t.lookup k with
  | none => simp
  | some a => rw [Option.elim_some, lookup_insert_eq, Finmap.lookup_empty]

/-- Two tables have the same entry of a key exactly when a lookup of the key finds the same. -/
theorem only_eq_only {t t' : Table κ α} {k : κ} : t.only k = t'.only k ↔ t.lookup k = t'.lookup k := by
  constructor
  · intro same
    have found := congrArg (Finmap.lookup k) same
    rwa [lookup_only, lookup_only, if_pos rfl, if_pos rfl] at found
  · intro same
    unfold only
    rw [same]

/-! ## Keys -/

theorem card_keys_insert {t : Table κ α} {k : κ} {a : α} (absent : t.lookup k = none) :
    (t.insert k a).keys.card = t.keys.card + 1 := by
  have fresh : k ∉ t.keys := by rw [Finmap.mem_keys]; exact Finmap.lookup_eq_none.mp absent
  have keys : (t.insert k a).keys = insert k t.keys := by ext other; simp [Finmap.mem_keys]
  rw [keys, Finset.card_insert_of_notMem fresh]

theorem keys_overwrite {t : Table κ α} {k : κ} {a b : α} (held : t.lookup k = some b) :
    (t.insert k a).keys = t.keys := by
  ext other
  have present := Finmap.mem_of_lookup_eq_some held
  simp only [Finmap.mem_keys, Finmap.mem_insert, or_iff_right_iff_imp]
  rintro rfl
  exact present

theorem card_keys_erase {t : Table κ α} {k : κ} {a : α} (held : t.lookup k = some a) :
    (t.erase k).keys.card + 1 = t.keys.card := by
  rw [Finmap.keys_erase]
  exact Finset.card_erase_add_one (Finmap.mem_keys.mpr (Finmap.mem_of_lookup_eq_some held))

/-! ## Totals -/

theorem total_insert_of_notMem (weight : κ → α → Nat) {t : Table κ α} {k : κ} {a : α}
    (absent : k ∉ t) : total weight (t.insert k a) = weight k a + total weight t := by
  rw [total, total, Finmap.entries_insert_of_notMem absent, Multiset.map_cons, Multiset.sum_cons]

theorem total_erase (weight : κ → α → Nat) {t : Table κ α} {k : κ} {a : α}
    (held : t.lookup k = some a) : total weight (t.erase k) + weight k a = total weight t := by
  -- put the entry back and count it as a new one
  have rebuilt : (t.erase k).insert k a = t := by rw [insert_erase, insert_lookup held]
  have added : total weight ((t.erase k).insert k a) = _ :=
    total_insert_of_notMem weight Finmap.notMem_erase_self
  rw [rebuilt] at added
  omega

theorem total_overwrite (weight : κ → α → Nat) {t : Table κ α} {k : κ} {a b : α}
    (held : t.lookup k = some a) :
    total weight (t.insert k b) + weight k a = total weight t + weight k b := by
  have dropped := total_erase weight held
  have added : total weight ((t.erase k).insert k b) = _ :=
    total_insert_of_notMem weight Finmap.notMem_erase_self
  rw [insert_erase] at added
  omega

theorem weight_le_total (weight : κ → α → Nat) {t : Table κ α} {k : κ} {a : α}
    (held : t.lookup k = some a) : weight k a ≤ total weight t := by
  have dropped := total_erase weight held
  omega

theorem lookup_of_mem_entries {t : Table κ α} {entry : (_ : κ) × α} (member : entry ∈ t.entries) :
    t.lookup entry.1 = some entry.2 := by
  induction t using Finmap.induction_on with
  | H l =>
    rw [Finmap.lookup_toFinmap]
    exact AList.mem_lookup_iff.mpr member

theorem total_pos_iff {weight : κ → α → Nat} {t : Table κ α} :
    0 < total weight t ↔ ∃ k a, t.lookup k = some a ∧ 0 < weight k a := by
  constructor
  · intro positive
    by_contra nothing
    push Not at nothing
    have zero : total weight t = 0 := by
      apply Multiset.sum_eq_zero
      intro w listed
      obtain ⟨entry, member, rfl⟩ := Multiset.mem_map.mp listed
      have bound := nothing entry.1 entry.2 (lookup_of_mem_entries member)
      omega
    omega
  · rintro ⟨k, a, held, positive⟩
    have bound := weight_le_total weight held
    omega

theorem total_congr {weight weight' : κ → α → Nat} {t : Table κ α}
    (agree : ∀ k a, t.lookup k = some a → weight k a = weight' k a) :
    total weight t = total weight' t := by
  unfold total
  congr 1
  apply Multiset.map_congr rfl
  intro entry member
  exact agree entry.1 entry.2 (lookup_of_mem_entries member)

end Table

end Tao.Foundation
