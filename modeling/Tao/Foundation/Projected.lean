import Tao.Foundation.Table

/-! # Tables that show records

Records are kept in a table, and another table shows one entry of each, under a key and
with data that the record determines.  Where records have different keys there, adding and
removing a record is adding and removing its entry. -/

namespace Tao.Foundation

variable {κ κ' R α : Type*} [DecidableEq κ] [DecidableEq κ']

/-- `t` has the entry of each record and nothing else, and no two records share an entry. -/
structure Projected (keyOf : R → κ') (dataOf : R → α) (records : Table κ R) (t : Table κ' α) : Prop where
  lookup : ∀ k' a, t.lookup k' = some a ↔ ∃ k r, records.lookup k = some r ∧ keyOf r = k' ∧ dataOf r = a
  apart : ∀ k r other otherR, records.lookup k = some r → records.lookup other = some otherR →
    keyOf r = keyOf otherR → k = other

namespace Projected

variable {keyOf : R → κ'} {dataOf : R → α} {records : Table κ R} {t : Table κ' α} {k : κ} {r : R}

theorem empty : Projected keyOf dataOf (∅ : Table κ R) ∅ where
  lookup := by
    intro k' a
    exact iff_of_false (by rintro ⟨⟩) (by rintro ⟨k, r, ⟨⟩, _⟩)
  apart := by rintro k r other otherR ⟨⟩

theorem mem_iff (projected : Projected keyOf dataOf records t) {k' : κ'} :
    k' ∈ t ↔ ∃ k r, records.lookup k = some r ∧ keyOf r = k' := by
  rw [Finmap.mem_iff]
  constructor
  · rintro ⟨a, found⟩
    obtain ⟨k, r, held, key, _⟩ := (projected.lookup k' a).mp found
    exact ⟨k, r, held, key⟩
  · rintro ⟨k, r, held, key⟩
    exact ⟨dataOf r, (projected.lookup k' _).mpr ⟨k, r, held, key, rfl⟩⟩

theorem insert (projected : Projected keyOf dataOf records t) (absent : records.lookup k = none)
    (fresh : keyOf r ∉ t) : Projected keyOf dataOf (records.insert k r) (t.insert (keyOf r) (dataOf r)) where
  lookup := by
    intro k' a
    rw [Table.lookup_insert_eq_some, projected.lookup]
    constructor
    · rintro (⟨rfl, rfl⟩ | ⟨different, other, otherR, held, key, data⟩)
      · exact ⟨k, r, Finmap.lookup_insert _, rfl, rfl⟩
      · refine ⟨other, otherR, Table.lookup_insert_eq_some.mpr (.inr ⟨?_, held⟩), key, data⟩
        rintro rfl
        rw [absent] at held; cases held
    · rintro ⟨other, otherR, held, key, data⟩
      rcases Table.lookup_insert_eq_some.mp held with ⟨rfl, rfl⟩ | ⟨_, older⟩
      · exact .inl ⟨key.symm, data.symm⟩
      · refine .inr ⟨?_, other, otherR, older, key, data⟩
        rintro rfl
        exact fresh (projected.mem_iff.mpr ⟨other, otherR, older, key⟩)
  apart := by
    intro first firstR second secondR firstHeld secondHeld same
    -- the key of the new record is in no other record
    rcases Table.lookup_insert_eq_some.mp firstHeld with ⟨rfl, rfl⟩ | ⟨_, firstOlder⟩ <;>
      rcases Table.lookup_insert_eq_some.mp secondHeld with ⟨rfl, rfl⟩ | ⟨_, secondOlder⟩
    · rfl
    · exact (fresh (projected.mem_iff.mpr ⟨second, secondR, secondOlder, same.symm⟩)).elim
    · exact (fresh (projected.mem_iff.mpr ⟨first, firstR, firstOlder, same⟩)).elim
    · exact projected.apart first firstR second secondR firstOlder secondOlder same

theorem erase (projected : Projected keyOf dataOf records t) (held : records.lookup k = some r) :
    Projected keyOf dataOf (records.erase k) (t.erase (keyOf r)) where
  lookup := by
    intro k' a
    rw [Table.lookup_erase_eq_some, projected.lookup]
    constructor
    · rintro ⟨different, other, otherR, otherHeld, key, data⟩
      refine ⟨other, otherR, Table.lookup_erase_eq_some.mpr ⟨?_, otherHeld⟩, key, data⟩
      rintro rfl
      obtain rfl := Option.some.inj (held.symm.trans otherHeld)
      exact different key.symm
    · rintro ⟨other, otherR, otherHeld, key, data⟩
      obtain ⟨different, older⟩ := Table.lookup_erase_eq_some.mp otherHeld
      refine ⟨?_, other, otherR, older, key, data⟩
      rintro rfl
      exact different (projected.apart other otherR k r older held key)
  apart := by
    intro first firstR second secondR firstHeld secondHeld
    exact projected.apart first firstR second secondR (Table.lookup_erase_eq_some.mp firstHeld).2
      (Table.lookup_erase_eq_some.mp secondHeld).2

end Projected

end Tao.Foundation
