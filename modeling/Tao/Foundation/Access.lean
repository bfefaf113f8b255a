import Mathlib.Data.List.Basic

/-! # Accesses to a block of memory

A trace lists the elements of a block that a run reads or writes, in their order.  A null
pointer that is dereferenced is an access too, one that is in no block. -/

namespace Tao.Foundation

inductive Access where
  | element (position : Nat)
  | null
  deriving DecidableEq

def Access.Inside (size : Nat) : Access → Prop
  | .element position => position < size
  | .null => False

def accessRange (start count : Nat) : List Access := (List.range' start count).map .element

def AllInside (size : Nat) (trace : List Access) : Prop := ∀ access ∈ trace, access.Inside size

@[simp] theorem allInside_nil (size : Nat) : AllInside size [] := by
  intro access member
  cases member

@[simp] theorem allInside_append {size : Nat} {first second : List Access} :
    AllInside size (first ++ second) ↔ AllInside size first ∧ AllInside size second :=
  List.forall_mem_append

@[simp] theorem not_allInside_null (size : Nat) : ¬ AllInside size [.null] :=
  fun inside => inside .null List.mem_cons_self

/-- A range is inside when it is empty or ends inside. -/
@[simp] theorem allInside_range {size start count : Nat} :
    AllInside size (accessRange start count) ↔ count = 0 ∨ start + count ≤ size := by
  constructor
  · intro inside
    rcases Nat.eq_zero_or_pos count with none | some
    · exact .inl none
    · have last := inside (.element (start + (count - 1)))
        (List.mem_map_of_mem (List.mem_range'_1.mpr ⟨Nat.le_add_right _ _, by omega⟩))
      have bound : start + (count - 1) < size := last
      exact .inr (by omega)
  · intro fits access member
    obtain ⟨position, within, rfl⟩ := List.mem_map.mp member
    have bounds := List.mem_range'_1.mp within
    show position < size
    omega

end Tao.Foundation
