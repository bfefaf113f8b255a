import Mathlib.Data.List.TakeWhile

/-! # Spans

A list is cut where a property ends: `takeWhile` and `dropWhile` are the only two parts with
the property all over the first and not at the head of the second. -/

namespace Tao.Foundation

variable {α : Type*} {p : α → Bool}

/-- `body` is as long as the property lasts, and `rest` is what is left. -/
structure IsSpan (p : α → Bool) (body rest : List α) : Prop where
  inside : ∀ a ∈ body, p a = true
  stops : ∀ a ∈ rest.head?, p a = false

theorem isSpan_split (p : α → Bool) (l : List α) : IsSpan p (l.takeWhile p) (l.dropWhile p) where
  inside := fun _ => List.mem_takeWhile_imp
  stops := fun a head => by
    have failed := List.head?_dropWhile_not p l
    rw [Option.mem_def.mp head] at failed
    simpa using failed

theorem IsSpan.takeWhile_eq {body rest : List α} (span : IsSpan p body rest) :
    (body ++ rest).takeWhile p = body := by
  rw [List.takeWhile_append_of_pos span.inside]
  cases rest with
  | nil => rw [List.takeWhile_nil, List.append_nil]
  | cons a rest =>
    rw [List.takeWhile_cons_of_neg (by rw [span.stops a rfl]; exact Bool.false_ne_true), List.append_nil]

theorem IsSpan.dropWhile_eq {body rest : List α} (span : IsSpan p body rest) :
    (body ++ rest).dropWhile p = rest := by
  rw [List.dropWhile_append_of_pos span.inside]
  cases rest with
  | nil => rfl
  | cons a rest => rw [List.dropWhile_cons_of_neg (by rw [span.stops a rfl]; exact Bool.false_ne_true)]

variable [DecidableEq α] {separator : α}

/-- A separator ends the span of what is not the separator. -/
theorem isSpan_separator {body : List α} (apart : separator ∉ body) (rest : List α) :
    IsSpan (· ≠ separator) body (separator :: rest) where
  inside := fun _ member => decide_eq_true fun same => apart (same ▸ member)
  stops := fun a head => by
    obtain rfl := Option.some.inj head
    simp

theorem isSpan_whole {body : List α} (apart : separator ∉ body) : IsSpan (· ≠ separator) body [] where
  inside := fun _ member => decide_eq_true fun same => apart (same ▸ member)
  stops := fun _ head => by cases head

/-- The first separator cuts a list in one way. -/
theorem separator_split_inj {body body' rest rest' : List α} (apart : separator ∉ body) (apart' : separator ∉ body')
    (same : body ++ separator :: rest = body' ++ separator :: rest') : body = body' ∧ rest = rest' := by
  have span := isSpan_separator apart rest
  have span' := isSpan_separator apart' rest'
  constructor
  · rw [← span.takeWhile_eq, same, span'.takeWhile_eq]
  · have rests : separator :: rest = separator :: rest' := by rw [← span.dropWhile_eq, same, span'.dropWhile_eq]
    exact (List.cons.inj rests).2

end Tao.Foundation
