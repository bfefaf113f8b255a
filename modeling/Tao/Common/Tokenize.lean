import Tao.Common.IpAddresses

/-! # Cutting a text into a number of pieces

The second `tokenize` finds the token at most `firstN` times and keeps the rest.  It loses
nothing, and where it finds every token it differs from the first one only at the end:
that one has no piece behind a token that the text ends with. -/

namespace Tao.Common

open Tao.Foundation

/-- The loop of `tokenize` with `firstN`, as often as it may still cut. -/
def tokenizeFirst (token : Char) : Nat → StdString → List StdString
  | 0, tmp => [tmp]
  | left + 1, tmp =>
    if token ∈ tmp then tmp.takeWhile (· ≠ token) :: tokenizeFirst token left (tmp.dropWhile (· ≠ token)).tail
    else [tmp]

variable {token : Char} {n : Nat} {str before after : StdString}

theorem tokenizeFirst_whole (apart : token ∉ str) : tokenizeFirst token n str = [str] := by
  cases n with
  | zero => rfl
  | succ n => rw [tokenizeFirst, if_neg apart]

theorem tokenizeFirst_cut (apart : token ∉ before) :
    tokenizeFirst token (n + 1) (before ++ token :: after) = before :: tokenizeFirst token n after := by
  have span := isSpan_separator apart after
  rw [tokenizeFirst, if_pos (List.mem_append_right _ List.mem_cons_self), span.takeWhile_eq, span.dropWhile_eq,
    List.tail_cons]

theorem tokenizeFirst_ne_nil : tokenizeFirst token n str ≠ [] := by
  cases n with
  | zero => exact List.cons_ne_nil _ _
  | succ n =>
    rw [tokenizeFirst]
    split <;> exact List.cons_ne_nil _ _

theorem count_cut (apart : token ∉ before) : (before ++ token :: after).count token = after.count token + 1 := by
  rw [List.count_append, List.count_eq_zero_of_not_mem apart, List.count_cons_self, Nat.zero_add]

/-- What the first `tokenize` does not return. -/
def emptyEnd (token : Char) (str : StdString) : List StdString :=
  if str = [] ∨ str.getLast? = some token then [[]] else []

theorem tokenize_cut (apart : token ∉ before) :
    tokenize (before ++ token :: after) token = before :: tokenize after token :=
  tokenize_cons (getline_append apart after)

theorem tokenize_whole (apart : token ∉ str) : tokenize str token ++ emptyEnd token str = [str] := by
  unfold emptyEnd
  by_cases empty : str = []
  · subst empty
    simp [tokenize_nil]
  · have other : str.getLast? ≠ some token := fun last => apart (List.mem_of_getLast? last)
    rw [tokenize_cons (getline_last apart empty), tokenize_nil, if_neg (not_or_intro empty other), List.append_nil]

theorem emptyEnd_cut : emptyEnd token (before ++ token :: after) = emptyEnd token after := by
  unfold emptyEnd
  cases after with
  | nil => simp
  | cons c after => simp [List.getLast?_append]

/-- The pieces are what `firstN` cuts at the first tokens leave of the text. -/
structure Tokenized (token : Char) (firstN : Nat) (str : StdString) (pieces : List StdString) : Prop where
  joined : [token].intercalate pieces = str
  number : pieces.length = min firstN (str.count token) + 1
  apart : ∀ piece ∈ pieces.dropLast, token ∉ piece
  rest : ∀ last, pieces.getLast? = some last → last.count token = str.count token - firstN
  agrees : str.count token ≤ firstN → pieces = tokenize str token ++ emptyEnd token str

/-- Nothing is cut when nothing may be or there is no token. -/
theorem tokenized_single (uncut : n = 0 ∨ str.count token = 0) : Tokenized token n str [str] where
  joined := List.intercalate_singleton
  number := by
    rw [List.length_singleton]
    omega
  apart := by simp
  rest last same := by
    rw [List.getLast?_singleton, Option.some.injEq] at same
    subst same
    omega
  agrees all := (tokenize_whole (List.count_eq_zero.mp (by omega))).symm

theorem Tokenized.cut {pieces : List StdString} (apart : token ∉ before) (nonempty : pieces ≠ [])
    (tokenized : Tokenized token n after pieces) : Tokenized token (n + 1) (before ++ token :: after) (before :: pieces) where
  joined := by
    obtain ⟨next, later, rfl⟩ := List.exists_cons_of_ne_nil nonempty
    rw [List.intercalate_cons_cons, tokenized.joined, List.append_assoc, List.singleton_append]
  number := by
    rw [List.length_cons, tokenized.number, count_cut apart]
    omega
  apart piece member := by
    rw [List.dropLast_cons_of_ne_nil nonempty] at member
    rcases List.mem_cons.mp member with rfl | later
    · exact apart
    · exact tokenized.apart piece later
  rest last same := by
    rw [List.getLast?_cons_of_ne_nil nonempty] at same
    rw [tokenized.rest last same, count_cut apart]
    omega
  agrees all := by
    rw [count_cut apart] at all
    rw [tokenized.agrees (by omega), tokenize_cut apart, emptyEnd_cut, List.cons_append]

/-- For every text, token and number of cuts. -/
theorem tokenizeFirst_tokenized (token : Char) (n : Nat) (str : StdString) :
    Tokenized token n str (tokenizeFirst token n str) := by
  induction n generalizing str with
  | zero => exact tokenized_single (.inl rfl)
  | succ n inductionHypothesis =>
    by_cases member : token ∈ str
    · obtain ⟨before, after, rfl, apart⟩ := List.eq_append_cons_of_mem member
      rw [tokenizeFirst_cut apart]
      exact (inductionHypothesis after).cut apart tokenizeFirst_ne_nil
    · rw [tokenizeFirst_whole member]
      exact tokenized_single (.inr (List.count_eq_zero_of_not_mem member))

example : tokenizeFirst '/' 1 "10.0.0.0/8/9".toList = ["10.0.0.0".toList, "8/9".toList] := by decide

end Tao.Common
