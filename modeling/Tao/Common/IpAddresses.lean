import Tao.Common.InetText
import Tao.Common.LpmTrie

/-! # Sets of addresses (`ipaddresses.h`, `ipaddresses.cpp`, `tokenize.cpp`)

The text of a set lists its addresses in their order with commas between them.  A stream
cuts the text at the commas again. -/

namespace Tao.Common

open Tao.Foundation

/-! ## Lines of a stream -/

/-- `std::getline` on what is left of a stream: the line and the rest behind the delimiter.  It fails on
    an empty rest. -/
def getline (token : Char) : StdString → Option (StdString × StdString)
  | [] => none
  | c :: rest =>
    let s := c :: rest
    some (s.takeWhile (· ≠ token), (s.dropWhile (· ≠ token)).tail)

theorem getline_shorter {token : Char} {s line rest : StdString} (read : getline token s = some (line, rest)) :
    rest.length < s.length := by
  cases s with
  | nil => cases read
  | cons c s =>
    cases read
    rw [List.length_tail]
    have length := (List.dropWhile_sublist (· ≠ token) (l := c :: s)).length_le
    rw [List.length_cons] at length ⊢
    omega

def tokenize (str : StdString) (token : Char) : List StdString :=
  match _ : getline token str with
  | none => []
  | some (tmp, rest) => tmp :: tokenize rest token
termination_by str.length
decreasing_by exact getline_shorter ‹_›

theorem tokenize_cons {token : Char} {str tmp rest : StdString} (read : getline token str = some (tmp, rest)) :
    tokenize str token = tmp :: tokenize rest token := by
  rw [tokenize]
  split
  · next ended => rw [ended] at read; cases read
  · next again => rw [again] at read; cases read; rfl

theorem tokenize_nil (token : Char) : tokenize [] token = [] := by
  rw [tokenize]
  rfl

theorem getline_eq {token : Char} {s : StdString} (nonempty : s ≠ []) :
    getline token s = some (s.takeWhile (· ≠ token), (s.dropWhile (· ≠ token)).tail) := by
  cases s with
  | nil => exact absurd rfl nonempty
  | cons c s => rfl

theorem getline_append {token : Char} {line : StdString} (apart : token ∉ line) (rest : StdString) :
    getline token (line ++ token :: rest) = some (line, rest) := by
  have span := isSpan_separator apart rest
  rw [getline_eq (by simp), span.takeWhile_eq, span.dropWhile_eq, List.tail_cons]

theorem getline_last {token : Char} {line : StdString} (apart : token ∉ line) (nonempty : line ≠ []) :
    getline token line = some (line, []) := by
  have span := isSpan_whole apart
  have taken := span.takeWhile_eq
  have dropped := span.dropWhile_eq
  rw [List.append_nil] at taken dropped
  rw [getline_eq nonempty, taken, dropped, List.tail_nil]

/-- Pieces that are not empty are found again between the delimiters. -/
theorem tokenize_intercalate {token : Char} {pieces : List StdString}
    (whole : ∀ piece ∈ pieces, token ∉ piece ∧ piece ≠ []) :
    tokenize ([token].intercalate pieces) token = pieces := by
  induction pieces with
  | nil => rw [List.intercalate_nil, tokenize_nil]
  | cons piece pieces inductionHypothesis =>
    obtain ⟨apart, nonempty⟩ := whole piece List.mem_cons_self
    have later := inductionHypothesis fun other member => whole other (List.mem_cons_of_mem piece member)
    cases pieces with
    | nil => rw [List.intercalate_singleton, tokenize_cons (getline_last apart nonempty), tokenize_nil]
    | cons next rest =>
      rw [List.intercalate_cons_cons, List.append_assoc, List.singleton_append,
        tokenize_cons (getline_append apart _), later]

/-! ## Sets -/

theorem IpAddress.cmpOfLt_lt : cmpOfLt IpAddress.lt = compareOn IpAddress.orderKey := cmpOfLt_eq IpAddress.lt_iff

instance : Std.TransCmp (cmpOfLt IpAddress.lt) := IpAddress.cmpOfLt_lt ▸ inferInstance

instance : Std.LawfulEqCmp (cmpOfLt IpAddress.lt) where
  eq_of_compare same := by
    rw [IpAddress.cmpOfLt_lt, compareOn, Std.compare_eq_iff_eq] at same
    exact IpAddress.orderKey_injective same

/-- `std::set<IpAddress>`, in its order. -/
abbrev IpAddresses := Std.TreeSet IpAddress (cmpOfLt IpAddress.lt)

namespace IpAddresses

/-- `operator==` of two sets compares their elements one by one. -/
def beq (a o : IpAddresses) : Bool := a.toList.isEqv o.toList IpAddress.beq

def ofString (inet : Inet) (ipsStr : StdString) : Throws IpAddresses :=
  (tokenize ipsStr ',').foldlM (fun mIps ip => do
    let ip ← IpAddress.ofString inet ip
    return mIps.insert ip) ∅

/-- The loop of `to_string` over the addresses that are left. -/
def toStringLoop (inet : Inet) : Bool → StdString → List IpAddress → StdString
  | _, ipsStr, [] => ipsStr
  | begin, ipsStr, it :: rest =>
    let ipsStr := if begin then ipsStr else ipsStr ++ ",".toList
    toStringLoop inet false (ipsStr ++ it.toString inet) rest

def toString (inet : Inet) (s : IpAddresses) : StdString := toStringLoop inet true [] s.toList

theorem beq_iff {s t : IpAddresses} : s.beq t = true ↔ s.toList = t.toList := by
  unfold beq
  generalize s.toList = l
  generalize t.toList = m
  induction l generalizing m with
  | nil => cases m <;> simp [List.isEqv]
  | cons a l inductionHypothesis =>
    cases m with
    | nil => simp [List.isEqv]
    | cons b m => rw [List.isEqv, Bool.and_eq_true, inductionHypothesis, IpAddress.beq_iff, List.cons.injEq]

theorem toStringLoop_false (inet : Inet) (ipsStr : StdString) (it : IpAddress) (rest : List IpAddress) :
    toStringLoop inet false ipsStr (it :: rest) =
      ipsStr ++ ',' :: [','].intercalate ((it :: rest).map (IpAddress.toString inet)) := by
  induction rest generalizing ipsStr it with
  | nil =>
    rw [List.map_singleton, List.intercalate_singleton]
    exact List.append_assoc ipsStr ",".toList _
  | cons next rest inductionHypothesis =>
    rw [toStringLoop, inductionHypothesis, List.map_cons, List.map_cons, List.map_cons, List.intercalate_cons_cons]
    simp only [Bool.false_eq_true, if_false, List.append_assoc]
    rfl

theorem toString_eq (inet : Inet) (s : IpAddresses) :
    s.toString inet = [','].intercalate (s.toList.map (IpAddress.toString inet)) := by
  unfold toString
  match s.toList with
  | [] => rfl
  | [it] => rw [List.map_singleton, List.intercalate_singleton]; rfl
  | it :: next :: rest =>
    rw [toStringLoop, toStringLoop_false, List.map_cons, List.map_cons, List.map_cons,
      List.intercalate_cons_cons, List.append_assoc _ [',']]
    rfl

/-! ## Round trips -/

variable {inet : Inet}

theorem comma_not_written (documented : inet.Documented) (ip : IpAddress) : ',' ∉ ip.toString inet :=
  not_written documented rfl (by decide) ip

theorem ofString_toString (documented : inet.Documented) (s : IpAddresses) :
    ∃ t, ofString inet (s.toString inet) = .ok t ∧ t.toList = s.toList := by
  have pieces : tokenize (s.toString inet) ',' = s.toList.map (IpAddress.toString inet) := by
    rw [toString_eq]
    refine tokenize_intercalate fun piece member => ?_
    obtain ⟨ip, _, rfl⟩ := List.mem_map.mp member
    exact ⟨comma_not_written documented ip, toString_ne_nil documented ip⟩
  have inserted (l : List IpAddress) (t : IpAddresses) :
      (l.map (IpAddress.toString inet)).foldlM (fun mIps ip => do
        let ip ← IpAddress.ofString inet ip
        return mIps.insert ip) t = (.ok (l.foldl (fun t ip => t.insert ip) t) : Throws IpAddresses) := by
    induction l generalizing t with
    | nil => rfl
    | cons ip l inductionHypothesis =>
      rw [List.map_cons, List.foldlM_cons, IpAddress.ofString_toString documented]
      exact inductionHypothesis (t.insert ip)
  refine ⟨_, by rw [ofString, pieces, inserted], ?_⟩
  exact Std.TreeSet.equiv_iff_toList_eq.mp (insert_toList_equiv s)

end IpAddresses

/-- Prefixes and sets of addresses are read back from their texts. -/
structure TextsRoundTrip (inet : Inet) : Prop where
  prefixes : ∀ p : IpPrefix, ∃ q, IpPrefix.ofString inet (p.toString inet) = .ok q ∧ q.beq p = true
  sets : ∀ s : IpAddresses, ∃ t, IpAddresses.ofString inet (s.toString inet) = .ok t ∧ t.beq s = true
  sameText : ∀ s t : IpAddresses, s.toString inet = t.toString inet ↔ s.beq t = true

theorem textsRoundTrip {inet : Inet} (documented : inet.Documented) : TextsRoundTrip inet where
  prefixes p := by
    refine ⟨p, ?_, IpPrefix.beq_iff.mpr rfl⟩
    rw [IpPrefix.toString, List.append_assoc]
    exact IpPrefix.ofString_text documented p.valid
  sets s := by
    obtain ⟨t, parsed, same⟩ := IpAddresses.ofString_toString documented s
    exact ⟨t, parsed, IpAddresses.beq_iff.mpr same⟩
  sameText s t := by
    rw [IpAddresses.beq_iff]
    constructor
    · intro same
      obtain ⟨s', parsedS, sameS⟩ := IpAddresses.ofString_toString documented s
      obtain ⟨t', parsedT, sameT⟩ := IpAddresses.ofString_toString documented t
      rw [same] at parsedS
      obtain rfl := Except.ok.inj (parsedS.symm.trans parsedT)
      exact sameS.symm.trans sameT
    · intro same
      rw [IpAddresses.toString_eq, IpAddresses.toString_eq, same]

/-- `2001:db8:1:2:3:4:5:6` -/
def documentationV6 : IpAddress := .v6 ⟨[0x20, 0x01, 0x0d, 0xb8, 0, 1, 0, 2, 0, 3, 0, 4, 0, 5, 0, 6], rfl⟩

/-- A prefix with host bits, an address of each family in a set, and the empty set. -/
theorem twoFamilies_read_back :
    (∃ q, IpPrefix.ofString .fullText ((⟨.v4 0x0302010A#32, 24, rfl⟩ : IpPrefix).toString .fullText) = .ok q ∧
      q.beq ⟨.v4 0x0302010A#32, 24, rfl⟩ = true) ∧
    (∃ t, IpAddresses.ofString .fullText (IpAddresses.toString .fullText
        (Std.TreeSet.ofList [.v4 0x0302010A#32, documentationV6] _)) = .ok t ∧
      t.beq (Std.TreeSet.ofList [.v4 0x0302010A#32, documentationV6] _) = true) ∧
    ∃ t, IpAddresses.ofString .fullText (IpAddresses.toString .fullText ∅) = .ok t ∧ t.beq ∅ = true :=
  ⟨(textsRoundTrip Inet.fullText_documented).prefixes _, (textsRoundTrip Inet.fullText_documented).sets _,
    (textsRoundTrip Inet.fullText_documented).sets _⟩

-- A delimiter at the end opens no further piece, one in front does.
example : tokenize ",a,".toList ',' = [[], ['a']] := by simp [tokenize, getline]

end Tao.Common
