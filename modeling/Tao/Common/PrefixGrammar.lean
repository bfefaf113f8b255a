import Tao.Common.InetText
import Tao.Common.IpPrefix

/-! # The texts of prefixes

The constructor of `IpPrefix` from a string takes more than an address with a decimal
length.  An empty address stands for `0.0.0.0`, and `std::stoi` reads a length among
blanks, a sign and any text behind it. -/

namespace Tao.Common

open Tao.Foundation

/-! ## Numbers -/

/-- Digits and then anything else: the number of the digits. -/
inductive DigitsText : StdString → Nat → Prop
  | digits {digits rest : StdString} (span : IsSpan Char.isDigit digits rest) (nonempty : digits ≠ []) :
      DigitsText (digits ++ rest) (Nat.ofDigitChars 10 digits 0)

/-- Digits with or without a sign. -/
inductive SignedText : StdString → Int → Prop
  | unsigned {s : StdString} {n : Nat} (digits : DigitsText s n) : SignedText s n
  | plus {s : StdString} {n : Nat} (digits : DigitsText s n) : SignedText ('+' :: s) n
  | minus {s : StdString} {n : Nat} (digits : DigitsText s n) : SignedText ('-' :: s) (-n)

/-- The texts that `std::stoi` reads a number from. -/
inductive NumberText : StdString → Int → Prop
  | blanks {blanks s : StdString} {value : Int} (blank : ∀ c ∈ blanks, isSpace c = true)
      (signed : SignedText s value) : NumberText (blanks ++ s) value

/-- `std::stoi` behind the blanks and the sign. -/
def stoiDigits (negative : Bool) (rest : StdString) : Except StdString Int :=
  let digits := rest.takeWhile Char.isDigit
  if digits = [] then .error "stoi".toList
  else
    let magnitude := Nat.ofDigitChars 10 digits 0
    let value : Int := if negative then -magnitude else magnitude
    if -2147483648 ≤ value ∧ value ≤ 2147483647 then .ok value else .error "stoi".toList

/-- `std::stoi` behind the blanks. -/
def stoiSigned : StdString → Except StdString Int
  | '-' :: rest => stoiDigits true rest
  | '+' :: rest => stoiDigits false rest
  | rest => stoiDigits false rest

theorem stoi_eq (s : StdString) : stoi s = stoiSigned (s.dropWhile isSpace) := by
  unfold stoi
  generalize s.dropWhile isSpace = t
  split
  next sign =>
    split at sign
    · cases sign
      rfl
    · cases sign
      rfl
    · next notMinus notPlus =>
      cases sign
      rw [stoiSigned.eq_3 _ notMinus notPlus]
      rfl

theorem digitsText_iff {s : StdString} {n : Nat} :
    DigitsText s n ↔ s.takeWhile Char.isDigit ≠ [] ∧ n = Nat.ofDigitChars 10 (s.takeWhile Char.isDigit) 0 := by
  constructor
  · rintro ⟨span, nonempty⟩
    rw [span.takeWhile_eq]
    exact ⟨nonempty, rfl⟩
  · rintro ⟨nonempty, rfl⟩
    have text := DigitsText.digits (isSpan_split Char.isDigit s) nonempty
    rwa [List.takeWhile_append_dropWhile] at text

theorem stoiDigits_eq_ok {negative : Bool} {rest : StdString} {value : Int} :
    stoiDigits negative rest = .ok value ↔
      (∃ n, DigitsText rest n ∧ value = if negative then -(n : Int) else n) ∧
        -2147483648 ≤ value ∧ value ≤ 2147483647 := by
  unfold stoiDigits
  dsimp only
  split
  · next empty =>
    refine iff_of_false (fun impossible => by cases impossible) ?_
    rintro ⟨⟨n, digits, _⟩, _⟩
    exact (digitsText_iff.mp digits).1 empty
  · next nonempty =>
    generalize number : (if negative = true then -(Nat.ofDigitChars 10 (rest.takeWhile Char.isDigit) 0 : Int)
      else Nat.ofDigitChars 10 (rest.takeWhile Char.isDigit) 0) = v
    have read : (∃ n, DigitsText rest n ∧ value = if negative then -(n : Int) else n) ↔ value = v := by
      constructor
      · rintro ⟨n, digits, rfl⟩
        rw [(digitsText_iff.mp digits).2, number]
      · rintro rfl
        exact ⟨_, digitsText_iff.mpr ⟨nonempty, rfl⟩, number.symm⟩
    rw [read]
    split
    · next inRange =>
      rw [Except.ok.injEq]
      constructor
      · rintro rfl
        exact ⟨rfl, inRange⟩
      · exact fun both => both.1.symm
    · next outOfRange =>
      refine iff_of_false (fun impossible => by cases impossible) ?_
      rintro ⟨rfl, inRange⟩
      exact outOfRange inRange

theorem DigitsText.head {s : StdString} {n : Nat} (text : DigitsText s n) :
    ∃ c rest, s = c :: rest ∧ c.isDigit = true := by
  cases text with
  | @digits digits rest span nonempty =>
    obtain ⟨c, more, rfl⟩ := List.exists_cons_of_ne_nil nonempty
    exact ⟨c, more ++ rest, rfl, span.inside c List.mem_cons_self⟩

theorem DigitsText.not_sign {c : Char} {s : StdString} {n : Nat} (sign : c.isDigit = false) :
    ¬DigitsText (c :: s) n := by
  intro text
  obtain ⟨d, rest, same, digit⟩ := text.head
  cases same
  cases sign.symm.trans digit

theorem digit_not_space {c : Char} (digit : c.isDigit = true) : isSpace c = false := by
  have bounds : 48 ≤ c.toNat ∧ c.toNat ≤ 57 := by simpa [Char.isDigit, UInt32.le_iff_toNat_le] using digit
  have notBlank : c ≠ ' ' := by
    rintro rfl
    exact absurd bounds.1 (by decide)
  simp [isSpace, notBlank]
  omega

theorem SignedText.head {s : StdString} {value : Int} (text : SignedText s value) :
    ∃ c rest, s = c :: rest ∧ isSpace c = false := by
  cases text with
  | unsigned digits =>
    obtain ⟨c, rest, same, digit⟩ := digits.head
    exact ⟨c, rest, same, digit_not_space digit⟩
  | plus _ => exact ⟨'+', _, rfl, by decide⟩
  | minus _ => exact ⟨'-', _, rfl, by decide⟩

theorem SignedText.minus_iff {s : StdString} {value : Int} :
    SignedText ('-' :: s) value ↔ ∃ n, DigitsText s n ∧ value = -(n : Int) := by
  constructor
  · intro text
    cases text with
    | unsigned digits => exact absurd digits (DigitsText.not_sign rfl)
    | minus digits => exact ⟨_, digits, rfl⟩
  · rintro ⟨n, digits, rfl⟩
    exact .minus digits

theorem SignedText.plus_iff {s : StdString} {value : Int} :
    SignedText ('+' :: s) value ↔ ∃ n, DigitsText s n ∧ value = (n : Int) := by
  constructor
  · intro text
    cases text with
    | unsigned digits => exact absurd digits (DigitsText.not_sign rfl)
    | plus digits => exact ⟨_, digits, rfl⟩
  · rintro ⟨n, digits, rfl⟩
    exact .plus digits

theorem SignedText.unsigned_iff {s : StdString} {value : Int} (notMinus : ∀ rest, s ≠ '-' :: rest)
    (notPlus : ∀ rest, s ≠ '+' :: rest) : SignedText s value ↔ ∃ n, DigitsText s n ∧ value = (n : Int) := by
  constructor
  · intro text
    cases text with
    | unsigned digits => exact ⟨_, digits, rfl⟩
    | plus _ => exact absurd rfl (notPlus _)
    | minus _ => exact absurd rfl (notMinus _)
  · rintro ⟨n, digits, rfl⟩
    exact .unsigned digits

theorem stoiSigned_eq_ok {s : StdString} {value : Int} : stoiSigned s = .ok value ↔
    SignedText s value ∧ -2147483648 ≤ value ∧ value ≤ 2147483647 := by
  unfold stoiSigned
  split
  · rw [stoiDigits_eq_ok, SignedText.minus_iff]
    rfl
  · rw [stoiDigits_eq_ok, SignedText.plus_iff]
    rfl
  · next notMinus notPlus =>
    rw [stoiDigits_eq_ok, SignedText.unsigned_iff notMinus notPlus]
    rfl

/-- `std::stoi` reads the numbers of these texts that are in the range of an `int`. -/
theorem stoi_eq_ok {s : StdString} {value : Int} :
    stoi s = .ok value ↔ NumberText s value ∧ -2147483648 ≤ value ∧ value ≤ 2147483647 := by
  rw [stoi_eq, stoiSigned_eq_ok]
  refine and_congr_left fun _ => ?_
  constructor
  · intro signed
    have text := NumberText.blanks (isSpan_split isSpace s).inside signed
    rwa [List.takeWhile_append_dropWhile] at text
  · rintro ⟨blank, signed⟩
    obtain ⟨c, rest, rfl, notSpace⟩ := signed.head
    have span : IsSpan isSpace _ (c :: rest) := ⟨blank, fun other head => by cases head; exact notSpace⟩
    rwa [span.dropWhile_eq]

example : stoi " +8/9".toList = .ok 8 ∧ stoi "-0".toList = .ok 0 ∧ stoi "x8".toList = .error "stoi".toList := by
  decide

/-! ## Prefixes -/

/-- `inet_pton` reads the address, in the family that a colon chooses. -/
def Inet.Reads (inet : Inet) (ipStr : StdString) (ip : IpAddress) : Prop :=
  if ':' ∈ ipStr then ∃ a, inet.pton6 (cStr ipStr) = some a ∧ ip = .v6 a
  else ∃ a, inet.pton4 (cStr ipStr) = some a ∧ ip = .v4 a

/-- The text in front of the first slash, with the address it stands for. -/
inductive AddressText (inet : Inet) : StdString → IpAddress → Prop
  | empty : AddressText inet [] (.v4 0)
  | address {ipStr : StdString} {ip : IpAddress} (nonempty : ipStr ≠ []) (noSlash : '/' ∉ ipStr)
      (read : inet.Reads ipStr ip) : AddressText inet ipStr ip

/-- The texts that the constructor takes. -/
inductive PrefixText (inet : Inet) : StdString → IpAddress → Nat → Prop
  | address {s : StdString} {ip : IpAddress} (address : AddressText inet s ip) : PrefixText inet s ip ip.width
  | length {ipStr maskStr : StdString} {ip : IpAddress} {mask : Nat} (address : AddressText inet ipStr ip)
      (number : NumberText maskStr mask) (fits : mask ≤ ip.width) : PrefixText inet (ipStr ++ '/' :: maskStr) ip mask

/-- The texts with no zero in the address and a length in digits only. -/
inductive PlainText (inet : Inet) : StdString → IpAddress → Nat → Prop
  | address {s : StdString} {ip : IpAddress} (noNul : nul ∉ s) (address : AddressText inet s ip) :
      PlainText inet s ip ip.width
  | length {ipStr digits : StdString} {ip : IpAddress} (noNul : nul ∉ ipStr) (address : AddressText inet ipStr ip)
      (nonempty : digits ≠ []) (plain : ∀ c ∈ digits, c.isDigit = true)
      (fits : Nat.ofDigitChars 10 digits 0 ≤ ip.width) :
      PlainText inet (ipStr ++ '/' :: digits) ip (Nat.ofDigitChars 10 digits 0)

/-- A plain text that does not leave its address out. -/
def StrictText (inet : Inet) (s : StdString) : Prop :=
  s ≠ [] ∧ s.head? ≠ some '/' ∧ ∃ ip mask, PlainText inet s ip mask

/-- The constructor takes the texts of prefixes, and says of every other text that it is invalid.  Plain
    texts are among those it takes. -/
structure ParsesPrefixes (inet : Inet) : Prop where
  exact : ∀ s p, IpPrefix.ofString inet s = .ok p ↔ PrefixText inet s p.mIp p.mMask
  rejects : ∀ s, (∀ ip mask, ¬ PrefixText inet s ip mask) →
    ∃ what, IpPrefix.ofString inet s = .error (.invalidArgument what)
  plain : ∀ s ip mask, PlainText inet s ip mask →
    ∃ p, IpPrefix.ofString inet s = .ok p ∧ p.mIp = ip ∧ p.mMask = mask

variable {inet : Inet}

theorem AddressText.noSlash {ipStr : StdString} {ip : IpAddress} (text : AddressText inet ipStr ip) : '/' ∉ ipStr := by
  cases text with
  | empty => exact List.not_mem_nil
  | address _ noSlash _ => exact noSlash

theorem IpAddress.ofString_eq_ok {ipStr : StdString} {ip : IpAddress} :
    IpAddress.ofString inet ipStr = .ok ip ↔ inet.Reads ipStr ip := by
  unfold IpAddress.ofString Inet.Reads
  split
  · cases inet.pton6 (cStr ipStr) <;> simp [eq_comm]
  · cases inet.pton4 (cStr ipStr) <;> simp [eq_comm]

namespace IpPrefix

def addressOf (inet : Inet) (ipStr : StdString) : Throws IpAddress :=
  if ipStr = [] then pure (IpAddress.ofUint32 0) else IpAddress.ofString inet ipStr

theorem addressOf_eq_ok {ipStr : StdString} {ip : IpAddress} (noSlash : '/' ∉ ipStr) :
    addressOf inet ipStr = .ok ip ↔ AddressText inet ipStr ip := by
  unfold addressOf
  split
  · next empty =>
    subst empty
    constructor
    · intro same
      obtain rfl := Except.ok.inj same
      exact .empty
    · intro text
      cases text with
      | empty => rfl
      | address nonempty _ _ => exact absurd rfl nonempty
  · next nonempty =>
    rw [IpAddress.ofString_eq_ok]
    refine ⟨.address nonempty noSlash, fun text => ?_⟩
    cases text with
    | empty => exact absurd rfl nonempty
    | address _ _ read => exact read

theorem ofString_noSlash {s : StdString} (noSlash : '/' ∉ s) : ofString inet s =
    (addressOf inet s).bind fun ip => .ok ⟨ip, ip.width, isValid_iff.mpr (Nat.le_refl _)⟩ := by
  have span := isSpan_whole noSlash
  have taken := span.takeWhile_eq
  have dropped := span.dropWhile_eq
  rw [List.append_nil] at taken dropped
  unfold ofString addressOf
  rw [taken, dropped]
  by_cases empty : s = []
  · simp only [if_pos empty]
    rfl
  · simp only [if_neg empty]
    rfl

theorem ofString_slash {ipStr : StdString} (noSlash : '/' ∉ ipStr) (maskStr : StdString) :
    ofString inet (ipStr ++ '/' :: maskStr) = (addressOf inet ipStr).bind fun ip =>
      match stoi maskStr with
      | .error what => .error (.invalidArgument ("Failed to convert mask: ".toList ++ what))
      | .ok mask => make ip mask "Invalid IpPrefix from string".toList := by
  have span := isSpan_separator noSlash maskStr
  unfold ofString addressOf
  rw [span.takeWhile_eq, span.dropWhile_eq]
  by_cases empty : ipStr = []
  · simp only [if_pos empty]
    rfl
  · simp only [if_neg empty]
    rfl

theorem make_eq_ok {ip : IpAddress} {mask : Int} {error : StdString} {p : IpPrefix} :
    make ip mask error = .ok p ↔ p.mIp = ip ∧ (p.mMask : Int) = mask := by
  unfold make
  split
  · next valid =>
    rw [Except.ok.injEq]
    constructor
    · rintro rfl
      exact ⟨rfl, toNat_of_isValid valid⟩
    · rintro ⟨rfl, rfl⟩
      exact ext rfl rfl
  · next invalid =>
    refine iff_of_false (fun impossible => by cases impossible) ?_
    rintro ⟨rfl, rfl⟩
    exact invalid p.valid

theorem prefixText_noSlash {s : StdString} {ip : IpAddress} {mask : Nat} (noSlash : '/' ∉ s) :
    PrefixText inet s ip mask ↔ AddressText inet s ip ∧ mask = ip.width := by
  constructor
  · intro text
    cases text with
    | address address => exact ⟨address, rfl⟩
    | length _ _ _ => exact absurd (List.mem_append_right _ List.mem_cons_self) noSlash
  · rintro ⟨address, rfl⟩
    exact .address address

theorem prefixText_slash {ipStr maskStr : StdString} {ip : IpAddress} {mask : Nat} (noSlash : '/' ∉ ipStr) :
    PrefixText inet (ipStr ++ '/' :: maskStr) ip mask ↔
      AddressText inet ipStr ip ∧ NumberText maskStr mask ∧ mask ≤ ip.width := by
  constructor
  · generalize whole : ipStr ++ '/' :: maskStr = s
    intro text
    cases text with
    | address address =>
      subst whole
      exact absurd (List.mem_append_right _ List.mem_cons_self) address.noSlash
    | length address number fits =>
      obtain ⟨rfl, rfl⟩ := separator_split_inj noSlash address.noSlash whole
      exact ⟨address, number, fits⟩
  · rintro ⟨address, number, fits⟩
    exact .length address number fits

theorem width_le (ip : IpAddress) : ip.width ≤ 128 := by cases ip <;> simp [IpAddress.width]

theorem ofString_noSlash_eq_ok {s : StdString} {p : IpPrefix} (noSlash : '/' ∉ s) :
    ofString inet s = .ok p ↔ PrefixText inet s p.mIp p.mMask := by
  rw [ofString_noSlash noSlash, prefixText_noSlash noSlash, ← addressOf_eq_ok noSlash]
  cases addressOf inet s with
  | error _ => exact iff_of_false (fun impossible => by cases impossible) (fun impossible => by cases impossible.1)
  | ok ip =>
    rw [Except.bind, Except.ok.injEq, Except.ok.injEq]
    constructor
    · rintro rfl
      exact ⟨rfl, rfl⟩
    · rintro ⟨rfl, mask⟩
      exact ext rfl mask.symm

theorem ofString_slash_eq_ok {ipStr maskStr : StdString} {p : IpPrefix} (noSlash : '/' ∉ ipStr) :
    ofString inet (ipStr ++ '/' :: maskStr) = .ok p ↔ PrefixText inet (ipStr ++ '/' :: maskStr) p.mIp p.mMask := by
  have small := width_le p.mIp
  have fits := p.mMask_le_width
  have number : NumberText maskStr p.mMask ↔ stoi maskStr = .ok (p.mMask : Int) := by
    rw [stoi_eq_ok, and_iff_left (by omega)]
  rw [ofString_slash noSlash, prefixText_slash noSlash, ← addressOf_eq_ok noSlash, number, and_iff_left fits]
  cases addressOf inet ipStr with
  | error _ => exact iff_of_false (fun impossible => by cases impossible) (fun impossible => by cases impossible.1)
  | ok ip =>
    rw [Except.bind, Except.ok.injEq]
    cases stoi maskStr with
    | error _ => exact iff_of_false (fun impossible => by cases impossible) (fun impossible => by cases impossible.2)
    | ok mask =>
      rw [make_eq_ok, Except.ok.injEq, eq_comm (a := ip), eq_comm (a := mask)]

theorem ofString_eq_ok {s : StdString} {p : IpPrefix} :
    ofString inet s = .ok p ↔ PrefixText inet s p.mIp p.mMask := by
  by_cases slash : '/' ∈ s
  · obtain ⟨ipStr, maskStr, rfl, noSlash⟩ := List.eq_append_cons_of_mem slash
    exact ofString_slash_eq_ok noSlash
  · exact ofString_noSlash_eq_ok slash

end IpPrefix

theorem PrefixText.mask_le_width {s : StdString} {ip : IpAddress} {mask : Nat} (text : PrefixText inet s ip mask) :
    mask ≤ ip.width := by
  cases text with
  | address _ => exact Nat.le_refl _
  | length _ _ fits => exact fits

theorem PlainText.prefixText {s : StdString} {ip : IpAddress} {mask : Nat} (text : PlainText inet s ip mask) :
    PrefixText inet s ip mask := by
  cases text with
  | address _ address => exact .address address
  | @length _ digits _ _ address nonempty plain fits =>
    have span : IsSpan Char.isDigit digits [] := ⟨plain, fun _ head => by cases head⟩
    have number : NumberText ([] ++ (digits ++ [])) _ :=
      .blanks (fun _ member => by cases member) (.unsigned (.digits span nonempty))
    rw [List.nil_append, List.append_nil] at number
    exact .length address number fits

theorem parsesPrefixes (inet : Inet) : ParsesPrefixes inet where
  exact _ _ := IpPrefix.ofString_eq_ok
  rejects s none := by
    cases parsed : IpPrefix.ofString inet s with
    | ok p => exact absurd (IpPrefix.ofString_eq_ok.mp parsed) (none _ _)
    | error error =>
      obtain ⟨what⟩ := error
      exact ⟨what, rfl⟩
  plain s ip mask text := by
    have valid : isValid ip mask = true := isValid_iff.mpr text.prefixText.mask_le_width
    exact ⟨⟨ip, mask, valid⟩, IpPrefix.ofString_eq_ok.mpr text.prefixText, rfl, rfl⟩

/-- A length without an address is taken, and so is a length that ends in other characters. -/
theorem loose_texts_taken :
    ((∃ p, IpPrefix.ofString .fullText "/8".toList = .ok p) ∧ ¬ StrictText .fullText "/8".toList) ∧
    (∃ p, IpPrefix.ofString .fullText "10.0.0.0/8x".toList = .ok p) ∧
      ¬ StrictText .fullText "10.0.0.0/8x".toList := by
  refine ⟨⟨⟨⟨.v4 0, 8, rfl⟩, ?_⟩, fun strict => strict.2.1 rfl⟩, ⟨⟨.v4 0x0000000A#32, 8, rfl⟩, ?_⟩, ?_⟩
  · have read : stoi "8".toList = .ok 8 := by decide
    exact IpPrefix.ofString_eq_ok.mpr (.length .empty (stoi_eq_ok.mp read).1 (by decide))
  · have read : stoi "8x".toList = .ok 8 := by decide
    have written : cStr "10.0.0.0".toList = Inet.fullText.ntop4 0x0000000A#32 := by
      show cStr "10.0.0.0".toList = dottedDecimal 0x0000000A#32
      decide
    have address : Inet.fullText.Reads "10.0.0.0".toList (.v4 0x0000000A#32) := by
      rw [Inet.Reads, if_neg (by decide), written]
      exact ⟨_, Inet.fullText_documented.inverse4 _, rfl⟩
    have text : AddressText .fullText "10.0.0.0".toList (.v4 0x0000000A#32) :=
      .address (by decide) (by decide) address
    exact IpPrefix.ofString_eq_ok.mpr (.length text (stoi_eq_ok.mp read).1 (by decide))
  · rintro ⟨_, _, ip, mask, plain⟩
    have split : "10.0.0.0/8x".toList = "10.0.0.0".toList ++ '/' :: "8x".toList := rfl
    generalize "10.0.0.0/8x".toList = s at split plain
    cases plain with
    | address _ address => exact address.noSlash (by rw [split]; decide)
    | length _ address _ digits _ =>
      obtain ⟨_, rfl⟩ := separator_split_inj address.noSlash (by decide) split
      exact absurd (digits 'x' (by decide)) (by decide)

end Tao.Common
