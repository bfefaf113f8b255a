import Mathlib.Data.List.TakeWhile
import Tao.Agent.Types
import Tao.Foundation.Netmask

/-! # IP addresses (`ipaddress.h`, `ipaddress.cpp`)

An `IpAddress` made by a constructor other than the default one has the family
`AF_INET` or `AF_INET6`, so the branches for other families are left out.  The texts
of addresses come from `inet_ntop` and `inet_pton`, which are parameters. -/

namespace Tao.Common

open Tao.Foundation

/-! ## Strings and exceptions -/

/-- `std::string`. -/
abbrev StdString := List Char

/-- The exceptions that are thrown, with what they say. -/
inductive StdException where
  | invalidArgument (what : StdString)
  deriving DecidableEq

abbrev Throws (α : Type) := Except StdException α

def nul : Char := Char.ofNat 0

/-- What a reader of `c_str` sees: the characters before the first zero. -/
def cStr (s : StdString) : StdString := s.takeWhile (· ≠ nul)

theorem cStr_eq {s : StdString} (noNul : nul ∉ s) : cStr s = s :=
  List.takeWhile_eq_self_iff.mpr fun _ written => decide_eq_true fun same => noNul (same ▸ written)

/-- `std::to_string` of a number that is not negative. -/
def stdToString (n : Nat) : StdString := Nat.toDigits 10 n

def isSpace (c : Char) : Bool := c = ' ' || (9 ≤ c.toNat && c.toNat ≤ 13)

/-- `std::stoi`.  Its two exceptions are logic errors and say the same. -/
def stoi (s : StdString) : Except StdString Int :=
  let (negative, rest) :=
    match s.dropWhile isSpace with
    | '-' :: rest => (true, rest)
    | '+' :: rest => (false, rest)
    | rest => (false, rest)
  let digits := rest.takeWhile Char.isDigit
  if digits = [] then .error "stoi".toList
  else
    let magnitude := Nat.ofDigitChars 10 digits 0
    let value : Int := if negative then -magnitude else magnitude
    if -2147483648 ≤ value ∧ value ≤ 2147483647 then .ok value else .error "stoi".toList

/-! ## Addresses -/

/-- `unsigned char ipv6_addr[16]`. -/
abbrev Ipv6Bytes := { bytes : List (BitVec 8) // bytes.length = 16 }

/-- `ip_addr_t` of a known family.  `ipv4_addr` is in network byte order, as it lies in memory. -/
inductive IpAddress where
  | v4 (ipv4Addr : BitVec 32)
  | v6 (ipv6Addr : Ipv6Bytes)
  deriving DecidableEq

/-- `inet_ntop` and `inet_pton` for either family. -/
structure Inet where
  ntop4 : BitVec 32 → StdString
  ntop6 : Ipv6Bytes → StdString
  pton4 : StdString → Option (BitVec 32)
  pton6 : StdString → Option Ipv6Bytes

/-- What is documented of the two functions: they are inverse on addresses, an IPv4 address is written
    in decimal digits and dots, an IPv6 address in hexadecimal digits, colons and dots with a colon. -/
structure Inet.Documented (inet : Inet) : Prop where
  inverse4 : ∀ a, inet.pton4 (inet.ntop4 a) = some a
  inverse6 : ∀ a, inet.pton6 (inet.ntop6 a) = some a
  written4 : ∀ a, inet.ntop4 a ≠ [] ∧ ∀ c ∈ inet.ntop4 a, c.isDigit = true ∨ c = '.'
  written6 : ∀ a, ':' ∈ inet.ntop6 a ∧
    ∀ c ∈ inet.ntop6 a, c.isDigit = true ∨ c ∈ ['a', 'b', 'c', 'd', 'e', 'f'] ∨ c = ':' ∨ c = '.'

/-- `htonl` on a little-endian host. -/
def htonl (x : BitVec 32) : BitVec 32 := Tao.Agent.rteBeToCpu32 x

/-- `memcmp` of buffers of one length: the difference of the first bytes that differ. -/
def memcmp : List (BitVec 8) → List (BitVec 8) → Int
  | x :: xs, y :: ys => if x = y then memcmp xs ys else x.toNat - y.toNat
  | _, _ => 0

theorem memcmp_cons_neg_iff {x y : BitVec 8} {xs ys : List (BitVec 8)} :
    memcmp (x :: xs) (y :: ys) < 0 ↔ x.toNat < y.toNat ∨ x.toNat = y.toNat ∧ memcmp xs ys < 0 := by
  rw [memcmp]
  split
  next same =>
    subst same
    omega
  next different =>
    have differentNat : x.toNat ≠ y.toNat := fun same => different (BitVec.eq_of_toNat_eq same)
    omega

theorem memcmp_eq_zero_iff {xs ys : List (BitVec 8)} (sameLength : xs.length = ys.length) :
    memcmp xs ys = 0 ↔ xs = ys := by
  induction xs generalizing ys with
  | nil =>
    obtain rfl := List.length_eq_zero_iff.mp sameLength.symm
    exact iff_of_true rfl rfl
  | cons x xs inductionHypothesis =>
    cases ys with
    | nil => cases sameLength
    | cons y ys =>
      rw [memcmp, List.cons.injEq]
      split
      next same => rw [inductionHypothesis (Nat.succ.inj sameLength), and_iff_right same]
      next different =>
        have differentNat : x.toNat ≠ y.toNat := fun same => different (BitVec.eq_of_toNat_eq same)
        exact iff_of_false (by omega) fun same => different same.1

namespace IpAddress

def isV4 : IpAddress → Bool
  | v4 _ => true
  | v6 _ => false

def family : IpAddress → Nat
  | v4 _ => 2
  | v6 _ => 10

/-- The constructor from a word. -/
def ofUint32 (ip : BitVec 32) : IpAddress := v4 ip

/-- The constructor from a string.  A colon makes it an IPv6 address. -/
def ofString (inet : Inet) (ipStr : StdString) : Throws IpAddress :=
  let parsed := if ':' ∈ ipStr then (inet.pton6 (cStr ipStr)).map v6 else (inet.pton4 (cStr ipStr)).map v4
  match parsed with
  | some ip => .ok ip
  | none => .error (.invalidArgument ("Error converting ".toList ++ ipStr ++ " to IP address".toList))

def toString (inet : Inet) : IpAddress → StdString
  | v4 a => inet.ntop4 a
  | v6 a => inet.ntop6 a

/-- `operator<`. -/
def lt (a o : IpAddress) : Bool :=
  if a.family ≠ o.family then a.family < o.family
  else
    match a, o with
    | v4 x, v4 y => (htonl x).toNat < (htonl y).toNat
    | v6 x, v6 y => memcmp x.1 y.1 < 0
    | _, _ => false

/-- `operator==`. -/
def beq (a o : IpAddress) : Bool :=
  a.family = o.family &&
    match a, o with
    | v4 x, v4 y => x = y
    | v6 x, v6 y => memcmp x.1 y.1 = 0
    | _, _ => false

theorem beq_iff {a b : IpAddress} : a.beq b = true ↔ a = b := by
  cases a with
  | v4 x =>
    cases b with
    | v4 y => simp [beq, family]
    | v6 y => simp [beq, family]
  | v6 x =>
    cases b with
    | v4 y => simp [beq, family]
    | v6 y => simp [beq, family, memcmp_eq_zero_iff (x.2.trans y.2.symm), Subtype.ext_iff]

def width : IpAddress → Nat
  | v4 _ => 32
  | v6 _ => 128

/-- The bytes of an address in the order of transmission. -/
def bytes : IpAddress → List (BitVec 8)
  | v4 a => [a.extractLsb' 0 8, a.extractLsb' 8 8, a.extractLsb' 16 8, a.extractLsb' 24 8]
  | v6 a => a.1

/-- The bits of an address, the first one transmitted first. -/
def bits (ip : IpAddress) : Bits := byteBits ip.bytes

theorem length_bits (ip : IpAddress) : ip.bits.length = ip.width := by
  rw [bits, length_byteBits]
  cases ip with
  | v4 a => rfl
  | v6 a => rw [bytes, a.2]; rfl

theorem isV4_eq_iff {a b : IpAddress} : a.isV4 = b.isV4 ↔ a.width = b.width := by
  cases a <;> cases b <;> simp [isV4, width]

theorem append_extract_bytes (x : BitVec 32) :
    x.extractLsb' 24 8 ++ x.extractLsb' 16 8 ++ x.extractLsb' 8 8 ++ x.extractLsb' 0 8 = x := by
  have upper : x.extractLsb' 24 8 ++ x.extractLsb' 16 8 = x.extractLsb' 16 16 :=
    BitVec.extractLsb'_append_extractLsb'_eq_extractLsb' rfl
  have most : x.extractLsb' 16 16 ++ x.extractLsb' 8 8 = x.extractLsb' 8 24 :=
    BitVec.extractLsb'_append_extractLsb'_eq_extractLsb' rfl
  have all : x.extractLsb' 8 24 ++ x.extractLsb' 0 8 = x.extractLsb' 0 32 :=
    BitVec.extractLsb'_append_extractLsb'_eq_extractLsb' rfl
  rw [upper, most, all, BitVec.extractLsb'_eq_self]

theorem bytes_append (a b c d : BitVec 8) : (v4 (a ++ b ++ c ++ d)).bytes = [d, c, b, a] := by
  have first : (a ++ b ++ c ++ d).extractLsb' 0 8 = d := BitVec.extractLsb'_append_eq_right
  have second : (a ++ b ++ c ++ d).extractLsb' 8 8 = c :=
    (BitVec.extractLsb'_append_eq_of_le (Nat.le_refl 8)).trans BitVec.extractLsb'_append_eq_right
  have third : (a ++ b ++ c ++ d).extractLsb' 16 8 = b :=
    (BitVec.extractLsb'_append_eq_of_le (by decide)).trans
      ((BitVec.extractLsb'_append_eq_of_le (Nat.le_refl 8)).trans BitVec.extractLsb'_append_eq_right)
  have fourth : (a ++ b ++ c ++ d).extractLsb' 24 8 = a :=
    (BitVec.extractLsb'_append_eq_of_le (by decide)).trans
      ((BitVec.extractLsb'_append_eq_of_le (by decide)).trans BitVec.extractLsb'_append_eq_left)
  exact congrArg₂ List.cons first (congrArg₂ List.cons second (congrArg₂ List.cons third
    (congrArg₂ List.cons fourth rfl)))

theorem bits_injective {a b : IpAddress} (same : a.bits = b.bits) : a = b := by
  have sameBytes : a.bytes = b.bytes := byteBits_injective same
  have lengths : a.width = b.width := by rw [← length_bits, ← length_bits, same]
  cases a with
  | v4 x =>
    cases b with
    | v4 y =>
      simp only [bytes, List.cons.injEq, and_true] at sameBytes
      obtain ⟨first, second, third, fourth⟩ := sameBytes
      rw [← append_extract_bytes x, ← append_extract_bytes y, first, second, third, fourth]
    | v6 y => cases lengths
  | v6 x =>
    cases b with
    | v4 y => cases lengths
    | v6 y => exact congrArg v6 (Subtype.ext sameBytes)

/-- `htonl` puts the byte that is transmitted first in front. -/
theorem bits_htonl (x : BitVec 32) : Foundation.bits (htonl x) = (v4 x).bits := by
  simp only [htonl, Agent.rteBeToCpu32, Foundation.bits_append, bits, bytes, byteBits_cons, byteBits_nil,
    List.append_nil, List.append_assoc]

theorem htonl_injective {x y : BitVec 32} (same : htonl x = htonl y) : x = y := by
  have bits : (v4 x).bits = (v4 y).bits := by rw [← bits_htonl, same, bits_htonl]
  exact v4.inj (bits_injective bits)

end IpAddress

end Tao.Common
