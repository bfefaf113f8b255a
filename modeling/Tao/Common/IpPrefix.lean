import Tao.Common.IpAddress
import Tao.Foundation.Spans

/-! # IP prefixes (`ipprefix.h`, `ipprefix.cpp`)

A prefix is an address with a mask length and may have host bits.  `getSubnet` clears
them, for IPv6 by way of a text that is parsed again.  `getSubnet_eq` says what it
returns; nothing else looks at the texts of subnets. -/

namespace Tao.Common

open Tao.Foundation

def isValid (ip : IpAddress) (mask : Int) : Bool :=
  if mask < 0 then false
  else
    match ip with
    | .v4 _ => !(32 < mask)
    | .v6 _ => !(128 < mask)

/-- A prefix that a constructor has returned. -/
structure IpPrefix where
  mIp : IpAddress
  mMask : Nat
  valid : isValid mIp mMask = true
  deriving DecidableEq

theorem isValid_iff {ip : IpAddress} {mask : Nat} : isValid ip mask = true ↔ mask ≤ ip.width := by
  unfold isValid
  rw [if_neg (by omega)]
  cases ip <;> simp only [IpAddress.width, Bool.not_eq_true', decide_eq_false_iff_not] <;> omega

theorem toNat_of_isValid {ip : IpAddress} {mask : Int} (valid : isValid ip mask = true) :
    ((mask.toNat : Nat) : Int) = mask := by
  refine Int.toNat_of_nonneg (Int.not_lt.mp fun negative => ?_)
  unfold isValid at valid
  rw [if_pos negative] at valid
  cases valid

namespace IpPrefix

/-! ## Constructors -/

def make (ip : IpAddress) (mask : Int) (error : StdString) : Throws IpPrefix :=
  if valid : isValid ip mask = true then .ok ⟨ip, mask.toNat, by rw [toNat_of_isValid valid]; exact valid⟩
  else .error (.invalidArgument error)

def ofUint32 (ipPrefix : BitVec 32) (mask : Int) : Throws IpPrefix :=
  make (.ofUint32 ipPrefix) mask "Invalid IpPrefix from prefix and mask".toList

/-- The constructor from a string.  Without a slash the prefix is one address. -/
def ofString (inet : Inet) (ipPrefixStr : StdString) : Throws IpPrefix := do
  let ipStr := ipPrefixStr.takeWhile (· ≠ '/')
  let mIp ← if ipStr = [] then pure (IpAddress.ofUint32 0) else IpAddress.ofString inet ipStr
  match ipPrefixStr.dropWhile (· ≠ '/') with
  | [] => pure ⟨mIp, mIp.width, isValid_iff.mpr (Nat.le_refl _)⟩
  | _ :: maskStr =>
    match stoi maskStr with
    | .error what => throw (.invalidArgument ("Failed to convert mask: ".toList ++ what))
    | .ok mask => make mIp mask "Invalid IpPrefix from string".toList

/-! ## Masks and subnets -/

def getMask4 (mMask : Nat) : BitVec 32 :=
  htonl (((0xFFFFFFFF#64 <<< (32 - mMask)) &&& 0xFFFFFFFF#64).setWidth 32)

def getMask6 (mMask : Nat) : List (BitVec 8) :=
  let mid := mMask >>> 3
  let bits := mMask &&& 7
  List.replicate mid 0xFF#8 ++
    if mid < 16 then (0xFF#32 <<< (8 - bits)).setWidth 8 :: List.replicate (16 - mid - 1) 0#8 else []

theorem length_getMask6 {mMask : Nat} (valid : mMask ≤ 128) : (getMask6 mMask).length = 16 := by
  have mid : mMask >>> 3 = mMask / 8 := Nat.shiftRight_eq_div_pow mMask 3
  simp only [getMask6, mid, List.length_append, List.length_replicate]
  split
  · rw [List.length_cons, List.length_replicate]
    omega
  · rw [List.length_nil]
    omega

def subnet6 (ipaddr : Ipv6Bytes) (mMask : Nat) (valid : mMask ≤ 128) : Ipv6Bytes :=
  ⟨List.zipWith (· &&& ·) ipaddr.1 (getMask6 mMask), by
    rw [List.length_zipWith, ipaddr.2, length_getMask6 valid, Nat.min_self]⟩

def getSubnet (inet : Inet) : IpPrefix → Throws IpPrefix
  | ⟨.v4 ipaddr, mMask, _⟩ => ofUint32 (ipaddr &&& getMask4 mMask) mMask
  | ⟨.v6 ipaddr, mMask, valid⟩ =>
    ofString inet (inet.ntop6 (subnet6 ipaddr mMask (isValid_iff.mp valid)) ++ "/".toList ++ stdToString mMask)

/-- `operator<`. -/
def lt (p o : IpPrefix) : Bool := if p.mMask ≠ o.mMask then p.mMask < o.mMask else p.mIp.lt o.mIp

/-- `operator==`. -/
def beq (p o : IpPrefix) : Bool := p.mIp.beq o.mIp && p.mMask = o.mMask

def isV4 (p : IpPrefix) : Bool := p.mIp.isV4

def getIp (p : IpPrefix) : IpAddress := p.mIp

def getMaskLength (p : IpPrefix) : Nat := p.mMask

def toString (inet : Inet) (p : IpPrefix) : StdString := p.mIp.toString inet ++ "/".toList ++ stdToString p.mMask

/-! ## Texts are parsed back -/

theorem stoi_stdToString {n : Nat} (small : n ≤ 128) : stoi (stdToString n) = .ok (n : Int) := by
  have all : ∀ n : Fin 129, stoi (stdToString n) = .ok ((n : Nat) : Int) := by decide +kernel
  exact all ⟨n, Nat.lt_succ_of_le small⟩

end IpPrefix

section Texts

variable {inet : Inet}

/-- Digits, the letters up to `f`, colons and dots are all that is written. -/
theorem not_written (documented : inet.Documented) {c : Char} (digit : c.isDigit = false)
    (other : c ∉ ['a', 'b', 'c', 'd', 'e', 'f', ':', '.']) (ip : IpAddress) : c ∉ ip.toString inet := by
  intro written
  cases ip with
  | v4 a =>
    rcases (documented.written4 a).2 c written with isDigit | rfl
    · rw [digit] at isDigit; cases isDigit
    · exact other (by simp)
  | v6 a =>
    rcases (documented.written6 a).2 c written with isDigit | letter | rfl | rfl
    · rw [digit] at isDigit; cases isDigit
    · exact other (List.mem_append_left [':', '.'] letter)
    · exact other (by simp)
    · exact other (by simp)

theorem slash_not_written (documented : inet.Documented) (ip : IpAddress) : '/' ∉ ip.toString inet :=
  not_written documented rfl (by decide) ip

theorem colon_written_iff (documented : inet.Documented) (ip : IpAddress) :
    ':' ∈ ip.toString inet ↔ ip.isV4 = false := by
  cases ip with
  | v4 a =>
    refine iff_of_false (fun written => ?_) (by simp [IpAddress.isV4])
    rcases (documented.written4 a).2 ':' written with digit | dot
    · cases digit
    · cases dot
  | v6 a => exact iff_of_true (documented.written6 a).1 rfl

theorem cStr_toString (documented : inet.Documented) (ip : IpAddress) : cStr (ip.toString inet) = ip.toString inet :=
  cStr_eq (not_written documented rfl (by decide) ip)

theorem IpAddress.ofString_toString (documented : inet.Documented) (ip : IpAddress) :
    IpAddress.ofString inet (ip.toString inet) = .ok ip := by
  have colon := colon_written_iff documented ip
  unfold IpAddress.ofString
  rw [cStr_toString documented]
  cases ip with
  | v4 a =>
    rw [if_neg (by simp [colon, isV4])]
    simp only [IpAddress.toString, documented.inverse4, Option.map_some]
  | v6 a =>
    rw [if_pos (by simp [colon, isV4])]
    simp only [IpAddress.toString, documented.inverse6, Option.map_some]

theorem toString_ne_nil (documented : inet.Documented) (ip : IpAddress) : ip.toString inet ≠ [] := by
  cases ip with
  | v4 a => exact (documented.written4 a).1
  | v6 a => exact List.ne_nil_of_mem (documented.written6 a).1

/-- The text of an address with a length is parsed back. -/
theorem IpPrefix.ofString_text (documented : inet.Documented) {ip : IpAddress} {mask : Nat}
    (valid : isValid ip mask = true) :
    IpPrefix.ofString inet (ip.toString inet ++ '/' :: stdToString mask) = .ok ⟨ip, mask, valid⟩ := by
  have span := isSpan_separator (slash_not_written documented ip) (stdToString mask)
  have small : mask ≤ 128 := by
    have bound := isValid_iff.mp valid
    cases ip <;> simp only [IpAddress.width] at bound <;> omega
  have made : make ip mask "Invalid IpPrefix from string".toList = .ok ⟨ip, mask, valid⟩ := dif_pos valid
  unfold ofString
  rw [span.takeWhile_eq, span.dropWhile_eq, if_neg (toString_ne_nil documented ip), IpAddress.ofString_toString documented]
  simp only [bind, Except.bind, stoi_stdToString small, made]

end Texts

namespace IpPrefix

/-! ## Subnets -/

theorem bits_getMask4 {mMask : Nat} (valid : mMask ≤ 32) :
    (IpAddress.v4 (getMask4 mMask)).bits = netmask mMask (32 - mMask) := by
  have all : ∀ n : Fin 33, (IpAddress.v4 (getMask4 n)).bits = netmask n (32 - n) := by decide +kernel
  exact all ⟨mMask, Nat.lt_succ_of_le valid⟩

theorem bits_partialByte {ones : Nat} (less : ones < 8) :
    bits ((0xFF#32 <<< (8 - ones)).setWidth 8) = netmask ones (8 - ones) := by
  have all : ∀ n : Fin 8, bits ((0xFF#32 <<< (8 - n.1)).setWidth 8) = netmask n (8 - n) := by decide +kernel
  exact all ⟨ones, less⟩

theorem bits_getMask6 {mMask : Nat} (valid : mMask ≤ 128) :
    byteBits (getMask6 mMask) = netmask mMask (128 - mMask) := by
  have mid : mMask >>> 3 = mMask / 8 := Nat.shiftRight_eq_div_pow mMask 3
  have rest : mMask &&& 7 = mMask % 8 := Nat.and_two_pow_sub_one_eq_mod mMask 3
  simp only [getMask6, mid, rest, byteBits_append, byteBits_replicate_ones]
  split
  · next inside =>
    rw [byteBits_cons, byteBits_replicate_zeros, bits_partialByte (Nat.mod_lt _ (by decide)), netmask, netmask,
      List.append_assoc, List.replicate_append_replicate, ← List.append_assoc, List.replicate_append_replicate]
    congr 2 <;> omega
  · next full =>
    have whole : mMask = 128 := by omega
    subst whole
    rfl

def subnet : IpPrefix → IpPrefix
  | ⟨.v4 ipaddr, mMask, valid⟩ => ⟨.v4 (ipaddr &&& getMask4 mMask), mMask, valid⟩
  | ⟨.v6 ipaddr, mMask, valid⟩ => ⟨.v6 (subnet6 ipaddr mMask (isValid_iff.mp valid)), mMask, valid⟩

theorem getSubnet_eq {inet : Inet} (documented : inet.Documented) (p : IpPrefix) :
    p.getSubnet inet = .ok p.subnet := by
  obtain ⟨ip, mMask, valid⟩ := p
  cases ip with
  | v4 ipaddr => exact dif_pos valid
  | v6 ipaddr =>
    have masked : isValid (.v6 (subnet6 ipaddr mMask (isValid_iff.mp valid))) mMask = true := valid
    rw [getSubnet, List.append_assoc]
    exact ofString_text documented masked

theorem mMask_le_width (p : IpPrefix) : p.mMask ≤ p.mIp.width := isValid_iff.mp p.valid

@[simp] theorem subnet_mMask (p : IpPrefix) : p.subnet.mMask = p.mMask := by
  obtain ⟨ip, mMask, valid⟩ := p
  cases ip <;> rfl

@[simp] theorem subnet_isV4 (p : IpPrefix) : p.subnet.mIp.isV4 = p.mIp.isV4 := by
  obtain ⟨ip, mMask, valid⟩ := p
  cases ip <;> rfl

theorem bytes_and (a b : BitVec 32) : (IpAddress.v4 (a &&& b)).bytes =
    List.zipWith (· &&& ·) (IpAddress.v4 a).bytes (IpAddress.v4 b).bytes := by
  simp only [IpAddress.bytes, BitVec.extractLsb'_and, List.zipWith_cons_cons, List.zipWith_nil_left]

theorem bits_and_getMask4 (ipaddr : BitVec 32) {mMask : Nat} (valid : mMask ≤ 32) :
    (IpAddress.v4 (ipaddr &&& getMask4 mMask)).bits =
      (IpAddress.v4 ipaddr).bits.take mMask ++ List.replicate (32 - mMask) false := by
  have length : (IpAddress.v4 ipaddr).bits.length = 32 := IpAddress.length_bits _
  calc (IpAddress.v4 (ipaddr &&& getMask4 mMask)).bits
      = List.zipWith and (IpAddress.v4 ipaddr).bits (IpAddress.v4 (getMask4 mMask)).bits := by
        unfold IpAddress.bits
        rw [bytes_and]
        exact byteBits_zipWith bits_and rfl
    _ = List.zipWith and (IpAddress.v4 ipaddr).bits (netmask mMask (32 - mMask)) := by rw [bits_getMask4 valid]
    _ = (IpAddress.v4 ipaddr).bits.take mMask ++ List.replicate (32 - mMask) false :=
        zipWith_netmask Bool.and_true Bool.and_false (by omega)

theorem bits_subnet6 (ipaddr : Ipv6Bytes) {mMask : Nat} (valid : mMask ≤ 128) :
    (IpAddress.v6 (subnet6 ipaddr mMask valid)).bits =
      (IpAddress.v6 ipaddr).bits.take mMask ++ List.replicate (128 - mMask) false := by
  have length : (IpAddress.v6 ipaddr).bits.length = 128 := IpAddress.length_bits _
  calc (IpAddress.v6 (subnet6 ipaddr mMask valid)).bits
      = List.zipWith and (IpAddress.v6 ipaddr).bits (byteBits (getMask6 mMask)) :=
        byteBits_zipWith bits_and (by rw [ipaddr.2, length_getMask6 valid])
    _ = List.zipWith and (IpAddress.v6 ipaddr).bits (netmask mMask (128 - mMask)) := by rw [bits_getMask6 valid]
    _ = (IpAddress.v6 ipaddr).bits.take mMask ++ List.replicate (128 - mMask) false :=
        zipWith_netmask Bool.and_true Bool.and_false (by omega)

theorem bits_subnet (p : IpPrefix) :
    p.subnet.mIp.bits = p.mIp.bits.take p.mMask ++ List.replicate (p.mIp.width - p.mMask) false := by
  have bound := p.mMask_le_width
  obtain ⟨ip, mMask, valid⟩ := p
  cases ip with
  | v4 ipaddr => exact bits_and_getMask4 ipaddr bound
  | v6 ipaddr => exact bits_subnet6 ipaddr bound

end IpPrefix

/-! ## Networks -/

/-- A canonical prefix: a family and the network bits, as many as the prefix is long. -/
structure Network where
  isV4 : Bool
  bits : Bits
  deriving DecidableEq

def IpPrefix.network (p : IpPrefix) : Network := ⟨p.mIp.isV4, p.mIp.bits.take p.mMask⟩

namespace IpPrefix

theorem length_network (p : IpPrefix) : p.network.bits.length = p.mMask := by
  rw [network, List.length_take, p.mIp.length_bits, Nat.min_eq_left p.mMask_le_width]

theorem ext {p q : IpPrefix} (ip : p.mIp = q.mIp) (mask : p.mMask = q.mMask) : p = q := by
  cases p
  cases q
  cases ip
  cases mask
  rfl

theorem beq_iff {p q : IpPrefix} : p.beq q = true ↔ p = q := by
  rw [beq, Bool.and_eq_true, IpAddress.beq_iff, decide_eq_true_eq]
  constructor
  · rintro ⟨ip, mask⟩
    exact ext ip mask
  · rintro rfl
    exact ⟨rfl, rfl⟩

/-- Two prefixes have the same subnet exactly when they have the same network. -/
theorem subnet_eq_iff {p q : IpPrefix} : p.subnet = q.subnet ↔ p.network = q.network := by
  constructor
  · intro same
    have mask : p.mMask = q.mMask := by rw [← subnet_mMask p, same, subnet_mMask]
    have family : p.mIp.isV4 = q.mIp.isV4 := by rw [← subnet_isV4 p, same, subnet_isV4]
    have bits : p.subnet.mIp.bits = q.subnet.mIp.bits := by rw [same]
    rw [bits_subnet, bits_subnet] at bits
    have taken (p : IpPrefix) : (p.mIp.bits.take p.mMask).length = p.mMask := p.length_network
    rw [network, network, family, (List.append_inj bits (by rw [taken, taken, mask])).1]
  · intro same
    have mask : p.mMask = q.mMask := by rw [← length_network, same, length_network]
    obtain ⟨family, bits⟩ := Network.mk.inj same
    refine ext (IpAddress.bits_injective ?_) (by rw [subnet_mMask, subnet_mMask, mask])
    rw [bits_subnet, bits_subnet, bits, mask, IpAddress.isV4_eq_iff.mp family]

end IpPrefix

end Tao.Common
