import Tao.Common.PrefixGrammar
import Tao.Common.Subnets

/-! # Scopes of addresses

`getAddrScope` and `isIpv6LinkLocal` compare words and bytes with masks of their own.
They tell the subnets `169.254.0.0/16` and `FE80::0/10`, and the addresses `127.0.0.1`
and `::1`, from all others. -/

namespace Tao.Common

open Tao.Foundation

inductive AddrScope where
  | globalScope
  | linkScope
  | hostScope
  deriving DecidableEq

namespace IpAddress

/-- `memcpy` of the first four bytes into a word of a little-endian host. -/
def firstWord : List (BitVec 8) → BitVec 32
  | b0 :: b1 :: b2 :: b3 :: _ => b3 ++ b2 ++ b1 ++ b0
  | _ => 0

def isIpv6LinkLocal : IpAddress → Bool
  | v4 _ => false
  | v6 a => firstWord a.1 &&& htonl 0xFFC00000#32 = htonl 0xFE800000#32

/-- `getV4Addr` reads the union, whatever the family. -/
def getV4Addr : IpAddress → BitVec 32
  | v4 a => a
  | v6 a => firstWord a.1

def getV6Addr : IpAddress → List (BitVec 8) := bytes

/-- `getAddrScope`.  The first call makes the addresses it compares with. -/
def getAddrScope (inet : Inet) (a : IpAddress) : Throws AddrScope := do
  let ipv4LinkScopeAddress ← ofString inet "169.254.0.0".toList
  let ipv6LinkScopeAddress ← ofString inet "FE80::0".toList
  let ipv4HostScopeAddress ← ofString inet "127.0.0.1".toList
  let ipv6HostScopeAddress ← ofString inet "::1".toList
  if a.isV4 then
    let ip1 := htonl a.getV4Addr
    let ip2 := htonl ipv4LinkScopeAddress.getV4Addr
    return if ip1 &&& 0xFFFF0000#32 = ip2 then .linkScope
      else if a.beq ipv4HostScopeAddress then .hostScope
      else .globalScope
  else
    let ip1 := a.getV6Addr
    let ip2 := ipv6LinkScopeAddress.getV6Addr
    return if ip1[0]? = ip2[0]? ∧ ip1[1]?.map (· &&& 0xC0#8) = ip2[1]? then .linkScope
      else if a.beq ipv6HostScopeAddress then .hostScope
      else .globalScope

end IpAddress

/-! ## The addresses of the scopes -/

def linkAddress4 : IpAddress := .v4 0x0000FEA9#32

def linkAddress6 : IpAddress := .v6 ⟨0xFE#8 :: 0x80#8 :: List.replicate 14 0#8, rfl⟩

def hostAddress4 : IpAddress := .v4 0x0100007F#32

def hostAddress6 : IpAddress := .v6 ⟨List.replicate 15 0#8 ++ [1#8], rfl⟩

structure Inet.ReadsScopes (inet : Inet) : Prop where
  link4 : inet.Reads "169.254.0.0".toList linkAddress4
  link6 : inet.Reads "FE80::0".toList linkAddress6
  host4 : inet.Reads "127.0.0.1".toList hostAddress4
  host6 : inet.Reads "::1".toList hostAddress6

/-! ## Masks of words and bytes -/

theorem htonl_and (x y : BitVec 32) : htonl (x &&& y) = htonl x &&& htonl y := by
  apply bits_injective
  rw [bits_and, IpAddress.bits_htonl, IpAddress.bits_htonl, IpAddress.bits_htonl, IpAddress.bits, IpPrefix.bytes_and]
  exact byteBits_zipWith bits_and rfl

namespace IpPrefix

theorem sameUnderMask_cons {x y m : BitVec 8} {pre ip mask : List (BitVec 8)} :
    sameUnderMask (x :: pre) (y :: ip) (m :: mask) = true ↔ x &&& m = y &&& m ∧ sameUnderMask pre ip mask = true := by
  rw [sameUnderMask]
  split
  · next different => exact iff_of_false Bool.false_ne_true fun same => different same.1
  · next same => rw [and_iff_right (not_not.mp same)]

theorem sameUnderMask_zeros (pre ip : List (BitVec 8)) (n : Nat) :
    sameUnderMask pre ip (List.replicate n 0#8) = true := by
  induction n generalizing pre ip with
  | zero => cases pre <;> cases ip <;> rfl
  | succ n inductionHypothesis =>
    cases pre with
    | nil => rfl
    | cons x pre =>
      cases ip with
      | nil => rfl
      | cons y ip => simp [List.replicate_succ, sameUnderMask, inductionHypothesis]

theorem mem_addresses_full {p : IpPrefix} (full : p.mMask = p.mIp.width) {a : IpAddress} :
    a ∈ p.addresses ↔ a = p.mIp := by
  have all : p.network.bits = p.mIp.bits := by
    rw [network, full]
    exact List.take_of_length_le (Nat.le_of_eq p.mIp.length_bits)
  rw [mem_addresses, all]
  constructor
  · rintro ⟨isV4, begins⟩
    refine IpAddress.bits_injective (begins.eq_of_length ?_).symm
    rw [a.length_bits, p.mIp.length_bits, IpAddress.isV4_eq_iff.mp isV4]
  · rintro rfl
    exact ⟨rfl, List.prefix_rfl⟩

end IpPrefix

def link4 : IpPrefix := ⟨linkAddress4, 16, rfl⟩

def link6 : IpPrefix := ⟨linkAddress6, 10, rfl⟩

def host4 : IpPrefix := ⟨hostAddress4, 32, rfl⟩

def host6 : IpPrefix := ⟨hostAddress6, 128, rfl⟩

theorem mem_link4_v4 {ip : BitVec 32} :
    .v4 ip ∈ link4.addresses ↔ htonl ip &&& 0xFFFF0000#32 = htonl 0x0000FEA9#32 := by
  have masked : htonl ip &&& 0xFFFF0000#32 = htonl (ip &&& 0x0000FFFF#32) := (htonl_and ip 0x0000FFFF#32).symm
  have mask : IpPrefix.getMask4 16 = 0x0000FFFF#32 := by decide
  rw [masked]
  constructor
  · intro inside
    have same : 0x0000FEA9#32 &&& IpPrefix.getMask4 16 = ip &&& IpPrefix.getMask4 16 := of_decide_eq_true inside
    rw [mask] at same
    rw [← same]
    rfl
  · intro same
    have equal := IpAddress.htonl_injective same
    refine decide_eq_true (?_ : 0x0000FEA9#32 &&& IpPrefix.getMask4 16 = ip &&& IpPrefix.getMask4 16)
    rw [mask, equal]
    rfl

theorem mem_link6_v6 {b0 b1 : BitVec 8} {rest : List (BitVec 8)} (length : (b0 :: b1 :: rest).length = 16) :
    .v6 ⟨b0 :: b1 :: rest, length⟩ ∈ link6.addresses ↔ b0 = 0xFE#8 ∧ b1 &&& 0xC0#8 = 0x80#8 := by
  have mask : IpPrefix.getMask6 10 = 0xFF#8 :: 0xC0#8 :: List.replicate 14 0#8 := by decide
  have compared : link6.isAddressInSubnet (.v6 ⟨b0 :: b1 :: rest, length⟩) =
      IpPrefix.sameUnderMask (0xFE#8 :: 0x80#8 :: List.replicate 14 0#8) (b0 :: b1 :: rest) (IpPrefix.getMask6 10) := rfl
  have first : b0 &&& 0xFF#8 = b0 := BitVec.and_allOnes
  rw [IpPrefix.addresses, Set.mem_ofPred_eq, compared, mask, IpPrefix.sameUnderMask_cons, IpPrefix.sameUnderMask_cons,
    IpPrefix.sameUnderMask_zeros, first]
  constructor
  · rintro ⟨same, masked, _⟩
    exact ⟨same.symm, masked.symm⟩
  · rintro ⟨rfl, masked⟩
    exact ⟨rfl, masked.symm, rfl⟩

theorem isIpv6LinkLocal_v6 {b0 b1 : BitVec 8} {rest : List (BitVec 8)} (length : (b0 :: b1 :: rest).length = 16) :
    (IpAddress.v6 ⟨b0 :: b1 :: rest, length⟩).isIpv6LinkLocal = true ↔ b0 = 0xFE#8 ∧ b1 &&& 0xC0#8 = 0x80#8 := by
  match rest, length with
  | b2 :: b3 :: rest, length =>
    have mask : htonl 0xFFC00000#32 = 0#8 ++ 0#8 ++ 0xC0#8 ++ 0xFF#8 := by decide
    have link : htonl 0xFE800000#32 = 0#8 ++ 0#8 ++ 0x80#8 ++ 0xFE#8 := by decide
    have first : b0 &&& 0xFF#8 = b0 := BitVec.and_allOnes
    have word : (b3 ++ b2 ++ b1 ++ b0) &&& (0#8 ++ 0#8 ++ 0xC0#8 ++ 0xFF#8) = 0#8 ++ 0#8 ++ (b1 &&& 0xC0#8) ++ b0 := by
      rw [BitVec.and_append, BitVec.and_append, BitVec.and_append, first, BitVec.and_zero, BitVec.and_zero]
    rw [IpAddress.isIpv6LinkLocal, decide_eq_true_eq, IpAddress.firstWord, mask, link, word]
    constructor
    · intro same
      obtain ⟨upper, lowest⟩ := append_inj same
      exact ⟨lowest, (append_inj upper).2⟩
    · rintro ⟨rfl, masked⟩
      rw [masked]

/-! ## Scopes are subnets -/

theorem isIpv6LinkLocal_iff (a : IpAddress) : a.isIpv6LinkLocal = true ↔ a ∈ link6.addresses := by
  cases a with
  | v4 ip =>
    refine iff_of_false Bool.false_ne_true fun inside => ?_
    cases (IpPrefix.mem_addresses.mp inside).1
  | v6 ip =>
    obtain ⟨bytes, length⟩ := ip
    match bytes, length with
    | b0 :: b1 :: rest, length => rw [isIpv6LinkLocal_v6, mem_link6_v6]

/-- The scope of an address by the subnets it is in. -/
def scopeBySubnet (a : IpAddress) : AddrScope :=
  if link4.isAddressInSubnet a || link6.isAddressInSubnet a then .linkScope
  else if host4.isAddressInSubnet a || host6.isAddressInSubnet a then .hostScope
  else .globalScope

theorem getAddrScope_eq {inet : Inet} (reads : inet.ReadsScopes) (a : IpAddress) :
    a.getAddrScope inet = .ok (scopeBySubnet a) := by
  have link4Read := IpAddress.ofString_eq_ok.mpr reads.link4
  have link6Read := IpAddress.ofString_eq_ok.mpr reads.link6
  have host4Read := IpAddress.ofString_eq_ok.mpr reads.host4
  have host6Read := IpAddress.ofString_eq_ok.mpr reads.host6
  unfold IpAddress.getAddrScope
  rw [link4Read, link6Read, host4Read, host6Read]
  cases a with
  | v4 ip =>
    have link : htonl ip &&& 0xFFFF0000#32 = htonl 0x0000FEA9#32 ↔ link4.isAddressInSubnet (.v4 ip) = true :=
      mem_link4_v4.symm
    have host : host4.isAddressInSubnet (.v4 ip) = (IpAddress.v4 ip).beq hostAddress4 := by
      rw [Bool.eq_iff_iff, IpAddress.beq_iff]
      exact IpPrefix.mem_addresses_full (p := host4) rfl
    have noLink6 : link6.isAddressInSubnet (.v4 ip) = false := rfl
    have noHost6 : host6.isAddressInSubnet (.v4 ip) = false := rfl
    rw [scopeBySubnet, host, noLink6, noHost6, Bool.or_false, Bool.or_false]
    simp only [← link]
    rfl
  | v6 ip =>
    obtain ⟨bytes, length⟩ := ip
    match bytes, length with
    | b0 :: b1 :: rest, length =>
      have link : (some b0 = some 0xFE#8 ∧ some (b1 &&& 0xC0#8) = some 0x80#8) ↔
          link6.isAddressInSubnet (.v6 ⟨b0 :: b1 :: rest, length⟩) = true := by
        rw [Option.some.injEq, Option.some.injEq]
        exact (mem_link6_v6 length).symm
      have host : host6.isAddressInSubnet (.v6 ⟨b0 :: b1 :: rest, length⟩) =
          (IpAddress.v6 ⟨b0 :: b1 :: rest, length⟩).beq hostAddress6 := by
        rw [Bool.eq_iff_iff, IpAddress.beq_iff]
        exact IpPrefix.mem_addresses_full (p := host6) rfl
      have noLink4 : link4.isAddressInSubnet (.v6 ⟨b0 :: b1 :: rest, length⟩) = false := rfl
      have noHost4 : host4.isAddressInSubnet (.v6 ⟨b0 :: b1 :: rest, length⟩) = false := rfl
      rw [scopeBySubnet, host, noLink4, noHost4, Bool.false_or, Bool.false_or]
      simp only [← link]
      rfl

theorem scopeBySubnet_link (a : IpAddress) :
    scopeBySubnet a = .linkScope ↔ link4.isAddressInSubnet a = true ∨ link6.isAddressInSubnet a = true := by
  rw [scopeBySubnet, ← Bool.or_eq_true]
  split_ifs with link host
  · exact iff_of_true rfl link
  · exact iff_of_false (by decide) link
  · exact iff_of_false (by decide) link

theorem scopeBySubnet_host (a : IpAddress) :
    scopeBySubnet a = .hostScope ↔ host4.isAddressInSubnet a = true ∨ host6.isAddressInSubnet a = true := by
  rw [scopeBySubnet, ← Bool.or_eq_true]
  split_ifs with link host
  · refine iff_of_false (by decide) fun host => ?_
    -- no link has the address of a host
    rcases (Bool.or_eq_true _ _).mp host with inside | inside
    · obtain rfl := (IpPrefix.mem_addresses_full (p := host4) rfl).mp inside
      exact absurd link (by decide)
    · obtain rfl := (IpPrefix.mem_addresses_full (p := host6) rfl).mp inside
      exact absurd link (by decide)
  · exact iff_of_true rfl host
  · exact iff_of_false (by decide) host

/-- Every address has the scope that four prefixes give it, and `isIpv6LinkLocal` agrees on links. -/
theorem scopes_are_subnets {inet : Inet} (reads : inet.ReadsScopes) (a : IpAddress) : ∃ link4 link6 host4 host6 scope,
    IpPrefix.ofString inet "169.254.0.0/16".toList = .ok link4 ∧ IpPrefix.ofString inet "FE80::0/10".toList = .ok link6 ∧
    IpPrefix.ofString inet "127.0.0.1".toList = .ok host4 ∧ IpPrefix.ofString inet "::1".toList = .ok host6 ∧
    a.getAddrScope inet = .ok scope ∧
    (scope = .linkScope ↔ link4.isAddressInSubnet a = true ∨ link6.isAddressInSubnet a = true) ∧
    (scope = .hostScope ↔ host4.isAddressInSubnet a = true ∨ host6.isAddressInSubnet a = true) ∧
    (a.isIpv6LinkLocal = true ↔ a.isV4 = false ∧ scope = .linkScope) := by
  have sixteen : NumberText "16".toList 16 := (stoi_eq_ok.mp (by decide)).1
  have ten : NumberText "10".toList 10 := (stoi_eq_ok.mp (by decide)).1
  refine ⟨link4, link6, host4, host6, scopeBySubnet a, ?_, ?_, ?_, ?_, getAddrScope_eq reads a, scopeBySubnet_link a,
    scopeBySubnet_host a, ?_⟩
  · exact IpPrefix.ofString_eq_ok.mpr (.length (.address (by decide) (by decide) reads.link4) sixteen (by decide))
  · exact IpPrefix.ofString_eq_ok.mpr (.length (.address (by decide) (by decide) reads.link6) ten (by decide))
  · exact IpPrefix.ofString_eq_ok.mpr (.address (.address (by decide) (by decide) reads.host4))
  · exact IpPrefix.ofString_eq_ok.mpr (.address (.address (by decide) (by decide) reads.host6))
  · rw [isIpv6LinkLocal_iff, scopeBySubnet_link]
    constructor
    · intro inside
      exact ⟨(IpPrefix.mem_addresses.mp inside).1, .inr inside⟩
    · rintro ⟨six, inside | inside⟩
      · rw [(IpPrefix.mem_addresses.mp inside).1] at six
        cases six
      · exact inside

noncomputable def Inet.scopeText : Inet :=
  { Inet.fullText with
    pton6 := fun s =>
      if s = "FE80::0".toList then some ⟨0xFE#8 :: 0x80#8 :: List.replicate 14 0#8, rfl⟩
      else if s = "::1".toList then some ⟨List.replicate 15 0#8 ++ [1#8], rfl⟩
      else Inet.fullText.pton6 s }

theorem Inet.scopeText_reads : Inet.scopeText.ReadsScopes where
  link4 := by
    have written : cStr "169.254.0.0".toList = dottedDecimal 0x0000FEA9#32 := by decide
    rw [Inet.Reads, if_neg (by decide), written]
    exact ⟨0x0000FEA9#32, Inet.fullText_documented.inverse4 0x0000FEA9#32, rfl⟩
  link6 := by
    have read : Inet.scopeText.pton6 "FE80::0".toList = some ⟨0xFE#8 :: 0x80#8 :: List.replicate 14 0#8, rfl⟩ := by
      simp only [Inet.scopeText, if_true]
    rw [Inet.Reads, if_pos (by decide), cStr_eq (by decide)]
    exact ⟨_, read, rfl⟩
  host4 := by
    have written : cStr "127.0.0.1".toList = dottedDecimal 0x0100007F#32 := by decide
    rw [Inet.Reads, if_neg (by decide), written]
    exact ⟨0x0100007F#32, Inet.fullText_documented.inverse4 0x0100007F#32, rfl⟩
  host6 := by
    have other : "::1".toList ≠ "FE80::0".toList := by decide
    have read : Inet.scopeText.pton6 "::1".toList = some ⟨List.replicate 15 0#8 ++ [1#8], rfl⟩ := by
      simp only [Inet.scopeText, if_neg other, if_true]
    rw [Inet.Reads, if_pos (by decide), cStr_eq (by decide)]
    exact ⟨_, read, rfl⟩

/-- `FE81::1` is on a link. -/
theorem linkLocal_scope :
    (IpAddress.v6 ⟨0xFE#8 :: 0x81#8 :: List.replicate 13 0#8 ++ [1#8], rfl⟩).getAddrScope .scopeText = .ok .linkScope := by
  obtain ⟨_, _, _, _, scope, -, -, -, -, found, -, -, agrees⟩ := scopes_are_subnets Inet.scopeText_reads
    (.v6 ⟨0xFE#8 :: 0x81#8 :: List.replicate 13 0#8 ++ [1#8], rfl⟩)
  rw [found, (agrees.mp (by decide)).2]

end Tao.Common
