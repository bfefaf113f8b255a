import Tao.Common.InetText
import Tao.Common.IpPrefix
import Tao.Foundation.PrefixInterval

/-! # A prefix is an interval of addresses

`isAddressInSubnet` compares an address with a prefix under the mask.  By `operator<`
of addresses, the ones that it accepts are those from the address of `getSubnet` to
`getBroadcastIp`. -/

namespace Tao.Common

open Tao.Foundation

namespace IpPrefix

def getBroadcastIp : IpPrefix → IpAddress
  | ⟨.v4 ipaddr, mMask, _⟩ => .ofUint32 (ipaddr ||| ~~~getMask4 mMask)
  | ⟨.v6 ipaddr, mMask, valid⟩ =>
    .v6 ⟨List.zipWith (fun x m => x ||| ~~~m) ipaddr.1 (getMask6 mMask), by
      rw [List.length_zipWith, ipaddr.2, length_getMask6 (isValid_iff.mp valid), Nat.min_self]⟩

/-- The loop of `isAddressInSubnet` over the bytes of an IPv6 prefix, an address and the mask. -/
def sameUnderMask : List (BitVec 8) → List (BitVec 8) → List (BitVec 8) → Bool
  | x :: pre, y :: ip, m :: mask => if x &&& m ≠ y &&& m then false else sameUnderMask pre ip mask
  | _, _, _ => true

def isAddressInSubnet (p : IpPrefix) (addr : IpAddress) : Bool :=
  if p.mIp.family ≠ addr.family then false
  else
    match p.mIp, addr with
    | .v4 ipaddr, .v4 ip => ipaddr &&& getMask4 p.mMask = ip &&& getMask4 p.mMask
    | .v6 ipaddr, .v6 ip => sameUnderMask ipaddr.1 ip.1 (getMask6 p.mMask)
    | _, _ => false

end IpPrefix

/-! ## Addresses in their order -/

/-- An address as a number, the byte that is transmitted first in front. -/
def IpAddress.number (ip : IpAddress) : Nat := bitsNat ip.bits

theorem memcmp_neg_iff_number {xs ys : List (BitVec 8)} (sameLength : xs.length = ys.length) :
    memcmp xs ys < 0 ↔ bitsNat (byteBits xs) < bitsNat (byteBits ys) := by
  induction xs generalizing ys with
  | nil =>
    obtain rfl := List.length_eq_zero_iff.mp sameLength.symm
    exact iff_of_false (Int.lt_irrefl _) (Nat.lt_irrefl _)
  | cons x xs inductionHypothesis =>
    cases ys with
    | nil => cases sameLength
    | cons y ys =>
      have rest : xs.length = ys.length := Nat.succ.inj sameLength
      have below := bitsNat_lt (byteBits xs)
      have otherBelow := bitsNat_lt (byteBits ys)
      rw [length_byteBits, rest] at below
      rw [length_byteBits] at otherBelow
      rw [memcmp_cons_neg_iff, inductionHypothesis rest, byteBits_cons, byteBits_cons, bitsNat_append, bitsNat_append,
        bitsNat_bits, bitsNat_bits, length_byteBits, length_byteBits, rest, block_lt_iff below otherBelow]

theorem IpAddress.family_eq_iff {a b : IpAddress} : a.family = b.family ↔ a.isV4 = b.isV4 := by
  cases a <;> cases b <;> simp [family, isV4]

/-- `operator<` on the addresses of a family is the order of their numbers. -/
theorem IpAddress.lt_iff_number {a b : IpAddress} (sameFamily : a.family = b.family) :
    a.lt b = true ↔ a.number < b.number := by
  cases a with
  | v4 x =>
    cases b with
    | v4 y =>
      rw [number, number, ← bits_htonl, ← bits_htonl, bitsNat_bits, bitsNat_bits]
      simp [lt, family]
    | v6 y => cases sameFamily
  | v6 x =>
    cases b with
    | v4 y => cases sameFamily
    | v6 y =>
      have bytes := memcmp_neg_iff_number (x.2.trans y.2.symm)
      simpa [lt, family, number, bits, IpAddress.bytes] using bytes

namespace IpPrefix

/-! ## Broadcast addresses -/

theorem bytes_or_not (a b : BitVec 32) : (IpAddress.v4 (a ||| ~~~b)).bytes =
    List.zipWith (fun x m => x ||| ~~~m) (IpAddress.v4 a).bytes (IpAddress.v4 b).bytes := by
  have complement (i : Nat) (inside : i + 8 ≤ 32) : (~~~b).extractLsb' i 8 = ~~~(b.extractLsb' i 8) := by
    ext j below
    have inRange : i + j < 32 := by omega
    simp [inRange]
  simp only [IpAddress.bytes, BitVec.extractLsb'_or, List.zipWith_cons_cons, List.zipWith_nil_left,
    complement 0 (by omega), complement 8 (by omega), complement 16 (by omega), complement 24 (by omega)]

theorem bits_getBroadcastIp (p : IpPrefix) :
    p.getBroadcastIp.bits = p.mIp.bits.take p.mMask ++ List.replicate (p.mIp.width - p.mMask) true := by
  have bound := p.mMask_le_width
  obtain ⟨ip, mMask, valid⟩ := p
  have length : ip.bits.length = ip.width := IpAddress.length_bits _
  cases ip with
  | v4 ipaddr =>
    calc (IpAddress.v4 (ipaddr ||| ~~~getMask4 mMask)).bits
        = List.zipWith (fun b m => b || !m) (IpAddress.v4 ipaddr).bits (IpAddress.v4 (getMask4 mMask)).bits := by
          unfold IpAddress.bits
          rw [bytes_or_not]
          exact byteBits_zipWith bits_or_not rfl
      _ = List.zipWith (fun b m => b || !m) (IpAddress.v4 ipaddr).bits (netmask mMask (32 - mMask)) := by
          rw [bits_getMask4 bound]
      _ = (IpAddress.v4 ipaddr).bits.take mMask ++ List.replicate (32 - mMask) true :=
          zipWith_netmask Bool.or_false Bool.or_true (length.trans (Nat.add_sub_cancel' bound).symm)
  | v6 ipaddr =>
    calc byteBits (List.zipWith (fun x m => x ||| ~~~m) ipaddr.1 (getMask6 mMask))
        = List.zipWith (fun b m => b || !m) (IpAddress.v6 ipaddr).bits (byteBits (getMask6 mMask)) :=
          byteBits_zipWith bits_or_not (by rw [ipaddr.2, length_getMask6 bound])
      _ = List.zipWith (fun b m => b || !m) (IpAddress.v6 ipaddr).bits (netmask mMask (128 - mMask)) := by
          rw [bits_getMask6 bound]
      _ = (IpAddress.v6 ipaddr).bits.take mMask ++ List.replicate (128 - mMask) true :=
          zipWith_netmask Bool.or_false Bool.or_true (length.trans (Nat.add_sub_cancel' bound).symm)

theorem family_getBroadcastIp (p : IpPrefix) : p.getBroadcastIp.family = p.mIp.family := by
  obtain ⟨ip, mMask, valid⟩ := p
  cases ip <;> rfl

/-! ## Containment -/

theorem sameUnderMask_iff {pre ip mask : List (BitVec 8)} (lengths : pre.length = ip.length)
    (masked : ip.length = mask.length) :
    sameUnderMask pre ip mask = true ↔ List.zipWith (· &&& ·) pre mask = List.zipWith (· &&& ·) ip mask := by
  induction pre generalizing ip mask with
  | nil =>
    obtain rfl := List.length_eq_zero_iff.mp lengths.symm
    exact iff_of_true rfl rfl
  | cons x pre inductionHypothesis =>
    match ip, mask, lengths, masked with
    | y :: ip, m :: mask, lengths, masked =>
      rw [sameUnderMask, List.zipWith_cons_cons, List.zipWith_cons_cons, List.cons.injEq,
        ← inductionHypothesis (Nat.succ.inj lengths) (Nat.succ.inj masked)]
      split
      · next different => simp [different]
      · next same => simp [not_not.mp same]

theorem and_getMask4_eq_iff {x y : BitVec 32} {mMask : Nat} (valid : mMask ≤ 32) :
    x &&& getMask4 mMask = y &&& getMask4 mMask ↔
      (IpAddress.v4 x).bits.take mMask = (IpAddress.v4 y).bits.take mMask := by
  constructor
  · intro same
    have masked := congrArg (fun a => (IpAddress.v4 a).bits) same
    simpa only [bits_and_getMask4 _ valid, List.append_left_inj] using masked
  · intro same
    apply IpAddress.v4.inj
    apply IpAddress.bits_injective
    rw [bits_and_getMask4 x valid, bits_and_getMask4 y valid, same]

theorem subnet6_eq_iff {x y : Ipv6Bytes} {mMask : Nat} (valid : mMask ≤ 128) :
    subnet6 x mMask valid = subnet6 y mMask valid ↔
      (IpAddress.v6 x).bits.take mMask = (IpAddress.v6 y).bits.take mMask := by
  constructor
  · intro same
    have masked := congrArg (fun a => (IpAddress.v6 a).bits) same
    simpa only [bits_subnet6 _ valid, List.append_left_inj] using masked
  · intro same
    apply IpAddress.v6.inj
    apply IpAddress.bits_injective
    rw [bits_subnet6 x valid, bits_subnet6 y valid, same]

/-- An address of the family is in the subnet when it begins with the network bits. -/
theorem isAddressInSubnet_iff {p : IpPrefix} {a : IpAddress} (sameFamily : p.mIp.family = a.family) :
    p.isAddressInSubnet a = true ↔ p.mIp.bits.take p.mMask = a.bits.take p.mMask := by
  have bound := p.mMask_le_width
  obtain ⟨ip, mMask, valid⟩ := p
  cases ip with
  | v4 ipaddr =>
    cases a with
    | v4 addr =>
      have compared : (⟨.v4 ipaddr, mMask, valid⟩ : IpPrefix).isAddressInSubnet (.v4 addr) =
        decide (ipaddr &&& getMask4 mMask = addr &&& getMask4 mMask) := rfl
      rw [compared, decide_eq_true_eq]
      exact and_getMask4_eq_iff bound
    | v6 addr => cases sameFamily
  | v6 ipaddr =>
    cases a with
    | v4 addr => cases sameFamily
    | v6 addr =>
      have compared : (⟨.v6 ipaddr, mMask, valid⟩ : IpPrefix).isAddressInSubnet (.v6 addr) =
        sameUnderMask ipaddr.1 addr.1 (getMask6 mMask) := rfl
      rw [compared, sameUnderMask_iff (ipaddr.2.trans addr.2.symm) (addr.2.trans (length_getMask6 bound).symm)]
      exact Subtype.ext_iff.symm.trans (subnet6_eq_iff bound)

/-- For a prefix of either family and any length, host bits or not, the addresses in the subnet are those
    from the address of the subnet to the broadcast address; no address of the other family is. -/
theorem isAddressInSubnet_iff_interval {inet : Inet} (documented : inet.Documented) (p : IpPrefix)
    (a : IpAddress) :
    (a.family = p.mIp.family → ∃ subnet, p.getSubnet inet = .ok subnet ∧
      (p.isAddressInSubnet a = true ↔ a.lt subnet.mIp = false ∧ p.getBroadcastIp.lt a = false)) ∧
    (a.family ≠ p.mIp.family → p.isAddressInSubnet a = false) := by
  refine ⟨fun sameFamily => ⟨p.subnet, getSubnet_eq documented p, ?_⟩, fun other => if_pos (Ne.symm other)⟩
  have subnetFamily : a.family = p.subnet.mIp.family := by
    rw [sameFamily, IpAddress.family_eq_iff, subnet_isV4]
  have broadcastFamily : p.getBroadcastIp.family = a.family := by rw [family_getBroadcastIp, sameFamily]
  have width : p.mIp.width = a.width := IpAddress.isV4_eq_iff.mp (IpAddress.family_eq_iff.mp sameFamily.symm)
  have fits : p.mMask ≤ a.bits.length := by rw [a.length_bits, ← width]; exact p.mMask_le_width
  rw [isAddressInSubnet_iff sameFamily.symm,
    take_eq_iff_interval (show (p.mIp.bits.take p.mMask).length = p.mMask from p.length_network) fits,
    a.length_bits, ← width, ← bits_subnet, ← bits_getBroadcastIp, Bool.eq_false_iff, Bool.eq_false_iff,
    ne_eq, ne_eq, IpAddress.lt_iff_number subnetFamily, IpAddress.lt_iff_number broadcastFamily]
  simp only [IpAddress.number, not_lt]

/-- `10.1.2.3/15` holds `10.1.255.255`. -/
theorem host_in_interval : ∃ subnet, (⟨.v4 0x0302010A#32, 15, rfl⟩ : IpPrefix).getSubnet .fullText = .ok subnet ∧
    (IpAddress.v4 0xFFFF010A#32).lt subnet.mIp = false ∧
    (⟨.v4 0x0302010A#32, 15, rfl⟩ : IpPrefix).getBroadcastIp.lt (.v4 0xFFFF010A#32) = false := by
  obtain ⟨subnet, found, interval⟩ := (isAddressInSubnet_iff_interval Inet.fullText_documented
    ⟨.v4 0x0302010A#32, 15, rfl⟩ (.v4 0xFFFF010A#32)).1 rfl
  exact ⟨subnet, found, interval.mp (by decide +kernel)⟩

end IpPrefix

end Tao.Common
