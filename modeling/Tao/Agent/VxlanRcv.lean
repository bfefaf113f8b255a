import Tao.Foundation.ClassicBpf

/-! # Reception of VXLAN packets, `netio.c` and `pmd.c`

The raw socket hands over IP packets, from the first bit of the IP header on. -/

namespace Tao.Agent

open Tao.Foundation

/-- The filter that `udp_netio_init` attaches to the socket. -/
def insns : List BpfInsn := [
  .ldB 9,
  .jeq 17 0 6,
  .ldH 6,
  .jset 0x1fff 4 0,
  .ldxMsh 0,
  .ldHInd 2,
  .jeq 4789 0 1,
  .ret 0x7fffffff,
  .ret 0]

/-- `rte_pktmbuf_adj`, whose `NULL` for a packet that is too short is dereferenced. -/
def rtePktmbufAdj (len : Nat) (pkt : Bits) : Option Bits :=
  if 8 * len ≤ pkt.length then some (pkt.drop (8 * len)) else none

/-- The VNI with which `vxlan_tunnel_rcv` calls `ntb_tunnel_map_vrf_lookup`, if it does. -/
def vxlanTunnelRcv (pkt : Bits) : Option (Option (BitVec 24)) := do
  let outerL3Len := ((field 0 8 pkt : BitVec 8) &&& 0xf).toNat <<< 2
  let udphdr ← rtePktmbufAdj outerL3Len pkt
  if field 16 16 udphdr ≠ 4789#16 then some none
  else
    let vxlanhdr ← rtePktmbufAdj 8 udphdr
    let vxVni : BitVec 32 := field 32 32 vxlanhdr
    some (some ((vxVni >>> 8).setWidth 24))

def tunnelRcv (pkt : Bits) : Option (Option (BitVec 24)) :=
  if field 72 8 pkt = 17#8 then vxlanTunnelRcv pkt else some none

/-- The VNI that is looked up for an IP packet that arrives at the socket. -/
def socketVni (pkt : Bits) : Option (BitVec 24) :=
  if filterAccepts insns pkt then (tunnelRcv pkt).join else none

def ipHeaderLength (pkt : Bits) : Nat := 4 * (field 4 4 pkt : BitVec 4).toNat

abbrev isUdp (pkt : Bits) : Prop := field 72 8 pkt = 17#8

def fragOffset (pkt : Bits) : BitVec 13 := field 51 13 pkt

/-- What a header of that many bytes would make of the packet. -/
def udpDstPort (headerLength : Nat) (pkt : Bits) : BitVec 16 := field (8 * headerLength + 16) 16 pkt

def vxlanVni (headerLength : Nat) (pkt : Bits) : BitVec 24 := field (8 * headerLength + 96) 24 pkt

theorem versionIhl_low (pkt : Bits) :
    4 * ((field 0 8 pkt : BitVec 8) &&& 0xf).toNat = ipHeaderLength pkt := by
  rw [toNat_and_mask (w := 4) _ rfl, field_setWidth 4 rfl, ipHeaderLength]

theorem msh_toNat (pkt : Bits) :
    (4 * ((field 0 8 pkt : BitVec 8).setWidth 32 &&& 0xf)).toNat = ipHeaderLength pkt := by
  have low : ((field 0 8 pkt : BitVec 8).setWidth 32 &&& 0xf).toNat = (field 4 4 pkt : BitVec 4).toNat := by
    rw [toNat_and_mask (w := 4) _ rfl, BitVec.setWidth_setWidth_of_le _ (by omega), field_setWidth 4 rfl]
  rw [BitVec.toNat_mul, low, ipHeaderLength]
  have bound := (field 4 4 pkt : BitVec 4).isLt
  exact Nat.mod_eq_of_lt (by simp; omega)

theorem fragment_masked (pkt : Bits) :
    (field 48 16 pkt : BitVec 16).setWidth 32 &&& 0x1fff = 0 ↔ fragOffset pkt = 0#13 := by
  have low : ((field 48 16 pkt : BitVec 16).setWidth 32 &&& 0x1fff).toNat = (fragOffset pkt).toNat := by
    rw [toNat_and_mask (w := 13) _ rfl, BitVec.setWidth_setWidth_of_le _ (by omega), field_setWidth 3 rfl,
      fragOffset]
  rw [← BitVec.toNat_inj, low, ← BitVec.toNat_inj]
  rfl

/-- What the filter accepts, a packet of any length: each load has to lie inside the packet. -/
theorem filterAccepts_iff {pkt : Bits} :
    filterAccepts insns pkt ↔ 80 ≤ pkt.length ∧ isUdp pkt ∧ fragOffset pkt = 0#13 ∧
      8 * ipHeaderLength pkt + 32 ≤ pkt.length ∧ udpDstPort (ipHeaderLength pkt) pkt = 4789#16 := by
  have protocol : (field 72 8 pkt : BitVec 8).setWidth 32 = (17 : BitVec 32) ↔ isUdp pkt :=
    ⟨fun same => setWidth_injective (w := 32) (y := 17#8) (by omega) same, fun same => by rw [same]; rfl⟩
  have port : (udpDstPort (ipHeaderLength pkt) pkt).setWidth 32 = (4789 : BitVec 32) ↔
      udpDstPort (ipHeaderLength pkt) pkt = 4789#16 :=
    ⟨fun same => setWidth_injective (w := 32) (y := 4789#16) (by omega) same, fun same => by rw [same]; rfl⟩
  have portOffset : 8 * (ipHeaderLength pkt + 2) = 8 * ipHeaderLength pkt + 16 := by omega
  unfold filterAccepts insns
  rw [bpfRun]
  by_cases long : 80 ≤ pkt.length
  case neg =>
    rw [packetLoad_of_short (by omega)]
    exact iff_of_false (by simp) fun all => long all.1
  have loadProtocol : packetLoad 1 9 pkt = some ((field 72 8 pkt).setWidth 32) := packetLoad_of_fits (by omega)
  have loadFragment : packetLoad 2 6 pkt = some ((field 48 16 pkt).setWidth 32) := packetLoad_of_fits (by omega)
  have loadVersionIhl : packetLoad 1 0 pkt = some ((field 0 8 pkt).setWidth 32) := packetLoad_of_fits (by omega)
  rw [loadProtocol, Option.elim_some, bpfRun]
  by_cases udp : isUdp pkt
  case neg =>
    rw [if_neg (mt protocol.mp udp)]
    exact iff_of_false (by simp [bpfRun]) fun all => udp all.2.1
  rw [if_pos (protocol.mpr udp), bpfRun, loadFragment, Option.elim_some, bpfRun]
  by_cases first : fragOffset pkt = 0#13
  case neg =>
    rw [if_pos (mt (fragment_masked pkt).mp first)]
    exact iff_of_false (by simp [bpfRun]) fun all => first all.2.2.1
  rw [if_neg (not_not.mpr ((fragment_masked pkt).mpr first)), bpfRun, loadVersionIhl, Option.elim_some, bpfRun,
    msh_toNat]
  by_cases ports : 8 * ipHeaderLength pkt + 32 ≤ pkt.length
  case neg =>
    rw [packetLoad_of_short (by omega)]
    exact iff_of_false (by simp) fun all => ports all.2.2.2.1
  have loadPort : packetLoad 2 (ipHeaderLength pkt + 2) pkt =
      some ((udpDstPort (ipHeaderLength pkt) pkt).setWidth 32) := by
    rw [packetLoad_of_fits (by omega), portOffset, udpDstPort]
  rw [loadPort, Option.elim_some, bpfRun]
  by_cases vxlan : udpDstPort (ipHeaderLength pkt) pkt = 4789#16
  case neg =>
    rw [if_neg (mt port.mp vxlan)]
    exact iff_of_false (by simp [bpfRun]) fun all => vxlan all.2.2.2.2
  rw [if_pos (port.mpr vxlan)]
  exact iff_of_true (by simp [bpfRun]) ⟨long, udp, first, ports, vxlan⟩

/-- Which VNI is looked up, for a packet that is long enough for its headers. -/
theorem socketVni_eq {pkt : Bits} (header : 160 ≤ pkt.length)
    (headers : 8 * ipHeaderLength pkt + 128 ≤ pkt.length) :
    socketVni pkt =
      if isUdp pkt ∧ fragOffset pkt = 0#13 ∧ udpDstPort (ipHeaderLength pkt) pkt = 4789#16 then
        some (vxlanVni (ipHeaderLength pkt) pkt)
      else none := by
  have outerL3Len : ((field 0 8 pkt : BitVec 8) &&& 0xf).toNat <<< 2 = ipHeaderLength pkt := by
    rw [Nat.shiftLeft_eq, Nat.mul_comm]
    exact versionIhl_low pkt
  have adjIp : rtePktmbufAdj (ipHeaderLength pkt) pkt = some (pkt.drop (8 * ipHeaderLength pkt)) :=
    if_pos (by omega)
  have adjUdp : rtePktmbufAdj 8 (pkt.drop (8 * ipHeaderLength pkt)) =
      some (pkt.drop (8 * ipHeaderLength pkt + 64)) := by
    rw [rtePktmbufAdj, if_pos (by rw [List.length_drop]; omega), List.drop_drop]
  have port : field 16 16 (pkt.drop (8 * ipHeaderLength pkt)) = udpDstPort (ipHeaderLength pkt) pkt :=
    field_drop ..
  have vni : ((field 32 32 (pkt.drop (8 * ipHeaderLength pkt + 64)) : BitVec 32) >>> 8).setWidth 24 =
      vxlanVni (ipHeaderLength pkt) pkt := by
    rw [field_shiftRight 8 rfl (by rw [List.length_drop]; omega), field_drop, vxlanVni, Nat.add_assoc]
  unfold socketVni
  by_cases accepted : filterAccepts insns pkt
  case neg =>
    rw [if_neg accepted, if_neg]
    rintro ⟨udp, first, vxlan⟩
    exact accepted (filterAccepts_iff.mpr ⟨by omega, udp, first, by omega, vxlan⟩)
  obtain ⟨_, udp, first, _, vxlan⟩ := filterAccepts_iff.mp accepted
  rw [if_pos accepted, if_pos ⟨udp, first, vxlan⟩, tunnelRcv, if_pos udp, vxlanTunnelRcv, outerL3Len]
  simp only [adjIp, Option.bind_eq_bind, Option.bind_some, port, vxlan, adjUdp, vni]
  rfl

end Tao.Agent
