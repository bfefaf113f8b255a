import Tao.DataPlane.ChainFormat
import Tao.Foundation.Transition

/-! # What a packet carries through the full chain

A switch of the full chain writes MAC addresses, the outer addresses and checksum, and the
VNI.  Whatever its tables hold, everything else leaves it as it came, and the next switch
parses it as the same stack. -/

namespace Tao.DataPlane.FullChain

open Tao.Foundation

/-! ## What no table writes -/

/-- An outer IPv4 header without the fields that a switch writes. -/
def carriedIpv4 (h : Ipv4H) : Ipv4H := { h with hdrChecksum := 0, srcAddr := 0, dstAddr := 0 }

def carriedVxlan (h : VxlanH) : VxlanH := { h with vni := 0 }

def ShcHeader.carried (hdr : ShcHeader) : ShcHeader :=
  { hdr with
    ethernet := hdr.ethernet.map (setMacs 0 0)
    ipv4 := hdr.ipv4.map carriedIpv4
    vxlan := hdr.vxlan.map carriedVxlan
    innerEthernet := hdr.innerEthernet.map (setMacs 0 0) }

@[simp] theorem carriedIpv4_updateChecksum (h : Ipv4H) : carriedIpv4 h.updateChecksum = carriedIpv4 h := rfl

@[simp] theorem carriedIpv4_setAddresses (localAddr remoteAddr : Ipv4Addr) (h : Ipv4H) :
    carriedIpv4 (setAddresses localAddr remoteAddr h) = carriedIpv4 h := rfl

@[simp] theorem carriedVxlan_vni (h : VxlanH) (vni : Vni) : carriedVxlan { h with vni := vni } = carriedVxlan h := rfl

@[simp] theorem setMacs_setMacs (dst src dst' src' : MacAddr) (h : EthernetH) :
    setMacs dst src (setMacs dst' src' h) = setMacs dst src h := rfl

section Tables

variable (env : Surroundings) (s : IngressState)

@[simp] theorem updateChecksum_carried (hdr : ShcHeader) : hdr.updateChecksum.carried = hdr.carried := by
  simp [ShcHeader.carried, ShcHeader.updateChecksum, Function.comp_def]

@[simp] theorem tunnelMapVrfTblApply_hdr : (tunnelMapVrfTblApply env s).hdr = s.hdr := by
  unfold tunnelMapVrfTblApply
  split <;> rfl

@[simp] theorem routeTblApply_hdr : (routeTblApply env s).1.hdr = s.hdr := by
  unfold routeTblApply
  dsimp only
  split <;> rfl

@[simp] theorem routeSeleTblApply_hdr : (routeSeleTblApply env s).1.hdr = s.hdr := by
  unfold routeSeleTblApply
  dsimp only
  split <;> rfl

theorem nhopTblApply_carried : (nhopTblApply env s).hdr.carried = s.hdr.carried := by
  unfold nhopTblApply
  split
  · simp [ShcHeader.carried, nhop, Function.comp_def]
  · rfl
  · rfl

theorem neighTblApply_carried : (neighTblApply env s).hdr.carried = s.hdr.carried := by
  unfold neighTblApply
  split
  · simp [ShcHeader.carried, Function.comp_def]
  · rfl
  · rfl

theorem portForMacTblApply_carried : (portForMacTblApply env s).hdr.carried = s.hdr.carried := by
  unfold portForMacTblApply
  split <;> simp [ShcHeader.carried, Function.comp_def]

theorem forward_carried : (forward env s).hdr.carried = s.hdr.carried := by
  rw [forward, portForMacTblApply_carried, neighTblApply_carried, nhopTblApply_carried]

theorem selectRoute_carried : (selectRoute env s).hdr.carried = s.hdr.carried := by
  have selected := routeSeleTblApply_hdr env (sample env s)
  unfold selectRoute
  split
  · next t hit =>
    rw [hit] at selected
    rw [forward_carried, selected, (sample_frame env s).hdr]
  · next t miss =>
    rw [miss] at selected
    rw [selected, (sample_frame env s).hdr]

/-- Ingress keeps what a packet carries, on every way through its tables. -/
theorem ingress_carried : (ShcIngress.apply env s).hdr.carried = s.hdr.carried := by
  have routed := routeTblApply_hdr env (tunnelMapVrfTblApply env (pktNumCount0 s))
  rw [tunnelMapVrfTblApply_hdr] at routed
  have counted : (pktNumCount0 s).hdr = s.hdr := rfl
  unfold ShcIngress.apply
  split
  · split
    · next t hit =>
      rw [hit] at routed
      rw [forward_carried, routed, counted]
    · next t miss =>
      rw [miss] at routed
      rw [selectRoute_carried, routed, counted]
  · rfl

end Tables

/-! ## The stack stays the same -/

theorem etherType_of_same {h h' : EthernetH} (same : setMacs 0 0 h' = setMacs 0 0 h) :
    h'.etherType = h.etherType := by
  simpa [setMacs] using congrArg EthernetH.etherType same

theorem protocol_of_same {h h' : Ipv4H} (same : carriedIpv4 h' = carriedIpv4 h) : h'.protocol = h.protocol := by
  simpa [carriedIpv4] using congrArg Ipv4H.protocol same

/-- Which headers follow each other is decided by what a packet carries. -/
theorem stack_of_carried {hdr hdr' : ShcHeader} (same : hdr'.carried = hdr.carried) (stack : Stack hdr) :
    Stack hdr' := by
  obtain ⟨ethernet, ipv4, udp, tcp, vxlan, innerEthernet, innerIpv4⟩ := hdr'
  cases stack <;> simp [ShcHeader.carried] at same
  case ethernet other =>
    obtain ⟨⟨_, rfl, ethernet⟩, rfl, rfl, rfl, rfl, rfl, rfl⟩ := same
    exact .ethernet (by rwa [etherType_of_same ethernet])
  case ipv4 isIpv4 notUdp notTcp =>
    obtain ⟨⟨_, rfl, ethernet⟩, ⟨_, rfl, ipv4⟩, rfl, rfl, rfl, rfl, rfl⟩ := same
    rw [← etherType_of_same ethernet] at isIpv4
    rw [← protocol_of_same ipv4] at notUdp notTcp
    exact .ipv4 isIpv4 notUdp notTcp
  case tcp isIpv4 isTcp =>
    obtain ⟨⟨_, rfl, ethernet⟩, ⟨_, rfl, ipv4⟩, rfl, rfl, rfl, rfl, rfl⟩ := same
    rw [← etherType_of_same ethernet] at isIpv4
    rw [← protocol_of_same ipv4] at isTcp
    exact .tcp _ isIpv4 isTcp
  case udp isIpv4 isUdp notVxlan =>
    obtain ⟨⟨_, rfl, ethernet⟩, ⟨_, rfl, ipv4⟩, rfl, rfl, rfl, rfl, rfl⟩ := same
    rw [← etherType_of_same ethernet] at isIpv4
    rw [← protocol_of_same ipv4] at isUdp
    exact .udp isIpv4 isUdp notVxlan
  case vxlan isIpv4 isUdp isVxlan innerOther =>
    obtain ⟨⟨_, rfl, ethernet⟩, ⟨_, rfl, ipv4⟩, rfl, rfl, ⟨_, rfl, _⟩, ⟨_, rfl, inner⟩, rfl⟩ := same
    rw [← etherType_of_same ethernet] at isIpv4
    rw [← protocol_of_same ipv4] at isUdp
    rw [← etherType_of_same inner] at innerOther
    exact .vxlan _ isIpv4 isUdp isVxlan innerOther
  case inner isIpv4 isUdp isVxlan innerIsIpv4 =>
    obtain ⟨⟨_, rfl, ethernet⟩, ⟨_, rfl, ipv4⟩, rfl, rfl, ⟨_, rfl, _⟩, ⟨_, rfl, inner⟩, rfl⟩ := same
    rw [← etherType_of_same ethernet] at isIpv4
    rw [← protocol_of_same ipv4] at isUdp
    rw [← etherType_of_same inner] at innerIsIpv4
    exact .inner _ _ isIpv4 isUdp isVxlan innerIsIpv4

theorem Stack.ethernet_valid {hdr : ShcHeader} (stack : Stack hdr) : ∃ ethernet, hdr.ethernet = some ethernet := by
  cases stack <;> exact ⟨_, rfl⟩

theorem length_emit_map {H : Type} {encode : H → Bits} {width : Nat} (covers : ∀ h, (encode h).length = width)
    (f : H → H) (h : Option H) : (emit encode (h.map f)).length = (emit encode h).length := by
  cases h with
  | none => rfl
  | some h => simp [emit, covers]

theorem length_emit_carried (hdr : ShcHeader) : hdr.carried.emit.length = hdr.emit.length := by
  simp [ShcHeader.emit, ShcHeader.carried, length_emit_map length_ethernetH_emit,
    length_emit_map length_ipv4H_emit, length_emit_map length_vxlanH_emit]

/-! ## From switch to switch -/

/-- A packet that is parsed into headers that carry this, and this payload. -/
def Arrives (carried : ShcHeader) (payload : Bits) (pkt : Bits) : Prop :=
  ∃ hdr md, ShcIngressParser pkt = (⟨hdr, md, payload⟩, .accept) ∧ hdr.carried = carried

theorem Arrives.length_eq {carried : ShcHeader} {payload pkt : Bits} (arrives : Arrives carried payload pkt) :
    pkt.length = carried.emit.length + payload.length := by
  obtain ⟨hdr, md, accepted, rfl⟩ := arrives
  obtain ⟨_, whole⟩ := stack_of_accepted accepted
  rw [whole, List.length_append, length_emit_carried]

theorem pipeline_arrives (env : Surroundings) (regs : Registers) {carried : ShcHeader} {payload pkt : Bits}
    (arrives : Arrives carried payload pkt) :
    ∃ out, shcIngressPipeline env regs pkt = some out ∧ Arrives carried payload out.sent := by
  obtain ⟨hdr, md, accepted, rfl⟩ := arrives
  refine ⟨_, pipeline_eq accepted, ?_⟩
  have same : (ShcIngress.apply env (ParserState.enter regs ⟨hdr, md, payload⟩)).hdr.updateChecksum.carried =
      hdr.carried := by
    rw [updateChecksum_carried, ingress_carried]
    rfl
  have stack := stack_of_carried same (stack_of_accepted accepted).1
  exact ⟨_, _, parse_emit stack payload, same⟩

/-- One switch of a path, with its tables and what its registers hold when the packet comes.  What ingress sends
    is taken to reach the next switch. -/
structure Hop where
  env : Surroundings
  regs : Registers

/-- The packet that a switch sends on; none when the parser drops it. -/
def traverse (pkt : Bits) (hop : Hop) : Option Bits := (shcIngressPipeline hop.env hop.regs pkt).map (·.sent)

/-- On any path of switches no parser drops an accepted packet, and at every one of them it has the headers, the
    payload and the length with which it set out, but for what a switch writes.  What the traffic manager does,
    with a packet that ingress gives no egress port among others, is not modelled. -/
theorem path_delivers (path : List Hop) (pkt : Bits) (parsed : ParserState)
    (accepted : ShcIngressParser pkt = (parsed, .accept)) :
    Always traverse (fun there => Arrives parsed.hdr.carried parsed.payload there ∧ there.length = pkt.length) pkt
      path := by
  have start : Arrives parsed.hdr.carried parsed.payload pkt := ⟨parsed.hdr, parsed.md, accepted, rfl⟩
  have delivered : Always traverse (Arrives parsed.hdr.carried parsed.payload) pkt path := by
    refine always_of_preserved _ (fun there hop arrives => ?_) start
    obtain ⟨out, sent, arrives⟩ := pipeline_arrives hop.env hop.regs arrives
    exact ⟨out.sent, by simp [traverse, sent], arrives⟩
  exact delivered.imp fun there arrives => ⟨arrives, arrives.length_eq.trans start.length_eq.symm⟩

/-- Through a switch whose route leads into a tunnel, and one whose selector does. -/
theorem vxlanPacket_delivered :
    Always traverse
      (fun there => Arrives (ShcIngressParser vxlanPacket).1.hdr.carried (ShcIngressParser vxlanPacket).1.payload there ∧
        there.length = vxlanPacket.length)
      vxlanPacket [⟨routed, .initial⟩, ⟨selectorRouted, .initial⟩] :=
  path_delivers _ vxlanPacket _ vxlanPacket_accepted

/-! ## The checksum that is sent -/

theorem updated_words {header : Bits} {h : Ipv4H} (fits : 160 ≤ header.length)
    (updated : ipv4H header = h.updateChecksum) :
    0 < (words 10 header).sum ∧ (words 10 header).sum % 65535 = 0 := by
  have fields := words_checksumFields fits
  have checksum : (ipv4H header).hdrChecksum = checksumUpdate (ipv4H header).checksumFields := by
    rw [updated]
    rfl
  have small : ∀ word ∈ words 5 header ++ words 4 (header.drop 96), word ≤ 65535 := by
    intro word member
    rcases List.mem_append.mp member with front | back
    · exact word_le front
    · exact word_le back
  rw [sum_words_ten, checksum, checksumUpdate, fields, BitVec.toNat_ofNat,
    Nat.mod_eq_of_lt (internetChecksum_lt _)]
  exact sum_add_internetChecksum small

/-- Behind a computed checksum, a receiver accepts the whole header exactly when the options cancel. -/
theorem checksumCorrect_updated_iff {header : Bits} {h : Ipv4H} (updated : ipv4H header = h.updateChecksum)
    (long : 5 ≤ h.ihl.toNat) (whole : 32 * h.ihl.toNat ≤ header.length) :
    ChecksumCorrect header ↔ OptionsCancel header := by
  have ihl : (ipv4H header).ihl = h.ihl := by rw [updated]; rfl
  obtain ⟨positive, multiple⟩ := updated_words (by omega) updated
  have split := words_add 10 (2 * h.ihl.toNat - 10) header
  rw [Nat.add_sub_cancel' (by omega)] at split
  simp only [ChecksumCorrect, OptionsCancel, unsummedWords, ihl, whole, long, true_and, if_true]
  rw [sumsToOnes_iff fun word => word_le, split, List.sum_append]
  simp only [Nat.reduceMul]
  omega

theorem tunnelled_ihl (entry : Option NhopAction) (outer : Ipv4H) : (tunnelled entry outer).ihl = outer.ihl := by
  unfold tunnelled
  split <;> rfl

theorem leaving_ihl (env : Surroundings) (hdr : ShcHeader) (outer : Ipv4H) :
    (leaving env hdr outer).ihl = outer.ihl := by
  unfold leaving selected
  cases routeEntry env hdr with
  | some action => cases action <;> exact tunnelled_ihl _ outer
  | none =>
    cases routeSeleEntry env outer with
    | some action => cases action <;> exact tunnelled_ihl _ outer
    | none => rfl

/-- The outer header of what is sent stands behind the Ethernet header, with its checksum computed. -/
theorem sent_outer (env : Surroundings) (regs : Registers) {pkt : Bits} {parsed : ParserState} {outer : Ipv4H}
    (accepted : ShcIngressParser pkt = (parsed, .accept)) (isIpv4 : parsed.hdr.ipv4 = some outer) :
    ∃ out, shcIngressPipeline env regs pkt = some out ∧ out.sent.length = pkt.length ∧
      ∃ rest, out.sent.drop 112 = (leaving env parsed.hdr outer).updateChecksum.emit ++ rest := by
  obtain ⟨stack, _⟩ := stack_of_accepted accepted
  have ipv4 : (ShcIngress.apply env (parsed.enter regs)).hdr.ipv4 = some (leaving env parsed.hdr outer) :=
    ingress_ipv4 (entering_of_parsed accepted isIpv4)
  have start : Arrives parsed.hdr.carried parsed.payload pkt := ⟨_, _, accepted, rfl⟩
  obtain ⟨out, sent, arrives⟩ := pipeline_arrives env regs start
  obtain ⟨ethernet, front⟩ := (stack_of_carried (ingress_carried env (parsed.enter regs)) stack).ethernet_valid
  refine ⟨out, sent, arrives.length_eq.trans start.length_eq.symm, ?_⟩
  rw [pipeline_eq accepted] at sent
  cases sent
  simp only [ShcHeader.emit, ShcHeader.updateChecksum, front, ipv4, Option.map_some, emit, List.append_assoc]
  exact ⟨_, List.drop_left' (length_ethernetH_emit ethernet)⟩

/-- What a switch sends is accepted by a receiver of its outer header exactly when the options cancel, with
    whatever checksum the packet came; so it always is when there are none. -/
theorem sent_checksum_iff (env : Surroundings) (regs : Registers) (pkt : Bits) (parsed : ParserState) (outer : Ipv4H)
    (accepted : ShcIngressParser pkt = (parsed, .accept)) (isIpv4 : parsed.hdr.ipv4 = some outer)
    (long : 5 ≤ outer.ihl.toNat) (whole : 112 + 32 * outer.ihl.toNat ≤ pkt.length) :
    ∃ out, shcIngressPipeline env regs pkt = some out ∧
      (ChecksumCorrect (out.sent.drop 112) ↔ OptionsCancel (out.sent.drop 112)) ∧
      (outer.ihl = 5 → ChecksumCorrect (out.sent.drop 112)) := by
  obtain ⟨out, left, sameLength, rest, behind⟩ := sent_outer env regs accepted isIpv4
  have ihl := leaving_ihl env parsed.hdr outer
  have updated : ipv4H (out.sent.drop 112) = (leaving env parsed.hdr outer).updateChecksum := by
    rw [behind, ipv4H_emit]
  have correct_iff := checksumCorrect_updated_iff updated (by rwa [ihl])
    (by rw [ihl, List.length_drop, sameLength]; omega)
  refine ⟨out, left, correct_iff, fun plain => correct_iff.mpr ?_⟩
  have noOptions : (ipv4H (out.sent.drop 112)).ihl = 5 := by
    rw [updated, ← plain, ← ihl]
    rfl
  simp [OptionsCancel, unsummedWords, noOptions, words]

theorem routed_checksum :
    ∃ out, shcIngressPipeline routed .initial vxlanPacket = some out ∧
      (ChecksumCorrect (out.sent.drop 112) ↔ OptionsCancel (out.sent.drop 112)) ∧
      ((ipv4H (vxlanPacket.drop 112)).ihl = 5 → ChecksumCorrect (out.sent.drop 112)) :=
  sent_checksum_iff routed .initial vxlanPacket _ _ vxlanPacket_accepted vxlanPacket_ipv4 (by decide +kernel)
    (by decide +kernel)

end Tao.DataPlane.FullChain
