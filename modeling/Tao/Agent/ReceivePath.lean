import Tao.Agent.SocketFilter
import Tao.Foundation.Access

/-! # The software receive path (`pmd.c`)

`netio_rx` receives a packet into an mbuf, and `tunnel_rcv` to `ol_ip_rcv` strip its
headers one after the other.  The model lists the bytes of the buffer that they read, and
the null pointers that they dereference, up to the first one. -/

namespace Tao.Agent

open Tao.Foundation

/-- `struct rte_mbuf`: the buffer from the first received byte on, and the part of it that is the
    packet. -/
structure RteMbuf where
  buffer : Nat → BitVec 8
  dataOff : Nat
  dataLen : Nat

namespace RteMbuf

/-- Reads of some bytes behind the pointer that `rte_pktmbuf_mtod` or `rte_pktmbuf_adj` returns. -/
def reads (offset count : Nat) (pkt : RteMbuf) : List Access := accessRange (pkt.dataOff + offset) count

def byte (offset : Nat) (pkt : RteMbuf) : BitVec 8 := pkt.buffer (pkt.dataOff + offset)

def halfword (offset : Nat) (pkt : RteMbuf) : BitVec 16 := pkt.byte offset ++ pkt.byte (offset + 1)

def word (offset : Nat) (pkt : RteMbuf) : BitVec 32 := pkt.halfword offset ++ pkt.halfword (offset + 2)

/-- `rte_pktmbuf_adj`: `NULL` when the packet is shorter, which leaves it as it is. -/
def adj (len : Nat) (pkt : RteMbuf) : Option RteMbuf :=
  if pkt.dataLen < len then none
  else some { pkt with dataOff := pkt.dataOff + len, dataLen := pkt.dataLen - len }

/-! ## The functions, innermost first -/

/-- `ol_ip_rcv`: only the destination address is read. -/
def olIpRcv (pkt : RteMbuf) : List Access := pkt.reads 16 4

/-- `ol_ether_rcv`.  What `rte_pktmbuf_adj` returns is not used. -/
def olEtherRcv (pkt : RteMbuf) : List Access := ((pkt.adj 14).getD pkt).olIpRcv

def overlayPktRcv (pkt : RteMbuf) : List Access :=
  pkt.reads 12 2 ++ if pkt.halfword 12 = 0x0800#16 then pkt.olEtherRcv else []

/-- `vxlan_tunnel_rcv`, for VNIs that `ntb_tunnel_map_vrf_lookup` finds a VRF for.  `iphdr` points to the
    outer header all along. -/
def vxlanTunnelRcv (mapped : BitVec 32 → Bool) (iphdr : RteMbuf) : List Access :=
  let outerL3Len := (iphdr.byte 0 &&& 0xf).toNat <<< 2
  iphdr.reads 0 1 ++
    match iphdr.adj outerL3Len with
    | none => [.null]
    | some udphdr =>
      udphdr.reads 2 2 ++
        if udphdr.halfword 2 ≠ 4789#16 then []
        else
          match udphdr.adj 8 with
          | none => [.null]
          | some vxlanhdr =>
            let vni := vxlanhdr.word 4 >>> 8
            vxlanhdr.reads 4 4 ++
              if !mapped vni then []
              else
                -- the inbound tunnel is remembered, then the VXLAN header is stripped
                iphdr.reads 16 4 ++ iphdr.reads 12 4 ++ iphdr.reads 1 1 ++
                  ((vxlanhdr.adj 8).getD vxlanhdr).overlayPktRcv

def tunnelRcv (mapped : BitVec 32 → Bool) (pkt : RteMbuf) : List Access :=
  pkt.reads 0 1 ++ pkt.reads 9 1 ++ if pkt.byte 9 = 17#8 then pkt.vxlanTunnelRcv mapped else []

end RteMbuf

/-- `mbuf->buf_len - data_off`, of a pool with `RTE_MBUF_DEFAULT_BUF_SIZE`. -/
def recvRoom : Nat := 2048

inductive RecvOutcome where
  | failed
  | received (packet : List (BitVec 8))

def RecvOutcome.stored : RecvOutcome → List (BitVec 8)
  | .failed => []
  | .received packet => packet.take recvRoom

/-- `nbytes`, cut to the width of `data_len`. -/
def RecvOutcome.dataLen : RecvOutcome → Nat
  | .failed => 65535
  | .received packet => (packet.take recvRoom).length

/-- `netio_rx` with a buffer that still holds something.  A failure only breaks the event loop. -/
def netioRx (mapped : BitVec 32 → Bool) (before : Nat → BitVec 8) (outcome : RecvOutcome) : List Access :=
  RteMbuf.tunnelRcv mapped ⟨fun k => (outcome.stored)[k]?.getD (before k), 0, outcome.dataLen⟩

/-- No null pointer is dereferenced and only received bytes are read.  `tunnel_rcv` reads whatever it is
    given, so after a failure this means that it is not called. -/
def StaysInside (mapped : BitVec 32 → Bool) (before : Nat → BitVec 8) (outcome : RecvOutcome) : Prop :=
  AllInside outcome.stored.length (netioRx mapped before outcome)

/-- The outer header as long as it says, a UDP and a VXLAN header; for a VNI that is mapped the inner
    Ethernet header and 20 bytes from the start; and behind an Ethernet header of IPv4 another 20 bytes. -/
def LongEnough (mapped : BitVec 32 → Bool) (bytes : List (BitVec 8)) : Prop :=
  let headerLength := 4 * (bytes.getD 0 0 &&& 0xf).toNat
  let pkt : RteMbuf := ⟨fun k => bytes.getD k 0, headerLength, bytes.length⟩
  headerLength + 16 ≤ bytes.length ∧
    (mapped (pkt.word 12 >>> 8) = true → 20 ≤ bytes.length ∧ headerLength + 30 ≤ bytes.length ∧
      (pkt.halfword 28 = 0x0800#16 → headerLength + 50 ≤ bytes.length))

instance (mapped : BitVec 32 → Bool) (bytes : List (BitVec 8)) : Decidable (LongEnough mapped bytes) :=
  inferInstanceAs (Decidable (_ ∧ (_ → _ ∧ _ ∧ (_ → _))))

/-! ## What each function reads -/

namespace RteMbuf

def behind (len : Nat) (pkt : RteMbuf) : RteMbuf :=
  { pkt with dataOff := pkt.dataOff + len, dataLen := pkt.dataLen - len }

variable {pkt iphdr : RteMbuf} {mapped : BitVec 32 → Bool} {received : Nat}

theorem adj_of_fits {len : Nat} (fits : len ≤ pkt.dataLen) : pkt.adj len = some (pkt.behind len) :=
  if_neg (Nat.not_lt.mpr fits)

theorem adj_of_short {len : Nat} (short : pkt.dataLen < len) : pkt.adj len = none := if_pos short

@[simp] theorem behind_behind (len more : Nat) : (pkt.behind len).behind more = pkt.behind (len + more) := by
  rw [behind, behind, behind, Nat.add_assoc, Nat.sub_sub]

theorem behind_dataLen (len : Nat) : (pkt.behind len).dataLen = pkt.dataLen - len := rfl

theorem behind_total {len : Nat} (fits : len ≤ pkt.dataLen) (total : pkt.dataOff + pkt.dataLen = received) :
    (pkt.behind len).dataOff + (pkt.behind len).dataLen = received := by
  show pkt.dataOff + len + (pkt.dataLen - len) = received
  omega

@[simp] theorem behind_halfword (len offset : Nat) :
    (pkt.behind len).halfword offset = pkt.halfword (len + offset) := by
  simp only [halfword, byte, behind, Nat.add_assoc]

@[simp] theorem behind_word (len offset : Nat) : (pkt.behind len).word offset = pkt.word (len + offset) := by
  simp only [word, behind_halfword, Nat.add_assoc]

theorem reads_inside {offset count : Nat} (total : pkt.dataOff + pkt.dataLen = received) :
    AllInside received (pkt.reads offset (count + 1)) ↔ offset + (count + 1) ≤ pkt.dataLen := by
  rw [reads, allInside_range]
  omega

/-- With a whole Ethernet header in front, `rte_pktmbuf_adj` does not fail. -/
theorem overlayPktRcv_inside (total : pkt.dataOff + pkt.dataLen = received) :
    AllInside received pkt.overlayPktRcv ↔
      14 ≤ pkt.dataLen ∧ (pkt.halfword 12 = 0x0800#16 → 34 ≤ pkt.dataLen) := by
  rw [overlayPktRcv, allInside_append, reads_inside total]
  refine and_congr_right fun header => ?_
  have inner : AllInside received pkt.olEtherRcv ↔ 34 ≤ pkt.dataLen := by
    rw [olEtherRcv, adj_of_fits header, Option.getD_some, olIpRcv, reads_inside (behind_total header total),
      behind_dataLen]
    omega
  split
  next ipv4 => exact inner.trans ⟨fun long _ => long, fun long => long ipv4⟩
  next other => exact iff_of_true (allInside_nil _) fun ipv4 => absurd ipv4 other

/-- With the two bytes of the VXLAN port there, which the filter has checked, what is left to check. -/
theorem vxlanTunnelRcv_inside {headerLength : Nat} (total : iphdr.dataOff + iphdr.dataLen = received)
    (stated : headerLength = 4 * (iphdr.byte 0 &&& 0xf).toNat) (ports : headerLength + 4 ≤ iphdr.dataLen)
    (vxlan : iphdr.halfword (headerLength + 2) = 4789#16) :
    AllInside received (iphdr.vxlanTunnelRcv mapped) ↔
      headerLength + 16 ≤ iphdr.dataLen ∧
        (mapped (iphdr.word (headerLength + 12) >>> 8) = true →
          20 ≤ iphdr.dataLen ∧ headerLength + 30 ≤ iphdr.dataLen ∧
            (iphdr.halfword (headerLength + 28) = 0x0800#16 → headerLength + 50 ≤ iphdr.dataLen)) := by
  have outerL3Len : (iphdr.byte 0 &&& 0xf).toNat <<< 2 = headerLength := by
    rw [Nat.shiftLeft_eq, stated, Nat.mul_comm]
  have ipHeader : headerLength ≤ iphdr.dataLen := by omega
  have udpTotal := behind_total ipHeader total
  have versionIhl : AllInside received (iphdr.reads 0 1) := (reads_inside total).mpr (by omega)
  have dstPort : AllInside received ((iphdr.behind headerLength).reads 2 2) :=
    (reads_inside udpTotal).mpr (by rw [behind_dataLen]; omega)
  simp only [vxlanTunnelRcv, outerL3Len, adj_of_fits ipHeader, behind_halfword, vxlan, ne_eq, not_true_eq_false,
    if_false, allInside_append, versionIhl, dstPort, true_and]
  by_cases udpHeader : headerLength + 8 ≤ iphdr.dataLen
  case neg =>
    rw [adj_of_short (by rw [behind_dataLen]; omega)]
    exact iff_of_false (not_allInside_null _) fun all => by omega
  have vxlanTotal := behind_total udpHeader total
  rw [adj_of_fits (by rw [behind_dataLen]; omega), behind_behind]
  simp only [allInside_append, reads_inside vxlanTotal, behind_dataLen, behind_word, Nat.add_assoc, Nat.reduceAdd]
  have fits : 8 ≤ iphdr.dataLen - (headerLength + 8) ↔ headerLength + 16 ≤ iphdr.dataLen := by omega
  rw [fits]
  refine and_congr_right fun headers => ?_
  cases known : mapped (iphdr.word (headerLength + 12) >>> 8) with
  | false => simp
  | true =>
    have innerTotal := behind_total headers total
    have overlay := overlayPktRcv_inside innerTotal
    rw [behind_halfword, behind_dataLen, Nat.add_assoc] at overlay
    rw [adj_of_fits (by rw [behind_dataLen]; omega), behind_behind, Option.getD_some]
    simp only [Bool.not_true, Bool.false_eq_true, if_false, allInside_append, reads_inside total, overlay,
      Nat.add_assoc, Nat.reduceAdd, forall_const]
    constructor
    · rintro ⟨⟨⟨addresses, _⟩, _⟩, ether, ipv4⟩
      exact ⟨addresses, by omega, fun isIpv4 => by have := ipv4 isIpv4; omega⟩
    · rintro ⟨addresses, ether, ipv4⟩
      exact ⟨⟨⟨addresses, by omega⟩, by omega⟩, by omega, fun isIpv4 => by have := ipv4 isIpv4; omega⟩

end RteMbuf

/-! ## From `netio_rx` -/

variable {mapped : BitVec 32 → Bool} {before : Nat → BitVec 8}

/-- A failure is processed as a packet: its first byte is read. -/
theorem failed_not_inside : ¬ StaysInside mapped before .failed := by
  intro inside
  rw [StaysInside, netioRx, RteMbuf.tunnelRcv, allInside_append, allInside_append] at inside
  rcases allInside_range.mp inside.1.1 with none | first
  · cases none
  · exact Nat.not_succ_le_zero _ first

theorem stored_byte {bytes : List (BitVec 8)} {k : Nat} (inside : k < bytes.length) (dataLen : Nat) :
    RteMbuf.byte k ⟨fun k => bytes[k]?.getD (before k), 0, dataLen⟩ = bytes.getD k 0 := by
  show bytes[0 + k]?.getD (before (0 + k)) = bytes.getD k 0
  rw [Nat.zero_add, List.getD_eq_getElem?_getD, List.getElem?_eq_getElem inside]
  rfl

/-- What the filter checks of the bytes that end up in the buffer: at most 64 of them. -/
theorem accepted_stored {packet : List (BitVec 8)} (accepted : filterAccepts insns (byteBits packet)) :
    let bytes := packet.take recvRoom
    let headerLength := 4 * (bytes.getD 0 0 &&& 0xf).toNat
    10 ≤ bytes.length ∧ bytes.getD 9 0 = 17#8 ∧ headerLength + 4 ≤ bytes.length ∧
      bytes.getD (headerLength + 2) 0 ++ bytes.getD (headerLength + 3) 0 = 4789#16 := by
  intro bytes headerLength
  obtain ⟨udp, _, versionIhl, high, low, first, portHigh, portLow, vxlan⟩ := accepted_bytes accepted
  have ihl : (versionIhl &&& 0xf).toNat ≤ 15 := by
    rw [BitVec.toNat_and]
    exact Nat.and_le_right
  have stored {k : Nat} {x : BitVec 8} (there : packet[k]? = some x) (small : k < recvRoom) :
      k < bytes.length ∧ bytes.getD k 0 = x := by
    have kept : bytes[k]? = some x := by rw [List.getElem?_take_of_lt small, there]
    exact ⟨(List.getElem?_eq_some_iff.mp kept).1, by rw [List.getD_eq_getElem?_getD, kept, Option.getD_some]⟩
  have room : recvRoom = 2048 := rfl
  have stated : headerLength = 4 * (versionIhl &&& 0xf).toNat := by
    rw [← (stored first (by omega)).2]
  rw [← stated] at portHigh portLow
  obtain ⟨protocolInside, protocol⟩ := stored udp (by omega)
  obtain ⟨_, highByte⟩ := stored portHigh (by omega)
  obtain ⟨lowInside, lowByte⟩ := stored portLow (by omega)
  exact ⟨by omega, protocol, by omega, by rw [highByte, lowByte, vxlan]⟩

/-- An accepted packet is processed inside its bytes exactly when it is long enough for the headers that are
    looked for in it. -/
theorem received_inside_iff {packet : List (BitVec 8)} (accepted : filterAccepts insns (byteBits packet)) :
    StaysInside mapped before (.received packet) ↔ LongEnough mapped (packet.take recvRoom) := by
  obtain ⟨short, protocol, ports, vxlan⟩ := accepted_stored accepted
  generalize bytesEq : packet.take recvRoom = bytes at *
  generalize lengthEq : 4 * (bytes.getD 0 0 &&& 0xf).toNat = headerLength at *
  have byteEq {k : Nat} (inside : k < bytes.length) :
      RteMbuf.byte k ⟨fun k => bytes[k]?.getD (before k), 0, bytes.length⟩ = bytes.getD k 0 :=
    stored_byte inside bytes.length
  have total := Nat.zero_add bytes.length
  rw [StaysInside, netioRx, RecvOutcome.stored, RecvOutcome.dataLen, bytesEq, RteMbuf.tunnelRcv, byteEq (by omega),
    protocol, if_pos rfl, allInside_append, allInside_append, RteMbuf.reads_inside total,
    RteMbuf.reads_inside total, RteMbuf.vxlanTunnelRcv_inside total (by rw [byteEq (by omega), lengthEq]) ports
      (by rw [RteMbuf.halfword, byteEq (by omega), byteEq (by omega), vxlan]),
    LongEnough, lengthEq]
  have readsIn : 0 + 1 ≤ bytes.length ∧ 9 + 1 ≤ bytes.length := by omega
  simp only [readsIn, true_and]
  refine and_congr_right fun headers => ?_
  have halfwordEq {k : Nat} (inside : headerLength + k + 1 < bytes.length) :
      RteMbuf.halfword (headerLength + k) ⟨fun k => bytes[k]?.getD (before k), 0, bytes.length⟩ =
        RteMbuf.halfword k ⟨fun k => bytes.getD k 0, headerLength, bytes.length⟩ := by
    rw [RteMbuf.halfword, byteEq (by omega), byteEq inside]
    rfl
  have wordEq : RteMbuf.word (headerLength + 12) ⟨fun k => bytes[k]?.getD (before k), 0, bytes.length⟩ =
      RteMbuf.word 12 ⟨fun k => bytes.getD k 0, headerLength, bytes.length⟩ := by
    rw [RteMbuf.word, halfwordEq (by omega), Nat.add_assoc, halfwordEq (by omega)]
    rfl
  rw [wordEq]
  refine imp_congr_right fun known => and_congr_right fun addresses => and_congr_right fun ether => ?_
  rw [halfwordEq (by omega)]

/-- The receive path stays inside the packet exactly when a packet was received that is long enough for its
    headers. -/
theorem staysInside_iff {outcome : RecvOutcome}
    (accepted : ∀ packet, outcome = .received packet → filterAccepts insns (byteBits packet)) :
    StaysInside mapped before outcome ↔
      ∃ packet, outcome = .received packet ∧ LongEnough mapped (packet.take recvRoom) := by
  cases outcome with
  | failed =>
    refine iff_of_false failed_not_inside ?_
    rintro ⟨_, impossible, _⟩
    cases impossible
  | received packet =>
    rw [received_inside_iff (accepted packet rfl)]
    exact ⟨fun long => ⟨packet, rfl, long⟩, by rintro ⟨_, same, long⟩; cases same; exact long⟩

/-- UDP to the VXLAN port, with an IPv4 packet in the inner Ethernet frame, and zero bytes otherwise. -/
def vxlanBytes : List (BitVec 8) :=
  (((((List.replicate 70 0#8).set 0 0x45#8).set 9 17#8).set 22 0x12#8).set 23 0xb5#8).set 48 0x08#8

theorem vxlanBytes_inside : StaysInside (fun _ => true) (fun _ => 0#8) (.received vxlanBytes) := by
  refine (staysInside_iff ?_).mpr ⟨vxlanBytes, rfl, by decide⟩
  rintro _ same
  cases same
  exact accepted_of_bytes rfl rfl rfl rfl rfl rfl rfl rfl

/-- A receive that fails, and a packet that ends behind its destination port. -/
theorem receive_leaves_packet :
    ¬ (∀ outcome, (∀ packet, outcome = .received packet → filterAccepts insns (byteBits packet)) →
      StaysInside (fun _ => true) (fun _ => 0#8) outcome) ∧
    ¬ StaysInside (fun _ => true) (fun _ => 0#8) .failed ∧
    filterAccepts insns (byteBits (vxlanBytes.take 24)) ∧
    ¬ StaysInside (fun _ => true) (fun _ => 0#8) (.received (vxlanBytes.take 24)) := by
  have accepted : filterAccepts insns (byteBits (vxlanBytes.take 24)) :=
    accepted_of_bytes rfl rfl rfl rfl rfl rfl rfl rfl
  have failed : ¬ StaysInside (fun _ => true) (fun _ => 0#8) .failed := failed_not_inside
  refine ⟨fun all => failed (all .failed ?_), failed, accepted, ?_⟩
  · rintro _ same
    cases same
  · rw [received_inside_iff accepted]
    decide

end Tao.Agent
