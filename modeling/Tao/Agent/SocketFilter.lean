import Tao.Agent.VxlanRcv
import Tao.Foundation.Bytes

/-! # What the socket filter accepts

The filter sees the bytes of an IP packet.  It accepts the first fragments of UDP packets
to the VXLAN port, and the port is looked for where the header length of the packet says. -/

namespace Tao.Agent

open Tao.Foundation

theorem ipHeaderLength_byteBits {pkt : List (BitVec 8)} {versionIhl : BitVec 8} (there : pkt[0]? = some versionIhl) :
    ipHeaderLength (byteBits pkt) = 4 * (versionIhl &&& 0xf).toNat := by
  rw [← versionIhl_low, show (field 0 8 (byteBits pkt) : BitVec 8) = versionIhl from field_byte (k := 0) there]

theorem fragOffset_byteBits {pkt : List (BitVec 8)} {high low : BitVec 8} (atHigh : pkt[6]? = some high)
    (atLow : pkt[7]? = some low) : fragOffset (byteBits pkt) = (high ++ low).setWidth 13 := by
  have flags : (field 48 16 (byteBits pkt) : BitVec 16) = high ++ low := field_halfword (k := 6) atHigh atLow
  rw [fragOffset, ← flags, field_setWidth 3 rfl]

theorem udpDstPort_byteBits {pkt : List (BitVec 8)} {headerLength : Nat} {high low : BitVec 8}
    (atHigh : pkt[headerLength + 2]? = some high) (atLow : pkt[headerLength + 3]? = some low) :
    udpDstPort headerLength (byteBits pkt) = high ++ low := by
  rw [udpDstPort, show 8 * headerLength + 16 = 8 * (headerLength + 2) by omega]
  exact field_halfword atHigh atLow

variable {pkt : List (BitVec 8)}

theorem accepted_bytes (accepted : filterAccepts insns (byteBits pkt)) :
    pkt[9]? = some 17#8 ∧
      (∃ high low, pkt[6]? = some high ∧ pkt[7]? = some low ∧ (high ++ low).setWidth 13 = 0#13) ∧
      ∃ versionIhl high low, pkt[0]? = some versionIhl ∧
        pkt[4 * (versionIhl &&& 0xf).toNat + 2]? = some high ∧
        pkt[4 * (versionIhl &&& 0xf).toNat + 3]? = some low ∧ high ++ low = 4789#16 := by
  obtain ⟨long, udp, first, ports, vxlan⟩ := filterAccepts_iff.mp accepted
  rw [length_byteBits] at long ports
  have protocol := List.getElem?_eq_getElem (show 9 < pkt.length by omega)
  have flagsHigh := List.getElem?_eq_getElem (show 6 < pkt.length by omega)
  have flagsLow := List.getElem?_eq_getElem (show 7 < pkt.length by omega)
  have versionIhl := List.getElem?_eq_getElem (show 0 < pkt.length by omega)
  rw [ipHeaderLength_byteBits versionIhl] at ports vxlan
  have portHigh := List.getElem?_eq_getElem (show 4 * (pkt[0] &&& 0xf).toNat + 2 < pkt.length by omega)
  have portLow := List.getElem?_eq_getElem (show 4 * (pkt[0] &&& 0xf).toNat + 3 < pkt.length by omega)
  refine ⟨?_, ⟨_, _, flagsHigh, flagsLow, ?_⟩, _, _, _, versionIhl, portHigh, portLow, ?_⟩
  · rw [protocol, ← udp]
    exact congrArg some (field_byte (k := 9) protocol).symm
  · rw [← first, fragOffset_byteBits flagsHigh flagsLow]
  · rw [← vxlan, udpDstPort_byteBits portHigh portLow]

theorem accepted_of_bytes {versionIhl flagsHigh flagsLow portHigh portLow : BitVec 8}
    (protocol : pkt[9]? = some 17#8) (atHigh : pkt[6]? = some flagsHigh) (atLow : pkt[7]? = some flagsLow)
    (first : (flagsHigh ++ flagsLow).setWidth 13 = 0#13) (there : pkt[0]? = some versionIhl)
    (atPortHigh : pkt[4 * (versionIhl &&& 0xf).toNat + 2]? = some portHigh)
    (atPortLow : pkt[4 * (versionIhl &&& 0xf).toNat + 3]? = some portLow) (vxlan : portHigh ++ portLow = 4789#16) :
    filterAccepts insns (byteBits pkt) := by
  have header := ipHeaderLength_byteBits there
  have long := (List.getElem?_eq_some_iff.mp protocol).1
  have ports := (List.getElem?_eq_some_iff.mp atPortLow).1
  rw [filterAccepts_iff, length_byteBits]
  refine ⟨by omega, field_byte (k := 9) protocol, ?_, by omega, ?_⟩
  · rw [fragOffset_byteBits atHigh atLow, first]
  · rw [header, udpDstPort_byteBits atPortHigh atPortLow, vxlan]

/-- The filter accepts a packet of any length exactly when its byte 9 is UDP, the 13 bits of its fragment
    offset are zero, and the two bytes behind the source port are there and hold 4789. -/
theorem socketFilter_iff (pkt : List (BitVec 8)) :
    bpfRun 0 insns 0 0 (byteBits pkt) ≠ 0 ↔
      pkt[9]? = some 17#8 ∧
      (∃ high low, pkt[6]? = some high ∧ pkt[7]? = some low ∧ (high ++ low).setWidth 13 = 0#13) ∧
      ∃ versionIhl high low, pkt[0]? = some versionIhl ∧
        pkt[4 * (versionIhl &&& 0xf).toNat + 2]? = some high ∧
        pkt[4 * (versionIhl &&& 0xf).toNat + 3]? = some low ∧ high ++ low = 4789#16 := by
  refine ⟨accepted_bytes, ?_⟩
  rintro ⟨protocol, ⟨_, _, atHigh, atLow, first⟩, _, _, _, there, atPortHigh, atPortLow, vxlan⟩
  exact accepted_of_bytes protocol atHigh atLow first there atPortHigh atPortLow vxlan

end Tao.Agent
