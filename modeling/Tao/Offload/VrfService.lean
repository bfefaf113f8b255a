import Tao.Agent.VrfRegistry
import Tao.Foundation.Transcript
import Tao.Offload.VrfCleanup

/-! # The VRFs as their users see them

To its users the agent keeps a book of VRFs, in which a name has an id, an internal
address and a router MAC.  The code keeps an array of slots that are taken again after a
deletion, next to the tunnels and the routes of the VRFs.  No call lets the difference be
seen. -/

namespace Tao.Offload

open Tao.Foundation Tao.Agent Tao.Hal

/-! ## Calls -/

/-- Any call of a running agent, or a call on the VRFs and their attributes. -/
inductive ServiceCall where
  | agent (call : AgentCall)
  | count
  | idLookup (vrfName : CString)
  | intipSet (vrfName : CString) (intip : BitVec 32)
  | intipUnset (vrfName : CString)
  | intipGet (vrfName : CString)
  | rmacSet (vrfName : CString) (routeMac : EtherAddr)
  | rmacUnset (vrfName : CString) (routeMac : EtherAddr)
  | rmacGet (vrfName : CString)

inductive VrfAnswer where
  | code (ret : Int)
  | intip (answer : Except Int (BitVec 32))
  | routeMac (answer : Except Int EtherAddr)
  -- What the calls on tunnels, routes and rules return is not a matter of the VRFs.
  | unseen
  deriving DecidableEq

def answered (result : AgentState × Int) : Option (AgentState × VrfAnswer) := some (result.1, .code result.2)

def serviceCall (duplicate : HalDuplicate) (s : AgentState) : ServiceCall → Option (AgentState × VrfAnswer)
  | .agent (.vrf (.vrfAdd vrfName)) => answered (ntbVrfAdd vrfName s)
  | .agent (.vrf (.vrfDel iterate vrfName)) => (ntbVrfDel iterate vrfName s).map fun s => (s, .code 0)
  | .agent call => (agentStep duplicate s call).map fun s => (s, .unseen)
  | .count => some (s, .code (ntbVrfCount s))
  | .idLookup vrfName => some (s, .code (ntbVrfIdLookup vrfName s))
  | .intipSet vrfName intip => answered (ntbVrfIntipSet vrfName intip s)
  | .intipUnset vrfName => answered (ntbVrfIntipUnset vrfName s)
  | .intipGet vrfName => some (s, .intip (ntbVrfIntipGet vrfName s))
  | .rmacSet vrfName routeMac => answered (ntbVrfRmacSet vrfName routeMac s)
  | .rmacUnset vrfName routeMac => answered (ntbVrfRmacUnset vrfName routeMac s)
  | .rmacGet vrfName => some (s, .routeMac (ntbVrfRmacGet vrfName s))

/-! ## The book -/

structure VrfRecord where
  slot : Nat
  internalIp : BitVec 32
  routeMac : EtherAddr
  deriving DecidableEq

abbrev VrfBook := Table CString VrfRecord

/-- The lowest slot that no VRF of the book has. -/
def VrfBook.free (book : VrfBook) : Option Nat :=
  scan (fun i => decide (∀ vrfName ∈ book.keys, (book.lookup vrfName).map VrfRecord.slot ≠ some i)) ntbNrVrf 0

def VrfBook.read (book : VrfBook) (vrfName : CString) : Except Int VrfRecord :=
  match book.lookup vrfName with
  | none => .error ntbVrfNotExist
  | some record => .ok record

/-- A record is changed, or the change is refused with a code. -/
def VrfBook.change (book : VrfBook) (vrfName : CString) (f : VrfRecord → Except Int VrfRecord) : VrfBook × VrfAnswer :=
  match (book.read vrfName).bind f with
  | .error ret => (book, .code ret)
  | .ok record => (book.insert vrfName record, .code 0)

def VrfBook.add (book : VrfBook) (vrfName : CString) : VrfBook × VrfAnswer :=
  if vrfName ∈ book then (book, .code 0)
  else match book.free with
    | none => (book, .code ntbVrfNoent)
    | some i => (book.insert vrfName ⟨i, 0, fakeMac⟩, .code 0)

def VrfBook.call (book : VrfBook) : ServiceCall → VrfBook × VrfAnswer
  | .agent (.vrf (.vrfAdd vrfName)) => book.add vrfName
  | .agent (.vrf (.vrfDel _ vrfName)) => (book.erase vrfName, .code 0)
  | .agent _ => (book, .unseen)
  | .count => (book, .code book.keys.card)
  | .idLookup vrfName => (book, .code ((book.lookup vrfName).elim ntbVrfNotExist fun record => record.slot + 1))
  | .intipSet vrfName intip => book.change vrfName fun record => .ok { record with internalIp := intip }
  | .intipUnset vrfName => book.change vrfName fun record => .ok { record with internalIp := 0 }
  | .intipGet vrfName => (book, .intip ((book.read vrfName).map VrfRecord.internalIp))
  | .rmacSet vrfName routeMac => book.change vrfName fun record => .ok { record with routeMac := routeMac }
  | .rmacUnset vrfName routeMac => book.change vrfName fun record =>
      if routeMac ≠ record.routeMac then .error ntbCommInvalParam else .ok { record with routeMac := fakeMac }
  | .rmacGet vrfName => (book, .routeMac ((book.read vrfName).map VrfRecord.routeMac))

/-! ## Slots and records -/

theorem dpVrfId_toInt {i : Nat} (inside : i < ntbNrVrf) : (dpVrfId i).toInt = i + 1 := by
  have bound : i < 4096 := inside
  rw [dpVrfId, BitVec.toInt_eq_toNat_of_lt (by rw [BitVec.toNat_ofNat]; omega), BitVec.toNat_ofNat,
    Nat.mod_eq_of_lt (by omega)]
  push_cast
  rfl

/-- The book has the VRFs of the slots, each with its attributes.  A free slot has no address left over. -/
structure Represents (s : AgentState) (book : VrfBook) : Prop where
  registered : ∃ slots, Registered ⟨s, slots⟩ ∧
    ∀ vrfName, slots.lookup vrfName = (book.lookup vrfName).map VrfRecord.slot
  attributes : ∀ vrfName record, book.lookup vrfName = some record →
    (s.gNtbVrfs record.slot).dp.internalIp = record.internalIp ∧
      (s.gNtbVrfs record.slot).dp.routeMac = record.routeMac
  listed : ∀ i < ntbNrVrf, (s.gNtbVrfs i).valid = true → ∃ vrfName record,
    book.lookup vrfName = some record ∧ record.slot = i
  idle : ∀ i, (s.gNtbVrfs i).valid = false → (s.gNtbVrfs i).dp.internalIp = 0
  count : s.gNtbVrfN = book.keys.card

section Represented

variable {s s' : AgentState} {book : VrfBook} {vrfName : CString}

theorem Represents.ntbVrfLookup_eq (represents : Represents s book) (vrfName : CString) :
    ntbVrfLookup vrfName s = (book.lookup vrfName).map VrfRecord.slot := by
  obtain ⟨slots, names, same⟩ := represents.registered
  rw [← same]
  exact names.ntbVrfLookup_eq vrfName

theorem Represents.slot_injective (represents : Represents s book) {other : CString} {record otherRecord : VrfRecord}
    (held : book.lookup vrfName = some record) (otherHeld : book.lookup other = some otherRecord)
    (same : record.slot = otherRecord.slot) : vrfName = other := by
  obtain ⟨slots, names, agree⟩ := represents.registered
  have first := SlotArray.find_holds ((names.lookup vrfName).trans ((agree vrfName).trans (by rw [held, Option.map_some])))
  have second := SlotArray.find_holds ((names.lookup other).trans ((agree other).trans (by rw [otherHeld, Option.map_some])))
  rw [same, second.2] at first
  exact CString.bytes_injective (Option.some.inj first.2).symm

theorem Represents.valid (represents : Represents s book) {record : VrfRecord} (held : book.lookup vrfName = some record) :
    record.slot < ntbNrVrf ∧ (s.gNtbVrfs record.slot).valid = true :=
  ntbVrfLookup_some (by rw [represents.ntbVrfLookup_eq vrfName, held, Option.map_some])

theorem Represents.free_eq (represents : Represents s book) :
    book.free = scan (fun i => !(s.gNtbVrfs i).valid) ntbNrVrf 0 := by
  refine scan_congr fun i _ inside => ?_
  rw [Nat.zero_add] at inside
  rw [Bool.eq_iff_iff, decide_eq_true_iff, Bool.not_eq_true', ← Bool.not_eq_true]
  constructor
  · intro unused valid
    obtain ⟨vrfName, record, held, rfl⟩ := represents.listed i inside valid
    exact unused vrfName (Finmap.mem_keys.mpr (Finmap.mem_of_lookup_eq_some held)) (by rw [held, Option.map_some])
  · intro invalid vrfName _ held
    obtain ⟨record, there, rfl⟩ := Option.map_eq_some_iff.mp held
    exact invalid (represents.valid there).2

structure SameVrfs (s s' : AgentState) : Prop where
  heldName : s'.heldName = s.heldName
  valid : ∀ i, (s'.gNtbVrfs i).valid = (s.gNtbVrfs i).valid
  internalIp : ∀ i, (s'.gNtbVrfs i).dp.internalIp = (s.gNtbVrfs i).dp.internalIp
  routeMac : ∀ i, (s'.gNtbVrfs i).dp.routeMac = (s.gNtbVrfs i).dp.routeMac
  count : s'.gNtbVrfN = s.gNtbVrfN

/-- The list and the count of the tunnels of a VRF are not seen. -/
theorem SameVrfs.of_slots (slots : ∀ i, ∃ tunnelRmap tunnelCnt, s'.gNtbVrfs i = { s.gNtbVrfs i with
      dp := { (s.gNtbVrfs i).dp with tunnelRmap := tunnelRmap, tunnelCnt := tunnelCnt } })
    (count : s'.gNtbVrfN = s.gNtbVrfN) : SameVrfs s s' where
  heldName := by
    funext i
    obtain ⟨_, _, slot⟩ := slots i
    simp only [AgentState.heldName, slot]
  valid := by intro i; obtain ⟨_, _, slot⟩ := slots i; rw [slot]
  internalIp := by intro i; obtain ⟨_, _, slot⟩ := slots i; rw [slot]
  routeMac := by intro i; obtain ⟨_, _, slot⟩ := slots i; rw [slot]
  count := count

theorem Represents.same (represents : Represents s book) (same : SameVrfs s s') : Represents s' book where
  registered := by
    obtain ⟨slots, names, agree⟩ := represents.registered
    exact ⟨slots, ⟨by simpa only [same.heldName] using names.lookup, by simpa only [same.heldName] using names.distinct,
      by simpa only [same.heldName, same.count] using names.count⟩, agree⟩
  attributes := by simpa only [same.internalIp, same.routeMac] using represents.attributes
  listed := by simpa only [same.valid] using represents.listed
  idle := by simpa only [same.valid, same.internalIp] using represents.idle
  count := same.count.trans represents.count

end Represented

/-! ## Calls that are no matter of the VRFs -/

theorem SameVrfs.of_eq {s s' : AgentState} (slots : s'.gNtbVrfs = s.gNtbVrfs) (count : s'.gNtbVrfN = s.gNtbVrfN) :
    SameVrfs s s' :=
  .of_slots (fun i => ⟨_, _, congrFun slots i⟩) count

theorem SameVrfs.of_updateDp {s s' : AgentState} (i : Nat) (tunnelRmap : VrfDp → List Addr) (tunnelCnt : VrfDp → Nat)
    (slots : s'.gNtbVrfs = (s.updateDp i fun dp =>
      { dp with tunnelRmap := tunnelRmap dp, tunnelCnt := tunnelCnt dp }).gNtbVrfs)
    (count : s'.gNtbVrfN = s.gNtbVrfN) : SameVrfs s s' := by
  refine .of_slots (fun j => ?_) count
  rw [slots]
  by_cases here : j = i
  · rw [here, AgentState.updateDp_self]
    exact ⟨_, _, rfl⟩
  · rw [AgentState.updateDp_of_ne here]
    exact ⟨_, _, rfl⟩

theorem ntbTunnelMapVrf_sameVrfs {env : TunnelEnv} {vrfName : CString} {type : NtbTunnelType} {id : NtbTunnelId}
    {s : AgentState} {result : AgentState × Int} (mapped : ntbTunnelMapVrf env vrfName type id s = some result) :
    SameVrfs s result.1 := by
  unfold ntbTunnelMapVrf at mapped
  repeat' split at mapped
  all_goals cases mapped
  case h_2.refl i _ _ _ _ a _ _ vrfHashTbl _ =>
    exact .of_updateDp i (fun dp => a :: dp.tunnelRmap) (fun dp => dp.tunnelCnt + 1) rfl rfl
  all_goals exact .of_eq rfl rfl

theorem ntbTunnelUnmapVrf_sameVrfs {accepts : Bool} {type : NtbTunnelType} {id : NtbTunnelId}
    {s : AgentState} {result : AgentState × Int} (unmapped : ntbTunnelUnmapVrf accepts type id s = some result) :
    SameVrfs s result.1 := by
  unfold ntbTunnelUnmapVrf at unmapped
  repeat' split at unmapped
  all_goals cases unmapped
  case h_2.refl i _ _ tunnelRmap _ =>
    exact .of_updateDp i (fun _ => tunnelRmap) (fun dp => decrement32 dp.tunnelCnt) rfl rfl
  all_goals exact .of_eq rfl rfl

theorem shcSwTohwRule_sameVrfs {duplicate : HalDuplicate} {env : RuleEnv} {vni : BitVec 32} {ipSrcAddr ipDstAddr : Ip4}
    {flagOfAddDel : Int} {s : AgentState} {result : AgentState × Int}
    (programmed : shcSwTohwRule duplicate env vni ipSrcAddr ipDstAddr flagOfAddDel s = some result) :
    SameVrfs s result.1 := by
  unfold shcSwTohwRule at programmed
  repeat' split at programmed
  all_goals cases programmed <;> exact .of_eq rfl rfl

/-! ## VRFs come and go -/

section Calls

variable {s s' : AgentState} {book : VrfBook} {vrfName : CString}

theorem Represents.slot_ne (represents : Represents s book) {other : CString} {record otherRecord : VrfRecord}
    (held : book.lookup vrfName = some record) (otherHeld : book.lookup other = some otherRecord)
    (different : other ≠ vrfName) : otherRecord.slot ≠ record.slot :=
  fun same => different (represents.slot_injective otherHeld held same)

theorem ntbVrfAdd_filled {i : Nat} (missing : ntbVrfLookup vrfName s = none)
    (room : scan (fun i => !(s.gNtbVrfs i).valid) ntbNrVrf 0 = some i) : ∃ s', ntbVrfAdd vrfName s = (s', 0) ∧
      (∀ j, j ≠ i → s'.gNtbVrfs j = s.gNtbVrfs j) ∧ (s'.gNtbVrfs i).valid = true ∧
      (s'.gNtbVrfs i).name = .strncpy vrfName ∧ (s'.gNtbVrfs i).dp.internalIp = (s.gNtbVrfs i).dp.internalIp ∧
      (s'.gNtbVrfs i).dp.routeMac = fakeMac ∧ s'.gNtbVrfN = s.gNtbVrfN + 1 := by
  refine ⟨_, by simp only [ntbVrfAdd, missing, room]; rfl, fun j different => ?_, ?_, ?_, ?_, ?_, rfl⟩
  · simp only [ntbVrfDpCtor, Function.update_of_ne different, AgentState.updateDp_of_ne different]
  all_goals simp [ntbVrfDpCtor]

theorem heldName_update {s s' : AgentState} {i : Nat} (others : ∀ j, j ≠ i → s'.gNtbVrfs j = s.gNtbVrfs j) :
    s'.heldName = Function.update s.heldName i (s'.heldName i) := by
  funext j
  by_cases here : j = i
  · rw [here, Function.update_self]
  · rw [Function.update_of_ne here, AgentState.heldName, AgentState.heldName, others j here]

theorem Represents.filled (represents : Represents s book) {i : Nat} (fits : vrfName.Fits)
    (absent : book.lookup vrfName = none) (inside : i < ntbNrVrf) (free : (s.gNtbVrfs i).valid = false)
    (others : ∀ j, j ≠ i → s'.gNtbVrfs j = s.gNtbVrfs j) (valid : (s'.gNtbVrfs i).valid = true)
    (name : (s'.gNtbVrfs i).name = .strncpy vrfName)
    (internalIp : (s'.gNtbVrfs i).dp.internalIp = (s.gNtbVrfs i).dp.internalIp)
    (routeMac : (s'.gNtbVrfs i).dp.routeMac = fakeMac) (count : s'.gNtbVrfN = s.gNtbVrfN + 1) :
    Represents s' (book.insert vrfName ⟨i, 0, fakeMac⟩) where
  registered := by
    obtain ⟨slots, names, agree⟩ := represents.registered
    have unlisted : slots.lookup vrfName = none := by rw [agree, absent, Option.map_none]
    have empty : s.heldName i = none := by simp [AgentState.heldName, free]
    have taken : s'.heldName i = some vrfName.bytes :=
      AgentState.heldName_eq_some.mpr ⟨valid, by rw [name]; exact strncpy_read_iff.mpr fits⟩
    refine ⟨slots.insert vrfName i, names.filled unlisted inside empty rfl count ?_, fun other => ?_⟩
    · rw [← taken]
      exact heldName_update others
    · rw [Table.lookup_insert_eq, Table.lookup_insert_eq, agree]
      split <;> rfl
  attributes := by
    intro other record held
    rcases Table.lookup_insert_eq_some.mp held with ⟨rfl, rfl⟩ | ⟨_, older⟩
    · exact ⟨internalIp.trans (represents.idle i free), routeMac⟩
    · have elsewhere : record.slot ≠ i := by
        rintro rfl
        rw [(represents.valid older).2] at free; cases free
      rw [others record.slot elsewhere]
      exact represents.attributes other record older
  listed := by
    intro j insideJ validJ
    by_cases here : j = i
    · exact ⟨vrfName, _, Finmap.lookup_insert _, here.symm⟩
    · rw [others j here] at validJ
      obtain ⟨other, record, held, slot⟩ := represents.listed j insideJ validJ
      have different : other ≠ vrfName := by
        rintro rfl
        rw [absent] at held; cases held
      exact ⟨other, record, by rw [Finmap.lookup_insert_of_ne _ different, held], slot⟩
  idle := by
    intro j invalid
    by_cases here : j = i
    · rw [here, valid] at invalid; cases invalid
    · rw [others j here] at invalid ⊢
      exact represents.idle j invalid
  count := by
    rw [count, represents.count, Table.card_keys_insert absent]
    push_cast
    rfl

theorem Represents.vrfAdd (represents : Represents s book) (fits : vrfName.Fits) :
    .code (ntbVrfAdd vrfName s).2 = (book.add vrfName).2 ∧
      Represents (ntbVrfAdd vrfName s).1 (book.add vrfName).1 := by
  cases held : book.lookup vrfName with
  | some record =>
    have found : ntbVrfLookup vrfName s = some record.slot := by
      rw [represents.ntbVrfLookup_eq, held, Option.map_some]
    have kept : ntbVrfAdd vrfName s = (s, 0) := by simp only [ntbVrfAdd, found]
    rw [kept, VrfBook.add, if_pos (Finmap.mem_of_lookup_eq_some held)]
    exact ⟨rfl, represents⟩
  | none =>
    have missing : ntbVrfLookup vrfName s = none := by rw [represents.ntbVrfLookup_eq, held, Option.map_none]
    rw [VrfBook.add, if_neg (Finmap.lookup_eq_none.mp held), represents.free_eq]
    cases room : scan (fun i => !(s.gNtbVrfs i).valid) ntbNrVrf 0 with
    | none =>
      have refused : ntbVrfAdd vrfName s = (s, ntbVrfNoent) := by simp only [ntbVrfAdd, missing, room]
      rw [refused]
      exact ⟨rfl, represents⟩
    | some i =>
      obtain ⟨_, high, free, _⟩ := scan_eq_some.mp room
      obtain ⟨s', added, others, valid, name, internalIp, routeMac, count⟩ := ntbVrfAdd_filled missing room
      rw [added]
      exact ⟨rfl, represents.filled fits held (by omega) (by simpa using free) others valid name internalIp routeMac count⟩

theorem ntbVrfDel_emptied {iterate : RteHashIterate} {i : Nat} (found : ntbVrfLookup vrfName s = some i)
    (deleted : ntbVrfDel iterate vrfName s = some s') :
    (∀ j, j ≠ i → s'.gNtbVrfs j = s.gNtbVrfs j) ∧ (s'.gNtbVrfs i).valid = false ∧
      (s'.gNtbVrfs i).dp.internalIp = 0 ∧ s'.gNtbVrfN = s.gNtbVrfN - 1 := by
  simp only [ntbVrfDel, found] at deleted
  obtain ⟨t, torn, rfl⟩ := Option.map_eq_some_iff.mp deleted
  unfold ntbVrfDpDtor at torn
  split at torn
  · cases torn
  · obtain ⟨u, freed, rfl⟩ := Option.map_eq_some_iff.mp torn
    obtain ⟨rest, _, rfl⟩ := Option.map_eq_some_iff.mp freed
    refine ⟨fun j different => ?_, by simp, by simp, rfl⟩
    simp [Function.update_of_ne different, AgentState.updateDp_of_ne different]

theorem Represents.cleared (represents : Represents s book) {record : VrfRecord} (held : book.lookup vrfName = some record)
    (others : ∀ j, j ≠ record.slot → s'.gNtbVrfs j = s.gNtbVrfs j) (invalid : (s'.gNtbVrfs record.slot).valid = false)
    (internalIp : (s'.gNtbVrfs record.slot).dp.internalIp = 0) (count : s'.gNtbVrfN = s.gNtbVrfN - 1) :
    Represents s' (book.erase vrfName) where
  registered := by
    obtain ⟨slots, names, agree⟩ := represents.registered
    have listed : slots.lookup vrfName = some record.slot := by rw [agree, held, Option.map_some]
    have empty : s'.heldName record.slot = none := by simp [AgentState.heldName, invalid]
    refine ⟨slots.erase vrfName, names.cleared listed rfl count ?_, fun other => ?_⟩
    · rw [← empty]
      exact heldName_update others
    · rw [Table.lookup_erase_eq, Table.lookup_erase_eq, agree]
      split <;> rfl
  attributes := by
    intro other otherRecord found
    obtain ⟨different, older⟩ := Table.lookup_erase_eq_some.mp found
    rw [others _ (represents.slot_ne held older different)]
    exact represents.attributes other otherRecord older
  listed := by
    intro j inside valid
    by_cases here : j = record.slot
    · rw [here, invalid] at valid; cases valid
    · rw [others j here] at valid
      obtain ⟨other, otherRecord, found, slot⟩ := represents.listed j inside valid
      refine ⟨other, otherRecord, Table.lookup_erase_eq_some.mpr ⟨?_, found⟩, slot⟩
      rintro rfl
      rw [held, Option.some.injEq] at found
      exact here (by rw [← slot, found])
  idle := by
    intro j idle
    by_cases here : j = record.slot
    · rw [here, internalIp]
    · rw [others j here] at idle ⊢
      exact represents.idle j idle
  count := by
    have cards := Table.card_keys_erase held
    rw [count, represents.count]
    omega

theorem Represents.vrfDel (represents : Represents s book) {iterate : RteHashIterate}
    (deleted : ntbVrfDel iterate vrfName s = some s') : Represents s' (book.erase vrfName) := by
  cases held : book.lookup vrfName with
  | none =>
    have missing : ntbVrfLookup vrfName s = none := by rw [represents.ntbVrfLookup_eq, held, Option.map_none]
    rw [ntbVrfDel_absent iterate missing] at deleted
    obtain rfl := Option.some.inj deleted
    have kept : book.erase vrfName = book := Finmap.ext_lookup fun other => by
      rw [Table.lookup_erase_eq]
      split
      · next same => rw [same, held]
      · rfl
    rwa [kept]
  | some record =>
    have found : ntbVrfLookup vrfName s = some record.slot := by
      rw [represents.ntbVrfLookup_eq, held, Option.map_some]
    obtain ⟨others, invalid, internalIp, count⟩ := ntbVrfDel_emptied found deleted
    exact represents.cleared held others invalid internalIp count

/-! ## Attributes -/

structure Records (record : VrfRecord) (i : Nat) (dp : VrfDp) : Prop where
  slot : record.slot = i
  internalIp : dp.internalIp = record.internalIp
  routeMac : dp.routeMac = record.routeMac

theorem updateDp_heldName (i : Nat) (f : VrfDp → VrfDp) (s : AgentState) : (s.updateDp i f).heldName = s.heldName := by
  funext j
  by_cases here : j = i
  · rw [here, AgentState.heldName, AgentState.updateDp_self, AgentState.heldName]
  · rw [AgentState.heldName, AgentState.updateDp_of_ne here, AgentState.heldName]

theorem updateDp_valid (i : Nat) (f : VrfDp → VrfDp) (s : AgentState) (j : Nat) :
    ((s.updateDp i f).gNtbVrfs j).valid = (s.gNtbVrfs j).valid := by
  by_cases here : j = i
  · rw [here, AgentState.updateDp_self]
  · rw [AgentState.updateDp_of_ne here]

theorem Represents.changed (represents : Represents s book) {record changed : VrfRecord} {f : VrfDp → VrfDp}
    (held : book.lookup vrfName = some record)
    (records : Records changed record.slot (f (s.gNtbVrfs record.slot).dp)) :
    Represents (s.updateDp record.slot f) (book.insert vrfName changed) where
  registered := by
    obtain ⟨slots, names, agree⟩ := represents.registered
    refine ⟨slots, ⟨by simpa only [updateDp_heldName] using names.lookup,
      by simpa only [updateDp_heldName] using names.distinct,
      names.count.trans (by simp only [updateDp_heldName])⟩, fun other => ?_⟩
    rw [agree, Table.lookup_insert_eq]
    by_cases same : other = vrfName
    · rw [if_pos same, same, held, Option.map_some, Option.map_some, records.slot]
    · rw [if_neg same]
  attributes := by
    intro other otherRecord found
    rcases Table.lookup_insert_eq_some.mp found with ⟨rfl, rfl⟩ | ⟨different, older⟩
    · rw [records.slot, AgentState.updateDp_self]
      exact ⟨records.internalIp, records.routeMac⟩
    · rw [AgentState.updateDp_of_ne (represents.slot_ne held older different)]
      exact represents.attributes other otherRecord older
  listed := by
    intro j inside valid
    rw [updateDp_valid] at valid
    obtain ⟨other, otherRecord, found, slot⟩ := represents.listed j inside valid
    by_cases same : other = vrfName
    · rw [same, held, Option.some.injEq] at found
      exact ⟨vrfName, changed, Finmap.lookup_insert _, by rw [records.slot, found, slot]⟩
    · exact ⟨other, otherRecord, by rw [Finmap.lookup_insert_of_ne _ same, found], slot⟩
  idle := by
    intro j idle
    rw [updateDp_valid] at idle
    have elsewhere : j ≠ record.slot := by
      rintro rfl
      rw [(represents.valid held).2] at idle; cases idle
    rw [AgentState.updateDp_of_ne elsewhere]
    exact represents.idle j idle
  count := by
    rw [Table.keys_overwrite held]
    exact represents.count

/-- A call that changes the attributes of a VRF, or refuses to. -/
theorem Represents.change (represents : Represents s book) {f : VrfRecord → Except Int VrfRecord}
    {result : AgentState × Int} (missing : ntbVrfLookup vrfName s = none → result = (s, ntbVrfNotExist))
    (found : ∀ record, ntbVrfLookup vrfName s = some record.slot →
      Records record record.slot (s.gNtbVrfs record.slot).dp →
      (∃ ret, f record = .error ret ∧ result = (s, ret)) ∨
      ∃ changed g, f record = .ok changed ∧ result = (s.updateDp record.slot g, 0) ∧
        Records changed record.slot (g (s.gNtbVrfs record.slot).dp)) :
    .code result.2 = (book.change vrfName f).2 ∧ Represents result.1 (book.change vrfName f).1 := by
  have lookup := represents.ntbVrfLookup_eq vrfName
  cases held : book.lookup vrfName with
  | none =>
    rw [held, Option.map_none] at lookup
    simp only [VrfBook.change, VrfBook.read, held, missing lookup]
    exact ⟨rfl, represents⟩
  | some record =>
    rw [held, Option.map_some] at lookup
    have attributes := represents.attributes vrfName record held
    rcases found record lookup ⟨rfl, attributes.1, attributes.2⟩ with
      ⟨ret, refused, result⟩ | ⟨changed, g, accepted, result, records⟩
    · simp only [VrfBook.change, VrfBook.read, held, Except.bind, refused, result]
      exact ⟨trivial, represents⟩
    · simp only [VrfBook.change, VrfBook.read, held, Except.bind, accepted, result]
      exact ⟨trivial, represents.changed held records⟩

theorem Represents.intipSet (represents : Represents s book) (intip : BitVec 32) :
    .code (ntbVrfIntipSet vrfName intip s).2 = (book.call (.intipSet vrfName intip)).2 ∧
      Represents (ntbVrfIntipSet vrfName intip s).1 (book.call (.intipSet vrfName intip)).1 := by
  refine represents.change (fun missing => by simp only [ntbVrfIntipSet, missing]) fun record found records => ?_
  exact .inr ⟨_, _, rfl, by simp only [ntbVrfIntipSet, found]; rfl, rfl, rfl, records.routeMac⟩

theorem Represents.rmacSet (represents : Represents s book) (routeMac : EtherAddr) :
    .code (ntbVrfRmacSet vrfName routeMac s).2 = (book.call (.rmacSet vrfName routeMac)).2 ∧
      Represents (ntbVrfRmacSet vrfName routeMac s).1 (book.call (.rmacSet vrfName routeMac)).1 := by
  refine represents.change (fun missing => by simp only [ntbVrfRmacSet, missing]) fun record found records => ?_
  exact .inr ⟨_, _, rfl, by simp only [ntbVrfRmacSet, found]; rfl, rfl, records.internalIp, rfl⟩

theorem Represents.rmacUnset (represents : Represents s book) (routeMac : EtherAddr) :
    .code (ntbVrfRmacUnset vrfName routeMac s).2 = (book.call (.rmacUnset vrfName routeMac)).2 ∧
      Represents (ntbVrfRmacUnset vrfName routeMac s).1 (book.call (.rmacUnset vrfName routeMac)).1 := by
  refine represents.change (fun missing => by simp only [ntbVrfRmacUnset, missing]) fun record found records => ?_
  by_cases other : routeMac ≠ record.routeMac
  · refine .inl ⟨ntbCommInvalParam, if_pos other, ?_⟩
    simp only [ntbVrfRmacUnset, found, records.routeMac, if_pos other]
  · refine .inr ⟨_, fun dp => { dp with routeMac := fakeMac }, if_neg other, ?_, rfl, records.internalIp, rfl⟩
    simp only [ntbVrfRmacUnset, found, records.routeMac, if_neg other]

/-- A call that reads what a slot has reads what its record has. -/
theorem Represents.read (represents : Represents s book) (vrfName : CString) :
    (ntbVrfLookup vrfName s = none ∧ book.read vrfName = .error ntbVrfNotExist) ∨
    ∃ record, ntbVrfLookup vrfName s = some record.slot ∧ book.read vrfName = .ok record ∧
      Records record record.slot (s.gNtbVrfs record.slot).dp := by
  have lookup := represents.ntbVrfLookup_eq vrfName
  cases held : book.lookup vrfName with
  | none => exact .inl ⟨by rw [lookup, held, Option.map_none], by simp only [VrfBook.read, held]⟩
  | some record =>
    have attributes := represents.attributes vrfName record held
    exact .inr ⟨record, by rw [lookup, held, Option.map_some], by simp only [VrfBook.read, held],
      rfl, attributes.1, attributes.2⟩

/-! ## Runs -/

def ServiceCall.Fits (call : ServiceCall) : Prop :=
  ∀ vrfName, call = .agent (.vrf (.vrfAdd vrfName)) → vrfName.Fits

theorem serviceCall_simulated {duplicate : HalDuplicate} {call : ServiceCall} {answer : VrfAnswer}
    (represents : Represents s book) (fits : call.Fits)
    (called : serviceCall duplicate s call = some (s', answer)) :
    answer = (book.call call).2 ∧ Represents s' (book.call call).1 := by
  cases call with
  | agent call =>
    cases call with
    | vrf call =>
      cases call with
      | vrfAdd vrfName =>
        cases called
        exact represents.vrfAdd (fits vrfName rfl)
      | vrfDel iterate vrfName =>
        obtain ⟨_, deleted, same⟩ := Option.map_eq_some_iff.mp called
        cases same
        exact ⟨rfl, represents.vrfDel deleted⟩
      | tunnelMap env vrfName type id =>
        obtain ⟨_, stepped, same⟩ := Option.map_eq_some_iff.mp called
        cases same
        obtain ⟨result, mapped, rfl⟩ := Option.map_eq_some_iff.mp stepped
        exact ⟨rfl, represents.same (ntbTunnelMapVrf_sameVrfs mapped)⟩
      | tunnelUnmap accepts type id =>
        obtain ⟨_, stepped, same⟩ := Option.map_eq_some_iff.mp called
        cases same
        obtain ⟨result, unmapped, rfl⟩ := Option.map_eq_some_iff.mp stepped
        exact ⟨rfl, represents.same (ntbTunnelUnmapVrf_sameVrfs unmapped)⟩
    | route call =>
      obtain ⟨_, stepped, same⟩ := Option.map_eq_some_iff.mp called
      cases same
      obtain ⟨route, _, rfl⟩ := Option.map_eq_some_iff.mp stepped
      exact ⟨rfl, represents.same (.of_eq rfl rfl)⟩
    | rule env vni ipSrcAddr ipDstAddr flagOfAddDel =>
      obtain ⟨_, stepped, same⟩ := Option.map_eq_some_iff.mp called
      cases same
      obtain ⟨result, programmed, rfl⟩ := Option.map_eq_some_iff.mp stepped
      exact ⟨rfl, represents.same (shcSwTohwRule_sameVrfs programmed)⟩
  | count =>
    cases called
    exact ⟨congrArg VrfAnswer.code represents.count, represents⟩
  | idLookup vrfName =>
    cases called
    refine ⟨congrArg VrfAnswer.code ?_, represents⟩
    have lookup := represents.ntbVrfLookup_eq vrfName
    cases held : book.lookup vrfName with
    | none =>
      rw [held, Option.map_none] at lookup
      simp only [ntbVrfIdLookup, lookup, Option.elim_none]
    | some record =>
      rw [held, Option.map_some] at lookup
      simp only [ntbVrfIdLookup, lookup, Option.elim_some]
      exact dpVrfId_toInt (represents.valid held).1
  | intipSet vrfName intip =>
    cases called
    exact represents.intipSet intip
  | intipUnset vrfName =>
    cases called
    exact represents.intipSet 0
  | intipGet vrfName =>
    cases called
    refine ⟨congrArg VrfAnswer.intip ?_, represents⟩
    rcases represents.read vrfName with ⟨missing, unread⟩ | ⟨record, found, read, records⟩
    · simp only [ntbVrfIntipGet, missing, unread, Except.map]
    · simp only [ntbVrfIntipGet, found, read, Except.map, records.internalIp]
  | rmacSet vrfName routeMac =>
    cases called
    exact represents.rmacSet routeMac
  | rmacUnset vrfName routeMac =>
    cases called
    exact represents.rmacUnset routeMac
  | rmacGet vrfName =>
    cases called
    refine ⟨congrArg VrfAnswer.routeMac ?_, represents⟩
    rcases represents.read vrfName with ⟨missing, unread⟩ | ⟨record, found, read, records⟩
    · simp only [ntbVrfRmacGet, missing, unread, Except.map]
    · simp only [ntbVrfRmacGet, found, read, Except.map, records.routeMac]

end Calls

theorem represents_initial : Represents .initial ∅ where
  registered := ⟨∅, RegistryRun.initial_registered, fun _ => rfl⟩
  attributes := by intro vrfName record held; cases held
  listed := by intro i _ valid; cases valid
  idle := fun _ _ => rfl
  count := rfl

/-- Whatever else an agent does in between, its VRFs answer as a book of VRFs does, as long as the names that
    are added fit. -/
theorem vrfs_answer_as_book (duplicate : HalDuplicate) (calls : List ServiceCall) (s : AgentState)
    (entries : List (ServiceCall × VrfAnswer))
    (reached : transcript (serviceCall duplicate) .initial calls = some (s, entries))
    (fit : ∀ call ∈ calls, call.Fits) : entries.map Prod.snd = (specCallAll VrfBook.call ∅ calls).2 := by
  refine (@transcript_simulated _ _ _ _ (serviceCall duplicate) VrfBook.call Represents ServiceCall.Fits ?_ _ _ _ _ _
    represents_initial fit reached).1
  exact fun _ _ _ _ _ represents fits called => serviceCall_simulated represents fits called

/-! ### Calls on VRFs alone -/

/-- The call leaves tunnels and routes alone, but for those of a VRF that it deletes. -/
def ServiceCall.Registry : ServiceCall → Prop
  | .agent (.vrf (.vrfAdd _)) => True
  | .agent (.vrf (.vrfDel _ _)) => True
  | .agent _ => False
  | _ => True

theorem untunneled_updateDp {s : AgentState} (untunneled : Untunneled ⟨s, ∅⟩) (i : Nat) {f : VrfDp → VrfDp}
    (kept : ∀ dp, (f dp).tunnelRmap = dp.tunnelRmap) : Untunneled ⟨s.updateDp i f, ∅⟩ := by
  refine ⟨untunneled.accounted, fun j => ?_⟩
  have empty := untunneled.rmap j
  by_cases here : j = i
  · rw [here] at empty ⊢
    rw [AgentState.tunnelRmap, AgentState.updateDp_self]
    exact (kept _).trans empty
  · rw [AgentState.tunnelRmap, AgentState.updateDp_of_ne here]
    exact empty

theorem serviceCall_defined {duplicate : HalDuplicate} {s : AgentState} {call : ServiceCall}
    (registry : call.Registry) (untunneled : Untunneled ⟨s, ∅⟩) :
    ∃ s' answer, serviceCall duplicate s call = some (s', answer) ∧ Untunneled ⟨s', ∅⟩ := by
  have changed (result : AgentState × Int) (kept : Untunneled ⟨result.1, ∅⟩) :
      ∃ s' answer, answered result = some (s', answer) ∧ Untunneled ⟨s', ∅⟩ := ⟨_, _, rfl, kept⟩
  cases call with
  | agent call =>
    cases call with
    | vrf call =>
      cases call with
      | vrfAdd vrfName =>
        refine changed _ ⟨(untunneled.vrfAdd vrfName).accounted, (untunneled.vrfAdd vrfName).rmap⟩
      | vrfDel iterate vrfName =>
        cases found : ntbVrfLookup vrfName s with
        | none =>
          exact ⟨s, .code 0, by simp only [serviceCall, ntbVrfDel_absent iterate found, Option.map_some], untunneled⟩
        | some i =>
          obtain ⟨s', result, deleted, _⟩ := ntbVrfDel_slots iterate untunneled.accounted (untunneled.rmap i) found
          refine ⟨s', .code 0, by simp only [serviceCall, result, Option.map_some], deleted.accounted, fun j => ?_⟩
          by_cases here : j = i
          · rw [here]
            exact deleted.slot.2
          · rw [AgentState.tunnelRmap, deleted.others j here]
            exact untunneled.rmap j
      | tunnelMap env vrfName type id => exact registry.elim
      | tunnelUnmap accepts type id => exact registry.elim
    | route call => exact registry.elim
    | rule env vni ipSrcAddr ipDstAddr flagOfAddDel => exact registry.elim
  | count => exact ⟨s, _, rfl, untunneled⟩
  | idLookup vrfName => exact ⟨s, _, rfl, untunneled⟩
  | intipSet vrfName intip =>
    refine changed _ ?_
    unfold ntbVrfIntipSet
    split
    · exact untunneled
    · dsimp only
      exact untunneled_updateDp untunneled _ fun _ => rfl
  | intipUnset vrfName =>
    refine changed _ ?_
    unfold ntbVrfIntipUnset ntbVrfIntipSet
    split
    · exact untunneled
    · dsimp only
      exact untunneled_updateDp untunneled _ fun _ => rfl
  | intipGet vrfName => exact ⟨s, _, rfl, untunneled⟩
  | rmacSet vrfName routeMac =>
    refine changed _ ?_
    unfold ntbVrfRmacSet
    split
    · exact untunneled
    · dsimp only
      exact untunneled_updateDp untunneled _ fun _ => rfl
  | rmacUnset vrfName routeMac =>
    refine changed _ ?_
    unfold ntbVrfRmacUnset
    split
    · exact untunneled
    · split
      · exact untunneled
      · dsimp only
        exact untunneled_updateDp untunneled _ fun _ => rfl
  | rmacGet vrfName => exact ⟨s, _, rfl, untunneled⟩

/-- Calls on VRFs alone never run into undefined behaviour. -/
theorem registryCalls_defined {duplicate : HalDuplicate} {s : AgentState} {calls : List ServiceCall}
    (registry : ∀ call ∈ calls, call.Registry) (untunneled : Untunneled ⟨s, ∅⟩) :
    ∃ s' entries, transcript (serviceCall duplicate) s calls = some (s', entries) := by
  induction calls generalizing s with
  | nil => exact ⟨s, [], rfl⟩
  | cons call calls inductionHypothesis =>
    obtain ⟨next, answer, called, kept⟩ :=
      @serviceCall_defined duplicate _ _ (registry call List.mem_cons_self) untunneled
    obtain ⟨s', later, rest⟩ :=
      inductionHypothesis (fun other member => registry other (List.mem_cons_of_mem call member)) kept
    exact ⟨s', _, transcript_cons.mpr ⟨next, answer, later, called, rest, rfl⟩⟩

def blueVrf : CString := ⟨[0x62, 0x6c, 0x75, 0x65], by decide⟩

-- `blue` takes the slot of `red`, but not the address and the MAC that `red` had.
noncomputable def reusedSlot : List ServiceCall :=
  [.agent (.vrf (.vrfAdd redVrf)), .intipSet redVrf 0x0a000001, .rmacSet redVrf 0x020000000001,
    .rmacUnset redVrf 0x020000000002, .agent (.vrf (.vrfDel someIterate redVrf)), .agent (.vrf (.vrfAdd blueVrf)),
    .idLookup blueVrf, .intipGet blueVrf, .rmacGet blueVrf, .intipGet redVrf, .count]

theorem reusedSlot_answers : ∃ s entries, transcript (serviceCall .refused) .initial reusedSlot = some (s, entries) ∧
    entries.map Prod.snd = [.code 0, .code 0, .code 0, .code ntbCommInvalParam, .code 0, .code 0, .code 1,
      .intip (.ok 0), .routeMac (.ok fakeMac), .intip (.error ntbVrfNotExist), .code 1] := by
  have registry : ∀ call ∈ reusedSlot, call.Registry := by simp [reusedSlot, ServiceCall.Registry]
  have fit : ∀ call ∈ reusedSlot, call.Fits := by
    rintro call member vrfName rfl
    have added : vrfName = redVrf ∨ vrfName = blueVrf := by simpa [reusedSlot] using member
    rcases added with rfl | rfl <;> exact .inl (by decide)
  obtain ⟨s, entries, reached⟩ := registryCalls_defined registry RegistryRun.initial_untunneled
  refine ⟨s, entries, reached, ?_⟩
  rw [vrfs_answer_as_book .refused reusedSlot s entries reached fit]
  decide +kernel

end Tao.Offload
