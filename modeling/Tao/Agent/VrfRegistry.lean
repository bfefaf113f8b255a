import Tao.Agent.TunnelStore
import Tao.Foundation.SlotArray

/-! # The VRF registry

The slots hold the names as `strcmp` reads them, and `ntb_vrf_lookup` is the scan for
a name.  A name is registered under its own bytes only when `strncpy` leaves room for
the terminating zero, or when the bytes behind the buffer happen to complete it. -/

namespace Tao.Agent

open Tao.Foundation

/-! ## Runs -/

inductive RegistryCall where
  | vrfAdd (vrfName : CString)
  | vrfDel (iterate : RteHashIterate) (vrfName : CString)

/-- The agent, with the names that were successfully added and not deleted since.  Each has the slot
    that a lookup right after its add returned. -/
structure RegistryRun where
  agent : AgentState
  slots : Table CString Nat

def RegistryRun.initial : RegistryRun := ⟨.initial, ∅⟩

def RegistryRun.added (s : RegistryRun) (vrfName : CString) (outcome : AgentState × Int) : RegistryRun where
  agent := outcome.1
  slots :=
    if outcome.2 = 0 ∧ vrfName ∉ s.slots then
      s.slots.insert vrfName ((ntbVrfLookup vrfName outcome.1).getD 0)
    else s.slots

def registryStep (s : RegistryRun) : RegistryCall → Option RegistryRun
  | .vrfAdd vrfName => some (s.added vrfName (ntbVrfAdd vrfName s.agent))
  | .vrfDel iterate vrfName =>
    (ntbVrfDel iterate vrfName s.agent).map fun agent => ⟨agent, s.slots.erase vrfName⟩

def ntbVrfCount (s : AgentState) : Int := s.gNtbVrfN

/-- The registry is the set of the names added and not deleted, and serves it so. -/
structure VrfRegistry (s : RegistryRun) : Prop where
  -- A lookup finds the names of the set, each in the slot it has had since its add.
  lookup : ∀ vrfName, ntbVrfLookup vrfName s.agent = s.slots.lookup vrfName
  valid : ∀ vrfName i, s.slots.lookup vrfName = some i → i < ntbNrVrf ∧ (s.agent.gNtbVrfs i).valid = true
  distinct : ∀ i < ntbNrVrf, ∀ j < ntbNrVrf, (s.agent.gNtbVrfs i).valid = true →
    (s.agent.gNtbVrfs j).valid = true → (s.agent.gNtbVrfs i).name.read = (s.agent.gNtbVrfs j).name.read → i = j
  count : ntbVrfCount s.agent =
    ((Finset.range ntbNrVrf).filter fun i => (s.agent.gNtbVrfs i).valid = true).card
  -- What the next call may do.
  addPresent : ∀ vrfName ∈ s.slots, ntbVrfAdd vrfName s.agent = (s.agent, 0)
  addFails : ∀ vrfName, (ntbVrfAdd vrfName s.agent).2 ≠ 0 → ∀ i < ntbNrVrf, (s.agent.gNtbVrfs i).valid = true
  delFrees : ∀ iterate vrfName i, s.slots.lookup vrfName = some i →
    ∃ agent, ntbVrfDel iterate vrfName s.agent = some agent ∧ (agent.gNtbVrfs i).valid = false ∧
      ∀ j, j ≠ i → agent.gNtbVrfs j = s.agent.gNtbVrfs j

/-- A name that a slot holds as it is: it is shorter than the buffer, or it fills the buffer and ends
    in one more byte that is the first byte of `valid`. -/
def CString.Fits (vrfName : CString) : Prop :=
  vrfName.bytes.length < ntbVrfNameLen ∨ ∃ l, l.length = ntbVrfNameLen ∧ vrfName.bytes = l ++ [1]

/-- An add that takes a free slot for a new name has a name that fits. -/
def RegistryCall.KeepsNames (s : RegistryRun) : RegistryCall → Prop
  | .vrfAdd vrfName =>
    vrfName ∈ s.slots ∨ (∀ i < ntbNrVrf, (s.agent.gNtbVrfs i).valid = true) ∨ vrfName.Fits
  | .vrfDel _ _ => True

/-! ## Names in slots -/

theorem strncpy_read_iff {vrfName : CString} : (VrfName.strncpy vrfName).read = vrfName.bytes ↔ vrfName.Fits := by
  unfold VrfName.read CString.Fits
  have copied : (VrfName.strncpy vrfName).bytes = vrfName.bytes.take ntbVrfNameLen := rfl
  rw [copied, List.length_take]
  by_cases short : vrfName.bytes.length < ntbVrfNameLen
  · rw [if_pos (by omega), List.take_of_length_le (Nat.le_of_lt short)]
    exact iff_of_true rfl (.inl short)
  · rw [if_neg (by omega)]
    constructor
    · exact fun same => .inr ⟨_, by rw [List.length_take]; omega, same.symm⟩
    · rintro (less | ⟨l, length, bytes⟩)
      · exact absurd less short
      · rw [bytes, List.take_append_of_le_length (Nat.le_of_eq length.symm),
          List.take_of_length_le (Nat.le_of_eq length)]

/-- The name that a slot holds, as `strcmp` reads it. -/
def AgentState.heldName (s : AgentState) (i : Nat) : Option (List (BitVec 8)) :=
  if (s.gNtbVrfs i).valid then some (s.gNtbVrfs i).name.read else none

theorem AgentState.heldName_eq_some {s : AgentState} {i : Nat} {bytes : List (BitVec 8)} :
    s.heldName i = some bytes ↔ (s.gNtbVrfs i).valid = true ∧ (s.gNtbVrfs i).name.read = bytes := by
  unfold heldName
  split
  · next valid => simp [valid]
  · next invalid => simp [invalid]

theorem AgentState.heldName_isSome {s : AgentState} {i : Nat} :
    (s.heldName i).isSome = true ↔ (s.gNtbVrfs i).valid = true := by
  unfold heldName
  split
  · next valid => simp [valid]
  · next invalid => simp [invalid]

theorem ntbVrfLookup_eq_find (vrfName : CString) (s : AgentState) :
    ntbVrfLookup vrfName s = SlotArray.find ntbNrVrf s.heldName vrfName.bytes := by
  unfold ntbVrfLookup SlotArray.find
  congr 1
  funext i
  rw [Bool.eq_iff_iff]
  simp [AgentState.heldName_eq_some]

/-- The names of the set are in the slots, which is all that the lookups and scans depend on. -/
structure Registered (s : RegistryRun) : Prop where
  lookup : ∀ vrfName : CString, SlotArray.find ntbNrVrf s.agent.heldName vrfName.bytes = s.slots.lookup vrfName
  distinct : SlotArray.Distinct ntbNrVrf s.agent.heldName
  count : s.agent.gNtbVrfN = SlotArray.occupied ntbNrVrf s.agent.heldName

/-- The VRFs of a run without tunnels can be deleted. -/
structure Untunneled (s : RegistryRun) : Prop where
  accounted : Accounted s.agent.route
  rmap : ∀ i, s.agent.tunnelRmap i = []

theorem RegistryRun.initial_heldName (i : Nat) : RegistryRun.initial.agent.heldName i = none := rfl

theorem RegistryRun.initial_registered : Registered .initial where
  lookup := by
    intro vrfName
    refine SlotArray.find_eq_none.mpr fun i _ holds => ?_
    rw [initial_heldName] at holds; cases holds
  distinct := by
    intro i _ j _ bytes holds
    rw [initial_heldName] at holds; cases holds
  count := by
    rw [SlotArray.occupied, Finset.filter_false_of_mem fun i _ holds => by rw [initial_heldName] at holds; cases holds]
    rfl

theorem RegistryRun.initial_untunneled : Untunneled .initial := ⟨RouteState.initial_accounted, fun _ => rfl⟩

/-! ## What the calls do to the slots -/

/-- A name is there, no slot is free, or the name goes into a free slot. -/
theorem ntbVrfAdd_slots (vrfName : CString) (s : AgentState) :
    (∃ i, ntbVrfLookup vrfName s = some i ∧ ntbVrfAdd vrfName s = (s, 0)) ∨
    (ntbVrfLookup vrfName s = none ∧ (∀ i < ntbNrVrf, (s.gNtbVrfs i).valid = true) ∧
      ntbVrfAdd vrfName s = (s, ntbVrfNoent)) ∨
    (ntbVrfLookup vrfName s = none ∧ ∃ i s', i < ntbNrVrf ∧ (s.gNtbVrfs i).valid = false ∧
      ntbVrfAdd vrfName s = (s', 0) ∧ s'.gNtbVrfN = s.gNtbVrfN + 1 ∧
      s'.heldName = Function.update s.heldName i (some (VrfName.strncpy vrfName).read)) := by
  cases found : ntbVrfLookup vrfName s with
  | some i => exact .inl ⟨i, rfl, by simp only [ntbVrfAdd, found]⟩
  | none =>
    cases room : scan (fun i => !(s.gNtbVrfs i).valid) ntbNrVrf 0 with
    | none =>
      refine .inr (.inl ⟨rfl, fun i inside => ?_, by simp only [ntbVrfAdd, found, room]⟩)
      simpa using scan_eq_none.mp room i (Nat.zero_le i) (by omega)
    | some i =>
      obtain ⟨_, high, free, _⟩ := scan_eq_some.mp room
      refine .inr (.inr ⟨rfl, i, _, by omega, by simpa using free,
        by simp only [ntbVrfAdd, found, room]; rfl, rfl, ?_⟩)
      funext j
      by_cases here : j = i
      · subst here
        simp [AgentState.heldName]
      · simp [AgentState.heldName, ntbVrfDpCtor, Function.update_of_ne here, AgentState.updateDp_of_ne here]

theorem ntbVrfDel_slots (iterate : RteHashIterate) {vrfName : CString} {s : AgentState} {i : Nat}
    (accounted : Accounted s.route) (rmap : s.tunnelRmap i = []) (found : ntbVrfLookup vrfName s = some i) :
    ∃ s', ntbVrfDel iterate vrfName s = some s' ∧ VrfDeleted i s s' ∧ s'.gNtbVrfN = s.gNtbVrfN - 1 ∧
      s'.heldName = Function.update s.heldName i none := by
  obtain ⟨effect, defined⟩ := ntbVrfDel_found iterate accounted found
  obtain ⟨s', result⟩ := defined rmap
  have deleted := effect s' result
  refine ⟨s', result, deleted, ?_, ?_⟩
  · simp only [ntbVrfDel, found] at result
    obtain ⟨t, torn, rfl⟩ := Option.map_eq_some_iff.mp result
    unfold ntbVrfDpDtor at torn
    split at torn
    · cases torn
    · obtain ⟨u, freed, rfl⟩ := Option.map_eq_some_iff.mp torn
      obtain ⟨rest, _, rfl⟩ := Option.map_eq_some_iff.mp freed
      rfl
  · funext j
    by_cases here : j = i
    · subst here
      simp [AgentState.heldName, deleted.slot.1]
    · simp [AgentState.heldName, deleted.others j here, Function.update_of_ne here]

theorem occupied_heldName (s : AgentState) : SlotArray.occupied ntbNrVrf s.heldName =
    ((Finset.range ntbNrVrf).filter fun i => (s.gNtbVrfs i).valid = true).card := by
  rw [SlotArray.occupied]
  simp only [AgentState.heldName_isSome]

theorem Registered.ntbVrfLookup_eq {s : RegistryRun} (names : Registered s) (vrfName : CString) :
    ntbVrfLookup vrfName s.agent = s.slots.lookup vrfName := by
  rw [ntbVrfLookup_eq_find, names.lookup]

theorem Registered.vrfRegistry {s : RegistryRun} (names : Registered s) (untunneled : Untunneled s) :
    VrfRegistry s where
  lookup := names.ntbVrfLookup_eq
  valid := by
    intro vrfName i listed
    exact ntbVrfLookup_some (by rw [names.ntbVrfLookup_eq, listed])
  distinct := by
    intro i insideI j insideJ validI validJ same
    exact names.distinct i insideI j insideJ _ (AgentState.heldName_eq_some.mpr ⟨validI, same⟩)
      (AgentState.heldName_eq_some.mpr ⟨validJ, rfl⟩)
  count := by rw [ntbVrfCount, names.count, occupied_heldName]
  addPresent := by
    intro vrfName listed
    obtain ⟨i, held⟩ := Finmap.mem_iff.mp listed
    rcases ntbVrfAdd_slots vrfName s.agent with ⟨_, _, result⟩ | ⟨missing, _⟩ | ⟨missing, _⟩
    · exact result
    · rw [names.ntbVrfLookup_eq, held] at missing; cases missing
    · rw [names.ntbVrfLookup_eq, held] at missing; cases missing
  addFails := by
    intro vrfName fails
    rcases ntbVrfAdd_slots vrfName s.agent with ⟨_, _, result⟩ | ⟨_, full, _⟩ | ⟨_, _, _, _, _, result, _⟩
    · rw [result] at fails
      exact absurd rfl fails
    · exact full
    · rw [result] at fails
      exact absurd rfl fails
  delFrees := by
    intro iterate vrfName i listed
    obtain ⟨agent, result, deleted, _⟩ := ntbVrfDel_slots iterate untunneled.accounted (untunneled.rmap i)
      (by rw [names.ntbVrfLookup_eq, listed])
    exact ⟨agent, result, deleted.slot.1, deleted.others⟩

theorem VrfRegistry.registered {s : RegistryRun} (registry : VrfRegistry s) : Registered s where
  lookup := fun vrfName => by rw [← ntbVrfLookup_eq_find, registry.lookup]
  distinct := by
    intro i insideI j insideJ bytes atI atJ
    obtain ⟨validI, readI⟩ := AgentState.heldName_eq_some.mp atI
    obtain ⟨validJ, readJ⟩ := AgentState.heldName_eq_some.mp atJ
    exact registry.distinct i insideI j insideJ validI validJ (readI.trans readJ.symm)
  count := by rw [occupied_heldName]; exact registry.count

/-! ## Steps -/

theorem CString.bytes_injective {vrfName other : CString} (same : vrfName.bytes = other.bytes) : vrfName = other := by
  cases vrfName
  cases other
  cases same
  rfl

/-- A name that fits takes the slot under its own bytes. -/
theorem Registered.filled {s s' : RegistryRun} {vrfName : CString} {i : Nat} (names : Registered s)
    (absent : s.slots.lookup vrfName = none) (inside : i < ntbNrVrf) (free : s.agent.heldName i = none)
    (slots : s'.slots = s.slots.insert vrfName i) (count : s'.agent.gNtbVrfN = s.agent.gNtbVrfN + 1)
    (heldName : s'.agent.heldName = Function.update s.agent.heldName i (some vrfName.bytes)) : Registered s' := by
  have missing : SlotArray.find ntbNrVrf s.agent.heldName vrfName.bytes = none := by rw [names.lookup, absent]
  refine ⟨fun other => ?_, ?_, ?_⟩
  · rw [heldName, SlotArray.find_fill names.distinct missing inside free, slots, Table.lookup_insert_eq, names.lookup]
    by_cases same : other = vrfName
    · rw [if_pos same, if_pos (congrArg CString.bytes same)]
    · rw [if_neg same, if_neg fun bytes => same (CString.bytes_injective bytes)]
  · rw [heldName]
    exact names.distinct.fill missing i
  · rw [heldName, SlotArray.occupied_fill inside free, count, names.count]
    push_cast
    rfl

theorem Registered.cleared {s s' : RegistryRun} {vrfName : CString} {i : Nat} (names : Registered s)
    (listed : s.slots.lookup vrfName = some i) (slots : s'.slots = s.slots.erase vrfName)
    (count : s'.agent.gNtbVrfN = s.agent.gNtbVrfN - 1)
    (heldName : s'.agent.heldName = Function.update s.agent.heldName i none) : Registered s' := by
  obtain ⟨inside, holds⟩ := SlotArray.find_holds ((names.lookup vrfName).trans listed)
  refine ⟨fun other => ?_, ?_, ?_⟩
  · rw [heldName, SlotArray.find_clear names.distinct inside holds, slots, Table.lookup_erase_eq, names.lookup]
    by_cases same : other = vrfName
    · rw [if_pos same, if_pos (congrArg CString.bytes same)]
    · rw [if_neg same, if_neg fun bytes => same (CString.bytes_injective bytes)]
  · rw [heldName]
    exact names.distinct.clear i
  · have occupied := SlotArray.occupied_clear inside holds
    rw [heldName, count, names.count]
    omega

theorem Untunneled.vrfAdd {s : RegistryRun} (untunneled : Untunneled s) (vrfName : CString) :
    Untunneled (s.added vrfName (ntbVrfAdd vrfName s.agent)) := by
  rcases ntbVrfAdd_cases vrfName s.agent with ⟨ret, result⟩ | ⟨i, agent, result, added⟩ <;> rw [result]
  · exact ⟨untunneled.accounted, untunneled.rmap⟩
  · refine ⟨added.accounted untunneled.accounted, fun j => ?_⟩
    by_cases here : j = i
    · rw [here]
      exact added.slot.2.1
    · show ((agent.gNtbVrfs j).dp.tunnelRmap = [])
      rw [added.others j here]
      exact untunneled.rmap j

/-- A new name in a free slot is registered exactly when the slot holds it as it is. -/
theorem Registered.added_iff {s : RegistryRun} {vrfName : CString} {i : Nat} {agent : AgentState}
    (names : Registered s) (missing : s.slots.lookup vrfName = none) (inside : i < ntbNrVrf)
    (free : (s.agent.gNtbVrfs i).valid = false) (count : agent.gNtbVrfN = s.agent.gNtbVrfN + 1)
    (heldName : agent.heldName = Function.update s.agent.heldName i (some (VrfName.strncpy vrfName).read)) :
    Registered (s.added vrfName (agent, 0)) ↔ vrfName.Fits := by
  have absent := Finmap.lookup_eq_none.mp missing
  have empty : s.agent.heldName i = none := by simp [AgentState.heldName, free]
  have slots : (s.added vrfName (agent, 0)).slots =
      s.slots.insert vrfName ((ntbVrfLookup vrfName agent).getD 0) := if_pos ⟨rfl, absent⟩
  constructor
  · intro after
    by_contra fits
    -- the slot is taken, but not under the name
    have served := after.lookup vrfName
    rw [slots, Finmap.lookup_insert] at served
    obtain ⟨insideJ, holds⟩ := SlotArray.find_holds served
    have before := SlotArray.find_eq_none.mp ((names.lookup vrfName).trans missing) _ insideJ
    change agent.heldName _ = _ at holds
    rw [heldName, Function.update_apply] at holds
    split at holds
    · exact fits (strncpy_read_iff.mp (Option.some.inj holds))
    · exact before holds
  · intro fits
    rw [strncpy_read_iff.mpr fits] at heldName
    have found : ntbVrfLookup vrfName agent = some i := by
      rw [ntbVrfLookup_eq_find, heldName, SlotArray.find_fill names.distinct
        ((names.lookup vrfName).trans missing) inside empty, if_pos rfl]
    rw [found, Option.getD_some] at slots
    exact names.filled missing inside empty slots count heldName

theorem registryStep_vrfAdd {s : RegistryRun} (vrfName : CString) (names : Registered s) (untunneled : Untunneled s) :
    ∃ s', registryStep s (.vrfAdd vrfName) = some s' ∧ Untunneled s' ∧
      (Registered s' ↔ RegistryCall.KeepsNames s (.vrfAdd vrfName)) := by
  refine ⟨s.added vrfName (ntbVrfAdd vrfName s.agent), rfl, untunneled.vrfAdd vrfName, ?_⟩
  rcases ntbVrfAdd_slots vrfName s.agent with
    ⟨i, found, result⟩ | ⟨_, full, result⟩ | ⟨missing, i, agent, inside, free, result, count, heldName⟩ <;>
    rw [result]
  · have listed : vrfName ∈ s.slots := by
      rw [names.ntbVrfLookup_eq] at found
      exact Finmap.mem_of_lookup_eq_some found
    have same : s.added vrfName (s.agent, 0) = s := by
      rw [RegistryRun.added, if_neg fun fresh => fresh.2 listed]
    rw [same]
    exact iff_of_true names (.inl listed)
  · have same : s.added vrfName (s.agent, ntbVrfNoent) = s := by
      rw [RegistryRun.added, if_neg fun fresh => absurd fresh.1 (show ntbVrfNoent ≠ 0 by decide)]
    rw [same]
    exact iff_of_true names (.inr (.inl full))
  · rw [names.ntbVrfLookup_eq] at missing
    rw [names.added_iff missing inside free count heldName]
    constructor
    · exact fun fits => .inr (.inr fits)
    · rintro (listed | full | fits)
      · exact absurd listed (Finmap.lookup_eq_none.mp missing)
      · rw [full i inside] at free; cases free
      · exact fits

theorem registryStep_vrfDel {s : RegistryRun} (iterate : RteHashIterate) (vrfName : CString) (names : Registered s)
    (untunneled : Untunneled s) :
    ∃ s', registryStep s (.vrfDel iterate vrfName) = some s' ∧ Untunneled s' ∧ Registered s' := by
  cases found : ntbVrfLookup vrfName s.agent with
  | none =>
    refine ⟨⟨s.agent, s.slots.erase vrfName⟩, by
      simp only [registryStep, ntbVrfDel_absent iterate found, Option.map_some],
      ⟨untunneled.accounted, untunneled.rmap⟩, fun other => ?_, names.distinct, names.count⟩
    rw [names.lookup, Table.lookup_erase_eq]
    rw [names.ntbVrfLookup_eq] at found
    by_cases same : other = vrfName
    · rw [if_pos same, same, found]
    · rw [if_neg same]
  | some i =>
    obtain ⟨agent, result, deleted, count, heldName⟩ :=
      ntbVrfDel_slots iterate untunneled.accounted (untunneled.rmap i) found
    rw [names.ntbVrfLookup_eq] at found
    refine ⟨⟨agent, s.slots.erase vrfName⟩, by simp only [registryStep, result, Option.map_some],
      ⟨deleted.accounted, fun j => ?_⟩, names.cleared found rfl count heldName⟩
    by_cases here : j = i
    · rw [here]
      exact deleted.slot.2
    · rw [AgentState.tunnelRmap, deleted.others j here]
      exact untunneled.rmap j

/-- The registry is a finite set of names exactly in the runs whose new names fit their slots. -/
theorem vrfRegistry_iff (calls : List RegistryCall) :
    Always registryStep VrfRegistry .initial calls ↔
      Guarded registryStep (fun s call => call.KeepsNames s) .initial calls := by
  refine always_iff_guarded Untunneled (fun s call untunneled registry keeps => ?_)
    (fun s call s' untunneled registry loses stepped after => ?_) RegistryRun.initial_untunneled
    (RegistryRun.initial_registered.vrfRegistry RegistryRun.initial_untunneled)
  · have names := registry.registered
    cases call with
    | vrfAdd vrfName =>
      obtain ⟨s', stepped, untunneled', iff⟩ := registryStep_vrfAdd vrfName names untunneled
      exact ⟨s', stepped, untunneled', (iff.mpr keeps).vrfRegistry untunneled'⟩
    | vrfDel iterate vrfName =>
      obtain ⟨s', stepped, untunneled', names'⟩ := registryStep_vrfDel iterate vrfName names untunneled
      exact ⟨s', stepped, untunneled', names'.vrfRegistry untunneled'⟩
  · cases call with
    | vrfAdd vrfName =>
      obtain ⟨t, stepped', _, iff⟩ := registryStep_vrfAdd vrfName registry.registered untunneled
      obtain rfl := Option.some.inj (stepped.symm.trans stepped')
      exact loses (iff.mp after.registered)
    | vrfDel iterate vrfName => exact loses trivial

/-! ### A name as long as the buffer -/

-- 64 times `a`.
def longVrf : CString := ⟨List.replicate 64 0x61, by decide⟩

/-- The add succeeds, and no lookup finds the name. -/
theorem longVrf_lost : ¬ Always registryStep VrfRegistry .initial [.vrfAdd longVrf] := by
  intro always
  obtain ⟨_, t, stepped, after⟩ := always
  obtain ⟨t', stepped', _, iff⟩ := registryStep_vrfAdd longVrf RegistryRun.initial_registered
    RegistryRun.initial_untunneled
  obtain rfl := Option.some.inj (stepped.symm.trans stepped')
  rcases iff.mp after.registered with listed | full | short | ⟨l, length, filled⟩
  · exact Finmap.notMem_empty listed
  · cases full 0 (by decide)
  · exact absurd short (by decide)
  · have lengths : longVrf.bytes.length = 65 := by rw [filled, List.length_append, length]; rfl
    exact absurd lengths (by decide)

end Tao.Agent
