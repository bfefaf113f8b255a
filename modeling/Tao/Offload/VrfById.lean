import Tao.Offload.VrfCleanup

/-! # VRFs by their id

`dp.vrf_id` is read only: `ntb_vrf_init` sets it, and no later call does.  So a VRF is
in the slot below its id.  `ntb_vrf_get_by_id` makes a signed index of an id and tests
the upper bound of the array only. -/

namespace Tao.Offload

open Tao.Foundation Tao.Agent Tao.Hal

/-! ## Stored ids -/

/-- The agent, with the word `dp.vrf_id` of every slot. -/
structure AgentMemory where
  agent : AgentState
  vrfId : Nat → BitVec 32

/-- `dp.vrf_id` after the loop of `ntb_vrf_init` over these slots. -/
def vrfIdInit (slots : List Nat) (vrfId : Nat → BitVec 32) : Nat → BitVec 32 :=
  slots.foldl (fun vrfId i => Function.update vrfId i (BitVec.ofNat 32 i + 1)) vrfId

def ntbVrfInit : AgentMemory := ⟨.initial, vrfIdInit (List.range ntbNrVrf) fun _ => 0⟩

def memoryStep (duplicate : HalDuplicate) (s : AgentMemory) (call : AgentCall) : Option AgentMemory :=
  (agentStep duplicate s.agent call).map fun agent => { s with agent := agent }

/-- The ids do not change what the calls do. -/
theorem run_memoryStep {duplicate : HalDuplicate} (calls : List AgentCall) (s : AgentMemory) :
    run (memoryStep duplicate) s calls =
      (run (agentStep duplicate) s.agent calls).map fun agent => { s with agent := agent } := by
  induction calls generalizing s with
  | nil => rfl
  | cons call calls inductionHypothesis =>
    rw [run, run, memoryStep]
    cases stepped : agentStep duplicate s.agent call with
    | none => rfl
    | some agent => exact inductionHypothesis { s with agent := agent }

theorem vrfIdInit_apply (slots : List Nat) (vrfId : Nat → BitVec 32) (j : Nat) :
    vrfIdInit slots vrfId j = if j ∈ slots then BitVec.ofNat 32 j + 1 else vrfId j := by
  unfold vrfIdInit
  induction slots generalizing vrfId with
  | nil => rw [List.foldl_nil, if_neg List.not_mem_nil]
  | cons i slots inductionHypothesis =>
    rw [List.foldl_cons, inductionHypothesis]
    by_cases later : j ∈ slots
    · rw [if_pos later, if_pos (List.mem_cons_of_mem i later)]
    · rw [if_neg later, Function.update_apply]
      by_cases here : j = i
      · rw [if_pos here, if_pos (List.mem_cons.mpr (.inl here)), here]
      · rw [if_neg here, if_neg fun member => (List.mem_cons.mp member).elim here later]

def IdsStored (s : AgentMemory) : Prop := ∀ i < ntbNrVrf, s.vrfId i = dpVrfId i

theorem ntbVrfInit_idsStored : IdsStored ntbVrfInit := by
  intro i inside
  simp only [ntbVrfInit]
  rw [vrfIdInit_apply, if_pos (List.mem_range.mpr inside), dpVrfId, BitVec.ofNat_add]
  rfl

theorem memoryStep_idsStored {duplicate : HalDuplicate} (s : AgentMemory) (call : AgentCall) (s' : AgentMemory)
    (stored : IdsStored s) (stepped : memoryStep duplicate s call = some s') : IdsStored s' := by
  obtain ⟨agent, _, rfl⟩ := Option.map_eq_some_iff.mp stepped
  exact stored

theorem reachable_idsStored {duplicate : HalDuplicate} {calls : List AgentCall} {s : AgentMemory}
    (reached : run (memoryStep duplicate) ntbVrfInit calls = some s) : IdsStored s :=
  run_invariant memoryStep_idsStored ntbVrfInit_idsStored reached

/-! ## The index -/

/-- The slots that `ntb_vrf_get_by_id` reads. -/
def ntbVrfGetByIdReads (vrfid : BitVec 32) : List Int :=
  let index := (vrfid - 1).toInt
  if index < ntbNrVrf then [index] else []

/-- The lookups read slots of the array only, and return the slot of the valid VRF with the id, if there
    is one. -/
structure FoundById (vrfid : BitVec 32) (s : AgentMemory) : Prop where
  reads : ∀ index ∈ ntbVrfGetByIdReads vrfid, 0 ≤ index ∧ index < ntbNrVrf
  answer : ∃ slot, ntbVrfGetById vrfid s.agent = some slot ∧ ntbVrfDpGetById vrfid s.agent = some slot ∧
    ∀ i, slot = some i ↔ i < ntbNrVrf ∧ (s.agent.gNtbVrfs i).valid = true ∧ s.vrfId i = vrfid

theorem index_eq {vrfid : BitVec 32} (low : 1 ≤ vrfid.toNat) (high : vrfid.toNat ≤ 2 ^ 31) :
    (vrfid - 1).toInt = vrfid.toNat - 1 := by
  have difference : (vrfid - 1).toNat = vrfid.toNat - 1 := by
    rw [BitVec.toNat_sub, show (1 : BitVec 32).toNat = 1 from rfl]
    omega
  rw [BitVec.toInt_eq_toNat_of_lt (by omega), difference]
  omega

theorem index_neg {vrfid : BitVec 32} (outside : ¬ (1 ≤ vrfid.toNat ∧ vrfid.toNat ≤ 2 ^ 31)) :
    (vrfid - 1).toInt < 0 := by
  have bound := vrfid.isLt
  have difference : 2 ^ 31 ≤ (vrfid - 1).toNat := by
    rw [BitVec.toNat_sub, show (1 : BitVec 32).toNat = 1 from rfl]
    omega
  rw [BitVec.toInt_eq_toNat_cond, if_neg (by omega)]
  have below := (vrfid - 1).isLt
  omega

theorem ntbVrfGetById_inside {vrfid : BitVec 32} (low : 1 ≤ vrfid.toNat) (high : vrfid.toNat ≤ 2 ^ 31)
    (s : AgentState) : ntbVrfGetById vrfid s =
      if vrfid.toNat - 1 < ntbNrVrf ∧ (s.gNtbVrfs (vrfid.toNat - 1)).valid = true then some (some (vrfid.toNat - 1))
      else some none := by
  have index := index_eq low high
  have position : (vrfid - 1).toInt.toNat = vrfid.toNat - 1 := by omega
  have inArray : (vrfid - 1).toInt < ntbNrVrf ↔ vrfid.toNat - 1 < ntbNrVrf := by omega
  simp only [ntbVrfGetById, if_neg (show ¬ (vrfid - 1).toInt < 0 by omega), position, inArray]

theorem dpVrfId_eq_iff {vrfid : BitVec 32} {i : Nat} (inside : i < ntbNrVrf) (low : 1 ≤ vrfid.toNat) :
    dpVrfId i = vrfid ↔ i = vrfid.toNat - 1 := by
  have bound : i < 4096 := inside
  have number : (dpVrfId i).toNat = i + 1 := by
    rw [dpVrfId, BitVec.toNat_ofNat]
    omega
  rw [← BitVec.toNat_inj, number]
  omega

/-- In every reachable state the lookup of an id is total and exact when the id is from 1 to `2 ^ 31`; for
    any other id it reads in front of the array. -/
theorem foundById_iff {duplicate : HalDuplicate} {calls : List AgentCall} {s : AgentMemory}
    (reached : run (memoryStep duplicate) ntbVrfInit calls = some s) (vrfid : BitVec 32) :
    FoundById vrfid s ↔ 1 ≤ vrfid.toNat ∧ vrfid.toNat ≤ 2 ^ 31 := by
  have stored := reachable_idsStored reached
  constructor
  · intro found
    by_contra outside
    have negative := index_neg outside
    have below : (vrfid - 1).toInt < ntbNrVrf := by omega
    have read : (vrfid - 1).toInt ∈ ntbVrfGetByIdReads vrfid := by
      rw [ntbVrfGetByIdReads, if_pos below]
      exact List.mem_singleton_self _
    exact absurd (found.reads _ read).1 (by omega)
  · rintro ⟨low, high⟩
    refine ⟨fun read member => ?_, ?_⟩
    · have index := index_eq low high
      simp only [ntbVrfGetByIdReads, List.mem_ite_nil_right, List.mem_singleton] at member
      omega
    · have own {i : Nat} (inside : i < ntbNrVrf) : s.vrfId i = vrfid ↔ i = vrfid.toNat - 1 := by
        rw [stored i inside, dpVrfId_eq_iff inside low]
      rw [ntbVrfDpGetById, ntbVrfGetById_inside low high]
      split
      · next there =>
        refine ⟨some (vrfid.toNat - 1), rfl, rfl, fun i => ?_⟩
        rw [Option.some.injEq]
        constructor
        · rintro rfl
          exact ⟨there.1, there.2, (own there.1).mpr rfl⟩
        · rintro ⟨inside, _, id⟩
          exact ((own inside).mp id).symm
      · next missing =>
        refine ⟨none, rfl, rfl, fun i => iff_of_false (fun found => by cases found) ?_⟩
        rintro ⟨inside, valid, id⟩
        obtain rfl := (own inside).mp id
        exact missing ⟨inside, valid⟩

theorem twoRoutes_foundById : run (memoryStep .refused) ntbVrfInit twoRoutes = some ⟨twoRoutesState, ntbVrfInit.vrfId⟩ ∧
    FoundById 1 ⟨twoRoutesState, ntbVrfInit.vrfId⟩ := by
  have reached : run (memoryStep .refused) ntbVrfInit twoRoutes = some ⟨twoRoutesState, ntbVrfInit.vrfId⟩ := by
    rw [run_memoryStep]
    exact congrArg (Option.map _) twoRoutes_reached
  exact ⟨reached, (foundById_iff reached 1).mpr (by decide)⟩

/-- Id 0 is looked up in front of the array, which no id of a VRF is. -/
theorem foundById_zero_fails : ntbVrfGetByIdReads 0 = [-1] ∧ ¬ FoundById 0 ntbVrfInit := by
  refine ⟨by decide, fun found => ?_⟩
  obtain ⟨slot, answer, _⟩ := found.answer
  cases answer

-- The last id of the array, and the ids around the upper end of the range.
example : ntbVrfGetByIdReads 4096 = [4095] := by decide
example : ntbVrfGetByIdReads 0x80000000 = [] ∧ ntbVrfGetByIdReads 0x80000001 = [-2147483648] := by decide

end Tao.Offload
