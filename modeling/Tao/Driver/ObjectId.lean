import Mathlib.Data.BitVec
import Tao.Foundation.LowestFree
import Tao.Foundation.Simulation
import Tao.Foundation.Transition

/-! # Object ids (`object_id.hpp`, `object_id.cpp`)

An `OjectID` draws its ids from `bf_id_allocator`, which is not part of the sources and
grows without an end.  Only the comparison of the drawn id with the size bounds the pool:
it lets ids up to the size pass, which in the numbering from zero is one too many. -/

namespace Tao.Driver

open Tao.Foundation

/-! ## The allocator -/

structure BfIdAllocator (σ : Type) where
  bfIdAllocatorNew : BitVec 32 → Bool → σ
  bfIdAllocatorAllocate : σ → σ × Int
  bfIdAllocatorRelease : σ → Int → σ

/-- What is documented of the allocator: it numbers from 0 or from 1, hands out the lowest free id, as an
    `int`, and takes an id back. -/
structure BfIdAllocator.Documented {σ : Type} (allocator : BfIdAllocator σ) (ids : σ → FreeIds) : Prop where
  new : ∀ initialSize zeroBased,
    ids (allocator.bfIdAllocatorNew initialSize zeroBased) = ⟨if zeroBased then 0 else 1, ∅⟩
  allocate : ∀ s, (ids s).lowest < 2 ^ 31 → (allocator.bfIdAllocatorAllocate s).2 = (ids s).lowest ∧
    ids (allocator.bfIdAllocatorAllocate s).1 = (ids s).take
  exhausted : ∀ s, 2 ^ 31 ≤ (ids s).lowest → (allocator.bfIdAllocatorAllocate s).2 = -1 ∧
    ids (allocator.bfIdAllocatorAllocate s).1 = ids s
  release : ∀ s n, n ∈ (ids s).held → ids (allocator.bfIdAllocatorRelease s n) = (ids s).release n

/-! ## The pool -/

inductive HalStatus where
  | success
  | noSpace
  deriving DecidableEq

structure OjectID (σ : Type) where
  idGenerator : σ
  size : BitVec 32
  offset : BitVec 32
  count : BitVec 32

namespace OjectID

variable {σ : Type}

def getUsage (s : OjectID σ) : BitVec 32 := s.count

def getSize (s : OjectID σ) : BitVec 32 := s.size

def getLeft (s : OjectID σ) : BitVec 32 := s.size - s.count

variable (allocator : BfIdAllocator σ)

def new (initialSize : BitVec 32) (zeroBased : Bool) (offset : BitVec 32) : OjectID σ :=
  ⟨allocator.bfIdAllocatorNew initialSize zeroBased, initialSize, offset, 0⟩

/-- `Alloc`, with the id that it puts out.  The branch that fails keeps the id that was drawn. -/
def alloc (s : OjectID σ) : OjectID σ × HalStatus × Option (BitVec 32) :=
  let (idGenerator, id) := allocator.bfIdAllocatorAllocate s.idGenerator
  if id = -1 ∨ s.size.toInt < id then ({ s with idGenerator := idGenerator }, .noSpace, none)
  else ({ s with idGenerator := idGenerator, count := s.count + 1 }, .success, some (BitVec.ofInt 32 id + s.offset))

theorem alloc_eq (s : OjectID σ) : s.alloc allocator =
    if (allocator.bfIdAllocatorAllocate s.idGenerator).2 = -1 ∨
        s.size.toInt < (allocator.bfIdAllocatorAllocate s.idGenerator).2 then
      ({ s with idGenerator := (allocator.bfIdAllocatorAllocate s.idGenerator).1 }, .noSpace, none)
    else
      ({ s with idGenerator := (allocator.bfIdAllocatorAllocate s.idGenerator).1, count := s.count + 1 }, .success,
        some (BitVec.ofInt 32 (allocator.bfIdAllocatorAllocate s.idGenerator).2 + s.offset)) := rfl

def free (oid : BitVec 32) (s : OjectID σ) : OjectID σ × HalStatus :=
  ({ s with
      idGenerator := allocator.bfIdAllocatorRelease s.idGenerator (oid - s.offset).toInt
      count := s.count - 1 }, .success)

end OjectID

/-! ## Runs -/

/-- A pool with the ids that it has handed out and not got back. -/
structure PoolRun (σ : Type) where
  pool : OjectID σ
  outstanding : List (BitVec 32)

inductive PoolCall where
  | alloc
  | free (oid : BitVec 32)

/-- The answer to a call, with the counters after it. -/
structure PoolAnswer where
  status : HalStatus
  oid : Option (BitVec 32)
  usage : BitVec 32
  left : BitVec 32

section Runs

variable {σ : Type} (allocator : BfIdAllocator σ)

def PoolRun.initial (initialSize : BitVec 32) (zeroBased : Bool) (offset : BitVec 32) : PoolRun σ :=
  ⟨.new allocator initialSize zeroBased offset, []⟩

/-- A call of the pool.  Only ids that are outstanding may be freed. -/
def poolCall (s : PoolRun σ) : PoolCall → Except Unit (PoolRun σ × PoolAnswer)
  | .alloc =>
    let (pool, status, oid) := s.pool.alloc allocator
    .ok (⟨pool, oid.toList ++ s.outstanding⟩, ⟨status, oid, pool.getUsage, pool.getLeft⟩)
  | .free oid =>
    if oid ∈ s.outstanding then
      let (pool, status) := s.pool.free allocator oid
      .ok (⟨pool, s.outstanding.erase oid⟩, ⟨status, none, pool.getUsage, pool.getLeft⟩)
    else .error ()

def poolStep (s : PoolRun σ) (call : PoolCall) : Option (PoolRun σ) :=
  (poolCall allocator s call).toOption.map Prod.fst

structure PoolAccounted (s : PoolRun σ) : Prop where
  distinct : s.outstanding.Nodup
  capacity : s.outstanding.length ≤ s.pool.getSize.toNat
  usage : s.pool.getUsage.toNat = s.outstanding.length
  left : s.pool.getLeft.toNat = s.pool.getSize.toNat - s.outstanding.length
  -- What fails cannot be told from what was not called.
  failure : ∀ next answer, poolCall allocator s .alloc = .ok (next, answer) → answer.status = .noSpace →
    ∀ calls, answersTo (poolCall allocator) next calls = answersTo (poolCall allocator) s calls

end Runs

/-- In the numbering from zero no id is asked for while as many as the size are outstanding.  A size that is
    negative as an `int` lets no id pass at all. -/
def PoolCall.Fits {σ : Type} (zeroBased : Bool) (s : PoolRun σ) : PoolCall → Prop
  | .alloc => zeroBased = true → s.pool.getSize.toNat < 2 ^ 31 → s.outstanding.length ≠ s.pool.getSize.toNat
  | .free _ => True

/-! ## Ids that pass -/

/-- The ids below this one pass the comparison with the size. -/
def idLimit (size : BitVec 32) : Nat := (size.toInt + 1).toNat

theorem idLimit_le (size : BitVec 32) : idLimit size ≤ 2 ^ 31 := by
  have bound : size.toInt < 2 ^ 31 := BitVec.toInt_lt
  unfold idLimit
  omega

theorem idLimit_of_lt {size : BitVec 32} (small : size.toNat < 2 ^ 31) : idLimit size = size.toNat + 1 := by
  rw [idLimit, BitVec.toInt_eq_toNat_of_lt (by omega)]
  omega

theorem idLimit_of_ge {size : BitVec 32} (large : ¬ size.toNat < 2 ^ 31) : idLimit size = 0 := by
  have bound := size.isLt
  rw [idLimit, BitVec.toInt_eq_toNat_cond, if_neg (by omega)]
  omega

theorem size_lt_iff {size : BitVec 32} {n : Nat} : size.toInt < (n : Int) ↔ idLimit size ≤ n := by
  unfold idLimit
  omega

def oidOf (offset : BitVec 32) (n : Nat) : BitVec 32 := BitVec.ofNat 32 n + offset

theorem oidOf_injective {offset : BitVec 32} {m n : Nat} (smallM : m < 2 ^ 31) (smallN : n < 2 ^ 31)
    (same : oidOf offset m = oidOf offset n) : m = n := by
  have words : BitVec.ofNat 32 m = BitVec.ofNat 32 n := by
    have subtracted := congrArg (· - offset) same
    simpa only [oidOf, BitVec.add_sub_cancel] using subtracted
  have numbers := congrArg BitVec.toNat words
  rw [BitVec.toNat_ofNat, BitVec.toNat_ofNat] at numbers
  omega

theorem oidOf_sub {offset : BitVec 32} {n : Nat} (small : n < 2 ^ 31) : (oidOf offset n - offset).toInt = n := by
  have number : (BitVec.ofNat 32 n).toNat = n := by
    rw [BitVec.toNat_ofNat]
    omega
  rw [oidOf, BitVec.add_sub_cancel, BitVec.toInt_eq_toNat_of_lt (by omega), number]

/-! ## The invariant -/

section Invariant

variable {σ : Type} {allocator : BfIdAllocator σ} {ids : σ → FreeIds} {size offset : BitVec 32} {first : Nat}
  {s t : PoolRun σ}

/-- The ids outstanding are those that the allocator holds and the size lets pass, and are counted. -/
structure PoolInv (ids : σ → FreeIds) (size offset : BitVec 32) (first : Nat) (s : PoolRun σ) : Prop where
  sizeKept : s.pool.size = size
  offsetKept : s.pool.offset = offset
  firstKept : (ids s.pool.idGenerator).first = first
  numbered : ∀ n ∈ (ids s.pool.idGenerator).held, first ≤ n
  distinct : s.outstanding.Nodup
  listed : ∀ oid, oid ∈ s.outstanding ↔
    ∃ n ∈ (ids s.pool.idGenerator).held, n < idLimit size ∧ oid = oidOf offset n
  count : s.pool.count = BitVec.ofNat 32 s.outstanding.length

theorem initial_poolInv (documented : allocator.Documented ids) (size : BitVec 32) (zeroBased : Bool)
    (offset : BitVec 32) :
    PoolInv ids size offset (if zeroBased then 0 else 1) (.initial allocator size zeroBased offset) := by
  have none : ids (PoolRun.initial allocator size zeroBased offset).pool.idGenerator =
    ⟨if zeroBased then 0 else 1, ∅⟩ := documented.new size zeroBased
  refine ⟨rfl, rfl, by rw [none], ?_, List.nodup_nil, fun oid => ?_, rfl⟩
  · rw [none]
    exact fun n held => absurd held (Finset.notMem_empty n)
  · rw [none]
    refine iff_of_false List.not_mem_nil ?_
    rintro ⟨n, held, _⟩
    exact Finset.notMem_empty n held

theorem PoolInv.held_iff (inv : PoolInv ids size offset first s) {n : Nat} (below : n < idLimit size) :
    n ∈ (ids s.pool.idGenerator).held ↔ oidOf offset n ∈ s.outstanding := by
  have limit := idLimit_le size
  rw [inv.listed]
  constructor
  · exact fun held => ⟨n, held, below, rfl⟩
  · rintro ⟨m, held, belowM, same⟩
    rwa [oidOf_injective (by omega) (by omega) same]

theorem PoolInv.length_outstanding (inv : PoolInv ids size offset first s) :
    s.outstanding.length = ((ids s.pool.idGenerator).held.filter (· < idLimit size)).card := by
  have limit := idLimit_le size
  have image : s.outstanding.toFinset =
      ((ids s.pool.idGenerator).held.filter (· < idLimit size)).image (oidOf offset) := by
    ext oid
    rw [List.mem_toFinset, inv.listed, Finset.mem_image]
    constructor
    · rintro ⟨n, held, below, rfl⟩
      exact ⟨n, Finset.mem_filter.mpr ⟨held, below⟩, rfl⟩
    · rintro ⟨n, passing, rfl⟩
      obtain ⟨held, below⟩ := Finset.mem_filter.mp passing
      exact ⟨n, held, below, rfl⟩
  rw [← List.toFinset_card_of_nodup inv.distinct, image, Finset.card_image_of_injOn]
  intro m passingM n passingN same
  have belowM := (Finset.mem_filter.mp passingM).2
  have belowN := (Finset.mem_filter.mp passingN).2
  exact oidOf_injective (by omega) (by omega) same

/-- Ids from the first one up to the limit are all that can be outstanding. -/
theorem PoolInv.length_le (inv : PoolInv ids size offset first s) :
    s.outstanding.length ≤ idLimit size - first := by
  rw [inv.length_outstanding, ← Nat.card_Ico]
  refine Finset.card_le_card fun n passing => ?_
  obtain ⟨held, below⟩ := Finset.mem_filter.mp passing
  exact Finset.mem_Ico.mpr ⟨inv.numbered n held, below⟩

/-! ## Calls -/

/-- An id that passes is handed out; any other one changes nothing but what the allocator holds. -/
theorem PoolInv.alloc_cases (documented : allocator.Documented ids) (inv : PoolInv ids size offset first s) :
    (∃ n idGenerator, n = (ids s.pool.idGenerator).lowest ∧ n < idLimit size ∧
      ids idGenerator = (ids s.pool.idGenerator).take ∧
      poolCall allocator s .alloc = .ok
        (⟨{ s.pool with idGenerator := idGenerator, count := s.pool.count + 1 }, oidOf offset n :: s.outstanding⟩,
          ⟨.success, some (oidOf offset n), s.pool.count + 1, size - (s.pool.count + 1)⟩)) ∨
    (∃ idGenerator, idLimit size ≤ (ids s.pool.idGenerator).lowest ∧
      (ids idGenerator = (ids s.pool.idGenerator).take ∨ ids idGenerator = ids s.pool.idGenerator) ∧
      poolCall allocator s .alloc = .ok (⟨{ s.pool with idGenerator := idGenerator }, s.outstanding⟩,
        ⟨.noSpace, none, s.pool.count, size - s.pool.count⟩)) := by
  have limit := idLimit_le size
  by_cases passes : (ids s.pool.idGenerator).lowest < idLimit size
  · left
    obtain ⟨number, taken⟩ := documented.allocate s.pool.idGenerator (by omega)
    have within : ¬ (((ids s.pool.idGenerator).lowest : Int) = -1 ∨
        s.pool.size.toInt < (ids s.pool.idGenerator).lowest) := by
      rw [inv.sizeKept, size_lt_iff]
      omega
    refine ⟨_, _, rfl, passes, taken, ?_⟩
    rw [poolCall, OjectID.alloc_eq, number, if_neg within, BitVec.ofInt_natCast, ← inv.sizeKept, ← inv.offsetKept]
    rfl
  · right
    have rejected : (allocator.bfIdAllocatorAllocate s.pool.idGenerator).2 = -1 ∨
        s.pool.size.toInt < (allocator.bfIdAllocatorAllocate s.pool.idGenerator).2 := by
      by_cases small : (ids s.pool.idGenerator).lowest < 2 ^ 31
      · rw [(documented.allocate _ small).1, inv.sizeKept, size_lt_iff]
        omega
      · exact .inl (documented.exhausted _ (by omega)).1
    have after : ids (allocator.bfIdAllocatorAllocate s.pool.idGenerator).1 = (ids s.pool.idGenerator).take ∨
        ids (allocator.bfIdAllocatorAllocate s.pool.idGenerator).1 = ids s.pool.idGenerator := by
      by_cases small : (ids s.pool.idGenerator).lowest < 2 ^ 31
      · exact .inl (documented.allocate _ small).2
      · exact .inr (documented.exhausted _ (by omega)).2
    refine ⟨_, by omega, after, ?_⟩
    rw [poolCall, OjectID.alloc_eq, if_pos rejected, ← inv.sizeKept]
    rfl

theorem PoolInv.free_cases (documented : allocator.Documented ids) (inv : PoolInv ids size offset first s)
    {oid : BitVec 32} (listed : oid ∈ s.outstanding) :
    ∃ n idGenerator, n ∈ (ids s.pool.idGenerator).held ∧ n < idLimit size ∧ oid = oidOf offset n ∧
      ids idGenerator = (ids s.pool.idGenerator).release n ∧
      poolCall allocator s (.free oid) = .ok
        (⟨{ s.pool with idGenerator := idGenerator, count := s.pool.count - 1 }, s.outstanding.erase oid⟩,
          ⟨.success, none, s.pool.count - 1, size - (s.pool.count - 1)⟩) := by
  have limit := idLimit_le size
  obtain ⟨n, held, below, rfl⟩ := (inv.listed oid).mp listed
  have number : (oidOf offset n - s.pool.offset).toInt = n := by
    rw [inv.offsetKept, oidOf_sub (by omega)]
  refine ⟨n, _, held, below, rfl, documented.release _ n held, ?_⟩
  rw [poolCall, if_pos listed, OjectID.free, number, ← inv.sizeKept]
  rfl

theorem PoolInv.numbered_take (inv : PoolInv ids size offset first s) :
    ∀ n ∈ (ids s.pool.idGenerator).take.held, first ≤ n := by
  have numbered := inv.numbered
  rw [← inv.firstKept] at numbered ⊢
  exact FreeIds.first_le_of_take numbered

theorem PoolInv.handedOut (inv : PoolInv ids size offset first s) {idGenerator : σ}
    (below : (ids s.pool.idGenerator).lowest < idLimit size) (taken : ids idGenerator = (ids s.pool.idGenerator).take) :
    PoolInv ids size offset first ⟨{ s.pool with idGenerator := idGenerator, count := s.pool.count + 1 },
      oidOf offset (ids s.pool.idGenerator).lowest :: s.outstanding⟩ where
  sizeKept := inv.sizeKept
  offsetKept := inv.offsetKept
  firstKept := by rw [taken]; exact inv.firstKept
  numbered := by rw [taken]; exact inv.numbered_take
  distinct := by
    refine List.nodup_cons.mpr ⟨fun listed => ?_, inv.distinct⟩
    exact FreeIds.lowest_notMem _ ((inv.held_iff below).mpr listed)
  listed := by
    intro oid
    rw [taken, List.mem_cons, inv.listed]
    constructor
    · rintro (rfl | ⟨n, held, rest⟩)
      · exact ⟨_, Finset.mem_insert_self _ _, below, rfl⟩
      · exact ⟨n, Finset.mem_insert_of_mem held, rest⟩
    · rintro ⟨n, held, rest⟩
      rcases Finset.mem_insert.mp held with rfl | older
      · exact .inl rest.2
      · exact .inr ⟨n, older, rest⟩
  count := by
    show s.pool.count + 1 = _
    rw [inv.count, List.length_cons, BitVec.ofNat_add]
    rfl

theorem PoolInv.rejected (inv : PoolInv ids size offset first s) {idGenerator : σ}
    (above : idLimit size ≤ (ids s.pool.idGenerator).lowest)
    (kept : ids idGenerator = (ids s.pool.idGenerator).take ∨ ids idGenerator = ids s.pool.idGenerator) :
    PoolInv ids size offset first ⟨{ s.pool with idGenerator := idGenerator }, s.outstanding⟩ := by
  rcases kept with taken | same
  · refine ⟨inv.sizeKept, inv.offsetKept, by rw [taken]; exact inv.firstKept, ?_, inv.distinct, fun oid => ?_, inv.count⟩
    · rw [taken]
      exact inv.numbered_take
    · -- the id that was kept does not pass
      rw [taken, inv.listed]
      refine exists_congr fun n => ⟨fun ⟨held, rest⟩ => ⟨Finset.mem_insert_of_mem held, rest⟩, ?_⟩
      rintro ⟨held, below, rest⟩
      rcases Finset.mem_insert.mp held with rfl | older
      · omega
      · exact ⟨older, below, rest⟩
  · exact ⟨inv.sizeKept, inv.offsetKept, by rw [same]; exact inv.firstKept, by rw [same]; exact inv.numbered,
      inv.distinct, by rw [same]; exact inv.listed, inv.count⟩

theorem PoolInv.givenBack (inv : PoolInv ids size offset first s) {idGenerator : σ} {n : Nat}
    (held : n ∈ (ids s.pool.idGenerator).held) (below : n < idLimit size)
    (released : ids idGenerator = (ids s.pool.idGenerator).release n) :
    PoolInv ids size offset first ⟨{ s.pool with idGenerator := idGenerator, count := s.pool.count - 1 },
      s.outstanding.erase (oidOf offset n)⟩ where
  sizeKept := inv.sizeKept
  offsetKept := inv.offsetKept
  firstKept := by rw [released]; exact inv.firstKept
  numbered := by
    rw [released]
    exact fun m member => inv.numbered m (Finset.mem_of_mem_erase member)
  distinct := inv.distinct.erase _
  listed := by
    intro oid
    have limit := idLimit_le size
    rw [inv.distinct.mem_erase_iff, inv.listed, released]
    constructor
    · rintro ⟨different, m, heldM, belowM, rfl⟩
      exact ⟨m, Finset.mem_erase.mpr ⟨fun same => different (by rw [same]), heldM⟩, belowM, rfl⟩
    · rintro ⟨m, member, belowM, rfl⟩
      obtain ⟨different, heldM⟩ := Finset.mem_erase.mp member
      exact ⟨fun same => different (oidOf_injective (by omega) (by omega) same), m, heldM, belowM, rfl⟩
  count := by
    have listed := (inv.held_iff below).mp held
    have some : 0 < s.outstanding.length := List.length_pos_of_mem listed
    show s.pool.count - 1 = _
    have restored : s.outstanding.length - 1 + 1 = s.outstanding.length := Nat.sub_add_cancel some
    rw [inv.count, List.length_erase_of_mem listed, ← restored, BitVec.ofNat_add, Nat.add_sub_cancel]
    exact BitVec.add_sub_cancel _ _

theorem poolCall_inv (documented : allocator.Documented ids) (inv : PoolInv ids size offset first s)
    {call : PoolCall} {answer : PoolAnswer} (called : poolCall allocator s call = .ok (t, answer)) :
    PoolInv ids size offset first t := by
  cases call with
  | alloc =>
    rcases inv.alloc_cases documented with
      ⟨n, idGenerator, rfl, below, taken, result⟩ | ⟨idGenerator, above, kept, result⟩
    · obtain ⟨rfl, _⟩ := Prod.mk.inj (Except.ok.inj (called.symm.trans result))
      exact inv.handedOut below taken
    · obtain ⟨rfl, _⟩ := Prod.mk.inj (Except.ok.inj (called.symm.trans result))
      exact inv.rejected above kept
  | free oid =>
    by_cases listed : oid ∈ s.outstanding
    · obtain ⟨n, idGenerator, held, below, rfl, released, result⟩ := inv.free_cases documented listed
      obtain ⟨rfl, _⟩ := Prod.mk.inj (Except.ok.inj (called.symm.trans result))
      exact inv.givenBack held below released
    · rw [poolCall, if_neg listed] at called
      cases called

/-! ## What can be told apart -/

theorem PoolInv.lowest_le (inv : PoolInv ids size offset first s) (other : PoolInv ids size offset first t)
    (same : s.outstanding = t.outstanding) (below : (ids s.pool.idGenerator).lowest < idLimit size) :
    (ids t.pool.idGenerator).lowest ≤ (ids s.pool.idGenerator).lowest := by
  refine FreeIds.lowest_le ?_ fun held => ?_
  · rw [other.firstKept, ← inv.firstKept]
    exact FreeIds.first_le_lowest _
  · rw [other.held_iff below, ← same, ← inv.held_iff below] at held
    exact FreeIds.lowest_notMem _ held

/-- Pools with the same ids outstanding, whatever else their allocators hold. -/
structure PoolsAlike (ids : σ → FreeIds) (size offset : BitVec 32) (first : Nat) (s t : PoolRun σ) : Prop where
  inv : PoolInv ids size offset first s
  other : PoolInv ids size offset first t
  same : s.outstanding = t.outstanding

theorem PoolsAlike.count (alike : PoolsAlike ids size offset first s t) : s.pool.count = t.pool.count := by
  rw [alike.inv.count, alike.other.count, alike.same]

theorem PoolsAlike.symm (alike : PoolsAlike ids size offset first s t) : PoolsAlike ids size offset first t s :=
  ⟨alike.other, alike.inv, alike.same.symm⟩

theorem PoolsAlike.alloc (documented : allocator.Documented ids) (alike : PoolsAlike ids size offset first s t) :
    ∃ next otherNext answer, poolCall allocator s .alloc = .ok (next, answer) ∧
      poolCall allocator t .alloc = .ok (otherNext, answer) ∧ PoolsAlike ids size offset first next otherNext := by
  rcases alike.inv.alloc_cases documented with
    ⟨n, idGenerator, rfl, below, taken, result⟩ | ⟨idGenerator, above, kept, result⟩ <;>
    rcases alike.other.alloc_cases documented with
      ⟨m, otherGenerator, rfl, otherBelow, otherTaken, otherResult⟩ |
        ⟨otherGenerator, otherAbove, otherKept, otherResult⟩
  · have number : (ids s.pool.idGenerator).lowest = (ids t.pool.idGenerator).lowest :=
      Nat.le_antisymm (alike.other.lowest_le alike.inv alike.same.symm otherBelow)
        (alike.inv.lowest_le alike.other alike.same below)
    refine ⟨_, _, _, result, by rw [otherResult, ← number, alike.count], alike.inv.handedOut below taken, ?_, ?_⟩
    · rw [number]
      exact alike.other.handedOut otherBelow otherTaken
    · rw [alike.same]
  · have less := alike.inv.lowest_le alike.other alike.same below
    omega
  · have less := alike.other.lowest_le alike.inv alike.same.symm otherBelow
    omega
  · exact ⟨_, _, _, result, by rw [otherResult, alike.count], alike.inv.rejected above kept,
      alike.other.rejected otherAbove otherKept, alike.same⟩

theorem PoolsAlike.free (documented : allocator.Documented ids) (alike : PoolsAlike ids size offset first s t)
    {oid : BitVec 32} (listed : oid ∈ s.outstanding) :
    ∃ next otherNext answer, poolCall allocator s (.free oid) = .ok (next, answer) ∧
      poolCall allocator t (.free oid) = .ok (otherNext, answer) ∧
        PoolsAlike ids size offset first next otherNext := by
  obtain ⟨n, idGenerator, held, below, rfl, released, result⟩ := alike.inv.free_cases documented listed
  rw [alike.same] at listed
  obtain ⟨m, otherGenerator, otherHeld, otherBelow, same, otherReleased, otherResult⟩ :=
    alike.other.free_cases documented listed
  have limit := idLimit_le size
  obtain rfl := oidOf_injective (by omega) (by omega) same
  refine ⟨_, _, _, result, by rw [otherResult, alike.count], alike.inv.givenBack held below released,
    alike.other.givenBack otherHeld otherBelow otherReleased, ?_⟩
  rw [alike.same]

theorem answersTo_of_alike (documented : allocator.Documented ids) (alike : PoolsAlike ids size offset first s t)
    (calls : List PoolCall) : answersTo (poolCall allocator) s calls = answersTo (poolCall allocator) t calls := by
  refine answersTo_eq (fun s t call alike => ?_) calls alike
  cases call with
  | alloc => exact .inr (alike.alloc documented)
  | free oid =>
    by_cases listed : oid ∈ s.outstanding
    · exact .inr (alike.free documented listed)
    · refine .inl ⟨(), by rw [poolCall, if_neg listed], ?_⟩
      rw [alike.same] at listed
      rw [poolCall, if_neg listed]

/-! ## Accounting -/

/-- Only the capacity is not kept by every call. -/
theorem PoolInv.accounted_iff (documented : allocator.Documented ids) (inv : PoolInv ids size offset first s) :
    PoolAccounted allocator s ↔ s.outstanding.length ≤ size.toNat := by
  refine ⟨fun accounted => by simpa only [OjectID.getSize, inv.sizeKept] using accounted.capacity, fun capacity => ?_⟩
  have bound := size.isLt
  have usage : s.pool.getUsage.toNat = s.outstanding.length := by
    rw [OjectID.getUsage, inv.count, BitVec.toNat_ofNat]
    omega
  have left : s.pool.getLeft.toNat = s.pool.getSize.toNat - s.outstanding.length := by
    have number : s.pool.count.toNat = s.outstanding.length := usage
    rw [OjectID.getLeft, OjectID.getSize, inv.sizeKept, BitVec.toNat_sub, number]
    omega
  refine ⟨inv.distinct, by rwa [OjectID.getSize, inv.sizeKept], usage, left, fun next answer called failed => ?_⟩
  refine answersTo_of_alike documented ⟨poolCall_inv documented inv called, inv, ?_⟩
  rcases inv.alloc_cases documented with ⟨n, idGenerator, _, _, _, result⟩ | ⟨idGenerator, _, _, result⟩
  · obtain ⟨_, rfl⟩ := Prod.mk.inj (Except.ok.inj (called.symm.trans result))
    cases failed
  · obtain ⟨rfl, _⟩ := Prod.mk.inj (Except.ok.inj (called.symm.trans result))
    rfl

theorem poolStep_eq_some {call : PoolCall} :
    poolStep allocator s call = some t ↔ ∃ answer, poolCall allocator s call = .ok (t, answer) := by
  unfold poolStep
  cases poolCall allocator s call with
  | error _ => exact iff_of_false (fun impossible => by cases impossible) (fun ⟨_, impossible⟩ => by cases impossible)
  | ok result =>
    rw [Except.toOption, Option.map_some, Option.some.injEq]
    constructor
    · rintro rfl
      exact ⟨result.2, rfl⟩
    · rintro ⟨answer, same⟩
      rw [Except.ok.inj same]

theorem poolStep_inv (documented : allocator.Documented ids) (s : PoolRun σ) (call : PoolCall) (t : PoolRun σ)
    (inv : PoolInv ids size offset first s) (stepped : poolStep allocator s call = some t) :
    PoolInv ids size offset first t := by
  obtain ⟨answer, called⟩ := poolStep_eq_some.mp stepped
  exact poolCall_inv documented inv called

theorem length_of_poolStep (documented : allocator.Documented ids) (inv : PoolInv ids size offset first s)
    {call : PoolCall} (stepped : poolStep allocator s call = some t) :
    t.outstanding.length ≤ s.outstanding.length ∨ call = .alloc ∧ t.outstanding.length = s.outstanding.length + 1 := by
  obtain ⟨answer, called⟩ := poolStep_eq_some.mp stepped
  cases call with
  | alloc =>
    rcases inv.alloc_cases documented with ⟨n, idGenerator, _, _, _, result⟩ | ⟨idGenerator, _, _, result⟩
    · obtain ⟨rfl, _⟩ := Prod.mk.inj (Except.ok.inj (called.symm.trans result))
      exact .inr ⟨rfl, rfl⟩
    · obtain ⟨rfl, _⟩ := Prod.mk.inj (Except.ok.inj (called.symm.trans result))
      exact .inl (Nat.le_refl _)
  | free oid =>
    by_cases listed : oid ∈ s.outstanding
    · obtain ⟨n, idGenerator, _, _, _, _, result⟩ := inv.free_cases documented listed
      obtain ⟨rfl, _⟩ := Prod.mk.inj (Except.ok.inj (called.symm.trans result))
      exact .inl List.erase_sublist.length_le
    · rw [poolCall, if_neg listed] at called
      cases called

/-- A pool in the numbering from zero that is full has one more id that passes. -/
theorem PoolInv.alloc_full (documented : allocator.Documented ids) (inv : PoolInv ids size offset 0 s)
    (small : size.toNat < 2 ^ 31) (full : s.outstanding.length = size.toNat)
    (stepped : poolStep allocator s .alloc = some t) : t.outstanding.length = size.toNat + 1 := by
  obtain ⟨answer, called⟩ := poolStep_eq_some.mp stepped
  rcases inv.alloc_cases documented with ⟨n, idGenerator, _, _, _, result⟩ | ⟨idGenerator, above, _, result⟩
  · obtain ⟨rfl, _⟩ := Prod.mk.inj (Except.ok.inj (called.symm.trans result))
    rw [List.length_cons, full]
  · have room : (ids s.pool.idGenerator).lowest < idLimit size := by
      refine FreeIds.lowest_lt ?_
      rw [← inv.length_outstanding, inv.firstKept, full, idLimit_of_lt small]
      omega
    omega

end Invariant

/-- The pool accounts for its ids exactly in the runs in which, in the numbering from zero, no id is asked
    for while as many as the size are outstanding. -/
theorem poolAccounted_iff {σ : Type} {allocator : BfIdAllocator σ} {ids : σ → FreeIds}
    (documented : allocator.Documented ids) (size : BitVec 32) (zeroBased : Bool) (offset : BitVec 32)
    {calls : List PoolCall} {final : PoolRun σ}
    (ran : run (poolStep allocator) (.initial allocator size zeroBased offset) calls = some final) :
    Always (poolStep allocator) (PoolAccounted allocator) (.initial allocator size zeroBased offset) calls ↔
      Guarded (poolStep allocator) (fun s call => call.Fits zeroBased s)
        (.initial allocator size zeroBased offset) calls := by
  have initial := initial_poolInv documented size zeroBased offset
  refine always_iff_guarded_of_run (PoolInv ids size offset (if zeroBased then 0 else 1)) (poolStep_inv documented)
    (fun s call t inv accounted fits stepped => ?_) (fun s call t inv accounted unfit stepped after => ?_) initial
    ((initial.accounted_iff documented).mpr (Nat.zero_le _)) ran
  · have nextInv := poolStep_inv documented s call t inv stepped
    have capacity := (inv.accounted_iff documented).mp accounted
    refine (nextInv.accounted_iff documented).mpr ?_
    rcases length_of_poolStep documented inv stepped with fewer | ⟨rfl, more⟩
    · omega
    · have most := nextInv.length_le
      by_cases small : size.toNat < 2 ^ 31
      · rw [idLimit_of_lt small] at most
        cases zeroBased with
        | false =>
          simp only [Bool.false_eq_true, if_false] at most
          omega
        | true =>
          have room := fits rfl
          rw [OjectID.getSize, inv.sizeKept] at room
          have notFull := room small
          omega
      · rw [idLimit_of_ge small] at most
        omega
  · cases call with
    | free oid => exact unfit trivial
    | alloc =>
      simp only [PoolCall.Fits, OjectID.getSize, inv.sizeKept, Classical.not_imp, not_not] at unfit
      obtain ⟨rfl, small, full⟩ := unfit
      have more := PoolInv.alloc_full documented inv small full stepped
      have capacity := ((poolStep_inv documented s .alloc t inv stepped).accounted_iff documented).mp after
      omega

/-! ### A pool of one id -/

/-- An allocator that keeps the set of its ids. -/
def BfIdAllocator.lowestFree : BfIdAllocator FreeIds where
  bfIdAllocatorNew := fun _ zeroBased => ⟨if zeroBased then 0 else 1, ∅⟩
  bfIdAllocatorAllocate := fun s => if s.lowest < 2 ^ 31 then (s.take, s.lowest) else (s, -1)
  bfIdAllocatorRelease := fun s id => s.release id.toNat

theorem BfIdAllocator.lowestFree_documented : BfIdAllocator.lowestFree.Documented id where
  new := fun _ _ => rfl
  allocate := fun s small => by
    have allocated : lowestFree.bfIdAllocatorAllocate s = (s.take, (s.lowest : Int)) := if_pos small
    rw [allocated]
    exact ⟨rfl, rfl⟩
  exhausted := fun s large => by
    have allocated : lowestFree.bfIdAllocatorAllocate s = (s, -1) := if_neg (Nat.not_lt.mpr large)
    rw [allocated]
    exact ⟨rfl, rfl⟩
  release := fun _ _ _ => rfl

def oneId (zeroBased : Bool) (calls : List PoolCall) : Option (PoolRun FreeIds) :=
  run (poolStep .lowestFree) (.initial .lowestFree 1 zeroBased 100) calls

/-- From one on, the second id is refused until the first one is back. -/
theorem one_id_accounted : Always (poolStep .lowestFree) (PoolAccounted .lowestFree)
    (.initial .lowestFree 1 false 100) [.alloc, .alloc, .free 101, .alloc] := by
  have defined : (oneId false [.alloc, .alloc, .free 101, .alloc]).isSome = true := by decide +kernel
  refine (poolAccounted_iff BfIdAllocator.lowestFree_documented 1 false 100
    (run_eq_some_getD defined (.initial .lowestFree 1 false 100))).mpr (guarded_of_forall (fun s call => ?_) _ _)
  cases call with
  | alloc => exact fun impossible => by cases impossible
  | free _ => trivial

/-- From zero on, two ids of one are outstanding and `GetLeft` wraps around. -/
theorem one_id_overdrawn : (oneId true [.alloc, .alloc]).map (fun s => (s.outstanding, s.pool.getLeft)) =
      some ([101, 100], 0xFFFFFFFF) ∧
    ¬ Always (poolStep .lowestFree) (PoolAccounted .lowestFree) (.initial .lowestFree 1 true 100)
      [.alloc, .alloc] := by
  have overdrawn : (oneId true [.alloc, .alloc]).map (fun s => (s.outstanding, s.pool.getLeft)) =
    some ([101, 100], 0xFFFFFFFF) := by decide +kernel
  refine ⟨overdrawn, fun always => ?_⟩
  obtain ⟨final, ran, accounted⟩ := always.reaches
  rw [oneId, ran, Option.map_some, Option.some.injEq, Prod.mk.injEq] at overdrawn
  have two : final.outstanding.length = 2 := by rw [overdrawn.1]; rfl
  have wrapped := accounted.left
  rw [overdrawn.2, two, show (0xFFFFFFFF : BitVec 32).toNat = 4294967295 from rfl] at wrapped
  have size : final.pool.getSize.toNat < 2 ^ 32 := final.pool.getSize.isLt
  omega

end Tao.Driver
