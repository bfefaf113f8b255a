import Tao.DataPlane.Ingress

/-! # The driver of `route_tbl`

`route.cpp` and the bodies of `learn_callback` and `idletime_callback`.  What the
hardware driver answers to a request, and the occupancy counters that it owns, are
arguments. -/

namespace Tao.Driver

open Tao.Foundation Tao.DataPlane

abbrev BfStatus := Int

def bfSuccess : BfStatus := 0

/-- What the driver answers to a delete that marked the entry as aged. -/
def bfAgedMarked : BfStatus := 1

structure HalRouteKey where
  ipSrcAddr : BitVec 32
  ipDstAddr : BitVec 32

structure HalRouteData where
  nhopId : BitVec 32

/-- The data object of the action `route_for_nexthop`. -/
structure RouteEntryData where
  nhopId : BitVec 32
  entryTtl : BitVec 64

/-- `entry_in_table_c` and `entry_aged_c` as a call sees them. -/
structure TableUsage where
  entryInTableC : Nat
  entryAgedC : Nat
  inTable_le : entryInTableC ≤ 65536
  aged_le : entryAgedC ≤ entryInTableC

/-- The table with the `$ENTRY_TTL` of its entries, the member `entry_ttl` and the global
    `aged_replace`. -/
structure Route where
  routeTbl : RouteTbl
  entryTtls : Table FlowKey (BitVec 64)
  entryTtl : BitVec 64
  agedReplace : Bool

def Route.initial : Route where
  routeTbl := ∅
  entryTtls := ∅
  entryTtl := 5000
  agedReplace := false

/-! ## `route.cpp` -/

/-- The addresses go to the key object as `uint64_t`, the object keeps the width of its field. -/
def keySetUp (key : HalRouteKey) : FlowKey where
  srcAddr := (key.ipSrcAddr.setWidth 64).setWidth 32
  dstAddr := (key.ipDstAddr.setWidth 64).setWidth 32

def dataSetUp (data : HalRouteData) (r : Route) : RouteEntryData where
  nhopId := (data.nhopId.setWidth 64).setWidth 32
  entryTtl := r.entryTtl

/-- `tableEntryAdd` of the hardware driver: on success the key has the entry. -/
def tableEntryAdd (answer : BfStatus) (key : FlowKey) (data : RouteEntryData) (r : Route) : Route :=
  if answer = bfSuccess then
    { r with
      routeTbl := r.routeTbl.insert key (.routeForNexthop data.nhopId)
      entryTtls := r.entryTtls.insert key data.entryTtl }
  else r

/-- `tableEntryDel` of the hardware driver, without the flag that only marks the entry. -/
def tableEntryDel (answer : BfStatus) (key : FlowKey) (r : Route) : Route :=
  if answer = bfSuccess then
    { r with routeTbl := r.routeTbl.erase key, entryTtls := r.entryTtls.erase key }
  else r

def halRouteEntryAdd (answer : BfStatus) (key : HalRouteKey) (data : HalRouteData) (r : Route) :
    Route × BfStatus :=
  (tableEntryAdd answer (keySetUp key) (dataSetUp data r) r, answer)

/-- `hal_route_entry_del`: with `aged_flag` the entry is marked and stays. -/
def halRouteEntryDel (answer : BfStatus) (key : HalRouteKey) (agedFlag : Bool) (r : Route) : Route × BfStatus :=
  (if agedFlag then r else tableEntryDel answer (keySetUp key) r, answer)

/-- `aging_ttl_balance`.  Shares of 65536 are exact as `float`. -/
def agingTtlBalance (usage : TableUsage) (r : Route) : Route :=
  let r := if 85 * 65536 < 100 * usage.entryInTableC then { r with agedReplace := true } else r
  if r.agedReplace then
    if 100 * (65536 - usage.entryInTableC + usage.entryAgedC) < 15 * 65536 then
      if 60 < r.entryTtl.toNat then { r with entryTtl := r.entryTtl - 5#64 } else r
    else { r with entryTtl := r.entryTtl + 1#64 }
  else r

/-! ## The callbacks -/

def getValue (value : BitVec 32) : BitVec 64 := value.setWidth 64

/-- One turn of the loop of `learn_callback`. -/
def learnDigest (answer : BfStatus) (usage : TableUsage) (digest : FlowkeyDigest) (r : Route) : Route :=
  let ipSrcAddr := getValue digest.srcIpDigest
  let ipDstAddr := getValue digest.dstIpDigest
  let (r, stu2) := halRouteEntryAdd answer ⟨ipSrcAddr.setWidth 32, ipDstAddr.setWidth 32⟩ ⟨1⟩ r
  if stu2 = bfSuccess then agingTtlBalance usage r else r

/-- `idletime_callback` for the key of an entry. -/
def idletimeCallback (answer : BfStatus) (usage : TableUsage) (key : FlowKey) (r : Route) : Route :=
  let agingIpSrc := getValue key.srcAddr
  let agingIpDst := getValue key.dstAddr
  let (r, stu2) := halRouteEntryDel answer ⟨agingIpSrc.setWidth 32, agingIpDst.setWidth 32⟩ true r
  if stu2 = bfAgedMarked then agingTtlBalance usage r else r

/-! ## What the callbacks do to the table -/

/-- An address survives its way from the digest to the key object. -/
theorem address_roundTrip (x : BitVec 32) : (((getValue x).setWidth 32).setWidth 64).setWidth 32 = x := by
  rw [getValue, BitVec.setWidth_setWidth_of_le _ (by omega), BitVec.setWidth_setWidth_of_le _ (by omega),
    BitVec.setWidth_setWidth_of_le _ (by omega), BitVec.setWidth_eq]

theorem learnDigest_eq (answer : BfStatus) (usage : TableUsage) (digest : FlowkeyDigest) (r : Route) :
    let added := tableEntryAdd answer ⟨digest.srcIpDigest, digest.dstIpDigest⟩ ⟨1, r.entryTtl⟩ r
    learnDigest answer usage digest r = if answer = bfSuccess then agingTtlBalance usage added else added := by
  simp only [learnDigest, halRouteEntryAdd, keySetUp, dataSetUp, address_roundTrip]
  rfl

theorem idletimeCallback_eq (answer : BfStatus) (usage : TableUsage) (key : FlowKey) (r : Route) :
    idletimeCallback answer usage key r = if answer = bfAgedMarked then agingTtlBalance usage r else r :=
  rfl

end Tao.Driver
