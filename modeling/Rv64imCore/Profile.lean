import Rv64imCore.BusTraffic
import Rv64imCore.MemoryBus
import Rv64imCore.OperandUse
import Rv64imCore.Redirect

/-! The profile of a run: the taps of `rv64im_core_top` under `PERFORMANCE_MODEL`, the counters of
`gol_profile_harness.cpp` and the episodes of `dependency_observer.cpp`. -/

namespace Rv64imCore.Profile
set_option autoImplicit true

/-- The ports `perf_*`. -/
structure Taps where
  icacheAccessEvent : Bool
  icacheHitEvent : Bool
  icacheMissEvent : Bool
  icacheMissStall : Bool
  icacheTotalStall : Bool
  dcacheAccessEvent : Bool
  dcacheLoadAccessEvent : Bool
  dcacheStoreAccessEvent : Bool
  dcacheHitEvent : Bool
  dcacheMissEvent : Bool
  dcacheDirtyEvictionEvent : Bool
  dcacheMissStall : Bool
  dcacheWritebackStall : Bool
  dcacheTotalStall : Bool
  dcacheAccessAddress : BitVec 32
  branchRecovery : Bool
  dependencyStall : Bool
  dividerStall : Bool
  exuPc : BitVec 64
  exuInst : BitVec 32
  exuActive : Bool
  dependencyConsumerPc : BitVec 64
  dependencyConsumerInst : BitVec 32
  dependencyProducerRd : BitVec 5
  dependencyProducerAddress : BitVec 64

section Wires
variable (s : Top.State) (i : Top.In)

def dcacheIn : Dcache.In := Sys.dcacheIn s.sys (Top.sysIn s i)
def coreIn : Core.In := Sys.coreIn s.sys (Top.sysIn s i)

def taps : Taps :=
  { icacheAccessEvent := Dcache.reqVld s.icache (Top.icacheIn s i)
    icacheHitEvent := Dcache.reqHit s.icache (Top.icacheIn s i)
    icacheMissEvent := Dcache.reqMiss s.icache (Top.icacheIn s i)
    icacheMissStall := Dcache.stateIsRbus s.icache
    icacheTotalStall := Dcache.stateIsWbus s.icache || Dcache.stateIsRbus s.icache
      || Dcache.stallC1 s.icache (Top.icacheIn s i).rspRdy
    dcacheAccessEvent := Dcache.reqVld s.sys.dcache (dcacheIn s i)
    dcacheLoadAccessEvent := Dcache.reqVld s.sys.dcache (dcacheIn s i) && !(dcacheIn s i).wen
    dcacheStoreAccessEvent := Dcache.reqVld s.sys.dcache (dcacheIn s i) && (dcacheIn s i).wen
    dcacheHitEvent := Dcache.reqHit s.sys.dcache (dcacheIn s i)
    dcacheMissEvent := Dcache.reqMiss s.sys.dcache (dcacheIn s i)
    dcacheDirtyEvictionEvent := Dcache.wbusEn s.sys.dcache (dcacheIn s i)
    dcacheMissStall := Dcache.stateIsRbus s.sys.dcache
    dcacheWritebackStall := Dcache.stateIsWbus s.sys.dcache
    dcacheTotalStall := Dcache.stateIsWbus s.sys.dcache || Dcache.stateIsRbus s.sys.dcache
      || Dcache.stallC1 s.sys.dcache (dcacheIn s i).rspRdy
    dcacheAccessAddress := (dcacheIn s i).addr
    branchRecovery := Core.exuFlush s.sys.core (coreIn s i).toEarly
      && !Core.memStall s.sys.core (coreIn s i).toEarly
    dependencyStall := Core.iduPipeStall s.sys.core (coreIn s i)
    dividerStall := Alu.divOp s.sys.core.exu.idAlu.info
      && !Div.ack (Core.divNow s.sys.core (coreIn s i))
    exuPc := s.sys.core.exu.idAlu.pc
    exuInst := s.sys.core.exu.idAlu.inst
    exuActive := !Core.stallExu s.sys.core (coreIn s i)
    dependencyConsumerPc := s.sys.core.idu.ifId.pc
    dependencyConsumerInst := s.sys.core.idu.ifId.inst
    dependencyProducerRd := Core.exuRdIndex s.sys.core (coreIn s i)
    dependencyProducerAddress := Alu.memAddr (Core.aluIn s.sys.core (coreIn s i).toEarly) }

end Wires

/-- The stall that a cycle is put down to. -/
inductive Cause where
  | dcache
  | divider
  | branch
  | dependency
  | icache
  | other
  deriving DecidableEq

def Taps.cause (t : Taps) : Cause :=
  if t.dcacheTotalStall then .dcache
  else if t.dividerStall then .divider
  else if t.branchRecovery then .branch
  else if t.dependencyStall then .dependency
  else if t.icacheTotalStall then .icache
  else .other

/-- `counts_`, under the names of `kNames`. -/
structure Counts where
  cycles : Nat
  icacheAccesses : Nat
  icacheHits : Nat
  icacheMisses : Nat
  icacheRefillStarted : Nat
  icacheRefillCompleted : Nat
  icacheMissStallCycles : Nat
  icacheTotalStallCycles : Nat
  dcacheAccesses : Nat
  dcacheLoadAccesses : Nat
  dcacheStoreAccesses : Nat
  dcacheHits : Nat
  dcacheMisses : Nat
  dcacheLoadHits : Nat
  dcacheLoadMisses : Nat
  dcacheStoreHits : Nat
  dcacheStoreMisses : Nat
  dcacheRefillStarted : Nat
  dcacheRefillCompleted : Nat
  dcacheDirtyEvictions : Nat
  dcacheWritebackStarted : Nat
  dcacheWritebackCompleted : Nat
  dcacheMissStallCycles : Nat
  dcacheWritebackStallCycles : Nat
  dcacheTotalStallCycles : Nat
  exclusiveDcacheCycles : Nat
  exclusiveDividerCycles : Nat
  exclusiveBranchCycles : Nat
  exclusiveDependencyCycles : Nat
  exclusiveIcacheCycles : Nat
  exclusiveOtherCycles : Nat
  icacheMissAllocated : Nat
  dcacheMissAllocated : Nat

def Counts.zero : Counts :=
  ⟨0, 0, 0, 0, 0, 0, 0, 0, 0, 0, 0, 0, 0, 0, 0, 0, 0,
    0, 0, 0, 0, 0, 0, 0, 0, 0, 0, 0, 0, 0, 0, 0, 0⟩

/-- `previous_icache_refill_`, `previous_dcache_refill_` and `previous_dcache_writeback_`. -/
structure Previous where
  icacheRefill : Bool
  dcacheRefill : Bool
  dcacheWriteback : Bool

/-- `Sample`, while the region of interest lasts. -/
def Counts.sample (c : Counts) (p : Previous) (t : Taps) : Counts :=
  { cycles := c.cycles + 1
    icacheAccesses := c.icacheAccesses + t.icacheAccessEvent.toNat
    icacheHits := c.icacheHits + t.icacheHitEvent.toNat
    icacheMisses := c.icacheMisses + t.icacheMissEvent.toNat
    icacheRefillStarted := c.icacheRefillStarted + (t.icacheMissStall && !p.icacheRefill).toNat
    icacheRefillCompleted := c.icacheRefillCompleted + (!t.icacheMissStall && p.icacheRefill).toNat
    icacheMissStallCycles := c.icacheMissStallCycles + t.icacheMissStall.toNat
    icacheTotalStallCycles := c.icacheTotalStallCycles + t.icacheTotalStall.toNat
    dcacheAccesses := c.dcacheAccesses + t.dcacheAccessEvent.toNat
    dcacheLoadAccesses := c.dcacheLoadAccesses + t.dcacheLoadAccessEvent.toNat
    dcacheStoreAccesses := c.dcacheStoreAccesses + t.dcacheStoreAccessEvent.toNat
    dcacheHits := c.dcacheHits + t.dcacheHitEvent.toNat
    dcacheMisses := c.dcacheMisses + t.dcacheMissEvent.toNat
    dcacheLoadHits := c.dcacheLoadHits + (t.dcacheHitEvent && t.dcacheLoadAccessEvent).toNat
    dcacheLoadMisses := c.dcacheLoadMisses + (t.dcacheMissEvent && t.dcacheLoadAccessEvent).toNat
    dcacheStoreHits := c.dcacheStoreHits + (t.dcacheHitEvent && t.dcacheStoreAccessEvent).toNat
    dcacheStoreMisses := c.dcacheStoreMisses
      + (t.dcacheMissEvent && t.dcacheStoreAccessEvent).toNat
    dcacheRefillStarted := c.dcacheRefillStarted + (t.dcacheMissStall && !p.dcacheRefill).toNat
    dcacheRefillCompleted := c.dcacheRefillCompleted + (!t.dcacheMissStall && p.dcacheRefill).toNat
    dcacheDirtyEvictions := c.dcacheDirtyEvictions + t.dcacheDirtyEvictionEvent.toNat
    dcacheWritebackStarted := c.dcacheWritebackStarted
      + (t.dcacheWritebackStall && !p.dcacheWriteback).toNat
    dcacheWritebackCompleted := c.dcacheWritebackCompleted
      + (!t.dcacheWritebackStall && p.dcacheWriteback).toNat
    dcacheMissStallCycles := c.dcacheMissStallCycles + t.dcacheMissStall.toNat
    dcacheWritebackStallCycles := c.dcacheWritebackStallCycles + t.dcacheWritebackStall.toNat
    dcacheTotalStallCycles := c.dcacheTotalStallCycles + t.dcacheTotalStall.toNat
    exclusiveDcacheCycles := c.exclusiveDcacheCycles + (t.cause == .dcache).toNat
    exclusiveDividerCycles := c.exclusiveDividerCycles + (t.cause == .divider).toNat
    exclusiveBranchCycles := c.exclusiveBranchCycles + (t.cause == .branch).toNat
    exclusiveDependencyCycles := c.exclusiveDependencyCycles + (t.cause == .dependency).toNat
    exclusiveIcacheCycles := c.exclusiveIcacheCycles + (t.cause == .icache).toNat
    exclusiveOtherCycles := c.exclusiveOtherCycles + (t.cause == .other).toNat
    icacheMissAllocated := c.icacheMissAllocated + t.icacheMissEvent.toNat
    dcacheMissAllocated := c.dcacheMissAllocated + t.dcacheMissEvent.toNat }

inductive ProducerClass where
  | kLoad
  | kMultiply
  | kOther
  deriving DecidableEq

inductive LoadOutcome where
  | kNotLoad
  | kPending
  | kHit
  | kMiss
  deriving DecidableEq

open DependencyObserver (Source classifySource opcode funct3)

structure Episode where
  firstCycle : Nat
  cycles : Nat
  consumerPc : BitVec 64
  consumerInst : BitVec 32
  producerPc : BitVec 64
  producerInst : BitVec 32
  producerRd : BitVec 8
  producerAddress : BitVec 64
  producerClass : ProducerClass
  source : Source
  loadOutcome : LoadOutcome

def isLoad (inst : BitVec 32) : Bool := opcode inst == 0x03#32
def isMultiply (inst : BitVec 32) : Bool :=
  (opcode inst == 0x33#32 || opcode inst == 0x3b#32) && inst >>> 25 == 1#32
    && !(3#32).ult (funct3 inst)

/-- The observer with its output enabled. -/
structure Observer where
  roiActive : Bool
  roiCycles : Nat
  previousExclusiveDependency : Bool
  episodes : List Episode

def Observer.beginRoi : Observer :=
  { roiActive := true, roiCycles := 0, previousExclusiveDependency := false, episodes := [] }

def Observer.endRoi (o : Observer) : Observer :=
  { o with roiActive := false, previousExclusiveDependency := false }

def Observer.cycle (o : Observer) : Observer :=
  { o with roiCycles := if o.roiActive then o.roiCycles + 1 else o.roiCycles }

/-- `++episodes.back().cycles`. -/
def bump : List Episode → List Episode
  | [] => []
  | [e] => [{ e with cycles := e.cycles + 1 }]
  | e :: l => e :: bump l

/-- The first episode that waits for the outcome of its load gets it. -/
def settle (addr : BitVec 32) (hit : Bool) : List Episode → List Episode
  | [] => []
  | e :: l =>
    if e.loadOutcome == .kPending && e.producerAddress.setWidth 32 &&& ~~~7#32 == addr then
      { e with loadOutcome := if hit then .kHit else .kMiss } :: l
    else e :: settle addr hit l

section Observer
variable (o : Observer) (t : Taps)

def Observer.exclusive : Bool :=
  o.roiActive && t.dependencyStall && !t.dcacheTotalStall && !t.dividerStall && !t.branchRecovery

/-- The episode that starts. -/
def Observer.episode : Episode :=
  let producerClass : ProducerClass := if isLoad t.exuInst then .kLoad
    else if isMultiply t.exuInst then .kMultiply else .kOther
  let source := classifySource t.dependencyConsumerInst (t.dependencyProducerRd.setWidth 8)
  { firstCycle := o.roiCycles
    cycles := 0
    consumerPc := t.dependencyConsumerPc
    consumerInst := t.dependencyConsumerInst
    producerPc := t.exuPc
    producerInst := t.exuInst
    producerRd := t.dependencyProducerRd.setWidth 8
    producerAddress := t.dependencyProducerAddress
    producerClass := producerClass
    source := source
    loadOutcome := if producerClass == .kLoad && source != .kFalse then .kPending
      else .kNotLoad }

def Observer.opened : List Episode :=
  if o.exclusive t && !o.previousExclusiveDependency then o.episodes ++ [o.episode t]
  else o.episodes

def Observer.counted : List Episode := if o.exclusive t then bump (o.opened t) else o.opened t

def Observer.sample : Observer :=
  { o with
    previousExclusiveDependency := o.exclusive t
    episodes := if t.dcacheLoadAccessEvent then
        settle t.dcacheAccessAddress t.dcacheHitEvent (o.counted t)
      else o.counted t }

end Observer

/-- `dependency_cycles` of the report. -/
def Observer.dependencyCycles (o : Observer) : Nat := (o.episodes.map Episode.cycles).sum

/-! The harness, without its memory and its markers on the bus. -/

/-- The pcs of `perf_roi`. -/
structure Region where
  roiStartPc : BitVec 64
  roiEndPc : BitVec 64

structure Harness where
  top : Top.State
  previous : Previous
  roi : Bool
  counts : Counts
  observer : Observer

/-- The counters of a top out of reset. -/
def Harness.start (s : Top.State) : Harness :=
  { top := s.reset, previous := ⟨false, false, false⟩, roi := false, counts := .zero
    observer := Observer.beginRoi.endRoi }

section Tick
variable (r : Region) (b : Harness) (i : Top.In)

/-- What the top shows after the edge; the lines of the slave are still those of the edge. -/
def Harness.taps : Taps := Profile.taps (Top.next b.top i) i

def Harness.starts : Bool := (b.taps i).exuActive && (b.taps i).exuPc == r.roiStartPc
def Harness.stops : Bool := (b.taps i).exuActive && (b.taps i).exuPc == r.roiEndPc
def Harness.sampled : Bool := b.roi && !b.starts r i

/-- `Tick`. -/
def Harness.next : Harness :=
  let o := if b.starts r i then Observer.beginRoi
    else if b.roi then b.observer.cycle.sample (b.taps i) else b.observer
  { top := Top.next b.top i
    previous := { icacheRefill := (b.taps i).icacheMissStall
                  dcacheRefill := (b.taps i).dcacheMissStall
                  dcacheWriteback := (b.taps i).dcacheWritebackStall }
    roi := (b.starts r i || b.roi) && !b.stops r i
    counts := if b.sampled r i then b.counts.sample b.previous (b.taps i) else b.counts
    observer := if b.stops r i then o.endRoi else o }

end Tick

def harness (r : Region) : Clocked.Machine Harness Top.In := { next := Harness.next r }

end Rv64imCore.Profile
