import Rv64imCore.Profile

/-! What the counters of the profile say. -/

namespace Rv64imCore.Profile
set_option autoImplicit true

/-- The equations that `Run` checks, and that every sampled cycle has one cause. -/
structure Counts.Consistent (c : Counts) : Prop where
  icache : c.icacheAccesses = c.icacheHits + c.icacheMisses
  dcacheKinds : c.dcacheAccesses = c.dcacheLoadAccesses + c.dcacheStoreAccesses
  dcache : c.dcacheAccesses = c.dcacheHits + c.dcacheMisses
  loads : c.dcacheLoadAccesses = c.dcacheLoadHits + c.dcacheLoadMisses
  stores : c.dcacheStoreAccesses = c.dcacheStoreHits + c.dcacheStoreMisses
  cycles : c.exclusiveDcacheCycles + c.exclusiveDividerCycles + c.exclusiveBranchCycles
    + c.exclusiveDependencyCycles + c.exclusiveIcacheCycles + c.exclusiveOtherCycles = c.cycles

section Counts
variable {c : Counts} {p : Previous} {s : Top.State} {i : Top.In}

theorem cause_once (t : Taps) :
    (t.cause == .dcache).toNat + (t.cause == .divider).toNat + (t.cause == .branch).toNat
      + (t.cause == .dependency).toNat + (t.cause == .icache).toNat + (t.cause == .other).toNat =
    1 := by
  cases t.cause <;> rfl

theorem reqVld_split (d : Dcache.State k) (j : Dcache.In) :
    (Dcache.reqVld d j).toNat = (Dcache.reqHit d j).toNat + (Dcache.reqMiss d j).toNat := by
  rw [Dcache.reqHit, Dcache.reqMiss]
  cases Dcache.reqVld d j <;> cases anyWay (Dcache.wayHit d j.addr) <;> rfl

theorem reqVld_split_and (d : Dcache.State k) (j : Dcache.In) (w : Bool) :
    (Dcache.reqVld d j && w).toNat = (Dcache.reqHit d j && (Dcache.reqVld d j && w)).toNat
      + (Dcache.reqMiss d j && (Dcache.reqVld d j && w)).toNat := by
  rw [Dcache.reqHit, Dcache.reqMiss]
  cases Dcache.reqVld d j <;> cases anyWay (Dcache.wayHit d j.addr) <;> cases w <;> rfl

theorem toNat_split (a w : Bool) : a.toNat = (a && !w).toNat + (a && w).toNat := by
  cases a <;> cases w <;> rfl

theorem Counts.Consistent.zero : Counts.zero.Consistent := ⟨rfl, rfl, rfl, rfl, rfl, rfl⟩

theorem Counts.Consistent.sample (h : c.Consistent) : (c.sample p (taps s i)).Consistent where
  icache := by
    have hs := reqVld_split s.icache (Top.icacheIn s i)
    have hc := h.icache
    simp only [Counts.sample, taps]
    omega
  dcacheKinds := by
    have hs := toNat_split (Dcache.reqVld s.sys.dcache (dcacheIn s i)) (dcacheIn s i).wen
    have hc := h.dcacheKinds
    simp only [Counts.sample, taps]
    omega
  dcache := by
    have hs := reqVld_split s.sys.dcache (dcacheIn s i)
    have hc := h.dcache
    simp only [Counts.sample, taps]
    omega
  loads := by
    have hs := reqVld_split_and s.sys.dcache (dcacheIn s i) (!(dcacheIn s i).wen)
    have hc := h.loads
    simp only [Counts.sample, taps]
    omega
  stores := by
    have hs := reqVld_split_and s.sys.dcache (dcacheIn s i) (dcacheIn s i).wen
    have hc := h.stores
    simp only [Counts.sample, taps]
    omega
  cycles := by
    have ho := cause_once (taps s i)
    have hc := h.cycles
    simp only [Counts.sample]
    omega

end Counts

/-! While no transfer of the device bridge is on the bus, the lines of the slave do not matter to
the requests. -/

section Quiet
variable {s : Top.State}

theorem early_eq (h : s.sys.atob.valid = false) (i j : Top.In) :
    Sys.early s.sys (Top.sysIn s i) = Sys.early s.sys (Top.sysIn s j) := by
  have hr (i : Sys.In) : Sys.m2Rdy s.sys i = false := by
    rw [Sys.m2Rdy, TwoToOne.ready, Sys.m2, AtoB.abr, h]
    rfl
  simp only [Sys.early, Sys.rsp, Sys.sRspVld, Sys.sRdata, hr, AtoB.rspRdata]
  rfl

theorem coreIn_eq (h : s.sys.atob.valid = false) (i j : Top.In) : coreIn s i = coreIn s j := by
  have he := early_eq h i j
  simp only [coreIn, Sys.coreIn, Sys.lsuReqRdy, Sys.lsuReqHit, Sys.cs, Sys.lsuAddr, he]
  rfl

theorem dcacheIn_eq (h : s.sys.atob.valid = false) (i j : Top.In) :
    (dcacheIn s i).reqVld = (dcacheIn s j).reqVld ∧ (dcacheIn s i).addr = (dcacheIn s j).addr ∧
      (dcacheIn s i).rspRdy = (dcacheIn s j).rspRdy := by
  have he := early_eq h i j
  have hc : Sys.coreIn s.sys (Top.sysIn s i) = Sys.coreIn s.sys (Top.sysIn s j) := coreIn_eq h i j
  have ha : Sys.lsuAddr s.sys (Top.sysIn s i) = Sys.lsuAddr s.sys (Top.sysIn s j) := by
    rw [Sys.lsuAddr, Sys.lsuAddr, he]
  refine ⟨?_, congrArg (BitVec.extractLsb' 0 32) ha, rfl⟩
  change (Sys.cs _ _ 0 && Sys.lsuReqVld _ _) = (Sys.cs _ _ 0 && Sys.lsuReqVld _ _)
  rw [Sys.cs, Sys.cs, ha, Sys.lsuReqVld, Sys.lsuReqVld, hc]

theorem dcache_reqMiss_eq (h : s.sys.atob.valid = false) (i j : Top.In) :
    Dcache.reqMiss s.sys.dcache (dcacheIn s i) = Dcache.reqMiss s.sys.dcache (dcacheIn s j) := by
  obtain ⟨hv, ha, hr⟩ := dcacheIn_eq h i j
  rw [Dcache.reqMiss, Dcache.reqMiss, Dcache.reqVld, Dcache.reqVld, hv, ha, hr]

theorem wbusEn_eq (h : s.sys.atob.valid = false) (i j : Top.In) :
    Dcache.wbusEn s.sys.dcache (dcacheIn s i) = Dcache.wbusEn s.sys.dcache (dcacheIn s j) := by
  rw [Dcache.wbusEn, Dcache.wbusEn, dcache_reqMiss_eq h i j, (dcacheIn_eq h i j).2.1]

theorem icache_reqMiss_eq (h : s.sys.atob.valid = false) (i j : Top.In) :
    Dcache.reqMiss s.icache (Top.icacheIn s i) = Dcache.reqMiss s.icache (Top.icacheIn s j) := by
  have hc : Sys.coreIn s.sys (Top.sysIn s i) = Sys.coreIn s.sys (Top.sysIn s j) := coreIn_eq h i j
  have hf : Top.ifuIn s i = Top.ifuIn s j := by rw [Top.ifuIn, Top.ifuIn, hc]
  simp only [Dcache.reqMiss, Dcache.reqVld, Top.icacheIn, hf]

end Quiet

section Run
variable (r : Region)

/-- What holds of the harness after every tick. -/
structure Harness.Sound (b : Harness) : Prop where
  fetch : Top.FetchInv b.top
  data : Sys.Inv b.top.sys
  icacheRefill : b.previous.icacheRefill = Dcache.stateIsRbus b.top.icache
  dcacheRefill : b.previous.dcacheRefill = Dcache.stateIsRbus b.top.sys.dcache
  dcacheWriteback : b.previous.dcacheWriteback = Dcache.stateIsWbus b.top.sys.dcache
  consistent : b.counts.Consistent
  active : b.observer.roiActive = b.roi

theorem Harness.Sound.start (s : Top.State) : (Harness.start s).Sound where
  fetch := Top.FetchInv.reset s
  data := Sys.Inv.reset s.sys
  icacheRefill := rfl
  dcacheRefill := rfl
  dcacheWriteback := rfl
  consistent := Counts.Consistent.zero
  active := rfl

variable {r} {b : Harness}

theorem Harness.Sound.next (h : b.Sound) (i : Top.In) : (b.next r i).Sound where
  fetch := h.fetch.next i
  data := h.data.next _
  icacheRefill := rfl
  dcacheRefill := rfl
  dcacheWriteback := rfl
  consistent := by
    change (if b.sampled r i then _ else b.counts : Counts).Consistent
    cases b.sampled r i with
    | true => exact h.consistent.sample
    | false => exact h.consistent
  active := by
    have ha := h.active
    simp only [Harness.next]
    cases b.starts r i <;> cases b.stops r i <;> cases hr : b.roi <;> rw [hr] at ha <;>
      simp [Observer.beginRoi, Observer.endRoi, Observer.sample, Observer.cycle, ha]

theorem sound_run (s : Top.State) (e : Nat → Top.In) (n : Nat) :
    ((harness r).run (Harness.start s) e n).Sound :=
  (harness r).run_invariant (P := Harness.Sound) (.start s) (fun _ a h => h.next a) n

/-- The misses that a cache works on or takes up, and the write-backs. -/
def inWork (d : Dcache.State k) (j : Dcache.In) : Nat :=
  (!Dcache.stateIsNorm d).toNat + (Dcache.reqMiss d j).toNat
def inWriteback (d : Dcache.State k) (j : Dcache.In) : Nat :=
  (Dcache.stateIsWbus d).toNat + (Dcache.wbusEn d j).toNat

/-- The balance of two counter readings: what was counted in and not yet out. -/
structure Balanced (b b' : Harness) (j j' : Top.In) : Prop where
  icache : b'.counts.icacheMisses + b.counts.icacheRefillCompleted
      + inWork b.top.icache (Top.icacheIn b.top j) =
    b.counts.icacheMisses + b'.counts.icacheRefillCompleted
      + inWork b'.top.icache (Top.icacheIn b'.top j')
  dcache : b'.counts.dcacheMisses + b.counts.dcacheRefillCompleted
      + inWork b.top.sys.dcache (dcacheIn b.top j) =
    b.counts.dcacheMisses + b'.counts.dcacheRefillCompleted
      + inWork b'.top.sys.dcache (dcacheIn b'.top j')
  writeback : b'.counts.dcacheDirtyEvictions + b.counts.dcacheWritebackCompleted
      + inWriteback b.top.sys.dcache (dcacheIn b.top j) =
    b.counts.dcacheDirtyEvictions + b'.counts.dcacheWritebackCompleted
      + inWriteback b'.top.sys.dcache (dcacheIn b'.top j')

theorem Balanced.refl (b : Harness) (j : Top.In) : Balanced b b j j := ⟨rfl, rfl, rfl⟩

theorem Balanced.trans {b' b'' : Harness} {j j' j'' : Top.In} (h : Balanced b b' j j')
    (h' : Balanced b' b'' j' j'') : Balanced b b'' j j'' where
  icache := by
    have h₁ := h.icache
    have h₂ := h'.icache
    omega
  dcache := by
    have h₁ := h.dcache
    have h₂ := h'.dcache
    omega
  writeback := by
    have h₁ := h.writeback
    have h₂ := h'.writeback
    omega

/-- A sampled tick. The events that it counts are those of the edge after it, which it sees on the
lines of the edge before: `j` are those of the last tick. -/
theorem Harness.Sound.balanced (h : b.Sound) {i : Top.In} (hs : b.sampled r i = true)
    (hd : b.top.sys.atob.valid = false) (j : Top.In) : Balanced b (b.next r i) j i := by
  have hc : (b.next r i).counts = b.counts.sample b.previous (b.taps i) := by
    change (if b.sampled r i then _ else _) = _
    rw [hs]
    rfl
  have ht : (b.next r i).top = Top.next b.top i := rfl
  refine ⟨?_, ?_, ?_⟩
  · have hw := h.fetch.icache.work_next (Top.icacheIn b.top i)
    rw [hc, ht, inWork, inWork, icache_reqMiss_eq hd j i]
    simp only [Counts.sample, h.icacheRefill, Harness.taps, Profile.taps]
    change (!Dcache.stateIsNorm (Top.next b.top i).icache).toNat
      + (!Dcache.stateIsRbus (Top.next b.top i).icache && _).toNat = _ at hw
    omega
  · have hw := h.data.dcache.work_next (dcacheIn b.top i)
    rw [hc, ht, inWork, inWork, dcache_reqMiss_eq hd j i]
    simp only [Counts.sample, h.dcacheRefill, Harness.taps, Profile.taps]
    change (!Dcache.stateIsNorm (Top.next b.top i).sys.dcache).toNat
      + (!Dcache.stateIsRbus (Top.next b.top i).sys.dcache && _).toNat = _ at hw
    omega
  · have hw := h.data.dcache.wbus_next (dcacheIn b.top i)
    rw [hc, ht, inWriteback, inWriteback, wbusEn_eq hd j i]
    simp only [Counts.sample, h.dcacheWriteback, Harness.taps, Profile.taps]
    change (Dcache.stateIsWbus (Top.next b.top i).sys.dcache).toNat
      + (!Dcache.stateIsWbus (Top.next b.top i).sys.dcache && _).toNat = _ at hw
    omega

theorem balanced_run (s : Top.State) (e : Nat → Top.In) {n m : Nat} (hnm : n ≤ m)
    (hs : ∀ k, n ≤ k → k < m →
      ((harness r).run (Harness.start s) e k).sampled r (e k) = true ∧
        ((harness r).run (Harness.start s) e k).top.sys.atob.valid = false) :
    Balanced ((harness r).run (Harness.start s) e n) ((harness r).run (Harness.start s) e m)
      (e (n - 1)) (e (m - 1)) := by
  induction hnm with
  | refl => exact .refl _ _
  | @step m hnm ih =>
    obtain ⟨h₁, h₂⟩ := hs m hnm (Nat.lt_succ_self m)
    exact (ih fun k hk hm => hs k hk (Nat.lt_succ_of_lt hm)).trans
      ((sound_run s e m).balanced h₁ h₂ _)

end Run

/-- After every tick of every run of the profile harness the counters pass its check and put every
sampled cycle down to one cause. Over ticks that are all sampled, with no transfer of the device
bridge on the bus, the misses of each cache are the refills completed and what is in work, and the
dirty evictions the write-backs completed and what is in work. -/
theorem counters_account (r : Region) (s : Top.State) (e : Nat → Top.In) (n m : Nat)
    (hnm : n ≤ m) :
    let b := (harness r).run (Harness.start s) e
    (b m).counts.Consistent ∧
      ((∀ k, n ≤ k → k < m →
          (b k).sampled r (e k) = true ∧ (b k).top.sys.atob.valid = false) →
        Balanced (b n) (b m) (e (n - 1)) (e (m - 1))) :=
  ⟨(sound_run s e m).consistent, balanced_run s e hnm⟩

/-- The region from the first instruction on. -/
def wholeRegion : Region := { roiStartPc := 0x80000000, roiEndPc := 0x80001000 }

/-- `lui x1, 0x80010; lui x3, 0x80011; sd x0, -2048(x1); ld x2, 0(x1); ld x2, -2048(x3);
ld x2, 0(x1); ld x2, 0(x3)`: the last load evicts the line that the store has made dirty. -/
def dirtyEviction (n : Nat) : Top.In :=
  { awReady := true, wReady := true, bValid := true, arReady := true, rValid := true
    rData := if n < 9 then
        [0x800111b7800100b7, 0x0000b1038000b023, 0x0000b1038001b103, 0x000000130001b103].getD
          ((n - 2) / 2) 0
      else 0x0000001300000013 }

theorem counters_account_eviction :
    let b := (harness wholeRegion).run (Harness.start default) dirtyEviction
    Dcache.stateIsRbus (b 14).top.sys.dcache = true ∧
    Dcache.stateIsWbus (b 45).top.sys.dcache = true ∧
    (b 64).counts.Consistent ∧ Balanced (b 11) (b 64) (dirtyEviction 10) (dirtyEviction 63) := by
  intro b
  have hs : ∀ k, k < 64 → 11 ≤ k →
      (b k).sampled wholeRegion (dirtyEviction k) = true ∧ (b k).top.sys.atob.valid = false := by
    decide +kernel
  have h := counters_account wholeRegion default dirtyEviction 11 64 (by decide)
  exact ⟨by decide +kernel, by decide +kernel, h.1, h.2 fun k hk hm => hs k hm hk⟩

end Rv64imCore.Profile
