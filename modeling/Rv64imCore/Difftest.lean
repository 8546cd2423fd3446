import Rv64imCore.Retire
import Rv64imCore.SimProgram

/-! What `difftest_check` compares: the register file and the pc of the write-back, against the hart
that has run the instructions before the one in WB. -/

namespace Rv64imCore
set_option autoImplicit true
open Rv64i (Hart)
open Rv64im (Event Platform)

namespace Core

/-- The events before the instruction in WB, and before that in MEM. -/
structure Commit where
  wb : List Event
  mem : List Event

def Commit.start : Commit := { wb := [], mem := [] }

def Commit.update (c : Commit) (g : Shown) (s : State) (i : In) : Commit :=
  if stallExu s i then c else { wb := c.mem, mem := g.events }

/-- A register with the write of WB. -/
def passed (s : State) (r : BitVec 5) : BitVec 64 :=
  if s.wbu.wen && s.wbu.index == r then s.wbu.data else s.idu.regs r

/-- The register file is that of the hart before WB, and WB takes it to that before MEM. -/
structure Commit.Holds (P : Platform) (h₀ : Hart) (c : Commit) (s : State) (g : Shown) : Prop where
  wbPrefix : c.wb <+: c.mem
  memPrefix : c.mem <+: g.events
  regs : ∀ h, P.follow h₀ c.wb = some h → ∀ r, r ≠ 0 → s.idu.regs r = h.reg r
  passed : ∀ h, P.follow h₀ c.mem = some h → ∀ r, r ≠ 0 → Core.passed s r = h.reg r

theorem Commit.Holds.reset (P : Platform) (s : State) {h₀ : Hart} (hx : ∀ r, h₀.x r = 0)
    (m : Bytes.Mem 29) : Commit.start.Holds P h₀ s.reset (Shown.start m) where
  wbPrefix := List.prefix_refl []
  memPrefix := List.prefix_refl []
  regs := fun h hf r hr => by
    obtain rfl : h₀ = h := Option.some.inj hf
    rw [Hart.reg, if_neg hr, hx]
    rfl
  passed := fun h hf r hr => by
    obtain rfl : h₀ = h := Option.some.inj hf
    rw [Hart.reg, if_neg hr, hx]
    rfl

section Step
variable {P : Platform} {h₀ : Hart} {c : Commit} {s : State} {g : Shown} {i : In}

theorem next_regs_passed (hs : stallExu s i = false) (hr : r ≠ 0) :
    (Core.next s i).idu.regs r = passed s r := by
  rw [next_regs hr, hs, passed, Bool.not_false, Bool.and_true]

/-- Behind a cycle that moves the pipeline, WB has the result of the instruction that was in MEM. -/
theorem Lockstep.next_passed {h : Hart} (hl : Lockstep P s g h) (hs : Serves P g s i)
    (hst : stallExu s i = false) (hr : r ≠ 0) : passed (Core.next s i) r = h.reg r := by
  refine hl.now hs hr ?_
  rw [← hl.delivers.heldNow_of_advance hst hr, passed]
  split <;> rfl

theorem Commit.Holds.next (hc : c.Holds P h₀ s g)
    (hl : ∀ h, P.follow h₀ g.events = some h → Lockstep P s g h ∧ Serves P g s i) :
    (c.update g s i).Holds P h₀ (Core.next s i) (g.update P s i) := by
  have hg : g.events <+: (g.update P s i).events := List.prefix_append _ _
  rw [Commit.update]
  cases hst : stallExu s i with
  | true =>
    refine ⟨hc.wbPrefix, hc.memPrefix.trans hg, fun h hf r hr => ?_, fun h hf r hr => ?_⟩
    · rw [next_regs hr, hst, Bool.not_true, Bool.and_false]
      exact hc.regs h hf r hr
    · rw [Core.passed, next_wbu, next_regs hr, hst, if_pos rfl, Bool.not_true, Bool.and_false]
      exact hc.passed h hf r hr
  | false =>
    refine ⟨hc.memPrefix, hg, fun h hf r hr => ?_, fun h hf r hr =>
      (hl h hf).1.next_passed (hl h hf).2 hst hr⟩
    rw [next_regs_passed hst hr]
    exact hc.passed h hf r hr

end Step

end Core

namespace Sim

/-- EX and ID hold the instructions that the flow has there. -/
structure Stages.Flows (g : Stages) (f : Core.Flow) : Prop where
  id : g.front.id.isSome = f.idVld
  ex : g.front.ex.isSome = f.exVld

theorem isSome_reg (rst wen : Bool) (n o : Option α) :
    (reg rst none wen n o).isSome = reg rst false wen n.isSome o.isSome := by
  cases rst <;> cases wen <;> rfl

theorem Stages.Flows.next {g : Stages} {f : Core.Flow} (h : g.Flows f) (s : Core.State)
    (i : Core.In) : (g.update s i).Flows (f.update s i) where
  id := by
    change (reg _ none _ (g.front.arriving s i) g.front.id).isSome = _
    rw [isSome_reg, h.id, Core.Passage.arriving]
    cases hk : Ifu.instOk s.ifu (Core.ifuIn s i) <;> simp [Core.Flow.update, hk]
  ex := by
    change (reg _ none _ g.front.id g.front.ex).isSome = _
    rw [isSome_reg, h.id, h.ex]
    rfl

/-- The pcs of the instructions in WB and MEM are those of the hart before them. -/
structure Stages.AtPcs (P : Platform) (h₀ : Hart) (g : Stages) (c : Core.Commit) : Prop where
  wb : ∀ t, g.wb = some t → ∀ h, P.follow h₀ c.wb = some h → t.pc = h.pc
  mem : ∀ t, g.mem = some t → ∀ h, P.follow h₀ c.mem = some h → t.pc = h.pc

theorem Stages.AtPcs.start (P : Platform) (h₀ : Hart) (c : Core.Commit) :
    Stages.start.AtPcs P h₀ c where
  wb := fun _ h => nomatch h
  mem := fun _ h => nomatch h

theorem Stages.AtPcs.next {P : Platform} {h₀ : Hart} {c : Core.Commit} {s : Core.State}
    {g : Stages} {w : Core.Shown} {i : Core.In} (hg : g.AtPcs P h₀ c) (hf : g.Flows w.flow)
    (hl : ∀ h, P.follow h₀ w.events = some h → Core.Lockstep P s w h) :
    (g.update s i).AtPcs P h₀ (c.update w s i) := by
  rw [Core.Commit.update, Stages.update]
  rw [← wbWait_eq]
  cases hw : wbWait s i with
  | true =>
    refine ⟨hg.wb, fun t ht => hg.mem t ?_⟩
    change (if Core.flushMem s i then none else g.mem) = some t at ht
    split at ht
    · cases ht
    · exact ht
  | false =>
    refine ⟨hg.mem, fun t ht h hh => ?_⟩
    change g.issuing s i = some t at ht
    rw [Stages.issuing] at ht
    split at ht
    · cases ht
    · obtain ⟨k, hk, rfl⟩ := Option.map_eq_some_iff.mp ht
      have hv : w.flow.exVld = true := by rw [← hf.ex, hk]; rfl
      rw [← (hl h hh).pc, Core.pc_of_exVld hv]

/-- `cpu_gpr`: the register file, and `wb_pc` behind it. -/
def cpuGpr (w : Trace) (s : Core.State) (k : Nat) : BitVec 64 :=
  if k = 0 then 0 else if k = 32 then wbPc w else s.idu.regs (BitVec.ofNat 5 k)

/-- What `difftest_regcpy` copies from a reference that is a hart. -/
def refReg (h : Hart) (k : Nat) : BitVec 64 := if k = 32 then h.pc else h.reg (BitVec.ofNat 5 k)

/-- `ref_difftest_checkregs`. -/
def checkregs (ref gpr : Nat → BitVec 64) : Bool := (List.range 33).all fun k => ref k == gpr k

theorem checkregs_iff {ref gpr : Nat → BitVec 64} :
    checkregs ref gpr = true ↔ ∀ k, k < 33 → ref k = gpr k := by
  simp [checkregs, List.all_eq_true]

theorem checkregs_of_agree {w : Trace} {s : Core.State} {h : Hart} (hpc : wbPc w = h.pc)
    (hr : ∀ r, r ≠ 0 → s.idu.regs r = h.reg r) : checkregs (refReg h) (cpuGpr w s) = true := by
  refine checkregs_iff.mpr fun k hk => ?_
  rw [refReg, cpuGpr]
  by_cases h0 : k = 0
  · rw [if_pos h0, h0, if_neg (by decide)]
    rfl
  · rw [if_neg h0]
    split
    · exact hpc.symm
    · refine (hr _ fun h' => ?_).symm
      have h' : k % 2 ^ 5 = 0 := congrArg BitVec.toNat h'
      omega

section Run
variable (P : Platform) (b₀ : Harness) (e : Nat → Tick)

def inputs (n : Nat) : In := (harness.run b₀ e n).input (e n)

theorem sim_run (n : Nat) :
    (harness.run b₀ e n).sim = machine.run b₀.sim (inputs b₀ e) n := by
  induction n with
  | zero => rfl
  | succ n ih =>
    rw [Clocked.Machine.run_succ, Clocked.Machine.run_succ, ← ih]
    rfl

/-- The events before WB and MEM after `n` cycles. -/
def commits : Nat → Core.Commit
  | 0 => .start
  | n + 1 => (commits n).update (watched P b₀ e n).sys.core (harness.run b₀ e n).sim.top.sys.core
      (coreIn (harness.run b₀ e n).sim (inputs b₀ e n))

end Run

section Precise
variable {P : Platform} (s : State) (waddr : BitVec 32) (wdata : BitVec 64) (wmask : BitVec 8)
  {p : Pmem} (e : Nat → Tick) {h₀ : Hart} {n : Nat}

theorem commits_run (hP : P.Image h₀.mem) (hm : h₀.mem = memoryOf p)
    (hpc : h₀.pc = Ifu.pcResetAddr + 4) (hx : ∀ r, h₀.x r = 0)
    (hs : ∀ k, k < n → Harness.Sound P (watched P (Harness.start s waddr wdata wmask p) e k)
      (harness.run (Harness.start s waddr wdata wmask p) e k) (e k)) :
    let b₀ := Harness.start s waddr wdata wmask p
    let st := (record s (inputs b₀ e) n).stages
    (commits P b₀ e n).Holds P h₀ (harness.run b₀ e n).sim.top.sys.core
        (watched P b₀ e n).sys.core ∧
      st.Flows (watched P b₀ e n).sys.core.flow ∧ st.AtPcs P h₀ (commits P b₀ e n) := by
  intro b₀
  induction n with
  | zero =>
    exact ⟨Core.Commit.Holds.reset P s.top.sys.core hx (memoryOf p), ⟨rfl, rfl⟩,
      Stages.AtPcs.start P h₀ _⟩
  | succ n ih =>
    obtain ⟨hc, hf, ha⟩ := ih fun k hk => hs k (by omega)
    have hb := beside_run s waddr wdata wmask e hP hm hpc hx (n := n) fun k hk => hs k (by omega)
    have hw := wired_run P _ e (Harness.Wired.start s waddr wdata wmask p) (n := n)
      fun k hk => (hs k (by omega)).keeps
    have hv : Top.Serves P (watched P b₀ e n) (harness.run b₀ e n).sim.top (ports b₀ e n) :=
      ⟨hw.answers (hs n (by omega)).keeps (e n), (hs n (by omega)).device⟩
    intro st
    have hst : st = (record s (inputs b₀ e) n).stages.update (harness.run b₀ e n).sim.top.sys.core
        (coreIn (harness.run b₀ e n).sim (inputs b₀ e n)) := by
      rw [sim_run]
      rfl
    rw [watched_succ, hst]
    exact ⟨hc.next fun h hh => ⟨(hb h hh).core, (hb h hh).joined.serves hP hv⟩, hf.next _ _,
      ha.next hf fun h hh => (hb h hh).core⟩

end Precise

theorem Mirror.wb_of_wbSign {g : Stages} {w : Trace} {c : Core.State} {i : Core.In}
    (h : Mirror g w c) (hf : g.fault w c i = false) (hw : wbSign w c i = true) :
    ∃ t, g.wb = some t ∧ t.pc = wbPc w := by
  obtain ⟨h1, h2, -⟩ := fault_cases hf
  have he := h.event_eq_iff.mpr ⟨h1, h2⟩
  rw [event, hw, if_pos rfl, Stages.retiring] at he
  split at he
  · cases he
  · obtain ⟨t, ht, hp⟩ := List.mem_map.mp (he ▸ List.mem_singleton_self (wbPc w))
    exact ⟨t, Option.mem_toList.mp ht, hp⟩

/-- In a run of the simulation top without the known faults, of the core and of its trace, what
`difftest_check` finds at a write-back is precise: the register file and `wb_pc` are those of a hart
that has followed just the events before the instruction in WB, whatever is in flight behind it. -/
theorem difftest_check_precise (P : Platform) (s : State) (waddr : BitVec 32) (wdata : BitVec 64)
    (wmask : BitVec 8) (p : Pmem) (e : Nat → Tick) (h₀ h : Hart) (n : Nat)
    (hP : P.Image h₀.mem) (hm : h₀.mem = memoryOf p) (hpc : h₀.pc = Ifu.pcResetAddr + 4)
    (hx : ∀ r, h₀.x r = 0) :
    let b₀ := Harness.start s waddr wdata wmask p
    let b := harness.run b₀ e
    let g := watched P b₀ e
    let c := (b n).sim.top.sys.core
    (∀ k, k < n → Harness.Sound P (g k) (b k) (e k)) →
    (∀ k, k ≤ n → (record s (inputs b₀ e) k).fault (b k).sim (inputs b₀ e k) = false) →
    P.follow h₀ (g n).sys.core.events = some h →
    wbSign (b n).sim.trace c (coreIn (b n).sim (inputs b₀ e n)) = true →
    (commits P b₀ e n).wb <+: (g n).sys.core.events ∧
      ∃ h', P.follow h₀ (commits P b₀ e n).wb = some h' ∧
        checkregs (refReg h') (cpuGpr (b n).sim.trace c) = true := by
  intro b₀ b g c hs hr hf hw
  obtain ⟨hc, -, ha⟩ := commits_run s waddr wdata wmask e hP hm hpc hx hs
  have hwb := hc.wbPrefix.trans hc.memPrefix
  obtain ⟨h', hf'⟩ := Platform.follow_prefix hwb hf
  have hmr : Mirror (record s (inputs b₀ e) n).stages (b n).sim.trace c := by
    have hsim : ∀ k, (b k).sim = machine.run s.reset (inputs b₀ e) k := sim_run b₀ e
    change Mirror _ (b n).sim.trace (b n).sim.top.sys.core
    rw [hsim]
    refine mirror_run s (inputs b₀ e) fun k hk => ?_
    rw [← hsim]
    exact hr k (by omega)
  obtain ⟨t, ht, hp⟩ := hmr.wb_of_wbSign (hr n (Nat.le_refl n)) hw
  exact ⟨hwb, h', hf', checkregs_of_agree (hp.symm.trans (ha.wb t ht h' hf')) (hc.regs h' hf')⟩

theorem difftest_check_precise_sum :
    let h₀ : Hart := { pc := Ifu.pcResetAddr + 4, x := fun _ => 0, mem := memoryOf sumPmem }
    let e : Nat → Tick := fun n => { time := 0, rdata := 0, again := n % 2 == 0 }
    let b₀ := Harness.start default 0 0 0 sumPmem
    let b := harness.run b₀ e 28
    let c := b.sim.top.sys.core
    (commits sumPlatform b₀ e 28).wb.length = 5 ∧ c.idu.regs 4 = 14 ∧
      ∃ h', sumPlatform.follow h₀ (commits sumPlatform b₀ e 28).wb = some h' ∧
        checkregs (refReg h') (cpuGpr b.sim.trace c) = true := by
  intro h₀ e b₀ b c
  have hf : (sumPlatform.follow h₀
      (watched sumPlatform b₀ e 28).sys.core.events).isSome = true := by
    decide +kernel
  obtain ⟨h, hf⟩ := Option.isSome_iff_exists.mp hf
  exact ⟨by decide +kernel, by decide +kernel, (difftest_check_precise sumPlatform default 0 0 0
    sumPmem e h₀ h 28 sumPlatform_image rfl rfl (fun _ => rfl) (by decide +kernel)
    (by decide +kernel) hf (by decide +kernel)).2⟩

end Sim

end Rv64imCore
