import Rv64imCore.Pmem
import Rv64imCore.SimTop
import Rv64imCore.TopProgram

/-! `rv64im_core_sim_top` with the memory of the simulator, closed: a program runs on it as on a
hart. -/

namespace Rv64imCore
set_option autoImplicit true
open Rv64i (Hart)
open Rv64im (Platform)

namespace Sim

/-- The simulation top with its registers of the write channel, and the memory. -/
structure Harness where
  sim : State
  waddr : BitVec 32
  wdata : BitVec 64
  wmask : BitVec 8
  pmem : Pmem

/-- The registers of the write channel have no reset. -/
def Harness.start (s : State) (waddr : BitVec 32) (wdata : BitVec 64) (wmask : BitVec 8)
    (pmem : Pmem) : Harness := { sim := s.reset, waddr, wdata, wmask, pmem }

/-- What a cycle brings from outside: the clock, the data wires while nothing is read, and whether
the read is evaluated once more after the write. -/
structure Tick where
  time : BitVec 64
  rdata : BitVec 64
  again : Bool

section Wires
variable (b : Harness) (e : Tick)

def Harness.wen : Bool := Axi.bReady b.sim.top.axi
def Harness.written : Pmem := memWrite b.pmem b.waddr b.wdata b.wmask b.wen
def Harness.input : In :=
  { memRead := memRead (if e.again then b.written else b.pmem) e.time e.rdata }
def Harness.ports : Top.In := topIn b.sim (b.input e)

def Harness.next : Harness :=
  { sim := Sim.next b.sim (b.input e)
    waddr := Axi.awAddr (axiOut b.sim)
    wdata := Axi.wData (axiOut b.sim)
    wmask := Axi.wStrb (axiOut b.sim)
    pmem := b.written }

end Wires

def harness : Clocked.Machine Harness Tick := { next := Harness.next }

/-- What is written to memory addresses lies in `pmem`. -/
def Harness.Keeps (b : Harness) : Prop :=
  b.wen = true → Axi.isRam b.waddr = true → inPmem b.waddr = true

instance (b : Harness) : Decidable b.Keeps := inferInstanceAs (Decidable (_ → _ → _))

theorem aligned_append (x : BitVec 29) : Aligned (x ++ 0#3) := by
  apply BitVec.eq_of_getLsbD_eq
  intro k hk
  simp only [BitVec.getLsbD_extractLsb', BitVec.getLsbD_append, hk]
  simp [hk]

theorem aligned_abrAddr (s : Dcache.State 6) : Aligned (Dcache.abrAddr s) := by
  rw [Dcache.abrAddr]
  split
  · exact aligned_append _
  · exact aligned_append _

theorem aligned_lsuAddr (s : Sys.State) (i : Sys.In) :
    Aligned ((Sys.lsuAddr s i).extractLsb' 0 32) := by
  apply BitVec.eq_of_getLsbD_eq
  intro k hk
  simp only [Sys.lsuAddr, Core.lsuAddr, BitVec.getLsbD_extractLsb', BitVec.getLsbD_append, hk,
    Nat.zero_add]
  simp [hk, show k < 32 by omega]

/-- The simulation top and its slave agree: what the slave has taken stands in the registers. -/
structure Harness.Wired (b : Harness) (x : Axi.Slave) : Prop where
  inv : Sys.Inv b.sim.top.sys
  routed : x.Routed b.sim.top.axi (Sys.m3 b.sim.top.sys)
  device : b.sim.top.sys.atob.valid = true → Aligned b.sim.top.sys.atob.addr
  together : b.sim.top.axi.awOver = b.sim.top.axi.wOver
  ar : ∀ a, x.ar = some a → a = b.sim.raddr ∧ Aligned a
  aw : ∀ a, x.aw = some a → a = b.waddr ∧ Aligned a
  w : ∀ d, x.w = some d → d = (b.wdata, b.wmask)
  mem : x.mem = memoryOf b.pmem

section Step
variable {b : Harness} {x : Axi.Slave} {e : Tick}

theorem Harness.Wired.start (s : State) (waddr : BitVec 32) (wdata : BitVec 64) (wmask : BitVec 8)
    (p : Pmem) : (Harness.start s waddr wdata wmask p).Wired (Axi.Slave.start (memoryOf p)) where
  inv := Sys.Inv.reset s.top.sys
  routed := Axi.Slave.Routed.reset _ _
  device := fun h => Bool.noConfusion h
  together := rfl
  ar := fun _ h => nomatch h
  aw := fun _ h => nomatch h
  w := fun _ h => nomatch h
  mem := rfl

theorem Harness.Wired.m3_aligned (h : b.Wired x) (hv : (Sys.m3 b.sim.top.sys).valid = true) :
    Aligned (Sys.m3 b.sim.top.sys).addr := by
  rcases h.inv.m3_cases hv with ⟨-, -, he⟩ | ⟨-, h2, he⟩
  · rw [he]
    exact aligned_abrAddr _
  · rw [he]
    exact h.device h2

theorem Harness.Wired.written (h : b.Wired x) (hk : b.Keeps) :
    memoryOf b.written = if b.wen then x.commit else x.mem := by
  cases hw : b.wen with
  | false =>
    rw [if_neg Bool.false_ne_true, h.mem, Harness.written, memWrite, hw]
    rfl
  | true =>
    have hw' := hw
    rw [Harness.wen, Axi.bReady, Bool.and_eq_true] at hw'
    have ha := h.routed.aw
    have hd := h.routed.w
    rw [hw'.1, if_pos rfl] at ha
    rw [hw'.2, if_pos rfl] at hd
    obtain ⟨he, hal⟩ := h.aw _ ha.2.2
    have hde := h.w _ hd.2.2
    rw [if_pos rfl, Axi.Slave.commit, ha.2.2, hd.2.2, hde]
    change _ = if Axi.isRam _ then _ else _
    rw [he] at hal ⊢
    rw [Harness.written, hw, h.mem]
    cases hr : Axi.isRam b.waddr with
    | true => exact hal.memWrite_inside (hk hw hr) _ _ _
    | false =>
      have hp : inPmem b.waddr = false := by
        refine Bool.of_not_eq_true fun hp => ?_
        rw [inPmem_iff] at hp
        have hn : ¬Axi.isRam b.waddr = true := by rw [hr]; decide
        rw [isRam_iff] at hn
        omega
      rw [hal.memWrite_outside hp]
      rfl

theorem Harness.Wired.answers (h : b.Wired x) (hk : b.Keeps) (e : Tick) :
    x.Answers b.sim.top.axi (Top.axiIn b.sim.top (b.ports e)) := by
  intro hr a ha hram
  obtain ⟨rfl, hal⟩ := h.ar a ha
  have hren : Axi.rReady b.sim.top.axi = true := (Bool.and_eq_true_iff.mp hr).2
  have hc : (b.sim.raddr == 0xa0000048 || b.sim.raddr == 0xa0000040) = false := by
    rw [Bool.or_eq_false_iff, beq_eq_false_iff_ne, beq_eq_false_iff_ne]
    constructor <;> intro he <;> rw [he] at hram <;> cases hram
  have hd : (Top.axiIn b.sim.top (b.ports e)).rData =
      (memoryOf (if e.again then b.written else b.pmem)).read (Dcache.wordOf b.sim.raddr) := by
    change memRead _ _ _ b.sim.raddr (Axi.rReady b.sim.top.axi) = _
    rw [memRead, hren, if_pos rfl, hc, if_neg Bool.false_ne_true, hal.paddrRead_eq]
  rw [hd]
  cases e.again with
  | false => exact .inl (by rw [h.mem]; rfl)
  | true =>
    rw [if_pos rfl, h.written hk]
    split
    · exact .inr rfl
    · exact .inl rfl

theorem arShake_ports : Axi.arShake b.sim.top.axi (Top.axiIn b.sim.top (b.ports e)) =
    Axi.arValid b.sim.top.axi (axiOut b.sim) := Bool.and_self _

theorem awShake_ports : Axi.awShake b.sim.top.axi (Top.axiIn b.sim.top (b.ports e)) =
    Axi.awValid b.sim.top.axi (axiOut b.sim) := Bool.and_self _

theorem wShake_ports : Axi.wShake b.sim.top.axi (Top.axiIn b.sim.top (b.ports e)) =
    Axi.wValid b.sim.top.axi (axiOut b.sim) := Bool.and_self _

theorem rOver_ports : Axi.rOver b.sim.top.axi (Top.axiIn b.sim.top (b.ports e)) =
    b.sim.top.axi.arOver := Bool.and_self _

theorem bOver_ports : Axi.bOver b.sim.top.axi (Top.axiIn b.sim.top (b.ports e)) = b.wen :=
  Bool.and_self _

theorem Harness.Wired.next_device (h : b.Wired x) (hv : (b.next e).sim.top.sys.atob.valid = true) :
    Aligned (b.next e).sim.top.sys.atob.addr := by
  have hv' : (if (Sys.req b.sim.top.sys (Top.sysIn b.sim.top (b.ports e)) 2).vld
      && b.sim.top.sys.atob.reqRdy then true
    else if b.sim.top.sys.atob.valid && Sys.m2Rdy b.sim.top.sys
      (Top.sysIn b.sim.top (b.ports e)) then false else b.sim.top.sys.atob.valid) = true := hv
  change Aligned (if (Sys.req b.sim.top.sys (Top.sysIn b.sim.top (b.ports e)) 2).vld
    && b.sim.top.sys.atob.reqRdy then _ else b.sim.top.sys.atob.addr)
  split at hv'
  · rename_i hq
    rw [if_pos hq]
    exact aligned_lsuAddr _ _
  · rename_i hq
    rw [if_neg hq]
    refine h.device ?_
    split at hv'
    · cases hv'
    · exact hv'

/-- The address of a read stands in its register in the one cycle that the read is open. -/
theorem Harness.Wired.next_ar (h : b.Wired x) (a : BitVec 32)
    (ha : (x.update b.sim.top.axi (Top.axiIn b.sim.top (b.ports e))).ar = some a) :
    a = (b.next e).sim.raddr ∧ Aligned a := by
  simp only [Axi.Slave.update, arShake_ports, rOver_ports] at ha
  split at ha
  · rename_i hv
    obtain rfl := Option.some.inj ha
    refine ⟨rfl, ?_⟩
    rw [Axi.arValid, Bool.and_eq_true, Bool.or_eq_true] at hv
    change Aligned (if Axi.m0Valid b.sim.top.axi (axiOut b.sim) then (Top.m0 b.sim.top).addr
      else (Sys.m3 b.sim.top.sys).addr)
    split
    · exact aligned_abrAddr _
    · rename_i hm
      rcases hv.1 with h0 | h1
      · have h1 : Axi.m1Ren (axiOut b.sim) = true := by
          refine Bool.of_not_eq_false fun h1 => hm ?_
          rw [Axi.m0Valid, h0, h1]
          rfl
        exact h.m3_aligned (Bool.and_eq_true_iff.mp h1).1
      · exact h.m3_aligned (Bool.and_eq_true_iff.mp h1).1
  · split at ha
    · cases ha
    · rename_i ho
      have hs := h.routed.opened
      rw [ha] at hs
      exact absurd hs.symm ho

/-- A write is answered in the cycle after both its parts are taken. -/
theorem Harness.Wired.not_waiting (h : b.Wired x) (hw : b.wen = false) :
    b.sim.top.axi.awOver = false ∧ b.sim.top.axi.wOver = false := by
  rw [Harness.wen, Axi.bReady, h.together, Bool.and_self] at hw
  exact ⟨h.together.trans hw, hw⟩

theorem Harness.Wired.next_aw (h : b.Wired x) (a : BitVec 32)
    (ha : (x.update b.sim.top.axi (Top.axiIn b.sim.top (b.ports e))).aw = some a) :
    a = (b.next e).waddr ∧ Aligned a := by
  simp only [Axi.Slave.update, awShake_ports, bOver_ports] at ha
  cases hw : b.wen with
  | true =>
    rw [hw, if_pos rfl] at ha
    cases ha
  | false =>
    rw [hw, if_neg Bool.false_ne_true] at ha
    split at ha
    · rename_i hv
      obtain rfl := Option.some.inj ha
      refine ⟨rfl, h.m3_aligned ?_⟩
      rw [Axi.awValid, Axi.m1Wen, Bool.and_eq_true, Bool.and_eq_true] at hv
      exact hv.1.1
    · have hx := h.routed.aw
      rw [(h.not_waiting hw).1, if_neg Bool.false_ne_true, ha] at hx
      cases hx

theorem Harness.Wired.next_w (h : b.Wired x) (d : BitVec 64 × BitVec 8)
    (hd : (x.update b.sim.top.axi (Top.axiIn b.sim.top (b.ports e))).w = some d) :
    d = ((b.next e).wdata, (b.next e).wmask) := by
  simp only [Axi.Slave.update, wShake_ports, bOver_ports] at hd
  cases hw : b.wen with
  | true =>
    rw [hw, if_pos rfl] at hd
    cases hd
  | false =>
    rw [hw, if_neg Bool.false_ne_true] at hd
    split at hd
    · obtain rfl := Option.some.inj hd
      rfl
    · have hx := h.routed.w
      rw [(h.not_waiting hw).2, if_neg Bool.false_ne_true, hd] at hx
      cases hx

theorem Harness.Wired.next (h : b.Wired x) (hk : b.Keeps) (e : Tick) :
    (b.next e).Wired (x.update b.sim.top.axi (Top.axiIn b.sim.top (b.ports e))) where
  inv := h.inv.next _
  routed := h.routed.next (i := Top.axiIn b.sim.top (b.ports e)) fun hv hr =>
    h.inv.m3_stays (i := Top.sysIn b.sim.top (b.ports e)) hv hr
  device := h.next_device
  together := by
    change (if Axi.bOver b.sim.top.axi (Top.axiIn b.sim.top (b.ports e)) then false
      else if Axi.awShake b.sim.top.axi (Top.axiIn b.sim.top (b.ports e)) then true
      else b.sim.top.axi.awOver) =
      if Axi.bOver b.sim.top.axi (Top.axiIn b.sim.top (b.ports e)) then false
      else if Axi.wShake b.sim.top.axi (Top.axiIn b.sim.top (b.ports e)) then true
      else b.sim.top.axi.wOver
    rw [awShake_ports, wShake_ports, Axi.awValid, Axi.wValid, h.together]
  ar := h.next_ar
  aw := h.next_aw
  w := h.next_w
  mem := by
    change (if Axi.bOver b.sim.top.axi (Top.axiIn b.sim.top (b.ports e)) then x.commit
      else x.mem) = memoryOf b.written
    rw [bOver_ports, h.written hk]

end Step

section Run
variable (P : Platform) (b₀ : Harness) (e : Nat → Tick)

/-- What the ports of the core's top see of a run. -/
def ports (n : Nat) : Top.In := (harness.run b₀ e n).ports (e n)

theorem top_run (n : Nat) :
    (harness.run b₀ e n).sim.top = Top.machine.run b₀.sim.top (ports b₀ e) n := by
  induction n with
  | zero => rfl
  | succ n ih =>
    rw [Clocked.Machine.run_succ, Clocked.Machine.run_succ, ← ih]
    rfl

/-- What a run shows, on a slave that has the memory of the simulator. -/
def watched (n : Nat) : Top.Seen :=
  Top.shown P (memoryOf b₀.pmem) b₀.sim.top (ports b₀ e) n

theorem watched_succ (n : Nat) : watched P b₀ e (n + 1) =
    (watched P b₀ e n).update P (harness.run b₀ e n).sim.top (ports b₀ e n) := by
  rw [top_run]
  rfl

theorem wired_run (h₀ : b₀.Wired (Axi.Slave.start (memoryOf b₀.pmem)))
    (hk : ∀ k, k < n → (harness.run b₀ e k).Keeps) :
    (harness.run b₀ e n).Wired (watched P b₀ e n).slave := by
  induction n with
  | zero => exact h₀
  | succ n ih =>
    rw [watched_succ]
    exact (ih fun k hk' => hk k (by omega)).next (hk n (by omega)) (e n)

end Run

/-- None of the known faults happens in the cycle, its device accesses are answered as the platform
has it, and no store leaves `pmem`. -/
structure Harness.Sound (P : Platform) (g : Top.Seen) (b : Harness) (e : Tick) : Prop where
  keeps : b.Keeps
  device : g.sys.Names P b.sim.top.sys (Top.sysIn b.sim.top (b.ports e))
  top : Top.Sound g b.sim.top (b.ports e)

instance : Decidable (Harness.Sound P g b e) :=
  decidable_of_iff (b.Keeps ∧ g.sys.Names P b.sim.top.sys (Top.sysIn b.sim.top (b.ports e)) ∧
      Top.Sound g b.sim.top (b.ports e))
    ⟨fun ⟨h₁, h₂, h₃⟩ => ⟨h₁, h₂, h₃⟩, fun ⟨h₁, h₂, h₃⟩ => ⟨h₁, h₂, h₃⟩⟩

section Program
variable {P : Platform} (s : State) (waddr : BitVec 32) (wdata : BitVec 64) (wmask : BitVec 8)
  {p : Pmem} (e : Nat → Tick) {h₀ : Hart} {n : Nat}

theorem beside_run (hP : P.Image h₀.mem) (hm : h₀.mem = memoryOf p)
    (hpc : h₀.pc = Ifu.pcResetAddr + 4) (hx : ∀ r, h₀.x r = 0)
    (hs : ∀ k, k < n → Harness.Sound P (watched P (Harness.start s waddr wdata wmask p) e k)
      (harness.run (Harness.start s waddr wdata wmask p) e k) (e k)) :
    ∀ h, P.follow h₀
        (watched P (Harness.start s waddr wdata wmask p) e n).sys.core.events = some h →
      Top.Beside P h₀.mem (harness.run (Harness.start s waddr wdata wmask p) e n).sim.top
        (watched P (Harness.start s waddr wdata wmask p) e n) h := by
  intro h hf
  have hg : ∀ k, watched P (Harness.start s waddr wdata wmask p) e k =
      Top.shown P h₀.mem s.top.reset (ports _ e) k := fun k => by rw [hm]; rfl
  rw [show (harness.run (Harness.start s waddr wdata wmask p) e n).sim.top = _ from top_run ..]
  rw [hg] at hf ⊢
  refine Top.beside_run s.top (ports _ e) n hP hpc hx (fun k hk => ?_) (fun k hk => ?_) h hf
  · have hw := wired_run P _ e (Harness.Wired.start s waddr wdata wmask p) (n := k)
      fun j hj => (hs j (by omega)).keeps
    rw [← hg]
    change Top.Serves P _ (Top.machine.run (Harness.start s waddr wdata wmask p).sim.top
      (ports _ e) k) _
    rw [← top_run]
    exact ⟨hw.answers (hs k hk).keeps (e k), (hs k hk).device⟩
  · rw [← hg]
    change Top.Sound _ (Top.machine.run (Harness.start s waddr wdata wmask p).sim.top
      (ports _ e) k) _
    rw [← top_run]
    exact (hs k hk).top

end Program

/-- On `rv64im_core_sim_top` with the memory of the simulator, a program whose image is loaded runs
as on a hart, in every run without the known faults in which the device accesses are answered as
the platform has it and no store leaves `pmem`. -/
theorem simulates_program (P : Platform) (s : State) (waddr : BitVec 32) (wdata : BitVec 64)
    (wmask : BitVec 8) (p : Pmem) (e : Nat → Tick) (h₀ h : Hart) (n : Nat)
    (hP : P.Image h₀.mem) (hm : h₀.mem = memoryOf p) (hpc : h₀.pc = Ifu.pcResetAddr + 4)
    (hx : ∀ r, h₀.x r = 0) :
    let b := harness.run (Harness.start s waddr wdata wmask p) e
    let g := watched P (Harness.start s waddr wdata wmask p) e
    (∀ k, k < n → Harness.Sound P (g k) (b k) (e k)) →
    P.follow h₀ (g n).sys.core.events = some h →
    Core.Shows P (b n).sim.top.sys.core (g n).sys.core h ∧
      (Dcache.busy (b n).sim.top.sys.dcache = false →
        Dcache.Holds (b n).sim.top.sys.dcache (memoryOf (b n).pmem) h.mem) ∧
      P.SameText (memoryOf p) (memoryOf (b n).pmem) := by
  intro b g hs hf
  have hb := beside_run s waddr wdata wmask e hP hm hpc hx hs h hf
  have hmem := (wired_run P _ e (Harness.Wired.start s waddr wdata wmask p) (n := n)
    fun j hj => (hs j hj).keeps).mem
  refine ⟨hb.core.shows, fun hi => ?_, ?_⟩
  · rw [← hmem]
    exact hb.holds hi
  · rw [← hmem, hb.joined.back, ← hm]
    exact hb.joined.text

/-- The image of the sum, loaded. -/
def sumPmem : Pmem := fun x => Top.sumMemory (0b10000#5 ++ x)

def sumPlatform : Platform :=
  .ofImage (memoryOf sumPmem) ([0x10000000, 0x10000001, 0x10000002, 0x10000003].contains ·)
    fun _ => 0

theorem sumPlatform_image : sumPlatform.Image (memoryOf sumPmem) := by
  refine Platform.image_ofImage (fun a ha => ?_) _
  simp only [List.contains_iff_mem, List.mem_cons, List.not_mem_nil, or_false] at ha
  rcases ha with rfl | rfl | rfl | rfl <;> decide

theorem simulates_program_sum :
    let h₀ : Hart := { pc := Ifu.pcResetAddr + 4, x := fun _ => 0, mem := memoryOf sumPmem }
    let e : Nat → Tick := fun n => { time := 0, rdata := 0, again := n % 2 == 0 }
    let b := harness.run (Harness.start default 0 0 0 sumPmem) e
    let g := watched sumPlatform (Harness.start default 0 0 0 sumPmem) e
    ∃ h, sumPlatform.follow h₀ (g 29).sys.core.events = some h ∧
      (b 29).sim.top.sys.core.idu.regs 4 = 14 ∧ h.reg 4 = 14 ∧
      Dcache.Holds (b 29).sim.top.sys.dcache (memoryOf (b 29).pmem) h.mem := by
  intro h₀ e b g
  have hf : (sumPlatform.follow h₀ (g 29).sys.core.events).isSome = true := by decide +kernel
  obtain ⟨h, hf⟩ := Option.isSome_iff_exists.mp hf
  have hr := simulates_program sumPlatform default 0 0 0 sumPmem e h₀ h 29 sumPlatform_image rfl rfl
    (fun _ => rfl) (by decide +kernel) hf
  have h4 : Core.held (b 29).sim.top.sys.core 4 = some 14 := by decide +kernel
  have hb : Dcache.busy (b 29).sim.top.sys.dcache = false := by decide +kernel
  exact ⟨h, hf, by decide +kernel, (hr.1.held 4 _ (by decide) h4).symm, hr.2.1 hb⟩

end Sim

end Rv64imCore
