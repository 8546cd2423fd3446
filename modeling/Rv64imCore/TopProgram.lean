import Rv64imCore.System

/-! A program on the whole top: what a run over an AXI slave with a memory does, beside a hart. -/

namespace Rv64imCore.Top
set_option autoImplicit true
open Rv64i (Hart)
open Rv64im (Platform)

section Run
variable (P : Platform)

/-- What the first `n` cycles have shown, on a slave whose memory starts as `m`. -/
def shown (m : Bytes.Mem 29) (s : State) (i : Nat → In) (n : Nat) : Seen :=
  machine.history (Seen.start m) (Seen.update P) s i n

/-- The top and a hart: the core beside the hart, and the caches over the memory of the slave. -/
structure Beside (m₀ : Bytes.Mem 29) (s : State) (g : Seen) (h : Hart) : Prop where
  joined : Joined P m₀ s g
  core : Core.Lockstep P s.sys.core g.sys.core h

variable {P}

theorem Beside.reset (s : State) {h₀ : Hart} (hpc : h₀.pc = Ifu.pcResetAddr + 4)
    (hx : ∀ r, h₀.x r = 0) : Beside P h₀.mem s.reset (Seen.start h₀.mem) h₀ where
  joined := Joined.reset P h₀.mem s
  core := Core.Lockstep.reset P s.sys.core hpc hx

theorem Beside.next {m₀ : Bytes.Mem 29} {s : State} {g : Seen} {i : In} {h h' : Hart}
    (hb : Beside P m₀ s g h) (hP : P.Image m₀) (hm : P.SameText m₀ h.mem)
    (hs : Serves P g s i) (hc : Sound g s i)
    (he : P.follow h (g.sys.core.flow.event (P.device g.sys.core.log.accesses) s.sys.core
      (coreIn s i)) = some h') : Beside P m₀ (Top.next s i) (g.update P s i) h' := by
  have hl := hb.core.next (hb.joined.serves hP hs) hc.core he
  refine ⟨hb.joined.next hP hs hc ?_, hl⟩
  have hm' : (g.update P s i).sys.core.mem = h'.mem := hl.mem
  rw [hm']
  exact hm.trans (P.follow_text he)

theorem Seen.follow_update {h₀ h : Hart} {g : Seen} {s : State} {i : In}
    (hf : P.follow h₀ (g.update P s i).sys.core.events = some h) :
    ∃ h', P.follow h₀ g.sys.core.events = some h' ∧
      P.follow h' (g.sys.core.flow.event (P.device g.sys.core.log.accesses) s.sys.core
        (coreIn s i)) = some h :=
  Core.Shown.follow_update P hf

theorem beside_run (s₀ : State) (i : Nat → In) {h₀ : Hart} (n : Nat) (hP : P.Image h₀.mem)
    (hpc : h₀.pc = Ifu.pcResetAddr + 4) (hx : ∀ r, h₀.x r = 0)
    (hs : ∀ k, k < n → Serves P (shown P h₀.mem s₀.reset i k) (machine.run s₀.reset i k) (i k))
    (hc : ∀ k, k < n → Sound (shown P h₀.mem s₀.reset i k) (machine.run s₀.reset i k) (i k)) :
    ∀ h, P.follow h₀ (shown P h₀.mem s₀.reset i n).sys.core.events = some h →
      Beside P h₀.mem (machine.run s₀.reset i n) (shown P h₀.mem s₀.reset i n) h := by
  refine machine.history_invariant _ _
    (P := fun s g => ∀ h, P.follow h₀ g.sys.core.events = some h → Beside P h₀.mem s g h)
    (C := fun s g a => Serves P g s a ∧ Sound g s a) ?_ ?_ fun k hk => ⟨hs k hk, hc k hk⟩
  · intro h hf
    obtain rfl : h₀ = h := Option.some.inj hf
    exact Beside.reset s₀ hpc hx
  · intro s g a ⟨hs, hc⟩ ih h hf
    obtain ⟨h', hf', he⟩ := Seen.follow_update hf
    exact (ih h' hf').next hP (P.follow_text hf') hs hc he

/-- A D-cache without a request holds the memory of the hart over that of the slave. -/
theorem Beside.holds {m₀ : Bytes.Mem 29} {s : State} {g : Seen} {h : Hart}
    (hb : Beside P m₀ s g h) (hi : Dcache.busy s.sys.dcache = false) :
    Dcache.Holds s.sys.dcache g.slave.mem h.mem := by
  rw [hb.joined.back, ← hb.core.mem, ← hb.joined.data.flat]
  rcases hb.joined.data.refines.state with ⟨-, hf⟩ | ⟨rs, a, -, -, hv⟩
  · exact hf.holds
  · have h' : Dcache.busy s.sys.dcache = true := hv.busy
    rw [hi] at h'
    cases h'

end Run

/-- Over an AXI slave that answers from its memory, a whole system without the known faults does
what a hart does from the same memory, as long as the hart can follow the events of the core: both
caches, both bridges and the pipeline stay out of sight, a D-cache at rest and the memory of the
slave hold the memory of the hart, and the program text in the memory of the slave stays as it
was. -/
theorem runs_program (P : Platform) (s₀ : State) (i : Nat → In) (h₀ h : Hart) (n : Nat)
    (hP : P.Image h₀.mem) (hpc : h₀.pc = Ifu.pcResetAddr + 4) (hx : ∀ r, h₀.x r = 0)
    (hs : ∀ k, k < n → Serves P (shown P h₀.mem s₀.reset i k) (machine.run s₀.reset i k) (i k))
    (hc : ∀ k, k < n → Sound (shown P h₀.mem s₀.reset i k) (machine.run s₀.reset i k) (i k))
    (hf : P.follow h₀ (shown P h₀.mem s₀.reset i n).sys.core.events = some h) :
    let s := machine.run s₀.reset i n
    let g := shown P h₀.mem s₀.reset i n
    Core.Shows P s.sys.core g.sys.core h ∧
      (Dcache.busy s.sys.dcache = false → Dcache.Holds s.sys.dcache g.slave.mem h.mem) ∧
      P.SameText h₀.mem g.slave.mem := by
  intro s g
  have hb := beside_run s₀ i n hP hpc hx hs hc h hf
  refine ⟨hb.core.shows, hb.holds, ?_⟩
  rw [hb.joined.back]
  exact hb.joined.text

/-- `lui x1, 0x80001; addi x2, x0, 7; sd x2, 0(x1); ld x3, 0(x1); add x4, x3, x2`, and no-ops in the
rest of the memory. -/
def sumWords : List (BitVec 64) := [0x00700113800010b7, 0x0000b1830020b023, 0x0000001300218233]

def sumMemory : Bytes.Mem 29 := fun a =>
  Bytes.byte (sumWords.getD (a.extractLsb' 3 29 - 0x10000000#29).toNat 0x0000001300000013)
    (a.extractLsb' 0 3).toNat

def sumPlatform : Platform :=
  .ofImage sumMemory ([0x10000000, 0x10000001, 0x10000002, 0x10000003].contains ·) fun _ => 0

/-- The slave takes everything at once and answers in the next cycle. The line of the text is read
in cycles 2 to 8, and its first word once more in cycle 15, for nobody. -/
def sumIn (n : Nat) : In :=
  { awReady := true, wReady := true, bValid := true, arReady := true, rValid := true
    rData := if n < 9 then sumWords.getD ((n - 2) / 2) 0x0000001300000013
      else if n = 15 then sumWords.getD 0 0 else 0x0000001300000013 }

theorem sumPlatform_image : sumPlatform.Image sumMemory := by
  refine Platform.image_ofImage (fun a ha => ?_) _
  simp only [List.contains_iff_mem, List.mem_cons, List.not_mem_nil, or_false] at ha
  rcases ha with rfl | rfl | rfl | rfl <;> decide

theorem runs_program_sum :
    let h₀ : Hart := { pc := Ifu.pcResetAddr + 4, x := fun _ => 0, mem := sumMemory }
    let s := machine.run (default : State).reset sumIn 29
    let g := shown sumPlatform sumMemory (default : State).reset sumIn 29
    ∃ h, sumPlatform.follow h₀ g.sys.core.events = some h ∧
      s.sys.core.idu.regs 4 = 14 ∧ h.reg 4 = 14 ∧
      Dcache.Holds s.sys.dcache g.slave.mem h.mem := by
  intro h₀ s g
  have hf : (sumPlatform.follow h₀ g.sys.core.events).isSome = true := by decide +kernel
  obtain ⟨h, hf⟩ := Option.isSome_iff_exists.mp hf
  have hr := runs_program sumPlatform default sumIn h₀ h 29 sumPlatform_image rfl (fun _ => rfl)
    (by decide +kernel) (by decide +kernel) hf
  have h4 : Core.held s.sys.core 4 = some 14 := by decide +kernel
  have hb : Dcache.busy s.sys.dcache = false := by decide +kernel
  exact ⟨h, hf, by decide +kernel, (hr.1.held 4 _ (by decide) h4).symm, hr.2.1 hb⟩

end Rv64imCore.Top
