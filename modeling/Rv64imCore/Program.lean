import Rv64imCore.Lockstep
import Rv64imCore.Training

/-! A program on the core: whole runs beside a hart. -/

namespace Rv64imCore.Core
set_option autoImplicit true
open Rv64i (Hart)
open Rv64im (Event Platform)

section Run
variable (P : Platform)

/-- What the first `n` cycles have shown, on a memory that starts as `m`. -/
def shown (m : Bytes.Mem 29) (s : State) (i : Nat → In) (n : Nat) : Shown :=
  machine.history (Shown.start m) (Shown.update P) s i n

theorem Shown.follow_update {h₀ h : Hart} {g : Shown} {s : State} {i : In}
    (hf : P.follow h₀ (g.update P s i).events = some h) :
    ∃ h', P.follow h₀ g.events = some h' ∧
      P.follow h' (g.flow.event (P.device g.log.accesses) s i) = some h := by
  change P.follow h₀ (g.events ++ g.flow.event (P.device g.log.accesses) s i) = some h at hf
  rw [Platform.follow, List.foldlM_append] at hf
  exact Option.bind_eq_some_iff.mp hf

theorem lockstep_run (s₀ : State) (i : Nat → In) {h₀ : Hart} (n : Nat)
    (hpc : h₀.pc = Ifu.pcResetAddr + 4) (hx : ∀ r, h₀.x r = 0)
    (hs : ∀ k, k < n → Serves P (shown P h₀.mem s₀.reset i k) (machine.run s₀.reset i k) (i k))
    (hc : ∀ k, k < n →
      Sound (shown P h₀.mem s₀.reset i k).flow (machine.run s₀.reset i k) (i k)) :
    ∀ h, P.follow h₀ (shown P h₀.mem s₀.reset i n).events = some h →
      Lockstep P (machine.run s₀.reset i n) (shown P h₀.mem s₀.reset i n) h := by
  refine machine.history_invariant _ _
    (P := fun s g => ∀ h, P.follow h₀ g.events = some h → Lockstep P s g h)
    (C := fun s g a => Serves P g s a ∧ Sound g.flow s a) ?_ ?_ fun k hk => ⟨hs k hk, hc k hk⟩
  · intro h hf
    obtain rfl : h₀ = h := Option.some.inj hf
    exact Lockstep.reset P s₀ hpc hx
  · intro s g a ⟨hs, hc⟩ ih h hf
    obtain ⟨h', hf', he⟩ := Shown.follow_update P hf
    exact (ih h' hf').next hs hc he

end Run

theorem held_of_drained {s : State} (hm : s.lsu.mem.rdWen = false) (hw : s.wbu.wen = false)
    (r : BitVec 5) : held s r = some (s.idu.regs r) := by
  simp [held, hm, hw]

/-- The registers of a hart beside the core, as far as loads have been answered. -/
theorem Lockstep.reg_eq {P : Platform} {s : State} {g : Shown} {h : Hart}
    (hl : Lockstep P s g h) (hr : r ≠ 0) (hv : held s r = some v) : v = h.reg r := by
  rw [← hl.regs r hr, expected, hv]
  rfl

theorem Lockstep.mepc {P : Platform} {s : State} {g : Shown} {h : Hart} {i : In}
    (hl : Lockstep P s g h) (ht : IntrCtrl.intrReq (intrIn s i.toEarly) = true) :
    (Core.next s i).exu.csr.mepc = h.pc := by
  have hv : g.flow.exVld = true := by
    cases hv : g.flow.exVld with
    | true => rfl
    | false =>
      have hq := hl.flow.not_intrFlush (i := i) hv
      rw [intrFlush, IntrCtrl.flushEn, ht] at hq
      cases hq
  rw [← hl.pc, pc_of_exVld hv]
  have hw : IntrCtrl.csrWen (intrIn s i.toEarly) = true := by rw [IntrCtrl.csrWen, ht]; rfl
  have he : IntrCtrl.wmepc (intrIn s i.toEarly) = s.exu.idAlu.pc := by
    rw [IntrCtrl.wmepc, if_pos ht]; rfl
  change reg false 0 ((_ && _) || IntrCtrl.csrWen (intrIn s i.toEarly))
    (if IntrCtrl.csrWen (intrIn s i.toEarly) then IntrCtrl.wmepc (intrIn s i.toEarly) else _) _ = _
  rw [hw, he, Bool.or_true, if_pos rfl]
  rfl

/-- What can be seen of the core is what the hart has: the instruction in EX is the one at its pc,
every register that has its value has that of the hart, the accesses have left its memory, and an
interrupt or exception would save its pc. -/
structure Shows (P : Platform) (s : State) (g : Shown) (h : Hart) : Prop where
  pc : g.flow.exVld = true → s.exu.idAlu.pc = h.pc
  inst : g.flow.exVld = true → ∀ w, P.code h.pc = some w → s.exu.idAlu.inst = w
  held : ∀ r v, r ≠ 0 → Core.held s r = some v → v = h.reg r
  drained : s.lsu.mem.rdWen = false → s.wbu.wen = false → ∀ r, r ≠ 0 → s.idu.regs r = h.reg r
  mem : g.mem = h.mem
  mepc : ∀ a : In, IntrCtrl.intrReq (intrIn s a.toEarly) = true →
    (Core.next s a).exu.csr.mepc = h.pc

theorem Lockstep.shows {P : Platform} {s : State} {g : Shown} {h : Hart} (hl : Lockstep P s g h) :
    Shows P s g h where
  pc := fun hv => (pc_of_exVld hv).symm.trans hl.pc
  inst := fun hv w hw =>
    hl.text.exWord hv w (by rw [← pc_of_exVld hv, hl.pc]; exact hw)
  held := fun _ _ => hl.reg_eq
  drained := fun hm hw r hr => hl.reg_eq hr (held_of_drained hm hw r)
  mem := hl.mem
  mepc := fun _ => hl.mepc

/-- In a run without the known faults, over ports that serve the program text, a byte memory and
devices, the core does what a hart does from the same memory, as long as the hart can follow the
events of the core. -/
theorem runs_as_hart (P : Platform) (s₀ : State) (i : Nat → In) (h₀ h : Hart) (n : Nat)
    (hpc : h₀.pc = Ifu.pcResetAddr + 4) (hx : ∀ r, h₀.x r = 0)
    (hs : ∀ k, k < n → Serves P (shown P h₀.mem s₀.reset i k) (machine.run s₀.reset i k) (i k))
    (hc : ∀ k, k < n →
      Sound (shown P h₀.mem s₀.reset i k).flow (machine.run s₀.reset i k) (i k))
    (hf : P.follow h₀ (shown P h₀.mem s₀.reset i n).events = some h) :
    Shows P (machine.run s₀.reset i n) (shown P h₀.mem s₀.reset i n) h :=
  (lockstep_run P s₀ i n hpc hx hs hc h hf).shows

/-- `lui x1, 0x80001; addi x2, x0, 7; sd x2, 0(x1); ld x3, 0(x1); add x4, x3, x2; lui x5, 0x20000;
lw x6, 4(x5)`: a sum over memory, and a word from a device. -/
def sumText : List (BitVec 32) :=
  [0x800010b7, 0x00700113, 0x0020b023, 0x0000b183, 0x00218233, 0x200002b7, 0x0042a303]

def sumPlatform : Platform where
  code := fun a => some (if a.extractLsb' 5 59 == 0x4000000#59 then
    sumText.getD (a.extractLsb' 2 3).toNat 0x13 else 0x13)
  text := fun _ => false
  ram := fun a => a.extractLsb' 28 4 == 8#4
  device := fun _ => 0xaabbccdd00000000

/-- Every fetch and access is answered in the next cycle. -/
def sumIn (n : Nat) : In :=
  { rsp := { vld := true, rdata := if n < 8 then 7 else 0xaabbccdd00000000 }, intr := 0
    lsuReqRdy := true, lsuReqHit := true, ifuReqRdy := true, ifuRspVld := true
    ifuRdata := sumText.getD ((n - 1) / 2 * 2 + 1) 0x13 ++ sumText.getD ((n - 1) / 2 * 2) 0x13 }

theorem runs_as_hart_sum :
    let h₀ : Hart := { pc := Ifu.pcResetAddr + 4, x := fun _ => 0, mem := fun _ => 0 }
    let s := machine.run (default : State).reset sumIn 12
    ∃ h, sumPlatform.follow h₀
        (shown sumPlatform h₀.mem (default : State).reset sumIn 12).events = some h ∧
      s.idu.regs 4 = 14 ∧ held s 6 = some 0xffffffffaabbccdd ∧
      h.reg 6 = 0xffffffffaabbccdd := by
  intro h₀ s
  have hf : (sumPlatform.follow h₀
      (shown sumPlatform h₀.mem (default : State).reset sumIn 12).events).isSome = true := by
    decide +kernel
  obtain ⟨h, hf⟩ := Option.isSome_iff_exists.mp hf
  have h6 : held s 6 = some 0xffffffffaabbccdd := by decide +kernel
  have hr := (runs_as_hart sumPlatform default sumIn h₀ h 12 rfl (fun _ => rfl)
    (by decide +kernel) (by decide +kernel) hf).held 6 _ (by decide) h6
  exact ⟨h, hf, by decide +kernel, h6, hr.symm⟩

end Rv64imCore.Core
