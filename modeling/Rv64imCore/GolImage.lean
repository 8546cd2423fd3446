import Rv64imCore.GolRun

/-! The image computes its checksum. -/

namespace Rv64imCore.Gol
set_option autoImplicit true
open Rv64i (Hart Store)

/-- What goes to the marker device: the events in order, each payload in front of its event. -/
def trace (checksum : Nat) (c c' : BitVec 64) : List Store :=
  [event 1, payload c, event 2, event 3, payload c', event 4, payload (BitVec.ofNat 64 checksum),
    event 5, event 6]

/-- Whatever the cycle counter, the words run from 0x80000000 on come to store exactly that. -/
def Advertised (words : List Nat) (checksum : Nat) : Prop :=
  ∀ (h : Hart) (cycle : Nat → BitVec 64), h.pc = 0x80000000 → Loaded words h.mem →
    ∃ c c' n, ∀ m, n ≤ m → ∃ t, Rv64i.traced.run (some { hart := h, log := [] }) cycle m = some t ∧
      markers t.log = trace checksum c c'

def Correct (width height warmup measured : Nat) : Prop :=
  ∃ b, build width height warmup measured = some b ∧ Advertised b.words b.checksum

section Image
variable {width height warmup measured : Nat}

theorem leads_halt {d : Data} (hsz : Sizes width height) (hw : warmup < 0x7ffff800)
    (hm : measured < 0x7ffff800) (hpos : 1 ≤ measured) (ho : d.out = []) :
    (machine (program width height warmup measured)).Leads
      (At (fromHalt width).tail fun d => ∃ c c', d.out = trace
        (population (board width height (warmup + measured)) (width * height)) c c')
      { rest := program width height warmup measured, data := d } := by
  refine (leads_start hsz ho).trans ?_
  rintro ⟨_, d₁⟩ ⟨rfl, h₁⟩
  refine (leads_warm hsz hw (h₁.playing hsz.grids)).trans ?_
  rintro ⟨_, d₂⟩ ⟨rfl, c, a, b, h₂⟩
  refine (leads_measure hsz hm hpos h₂).trans ?_
  rintro ⟨_, d₃⟩ ⟨rfl, a, b, h₃⟩
  refine (leads_checksum hsz h₃).mono ?_
  rintro ⟨_, d₄⟩ ⟨rfl, c', h₄⟩
  exact ⟨rfl, c, c', h₄⟩

/-- A hart in front of the image, seen as the machine of the calls. -/
theorem matches_start {prog : List (Call L)} [DecidableEq L] {h : Hart} (hpc : h.pc = 0x80000000)
    (hl : Loaded (assemble (labelPc prog) 0 prog) h.mem) :
    Matches prog
      { rest := prog
        data := { x := fun r => (h.reg (REG r)).toInt
                  m := fun z => (h.mem (BitVec.ofInt 32 z)).toNat
                  out := [] } }
      { hart := h, log := [] } where
  suffix := List.suffix_rfl
  pc := by
    rw [hpc, pcOf, Nat.sub_self]
    rfl
  reg r := by
    rw [Data.reg]
    split
    · rename_i hr
      subst hr
      rfl
    · exact (BitVec.ofInt_toInt ..).symm
  mem _ _ _ := rfl
  image := hl
  out := rfl

theorem checksum_eq (t : Nat) : (((step width height)^[t] (seed width height)).map List.sum).sum
    = population (board width height t) (width * height) := by
  refine sum_flat ?_
  cases t with
  | zero => exact (fill_spec _).1
  | succ t =>
    rw [Function.iterate_succ_apply']
    exact (fill_spec _).1

/-- Halted, with the trace out. -/
def Halted (width height warmup measured : Nat) (l : List Store) (o : Option Rv64i.Traced) :
    Prop :=
  ∃ d, Runs (program width height warmup measured) { rest := (fromHalt width).tail, data := d } o
    ∧ d.out = l

theorem Halted.next {l : List Store} {o : Option Rv64i.Traced}
    (h : Halted width height warmup measured l o) (cycle : BitVec 64) :
    Halted width height warmup measured l (Rv64i.traced.next o cycle) := by
  obtain ⟨d, ⟨t, rfl, hm⟩, ho⟩ := h
  obtain ⟨t', hn, hm'⟩ := hm.step (program_size width height warmup measured)
    (.jal (after_program width height warmup measured .halt)) rfl nofun
  exact ⟨_, ⟨t', hn, hm'⟩, ho⟩

theorem advertised (hsz : Sizes width height) (hw : warmup < 0x7ffff800)
    (hm : measured < 0x7ffff800) (hpos : 1 ≤ measured) :
    Advertised (assemble (labelPc (program width height warmup measured)) 0
        (program width height warmup measured))
      (population (board width height (warmup + measured)) (width * height)) := by
  intro h cycle hpc hl
  have hrun := (simulates (program_size width height warmup measured)).leads
    (leads_halt hsz hw hm hpos rfl) ⟨_, rfl, matches_start hpc hl⟩
  obtain ⟨n, ⟨_, d⟩, ⟨rfl, c, c', hd⟩, hn⟩ := hrun.run cycle
  refine ⟨c, c', n, fun m hm => ?_⟩
  have hh : Halted width height warmup measured _ (Rv64i.traced.run _ cycle m) :=
    Clocked.kept (P := fun k => Halted width height warmup measured _ (Rv64i.traced.run _ cycle k))
      hm ⟨d, hn, hd⟩ fun k _ _ hk => hk.next _
  obtain ⟨d', ⟨t, ht, hm'⟩, ho⟩ := hh
  exact ⟨t, ht, hm'.out.trans ho⟩

theorem build_eq (width height warmup measured : Nat) :
    ∃ b, build width height warmup measured = some b ∧
      b.words = assemble (labelPc (program width height warmup measured)) 0
        (program width height warmup measured) ∧
      b.checksum = population (board width height (warmup + measured)) (width * height) := by
  obtain ⟨a, ha, hwords⟩ := Option.map_eq_some_iff.mp
    (resolve_calls _ (program_linked width height warmup measured))
  exact ⟨_, congrArg (Option.map _) ha, hwords, checksum_eq _⟩

theorem image_correct (hsz : Sizes width height) (hw : warmup < 0x7ffff800)
    (hm : measured < 0x7ffff800) (hpos : 1 ≤ measured) : Correct width height warmup measured := by
  obtain ⟨b, hb, hwords, hsum⟩ := build_eq width height warmup measured
  refine ⟨b, hb, ?_⟩
  rw [hwords, hsum]
  exact advertised hsz hw hm hpos

/-- A board of 64 by 64, with the default counts. -/
theorem image_correct_square : Sizes 64 64 ∧ Correct 64 64 1 3 := by
  have hsz : Sizes 64 64 := ⟨by decide, by decide, by decide, by decide⟩
  exact ⟨hsz, image_correct hsz (by decide) (by decide) (by decide)⟩

end Image

/-- The image itself as a memory. -/
def imageMem (words : List Nat) (a : BitVec 32) : BitVec 8 :=
  (BitVec.ofNat 32 (words.getD ((a.toNat - 0x80000000) / 4) 0)).extractLsb'
    (8 * ((a.toNat - 0x80000000) % 4)) 8

theorem loaded_imageMem {words : List Nat} (hs : words.length < 1024) :
    Loaded words (imageMem words) := by
  intro k w hw j hj
  have hk := (List.getElem?_eq_some_iff.mp hw).1
  have ha : (BitVec.ofNat 32 (0x80000000 + 4 * k + j)).toNat - 0x80000000 = 4 * k + j := by
    rw [BitVec.toNat_ofNat]
    omega
  rw [imageMem, ha, Nat.mul_add_mod, Nat.mod_eq_of_lt hj, Nat.mul_add_div (by decide),
    Nat.div_eq_of_lt hj, Nat.add_zero, List.getD_eq_getElem?_getD, hw, Option.getD_some]

theorem Advertised.inj {words : List Nat} {s s' : Nat} (hs : words.length < 1024)
    (h : Advertised words s) (h' : Advertised words s') :
    BitVec.ofNat 64 s = BitVec.ofNat 64 s' := by
  let t : Hart := { pc := 0x80000000, x := fun _ => 0, mem := imageMem words }
  obtain ⟨c, d, n, hn⟩ := h t (fun _ => 0) rfl (loaded_imageMem hs)
  obtain ⟨c', d', n', hn'⟩ := h' t (fun _ => 0) rfl (loaded_imageMem hs)
  obtain ⟨u, hu, ho⟩ := hn (max n n') (Nat.le_max_left ..)
  obtain ⟨u', hu', ho'⟩ := hn' (max n n') (Nat.le_max_right ..)
  obtain rfl : u = u' := Option.some.inj (hu.symm.trans hu')
  have hl : trace s c d = trace s' c' d' := ho.symm.trans ho'
  simp only [trace, payload, List.cons.injEq, Store.mk.injEq] at hl
  exact hl.2.2.2.2.2.2.1.2.2

/-- The board of five by five is empty from the second generation on. -/
theorem step_empty (t : Nat) : (step 5 5)^[t + 2] (seed 5 5) = zeros 5 5 := by
  induction t with
  | zero => decide
  | succ t ih =>
    rw [Nat.succ_add, Function.iterate_succ_apply', ih]
    decide

/-- `li` masks a count of 2 ^ 32 to none. -/
theorem build_masked (width height : Nat) : ∃ b, build width height (2 ^ 32) 1 = some b ∧
    b.words = assemble (labelPc (program width height 0 1)) 0 (program width height 0 1) ∧
    b.checksum = (((step width height)^[2 ^ 32 + 1] (seed width height)).map List.sum).sum := by
  obtain ⟨b, hb, hwords, hsum⟩ := build_eq width height (2 ^ 32) 1
  have hc : Asm.init.calls (program width height (2 ^ 32) 1)
      = Asm.init.calls (program width height 0 1) := rfl
  have hw := resolve_calls _ (program_linked width height (2 ^ 32) 1)
  rw [hc, resolve_calls _ (program_linked width height 0 1)] at hw
  exact ⟨b, hb, hwords.trans (Option.some.inj hw).symm, hsum.trans (checksum_eq _).symm⟩

theorem image_misses : ¬Correct 5 5 (2 ^ 32) 1 := by
  rintro ⟨b, hb, h⟩
  obtain ⟨b', hb', hwords, hsum⟩ := build_masked 5 5
  obtain rfl := Option.some.inj (hb.symm.trans hb')
  have h₀ := @advertised 5 5 0 1 ⟨by decide, by decide, by decide, by decide⟩ (by decide)
    (by decide) (by decide)
  rw [hwords, hsum, show 2 ^ 32 + 1 = (2 ^ 32 - 1) + 2 by decide, step_empty] at h
  have heq := h.inj (by rw [assemble_length]; exact program_size ..) h₀
  revert heq
  decide

/-- A board of three by three is empty after one generation, so that it does not tell. -/
theorem correct_masked : Correct 3 3 (2 ^ 32) 1 := by
  obtain ⟨b, hb, hwords, hsum⟩ := build_masked 3 3
  refine ⟨b, hb, ?_⟩
  have hempty (t : Nat) : (step 3 3)^[t + 1] (seed 3 3) = zeros 3 3 := by
    induction t with
    | zero => decide
    | succ t ih =>
      rw [Function.iterate_succ_apply', ih]
      decide
  rw [hwords, hsum, hempty]
  have h₀ := @advertised 3 3 0 1 ⟨by decide, by decide, by decide, by decide⟩ (by decide)
    (by decide) (by decide)
  exact h₀

end Rv64imCore.Gol
