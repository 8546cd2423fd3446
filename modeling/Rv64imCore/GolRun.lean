import Rv64imCore.GolPhases
import Rv64imCore.GolSimulation

/-! The generations counted down, and the checksum. -/

namespace Rv64imCore.Gol
set_option autoImplicit true
open Rv64i (Hart Store)

section Phases
variable {width height warmup measured t : Nat} {a b : Int} {out : List Store} {d : Data}

theorem leads_start (hsz : Sizes width height) (ho : d.out = []) :
    (machine (program width height warmup measured)).Leads
      (At (fromWarm width warmup measured)
        (Seeded width height gridBase (gridBase + ↑(width * height)) [event 1]))
      { rest := program width height warmup measured, data := d } := by
  have hlt := hsz.lt
  have hwl := hsz.width_low
  have hwh := hsz.width_high
  have hh : height ≤ width * height := Nat.le_mul_of_pos_left height (by omega)
  have hpos : 0 < width * height := Nat.mul_pos (by omega) (Nat.lt_of_lt_of_le (by decide)
    hsz.height_low)
  refine leads_label (leads_li rfl (leads_li (v := gridBase) (by decide)
    (leads_li (v := gridBase + ↑(width * height)) ?_ ?_)))
  · rw [liValue_address] <;> simp only [gridA, gridBase] <;> omega
  refine leads_li (v := ↑(width * height)) (liValue_small (by omega) (by omega))
    (leads_li (v := width) (liValue_small (by omega) (by omega))
      (leads_li (v := height) (liValue_small (by omega) (by omega))
        (leads_li (v := mark) (by decide) (leads_csrr fun c => ?_))))
  refine leads_marker (e := 1) rfl (by decide) (leads_mv (v := gridBase) rfl
    (leads_mv (v := gridBase + ↑(width * height)) rfl (leads_mv (v := ↑(width * height)) rfl
      (leads_label ?_))))
  refine Clocked.System.Leads.trans (P := At (fromInit width height warmup measured)
    (Cleared width height gridBase (gridBase + ↑(width * height)) [event 1]))
    (leads_clear hlt hsz.grids (k := 0) ?_) ?_
  · exact
      { lt := hpos
        ready := ⟨rfl, rfl, rfl, rfl, rfl, rfl⟩
        a0 := (Int.add_zero _).symm
        a1 := (Int.add_zero _).symm
        a2 := rfl
        a_zero := fun j hj => absurd hj (Nat.not_lt_zero j)
        b_zero := fun j hj => absurd hj (Nat.not_lt_zero j)
        out := congrArg (· ++ [event 1]) ho }
  · rintro ⟨_, d₁⟩ ⟨rfl, h₁⟩
    exact leads_init hsz rfl hsz.grids h₁

theorem Seeded.playing (hg : Grids (width * height) a b) (h : Seeded width height a b out d) :
    Playing width height out 0 a b d where
  grids := hg
  ready := h.ready
  board := h.a_seed
  border := fun k hk _ _ => h.b_zero k hk
  out := h.out

theorem Playing.send (h : Playing width height out t a b d) (z v : Int) :
    Playing width height (out ++ [{ addr := BitVec.ofInt 32 z, bytes := 8
                                    data := BitVec.ofInt 64 v }]) t a b (d.send z v) where
  grids := h.grids
  ready := h.ready.kept fun _ _ => rfl
  board := h.board
  border := h.border
  out := congrArg (· ++ _) h.out

theorem Playing.event (h : Playing width height out t a b d) (e : Int) :
    Playing width height (out ++ [event (BitVec.ofInt 64 e)]) t a b
      ((d.put .t5 e).send mark e) :=
  (h.put (by decide) e).send mark e

theorem Playing.payload (h : Playing width height out t a b d) (v : Int) :
    Playing width height (out ++ [payload (BitVec.ofInt 64 v)]) t a b (d.send (mark + 8) v) :=
  have hp : (d.send (mark + 8) v).out = d.out ++ [Gol.payload (BitVec.ofInt 64 v)] := rfl
  { h.send (mark + 8) v with out := hp.trans (congrArg (· ++ _) h.out) }

theorem leads_warm_loop (hsz : Sizes width height) (hw : warmup < 0x7ffff800)
    (h7 : d.reg .s7 = warmup) (h : Playing width height out 0 a b d) :
    (machine (program width height warmup measured)).Leads
      (At (fromWarmDone width measured).tail fun d => ∃ a b, Playing width height out warmup a b d)
      { rest := (fromWarmLoop width measured).tail, data := d } := by
  refine leads_up (P := fun k d => k ≤ warmup ∧ d.reg .s7 = ↑(warmup - k) ∧
    ∃ a b, Playing width height out k a b d) (warmup + 1)
    (fun k d h => Nat.lt_succ_of_le h.1) ?_ ⟨Nat.zero_le warmup, h7, a, b, h⟩
  rintro k d ⟨hk, h7, a, b, h⟩
  refine leads_branch (by decide) (after_program _ _ _ _ .warmDone) h7 (Data.reg_zero _)
    (fits (by omega) (by omega)) (by decide) (fun h0 => ?_) fun h0 => ?_
  · have hk' : ((warmup - k : Nat) : Int) = 0 := h0
    obtain rfl : k = warmup := by omega
    exact .now (.inl ⟨rfl, a, b, h⟩)
  · have hk' : ((warmup - k : Nat) : Int) ≠ 0 := h0
    have hr := after_suffix (after_program width height warmup measured .warmLoop)
    refine Clocked.System.Leads.trans
      (leads_turn hsz h h7 ((List.drop_suffix 4 _).trans hr)) ?_
    rintro ⟨_, d₁⟩ ⟨rfl, h₁, h7₁⟩
    refine leads_jal (after_program _ _ _ _ .warmLoop) (.now (.inr ⟨rfl, k + 1,
      Nat.lt_succ_self k, by omega, ?_, b, a, h₁.put (by decide) _⟩))
    exact h7₁.trans (by omega)

theorem leads_warm (hsz : Sizes width height) (hw : warmup < 0x7ffff800)
    (h : Playing width height out 0 a b d) :
    (machine (program width height warmup measured)).Leads
      (At (fromWarmDone width measured).tail fun d => ∃ c a b,
        Playing width height (out ++ [payload c, event 2]) warmup a b d)
      { rest := fromWarm width warmup measured, data := d } := by
  refine leads_csrr fun c => leads_sub (leads_marker_payload h.ready.t6 (e := 2) (by decide)
    (leads_li (liValue_small (by omega) (by omega)) (leads_label ?_)))
  generalize hv : (d.put .s6 c).reg .s6 - (d.put .s6 c).reg .s5 = v
  have h₁ := (((h.put (r := .s6) (by decide) c).put (r := .s6) (by decide) v).payload v).event 2
  refine (leads_warm_loop hsz hw rfl (h₁.put_s7 warmup)).mono ?_
  rintro ⟨_, d₂⟩ ⟨rfl, a, b, h₂⟩
  rw [List.append_assoc] at h₂
  exact ⟨rfl, BitVec.ofInt 64 v, a, b, h₂⟩

theorem leads_measure_loop (hsz : Sizes width height) (hm : measured < 0x7ffff800)
    (hpos : 1 ≤ measured) (h7 : d.reg .s7 = measured) (h : Playing width height out t a b d) :
    (machine (program width height warmup measured)).Leads
      (At (fromMeasured width) fun d => ∃ a b, Playing width height out (t + measured) a b d)
      { rest := (fromMeasureLoop width).tail, data := d } := by
  refine leads_up (P := fun k d => k < measured ∧ d.reg .s7 = ↑(measured - k) ∧
    ∃ a b, Playing width height out (t + k) a b d) measured
    (fun k d h => h.1) ?_ ⟨hpos, h7, a, b, h⟩
  rintro k d ⟨hk, h7, a, b, h⟩
  have hr := after_suffix (after_program width height warmup measured .measureLoop)
  refine Clocked.System.Leads.trans (leads_turn hsz h h7 ((List.drop_suffix 3 _).trans hr)) ?_
  rintro ⟨_, d₁⟩ ⟨rfl, h₁, h7₁⟩
  refine leads_branch (by decide) (after_program _ _ _ _ .measureLoop) h7₁ (Data.reg_zero _)
    (fits (by omega) (by omega)) (by decide) (fun h0 => ?_) fun h0 => ?_
  · have hk' : ((measured - k : Nat) : Int) - 1 ≠ 0 := h0
    refine .now (.inr ⟨rfl, k + 1, Nat.lt_succ_self k, by omega, ?_, b, a, h₁⟩)
    exact h7₁.trans (by omega)
  · have hk' : ((measured - k : Nat) : Int) - 1 = 0 := not_not.mp h0
    obtain rfl : measured = k + 1 := by omega
    exact .now (.inl ⟨rfl, b, a, h₁⟩)

theorem leads_measure (hsz : Sizes width height) (hm : measured < 0x7ffff800)
    (hpos : 1 ≤ measured) (h : Playing width height out t a b d) :
    (machine (program width height warmup measured)).Leads
      (At (fromMeasured width) fun d => ∃ a b,
        Playing width height (out ++ [event 3]) (t + measured) a b d)
      { rest := (fromWarmDone width measured).tail, data := d } := by
  refine leads_csrr fun c => leads_marker (e := 3) h.ready.t6 (by decide)
    (leads_li (liValue_small (by omega) (by omega)) (leads_label ?_))
  exact leads_measure_loop hsz hm hpos rfl
    (((h.put (r := .s5) (by decide) c).event 3).put_s7 measured)

/-- The first cells summed up. -/
def population (m : Nat → Nat) (k : Nat) : Nat := ((List.range k).map m).sum

theorem population_succ (m : Nat → Nat) (k : Nat) :
    population m (k + 1) = population m k + m k := by
  rw [population, List.range_succ, List.map_append, List.sum_append, List.map_singleton,
    List.sum_singleton, population]

/-- Summing up, `k` cells done. -/
structure Summing (width height : Nat) (out : List Store) (t : Nat) (a b : Int) (k : Nat)
    (d : Data) : Prop where
  lt : k < width * height
  playing : Playing width height out t a b d
  a0 : d.reg .a0 = a + k
  a1 : d.reg .a1 = ↑(width * height - k)
  a2 : d.reg .a2 = population (board width height t) k

theorem leads_sum_loop (hlt : width * height < 2 ^ 28)
    (h : Summing width height out t a b k d) :
    (machine (program width height warmup measured)).Leads
      (At (emitMarker 5 (some .a2) ++ (emitMarker 6 none ++ fromHalt width)) fun d =>
        Playing width height out t a b d ∧
          d.reg .a2 = population (board width height t) (width * height))
      { rest := (fromChecksum width).tail, data := d } := by
  refine leads_up (P := Summing width height out t a b) (width * height) (fun k d h => h.lt) ?_ h
  intro k d h
  have hk := h.lt
  obtain ⟨hl, hu, -, -, -⟩ := h.playing.grids
  have hcell : d.m (a + k) = board width height t k := h.playing.board k hk
  refine leads_lbu (z := a + k) ((congrArg (· + 0) h.a0).trans (Int.add_zero _)) (by decide)
    (by omega) (by omega) ?_
  rw [hcell]
  refine leads_add (v := ↑(population (board width height t) (k + 1))) ?_ ?_
  · rw [population_succ, Int.natCast_add]
    exact congrArg (· + _) h.a2
  refine leads_addi (v := a + ↑(k + 1)) ((congrArg (· + 1) h.a0).trans (by omega)) (by decide) ?_
  refine leads_addi (v := ↑(width * height - (k + 1)))
    ((congrArg (· + -1) h.a1).trans (by omega)) (by decide) ?_
  have h₁ := (((h.playing.put (r := .a3) (by decide) (board width height t k)).put (r := .a2)
    (by decide) (population (board width height t) (k + 1))).put (r := .a0) (by decide)
      (a + ↑(k + 1))).put (r := .a1) (by decide) ↑(width * height - (k + 1))
  refine leads_branch (v := ↑(width * height - (k + 1))) (by decide)
    (after_program _ _ _ _ .checksum) rfl (Data.reg_zero _) (fits (by omega) (by omega))
    (by decide) (fun h0 => ?_) fun h0 => ?_
  · have hk' : ((width * height - (k + 1) : Nat) : Int) ≠ 0 := h0
    exact .now (.inr ⟨rfl, k + 1, Nat.lt_succ_self k, by omega, h₁, rfl, rfl, rfl⟩)
  · have hk' : ((width * height - (k + 1) : Nat) : Int) = 0 := not_not.mp h0
    have hn : k + 1 = width * height := by omega
    refine .now (.inl ⟨rfl, h₁, ?_⟩)
    rw [← hn]
    rfl

theorem leads_checksum (hsz : Sizes width height) (h : Playing width height out t a b d) :
    (machine (program width height warmup measured)).Leads
      (At (fromHalt width).tail fun d => ∃ c,
        d.out = out ++ [payload c, event 4,
          payload (BitVec.ofNat 64 (population (board width height t) (width * height))), event 5,
          event 6])
      { rest := fromMeasured width, data := d } := by
  have hpos : 0 < width * height := Nat.mul_pos
    (Nat.lt_of_lt_of_le (by decide) hsz.width_low) (Nat.lt_of_lt_of_le (by decide) hsz.height_low)
  refine leads_csrr fun c => leads_sub ?_
  generalize hv : (d.put .s6 c).reg .s6 - (d.put .s6 c).reg .s5 = v
  have h₁ := (((h.put (r := .s6) (by decide) c).put (r := .s6) (by decide) v).payload v).event 4
  refine leads_marker_payload h.ready.t6 (e := 4) (by decide) ?_
  refine leads_mv (v := a) h.ready.s0 (leads_mv (v := ↑(width * height)) h.ready.s2
    (leads_li (v := 0) (by decide) (leads_label ?_)))
  have h₂ := ((h₁.put (r := .a0) (by decide) a).put (r := .a1) (by decide)
    ↑(width * height)).put (r := .a2) (by decide) 0
  refine (leads_sum_loop hsz.lt ⟨hpos, h₂, (Int.add_zero a).symm, rfl, rfl⟩).trans ?_
  rintro ⟨_, d₃⟩ ⟨rfl, h₃, ha2⟩
  refine leads_marker_payload h₃.ready.t6 (e := 5) (by decide) ?_
  rw [ha2]
  have h₅ := (h₃.payload ↑(population (board width height t) (width * height))).event 5
  refine leads_marker h₅.ready.t6 (e := 6) (by decide) (leads_label (.now ⟨rfl,
    BitVec.ofInt 64 v, ?_⟩))
  have ho := (h₅.event 6).out
  simp only [List.append_assoc] at ho
  exact ho

end Phases

end Rv64imCore.Gol
