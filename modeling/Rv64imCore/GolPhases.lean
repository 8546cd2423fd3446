import Rv64imCore.GolGeneration
import Rv64imCore.GolSimulation

/-! Clearing, seeding and a turn of the two grids. -/

namespace Rv64imCore.Gol
set_option autoImplicit true
open Rv64i (Hart Store)

/-- The sizes for which every immediate fits and the grids end below the marker device. -/
structure Sizes (width height : Nat) : Prop where
  width_low : 3 ≤ width
  width_high : width ≤ 2046
  height_low : 3 ≤ height
  fits : 0x80010000 + 2 * (width * height) ≤ 0xa0000100

theorem Sizes.lt (h : Sizes width height) : width * height < 2 ^ 28 := by
  have := h.fits
  omega

theorem Sizes.grids (h : Sizes width height) :
    Grids (width * height) gridBase (gridBase + ↑(width * height)) := by
  have := h.fits
  constructor <;> simp only [gridBase, mark] <;> omega

/-- The registers that the whole program keeps. -/
structure Ready (width height : Nat) (a b : Int) (d : Data) : Prop where
  s0 : d.reg .s0 = a
  s1 : d.reg .s1 = b
  s2 : d.reg .s2 = ↑(width * height)
  s3 : d.reg .s3 = width
  s4 : d.reg .s4 = height
  t6 : d.reg .t6 = mark

theorem Ready.kept (h : Ready width height a b d₀) (hk : Kept d₀ d) : Ready width height a b d where
  s0 := (hk _ (by decide)).trans h.s0
  s1 := (hk _ (by decide)).trans h.s1
  s2 := (hk _ (by decide)).trans h.s2
  s3 := (hk _ (by decide)).trans h.s3
  s4 := (hk _ (by decide)).trans h.s4
  t6 := (hk _ (by decide)).trans h.t6

section Phases
variable {width height warmup measured : Nat} {a b : Int} {out : List Store} {d : Data}

/-- Clearing both grids, `k` cells done. -/
structure Clearing (width height : Nat) (a b : Int) (out : List Store) (k : Nat) (d : Data) :
    Prop where
  lt : k < width * height
  ready : Ready width height a b d
  a0 : d.reg .a0 = a + k
  a1 : d.reg .a1 = b + k
  a2 : d.reg .a2 = ↑(width * height - k)
  a_zero : Holds d.m a k fun _ => 0
  b_zero : Holds d.m b k fun _ => 0
  out : d.out = out

structure Cleared (width height : Nat) (a b : Int) (out : List Store) (d : Data) : Prop where
  ready : Ready width height a b d
  a_zero : Holds d.m a (width * height) fun _ => 0
  b_zero : Holds d.m b (width * height) fun _ => 0
  out : d.out = out

theorem leads_clear (hn : width * height < 2 ^ 28) (hg : Grids (width * height) a b)
    (h : Clearing width height a b out k d) :
    (machine (program width height warmup measured)).Leads
      (At (fromInit width height warmup measured) (Cleared width height a b out))
      { rest := (fromClear width height warmup measured).tail, data := d } := by
  refine leads_up (P := Clearing width height a b out) (width * height) (fun k d h => h.lt)
    (fun k d h => ?_) h
  have hlt := h.lt
  obtain ⟨h1, h2, h3, h4, h5⟩ := hg
  refine leads_sb (v := 0) h.a0 (by omega) (by omega) rfl (by decide) ?_
  refine leads_sb (v := 0) h.a1 (by omega) (by omega) rfl (by decide) ?_
  have ha : Holds ((d.poke (a + k) 0).poke (b + k) 0).m a (k + 1) fun _ => 0 :=
    (h.a_zero.poke_end rfl).poke (by omega) 0
  have hb : Holds ((d.poke (a + k) 0).poke (b + k) 0).m b (k + 1) fun _ => 0 :=
    (h.b_zero.poke (by omega) 0).poke_end rfl
  generalize hd : (d.poke (a + k) 0).poke (b + k) 0 = d₁ at *
  have hreg (r : Reg) : d₁.reg r = d.reg r := by rw [← hd]; rfl
  have hout : d₁.out = out := by rw [← hd]; exact h.out
  have hkept : Kept d d₁ := fun r _ => hreg r
  refine leads_addi (v := a + ↑(k + 1)) ?_ (by decide) ?_
  · rw [hreg, h.a0]
    omega
  refine leads_addi (v := b + ↑(k + 1)) ?_ (by decide) ?_
  · have h1 : d₁.reg .a1 = b + k := (hreg .a1).trans h.a1
    exact (congrArg (· + 1) h1).trans (by omega)
  refine leads_addi (v := ↑(width * height - (k + 1))) ?_ (by decide) ?_
  · have h2 : d₁.reg .a2 = ↑(width * height - k) := (hreg .a2).trans h.a2
    exact (congrArg (· + -1) h2).trans (by omega)
  have hready := h.ready.kept (((hkept.put (r := .a0) (by decide) (a + ↑(k + 1))).put (r := .a1)
    (by decide) (b + ↑(k + 1))).put (r := .a2) (by decide) ↑(width * height - (k + 1)))
  refine leads_branch (v := ↑(width * height - (k + 1))) (by decide)
    (after_program _ _ _ _ .clear) rfl (Data.reg_zero _) (fits (by omega) (by omega)) (by decide)
    (fun hne => ?_) fun hne => ?_
  · have hk : k + 1 < width * height := by
      have : ((width * height - (k + 1) : Nat) : Int) ≠ 0 := hne
      omega
    exact .now (.inr ⟨rfl, k + 1, Nat.lt_succ_self k, hk, hready, rfl, rfl, rfl, ha, hb, hout⟩)
  · have hk : k + 1 = width * height := by
      have : ¬((width * height - (k + 1) : Nat) : Int) ≠ 0 := hne
      omega
    exact .now (.inl ⟨rfl, hready, hk ▸ ha, hk ▸ hb, hout⟩)

/-- Seeding at the cell `y`, `x`. -/
structure Seeding (width height : Nat) (a b : Int) (out : List Store) (y x : Nat) (d : Data) :
    Prop where
  inner : 0 < y ∧ y + 1 < height ∧ 0 < x ∧ x + 1 < width
  ready : Ready width height a b d
  a0 : d.reg .a0 = a + ↑(y * width + x)
  a1 : d.reg .a1 = y
  a2 : d.reg .a2 = width - 1
  a3 : d.reg .a3 = x
  a6 : d.reg .a6 = height - 1
  done : Holds d.m a (y * width + x) (flat width (seed width height))
  ahead : ∀ j < width * height, y * width + x ≤ j → d.m (a + j) = 0
  b_zero : Holds d.m b (width * height) fun _ => 0
  out : d.out = out

structure Seeded (width height : Nat) (a b : Int) (out : List Store) (d : Data) : Prop where
  ready : Ready width height a b d
  a_seed : Holds d.m a (width * height) (flat width (seed width height))
  b_zero : Holds d.m b (width * height) fun _ => 0
  out : d.out = out

theorem leads_seed_cell (hg : Grids (width * height) a b)
    (h : Seeding width height a b out y x d) :
    (machine (program width height warmup measured)).Leads
      (At (fromInitSkip width warmup measured).tail fun d' =>
        Holds d'.m a (y * width + x + 1) (flat width (seed width height)) ∧
          (∀ j < width * height, y * width + x + 1 ≤ j → d'.m (a + j) = 0) ∧
          Holds d'.m b (width * height) (fun _ => 0) ∧ d'.out = out ∧
          ∀ r, r ∉ [.a4, .a5] → d'.reg r = d.reg r)
      { rest := (fromInitCell width warmup measured).tail, data := d } := by
  obtain ⟨hy0, hy1, hx0, hx1⟩ := h.inner
  have hk : y * width + x < width * height := Life.index_lt (by omega) (by omega)
  obtain ⟨h1, h2, h3, h4, h5⟩ := hg
  have hseed : flat width (seed width height) (y * width + x)
      = if (x ^^^ y) &&& 3 = 0 then 1 else 0 := by
    rw [flat_seed, if_pos ((Life.inner_iff (by omega)).mpr h.inner), Life.row (by omega),
      Life.column (by omega)]
  have hand : (x ^^^ y) &&& 3 ≤ 3 := Nat.and_le_right
  have hS := ((SameBut.refl [.a4, .a5] d).put (r := .a4) (by decide) ↑(x ^^^ y)).put (r := .a4)
    (by decide) ↑((x ^^^ y) &&& 3)
  refine leads_xor h.a3 h.a1 (leads_andi (Data.reg_put_self _ (by decide) _) (m := 3) rfl
    (by decide) ?_)
  generalize hd : (d.put .a4 ↑(x ^^^ y)).put .a4 ↑((x ^^^ y) &&& 3) = d₁ at *
  have h4' : d₁.reg .a4 = ↑((x ^^^ y) &&& 3) := by rw [← hd]; rfl
  refine leads_branch (by decide) (after_program _ _ _ _ .initSkip) h4' (Data.reg_zero _)
    (fits (by omega) (by omega)) (by decide) (fun hne => ?_) fun hne => ?_
  · have h0 : (x ^^^ y) &&& 3 ≠ 0 := fun h0 => hne (congrArg Nat.cast h0)
    rw [if_neg h0] at hseed
    refine .now ⟨rfl, fun j hj => ?_, ?_, hS.m ▸ h.b_zero, hS.out.trans h.out, hS.reg⟩
    · rcases Nat.lt_succ_iff_lt_or_eq.mp hj with hj | rfl
      · exact (congrFun hS.m _).trans (h.done j hj)
      · exact ((congrFun hS.m _).trans (h.ahead _ hk (Nat.le_refl _))).trans hseed.symm
    · exact fun j hj hkj => (congrFun hS.m _).trans (h.ahead j hj (by omega))
  · have h0 : (x ^^^ y) &&& 3 = 0 := Int.ofNat_eq_zero.mp (not_not.mp hne)
    rw [if_pos h0] at hseed
    have hS₂ := hS.put (r := .a5) (by decide) 1
    have ha0 : (d₁.put .a5 1).reg .a0 = a + ↑(y * width + x) :=
      (hS₂.reg .a0 (by decide)).trans h.a0
    refine leads_li (v := 1) (by decide) (leads_sb (v := 1) ha0 (by omega) (by omega) rfl
      (by decide) (leads_label (.now ⟨rfl, ?_, ?_, ?_, hS₂.out.trans h.out, hS₂.reg⟩)))
    · exact Holds.poke_end (hS₂.m ▸ h.done) hseed
    · exact fun j hj hkj => (Data.m_poke_of_ne _ (by omega) _).trans
        ((congrFun hS₂.m _).trans (h.ahead j hj (by omega)))
    · exact Holds.poke (hS₂.m ▸ h.b_zero) (by omega) 1

theorem leads_seed_next (hsz : Sizes width height) (h : Seeding width height a b out y x d)
    {d' : Data} (hdone : Holds d'.m a (y * width + x + 1) (flat width (seed width height)))
    (hahead : ∀ j < width * height, y * width + x + 1 ≤ j → d'.m (a + j) = 0)
    (hb : Holds d'.m b (width * height) fun _ => 0) (hout : d'.out = out)
    (hreg : ∀ r, r ∉ [.a4, .a5] → d'.reg r = d.reg r) :
    (machine (program width height warmup measured)).Leads
      (fun s => At (fromWarm width warmup measured) (Seeded width height a b out) s ∨
        At (fromInitCell width warmup measured).tail (fun d => ∃ k', y * width + x < k' ∧
          ∃ y x, k' = y * width + x ∧ Seeding width height a b out y x d) s)
      { rest := (fromInitSkip width warmup measured).tail, data := d' } := by
  obtain ⟨hy0, hy1, hx0, hx1⟩ := h.inner
  have hlt := hsz.lt
  have hwl := hsz.width_high
  have hh : height ≤ width * height := Nat.le_mul_of_pos_left height (by omega)
  have hkept : Kept d d' := fun r hr => hreg r (by revert r; decide)
  refine leads_addi (v := a + ↑(y * width + x + 1)) ?_ (by decide) ?_
  · rw [hreg .a0 (by decide), h.a0]
    omega
  refine leads_addi (v := ↑(x + 1)) (congrArg (· + 1) ((hreg .a3 (by decide)).trans h.a3))
    (by decide) ?_
  have hkept₂ := (hkept.put (r := .a0) (by decide) (a + ↑(y * width + x + 1))).put (r := .a3)
    (by decide) ↑(x + 1)
  refine leads_blt (after_program _ _ _ _ .initCell) rfl ((hreg .a2 (by decide)).trans h.a2) hx1
    (by omega) (fun hx2 => ?_) fun hx2 => ?_
  · exact .now (.inr ⟨rfl, y * width + x + 1, Nat.lt_succ_self _, y, x + 1, rfl,
      { inner := ⟨hy0, hy1, Nat.succ_pos x, hx2⟩
        ready := h.ready.kept hkept₂
        a0 := rfl
        a1 := (hreg .a1 (by decide)).trans h.a1
        a2 := (hreg .a2 (by decide)).trans h.a2
        a3 := rfl
        a6 := (hreg .a6 (by decide)).trans h.a6
        done := hdone
        ahead := hahead
        b_zero := hb
        out := hout }⟩)
  · have hk3 : (y + 1) * width + 1 = y * width + x + 3 := Life.next_row hx2
    refine leads_addi (v := a + ↑((y + 1) * width + 1)) ?_ (by decide) ?_
    · change a + ↑(y * width + x + 1) + 2 = a + ↑((y + 1) * width + 1)
      omega
    refine leads_addi (v := ↑(y + 1)) (congrArg (· + 1) ((hreg .a1 (by decide)).trans h.a1))
      (by decide) ?_
    have hkept₃ := (hkept₂.put (r := .a0) (by decide) (a + ↑((y + 1) * width + 1))).put (r := .a1)
      (by decide) ↑(y + 1)
    have hborder (j : Nat) (hj : y * width + x + 1 ≤ j) (hn : j < width * height)
        (hi : ¬Life.Inner width height j) : d'.m (a + j) = flat width (seed width height) j := by
      rw [hahead j hn hj, flat_seed, if_neg hi]
    refine leads_blt (after_program _ _ _ _ .initRow) rfl ((hreg .a6 (by decide)).trans h.a6) hy1
      (by omega) (fun hy2 => ?_) fun hy2 => ?_
    · have hk : (y + 1) * width + 1 < width * height := Life.index_lt (by omega) (by omega)
      refine leads_li (v := 1) (by decide) (leads_label (.now (.inr ⟨rfl, (y + 1) * width + 1,
        by omega, y + 1, 1, rfl, ?_⟩)))
      exact
        { inner := ⟨Nat.succ_pos y, hy2, Nat.one_pos, by omega⟩
          ready := h.ready.kept (hkept₃.put (by decide) 1)
          a0 := rfl
          a1 := rfl
          a2 := (hreg .a2 (by decide)).trans h.a2
          a3 := rfl
          a6 := (hreg .a6 (by decide)).trans h.a6
          done := hdone.append fun j hj hj' => hborder j hj (by omega)
            (Life.not_inner_between (y := y) (by omega) (by omega))
          ahead := fun j hj hkj => hahead j hj (by omega)
          b_zero := hb
          out := hout }
    · exact .now (.inl ⟨rfl,
        { ready := h.ready.kept hkept₃
          a_seed := hdone.append fun j hj hj' => hborder j hj hj'
            (Life.not_inner_after (y := y) (by omega) hy2)
          b_zero := hb
          out := hout }⟩)

theorem leads_init (hsz : Sizes width height) (ha : a = gridBase)
    (hg : Grids (width * height) a b) (h : Cleared width height a b out d) :
    (machine (program width height warmup measured)).Leads
      (At (fromWarm width warmup measured) (Seeded width height a b out))
      { rest := fromInit width height warmup measured, data := d } := by
  have hlt := hsz.lt
  have hwl := hsz.width_low
  have hwh := hsz.width_high
  have hhl := hsz.height_low
  have hh : height ≤ width * height := Nat.le_mul_of_pos_left height (by omega)
  refine leads_li (v := a + ↑(1 * width + 1)) ?_ ?_
  · rw [liValue_address] <;> simp only [gridA, gridBase] at * <;> omega
  refine leads_li (v := 1) (by decide) (leads_li (v := width - 1)
    (liValue_small (by omega) (by omega)) (leads_li (v := height - 1)
      (liValue_small (by omega) (by omega)) (leads_label (leads_li (v := 1) (by decide)
        (leads_label ?_)))))
  refine leads_up (P := fun k d' => ∃ y x, k = y * width + x ∧
    Seeding width height a b out y x d') (width * height) ?_ ?_ ⟨1, 1, rfl, ?_⟩
  · rintro _ d' ⟨y, x, rfl, h⟩
    obtain ⟨-, hy, -, hx⟩ := h.inner
    exact Life.index_lt (by omega) (by omega)
  · rintro _ d' ⟨y, x, rfl, h⟩
    refine (leads_seed_cell hg h).trans ?_
    rintro ⟨_, d₁⟩ ⟨rfl, hdone, hahead, hb, hout, hreg⟩
    exact leads_seed_next hsz h hdone hahead hb hout hreg
  · have hkept : Kept d d := fun _ _ => rfl
    exact
      { inner := ⟨Nat.one_pos, by omega, Nat.one_pos, by omega⟩
        ready := h.ready.kept (((((hkept.put (r := .a0) (by decide) _).put (r := .a1) (by decide)
          _).put (r := .a2) (by decide) _).put (r := .a6) (by decide) _).put (r := .a3)
            (by decide) _)
        a0 := rfl
        a1 := rfl
        a2 := rfl
        a3 := rfl
        a6 := rfl
        done := fun j hj => by
          rw [flat_seed, if_neg (Life.not_inner_first (by omega))]
          exact h.a_zero j (Nat.lt_trans hj (Life.index_lt (by omega) (by omega)))
        ahead := fun j hj _ => h.a_zero j hj
        b_zero := h.b_zero
        out := h.out }

/-- The reference after `t` generations. -/
def board (width height t : Nat) : Nat → Nat :=
  flat width ((step width height)^[t] (seed width height))

theorem board_succ (t : Nat) (hk : k < width * height) :
    board width height (t + 1) k = Life.next width height (board width height t) k := by
  rw [board, Function.iterate_succ_apply', flat_step _ hk]
  rfl

theorem board_le (t : Nat) (hk : k < width * height) : board width height t k ≤ 1 := by
  cases t with
  | zero =>
    rw [board, Function.iterate_zero_apply, flat_seed]
    split
    · split <;> decide
    · decide
  | succ t =>
    rw [board_succ t hk]
    exact Life.next_le _ _ _ _

theorem board_border (t : Nat) (hk : k < width * height) (hi : ¬Life.Inner width height k) :
    board width height t k = 0 := by
  cases t with
  | zero => rw [board, Function.iterate_zero_apply, flat_seed, if_neg hi]
  | succ t => rw [board_succ t hk, Life.next, if_neg hi]

/-- Generation `t` in `a`; `b` has a clean border. -/
structure Playing (width height : Nat) (out : List Store) (t : Nat) (a b : Int) (d : Data) :
    Prop where
  grids : Grids (width * height) a b
  ready : Ready width height a b d
  board : Holds d.m a (width * height) (board width height t)
  border : Bordered width height d.m b 0
  out : d.out = out

theorem Playing.put {r : Reg} (h : Playing width height out t a b d) (hr : r ∉ saved) (v : Int) :
    Playing width height out t a b (d.put r v) where
  grids := h.grids
  ready := h.ready.kept (Kept.put (fun _ _ => rfl) hr v)
  board := h.board
  border := h.border
  out := h.out

theorem Playing.put_s7 (h : Playing width height out t a b d) (v : Int) :
    Playing width height out t a b (d.put .s7 v) where
  grids := h.grids
  ready := ⟨h.ready.s0, h.ready.s1, h.ready.s2, h.ready.s3, h.ready.s4, h.ready.t6⟩
  board := h.board
  border := h.border
  out := h.out

theorem Grids.swap (h : Grids n a b) : Grids n b a :=
  ⟨h.b_low, h.b_high, h.a_low, h.a_high, h.apart.symm⟩

theorem leads_turn (hsz : Sizes width height) (h : Playing width height out t a b d)
    (h7 : d.reg .s7 = c)
    (hr : .mv .t0 .s0 :: .mv .s0 .s1 :: .mv .s1 .t0 :: .addi .s7 .s7 (-1) :: r
      <:+ program width height warmup measured) :
    (machine (program width height warmup measured)).Leads
      (At r fun d' => Playing width height out (t + 1) b a d' ∧ d'.reg .s7 = c - 1)
      { rest := turn r, data := d } := by
  have hlt := hsz.lt
  refine leads_mv h.ready.s0 (leads_mv (v := b) h.ready.s1
    (leads_jal (after_program _ _ _ _ .generation) ?_))
  generalize hd₀ : ((d.put .a0 a).put .a1 b).put .ra ↑(pcOf (program width height warmup measured)
    (.mv .t0 .s0 :: .mv .s0 .s1 :: .mv .s1 .t0 :: .addi .s7 .s7 (-1) :: r)) = d₀
  have hreg (q : Reg) (hq : q ∈ [.s0, .s1, .s2, .s3, .s4, .s7, .t6]) : d₀.reg q = d.reg q := by
    simp only [List.mem_cons, List.not_mem_nil, or_false] at hq
    rcases hq with rfl | rfl | rfl | rfl | rfl | rfl | rfl <;> subst hd₀ <;> rfl
  have hra : d₀.reg .ra = ↑(pcOf (program width height warmup measured)
    (.mv .t0 .s0 :: .mv .s0 .s1 :: .mv .s1 .t0 :: .addi .s7 .s7 (-1) :: r)) := by
    subst hd₀
    rfl
  have ha0 : d₀.reg .a0 = a := by subst hd₀; rfl
  have ha1 : d₀.reg .a1 = b := by subst hd₀; rfl
  have hm : d₀.m = d.m := by subst hd₀; rfl
  have hout : d₀.out = out := by subst hd₀; exact h.out
  refine (leads_generation ⟨hsz.width_low, hsz.width_high⟩ hsz.height_low (by omega) h.grids hr hra
    ha0 ha1 ((hreg .s3 (by decide)).trans h.ready.s3) ((hreg .s4 (by decide)).trans h.ready.s4)
    (fun k hk => board_le t hk) (hm ▸ h.board) (hm ▸ h.border)).trans ?_
  rintro ⟨_, d₁⟩ ⟨rfl, h₁⟩
  have hkept (q : Reg) (hq : q ∈ [.s0, .s1, .s2, .s3, .s4, .s7, .t6]) : d₁.reg q = d.reg q :=
    (h₁.kept q (by revert hq; revert q; decide)).trans (hreg q hq)
  have hs0 : d₁.reg .s0 = a := (hkept .s0 (by decide)).trans h.ready.s0
  have hs1 : d₁.reg .s1 = b := (hkept .s1 (by decide)).trans h.ready.s1
  have hs7 : d₁.reg .s7 = c := (hkept .s7 (by decide)).trans h7
  refine leads_mv hs0 (leads_mv (v := b) hs1 (leads_mv (v := a) rfl
    (leads_addi (v := c - 1) (congrArg (· + -1) hs7) (by decide) (.now ⟨rfl, ?_, rfl⟩))))
  exact
    { grids := h.grids.swap
      ready :=
        { s0 := rfl
          s1 := rfl
          s2 := (hkept .s2 (by decide)).trans h.ready.s2
          s3 := (hkept .s3 (by decide)).trans h.ready.s3
          s4 := (hkept .s4 (by decide)).trans h.ready.s4
          t6 := (hkept .t6 (by decide)).trans h.ready.t6 }
      board := fun k hk => (h₁.dst k hk).trans (board_succ t hk).symm
      border := fun k hk _ hi => (h₁.src k hk).trans (board_border t hk hi)
      out := h₁.out.trans hout }

end Phases

end Rv64imCore.Gol
