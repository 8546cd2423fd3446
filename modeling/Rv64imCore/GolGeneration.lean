import Rv64imCore.GolRules

/-! A generation on the machine. -/

namespace Rv64imCore.Gol
set_option autoImplicit true
open Rv64i (Store)

/-- A board in memory. -/
def Holds (m : Int → Nat) (a : Int) (n : Nat) (b : Nat → Nat) : Prop := ∀ k < n, m (a + k) = b k

theorem Holds.poke {d : Data} (h : Holds d.m a n b) (hz : z < a ∨ a + n ≤ z) (v : Nat) :
    Holds (d.poke z v).m a n b := by
  intro k hk
  rw [d.m_poke_of_ne (by omega), h k hk]

theorem Holds.poke_end {d : Data} (h : Holds d.m a n b) (hv : b n = v) :
    Holds (d.poke (a + n) v).m a (n + 1) b := by
  intro k hk
  rcases Nat.lt_succ_iff_lt_or_eq.mp hk with hk | rfl
  · rw [d.m_poke_of_ne (by omega), h k hk]
  · rw [d.m_poke_self, hv]

theorem Holds.append {m : Int → Nat} {k k' : Nat} (h : Holds m a k b)
    (h' : ∀ j, k ≤ j → j < k' → m (a + j) = b j) : Holds m a k' b := by
  intro j hj
  rcases Nat.lt_or_ge j k with hlt | hge
  · exact h j hlt
  · exact h' j hge hj

/-- Two grids that the program can reach. -/
structure Grids (n : Nat) (a b : Int) : Prop where
  a_low : gridBase ≤ a
  a_high : a + n ≤ mark
  b_low : gridBase ≤ b
  b_high : b + n ≤ mark
  apart : a + n ≤ b ∨ b + n ≤ a

/-- The registers that a generation leaves alone. -/
def saved : List Reg := [.ra, .s0, .s1, .s2, .s3, .s4, .s7, .t6]

def Kept (d₀ d : Data) : Prop := ∀ r ∈ saved, d.reg r = d₀.reg r

theorem Kept.put {r : Reg} (h : Kept d₀ d) (hr : r ∉ saved) (v : Int) : Kept d₀ (d.put r v) := by
  intro q hq
  have hz : q ≠ .zero := by rintro rfl; exact absurd hq (by decide)
  rw [Data.reg_put, if_neg hz, if_neg (by rintro rfl; exact hr hq), h q hq]

theorem Kept.poke (h : Kept d₀ d) (z : Int) (v : Nat) : Kept d₀ (d.poke z v) := h

/-- Zero on the border, from `k` on. -/
def Bordered (width height : Nat) (m : Int → Nat) (a : Int) (k : Nat) : Prop :=
  ∀ j < width * height, k ≤ j → ¬Life.Inner width height j → m (a + j) = 0

section Generation
variable {width height : Nat} {src dst : Int} {b : Nat → Nat} {d₀ : Data}

/-- At the cell `y`, `x` of a generation. -/
structure Living (width height : Nat) (src dst : Int) (b : Nat → Nat) (d₀ : Data) (y x : Nat)
    (d : Data) : Prop where
  inner : 0 < y ∧ y + 1 < height ∧ 0 < x ∧ x + 1 < width
  a4 : d.reg .a4 = y
  t0 : d.reg .t0 = x
  a5 : d.reg .a5 = height - 1
  t5 : d.reg .t5 = width - 1
  a6 : d.reg .a6 = src + ↑(y * width + x)
  a7 : d.reg .a7 = dst + ↑(y * width + x)
  src : Holds d.m src (width * height) b
  done : Holds d.m dst (y * width + x) (Life.next width height b)
  border : Bordered width height d.m dst (y * width + x)
  out : d.out = d₀.out
  kept : Kept d₀ d

/-- Data that differ in these registers at most. -/
structure SameBut (rs : List Reg) (d d' : Data) : Prop where
  m : d'.m = d.m
  out : d'.out = d.out
  reg : ∀ q, q ∉ rs → d'.reg q = d.reg q

theorem SameBut.put {rs : List Reg} {r : Reg} {d d' : Data} (h : SameBut rs d d') (hr : r ∈ rs)
    (v : Int) : SameBut rs d (d'.put r v) := by
  refine ⟨h.m, h.out, fun q hq => ?_⟩
  rw [Data.reg_put, ← h.reg q hq, if_neg (c := q = r) (by rintro rfl; exact hq hr)]
  split
  · subst q
    rfl
  · rfl

theorem leads_offsets {prog r : List (Call Label)} {Q : Mach Label → Prop} {offs : List Int}
    {d : Data} {z : Int} (ha6 : d.reg .a6 = z)
    (ho : ∀ o ∈ offs, (-2048 ≤ o ∧ o < 2048) ∧ gridBase ≤ z + o ∧ z + o < mark)
    (hq : ∀ d', SameBut [.t1, .t2] d d' →
      d'.reg .t1 = d.reg .t1 + (offs.map fun o => (d.m (z + o) : Int)).sum →
      (machine prog).Leads Q { rest := r, data := d' }) :
    (machine prog).Leads Q
      { rest := offs.flatMap (fun off => [.lbu .t2 off .a6, .add .t1 .t1 .t2]) ++ r
        data := d } := by
  induction offs generalizing d with
  | nil => exact hq d ⟨rfl, rfl, fun _ _ => rfl⟩ (by simp)
  | cons o offs ih =>
    obtain ⟨hi, hl, hu⟩ := ho o List.mem_cons_self
    refine leads_lbu (congrArg (· + o) ha6) hi hl hu (leads_add rfl ?_)
    refine ih ?_ (fun o' ho' => ho o' (List.mem_cons_of_mem o ho')) fun d' hs ht => ?_
    · simp [Data.reg_put, ha6]
    · refine hq d' ?_ ?_
      · have h : SameBut [.t1, .t2] d d := ⟨rfl, rfl, fun _ _ => rfl⟩
        have h' := (h.put (r := .t2) (by decide) (d.m (z + o))).put (r := .t1) (by decide)
          (((d.put .t2 (d.m (z + o))).reg .t1) + (d.put .t2 (d.m (z + o))).reg .t2)
        exact ⟨hs.m.trans h'.m, hs.out.trans h'.out, fun q hq => (hs.reg q hq).trans (h'.reg q hq)⟩
      · rw [ht]
        simp [Data.reg_put]
        omega

theorem leads_sum {prog r : List (Call Label)} {Q : Mach Label → Prop} {k : Nat} {d : Data}
    (hw : 3 ≤ width ∧ width ≤ 2046) (hlo : width + 1 ≤ k) (hhi : k + width + 1 < width * height)
    (hg : gridBase ≤ src ∧ src + ↑(width * height) ≤ mark)
    (ha6 : d.reg .a6 = src + k) (ht1 : d.reg .t1 = 0) (hb : Holds d.m src (width * height) b)
    (hq : ∀ d', SameBut [.t1, .t2] d d' → d'.reg .t1 = Life.around width b k →
      (machine prog).Leads Q { rest := r, data := d' }) :
    (machine prog).Leads Q { rest := sumNeighbours width ++ r, data := d } := by
  refine leads_offsets ha6 (fun o ho => ?_) fun d' hs ht => hq d' hs ?_
  · simp only [offsets, List.mem_cons, List.not_mem_nil, or_false] at ho
    omega
  · have hm (o : Int) (j : Nat) (hj : (k : Int) + o = j) (hn : j < width * height) :
        d.m (src + k + o) = b j := by
      rw [Int.add_assoc, hj, hb j hn]
    rw [ht, ht1]
    simp only [offsets, List.map_cons, List.map_nil, List.sum_cons, List.sum_nil]
    rw [hm _ (k - width - 1) (by omega) (by omega), hm _ (k - width) (by omega) (by omega),
      hm _ (k - width + 1) (by omega) (by omega), hm _ (k - 1) (by omega) (by omega),
      hm _ (k + 1) (by omega) (by omega), hm _ (k + width - 1) (by omega) (by omega),
      hm _ (k + width) (by omega) (by omega), hm _ (k + width + 1) (by omega) (by omega),
      Life.around]
    omega

theorem SameBut.refl (rs : List Reg) (d : Data) : SameBut rs d d := ⟨rfl, rfl, fun _ _ => rfl⟩

theorem SameBut.trans {rs : List Reg} {d d' d'' : Data} (h : SameBut rs d d')
    (h' : SameBut rs d' d'') : SameBut rs d d'' :=
  ⟨h'.m.trans h.m, h'.out.trans h.out, fun q hq => (h'.reg q hq).trans (h.reg q hq)⟩

theorem SameBut.mono {rs rs' : List Reg} {d d' : Data} (h : SameBut rs d d') (hr : rs ⊆ rs') :
    SameBut rs' d d' :=
  ⟨h.m, h.out, fun q hq => h.reg q fun hr' => hq (hr hr')⟩

/-- The registers of one cell. -/
def scratch : List Reg := [.zero, .t1, .t2, .t3, .t4]

theorem Living.sameBut {y x : Nat} {d d' : Data} (h : Living width height src dst b d₀ y x d)
    (hs : SameBut scratch d d') : Living width height src dst b d₀ y x d' where
  inner := h.inner
  a4 := (hs.reg _ (by decide)).trans h.a4
  t0 := (hs.reg _ (by decide)).trans h.t0
  a5 := (hs.reg _ (by decide)).trans h.a5
  t5 := (hs.reg _ (by decide)).trans h.t5
  a6 := (hs.reg _ (by decide)).trans h.a6
  a7 := (hs.reg _ (by decide)).trans h.a7
  src := hs.m ▸ h.src
  done := hs.m ▸ h.done
  border := hs.m ▸ h.border
  out := hs.out.trans h.out
  kept q hq := by
    have hn : ∀ q ∈ saved, q ∉ scratch := by decide
    rw [hs.reg q (hn q hq), h.kept q hq]

section Cell
variable {warmup measured y x : Nat} {d : Data}

theorem leads_live {Q : Mach Label → Prop}
    (hq : (machine (program width height warmup measured)).Leads Q
      { rest := fromStore.tail, data := d.put .t3 1 }) :
    (machine (program width height warmup measured)).Leads Q
      { rest := fromSetLive.tail, data := d } :=
  leads_li (by decide) (leads_label hq)

theorem leads_rule {v s : Nat} (hv : v < 256) (hs : s < 256) (ht1 : d.reg .t1 = s)
    (ht2 : d.reg .t2 = v) (ht3 : d.reg .t3 = 0) :
    (machine (program width height warmup measured)).Leads
      (At fromStore.tail fun d' => SameBut scratch d d' ∧ d'.reg .t3 = Life.rule v s)
      { rest := .branch .beq .t2 .zero .dead :: .li .t4 2 :: .branch .beq .t1 .t4 .setLive ::
          .li .t4 3 :: .branch .beq .t1 .t4 .setLive :: .jal .zero .store :: fromDead
        data := d } := by
  have h4 (z : Int) := (SameBut.refl scratch d).put (r := .t4) (by decide) z
  have hfs : Fits s := fits (by omega) (by omega)
  have h4' (d : Data) (z : Int) := d.reg_put_self (r := .t4) (by decide) z
  have h3 (d' : Data) (n : Nat) (hd : d'.reg .t3 = n) (hn : n = Life.rule v s) :
      d'.reg .t3 = Life.rule v s := by rw [hd, hn]
  have hrule : Life.rule v s = if s = 3 ∨ v ≠ 0 ∧ s = 2 then 1 else 0 := rfl
  refine leads_branch (by decide) (after_program _ _ _ _ .dead) ht2 d.reg_zero
    (fits (by omega) (by omega)) (by decide) (fun hz => ?_) fun hz => ?_
  · have hv0 : v = 0 := Int.ofNat_eq_zero.mp hz
    refine leads_li (v := 3) (by decide) (leads_branch (by decide) (after_program _ _ _ _ .store)
      ht1 (h4' d 3) hfs (by decide) (fun hn => ?_) fun hn => ?_)
    · refine .now ⟨rfl, h4 3, h3 _ 0 ht3 ?_⟩
      rw [hrule, if_neg]
      rintro (rfl | ⟨h0, -⟩)
      · exact hn rfl
      · exact h0 hv0
    · refine leads_label (leads_live (.now ⟨rfl, (h4 3).put (by decide) 1, h3 _ 1 rfl ?_⟩))
      rw [hrule, if_pos (.inl (Int.ofNat_inj.mp (not_not.mp hn)))]
  · refine leads_li (v := 2) (by decide) (leads_branch (by decide)
      (after_program _ _ _ _ .setLive) ht1 (h4' d 2) hfs (by decide) (fun h2 => ?_) fun h2 => ?_)
    · refine leads_live (.now ⟨rfl, (h4 2).put (by decide) 1, h3 _ 1 rfl ?_⟩)
      rw [hrule, if_pos (.inr ⟨fun h0 => hz (congrArg Nat.cast h0), Int.ofNat_inj.mp h2⟩)]
    · refine leads_li (v := 3) (by decide) (leads_branch (by decide)
        (after_program _ _ _ _ .setLive) ht1 (h4' _ 3) hfs (by decide) (fun hn => ?_) fun hn => ?_)
      · refine leads_live (.now ⟨rfl, ((h4 2).put (by decide) 3).put (by decide) 1, h3 _ 1 rfl ?_⟩)
        rw [hrule, if_pos (.inl (Int.ofNat_inj.mp hn))]
      · refine leads_jal (after_program _ _ _ _ .store)
          (.now ⟨rfl, ((h4 2).put (by decide) 3).put (by decide) _, h3 _ 0 ht3 ?_⟩)
        rw [hrule, if_neg]
        rintro (rfl | ⟨-, rfl⟩)
        · exact hn rfl
        · exact h2 rfl

theorem leads_cell (hw : 3 ≤ width ∧ width ≤ 2046)
    (hg : gridBase ≤ src ∧ src + ↑(width * height) ≤ mark) (hb : ∀ k < width * height, b k ≤ 1)
    (h : Living width height src dst b d₀ y x d) :
    (machine (program width height warmup measured)).Leads
      (At fromStore.tail fun d => Living width height src dst b d₀ y x d ∧
        d.reg .t3 = Life.next width height b (y * width + x))
      { rest := (fromGenCell width).tail, data := d } := by
  obtain ⟨hy0, hy1, hx0, hx1⟩ := h.inner
  have hhi := Life.index_lt (y := y + 1) (x := x + 1) hy1 hx1
  have hlo : 1 * width ≤ y * width := Nat.mul_le_mul_right width hy0
  rw [Nat.succ_mul] at hhi
  generalize hk : y * width + x = k at *
  have hkn : k < width * height := by omega
  have hi : Life.Inner width height k := by
    rw [← hk]
    exact (Life.inner_iff (by omega)).mpr ⟨hy0, hy1, hx0, hx1⟩
  have hbk := hb k hkn
  refine leads_li (v := 0) (by decide) ?_
  refine leads_sum hw (k := k) (by omega) (by omega) hg ?_ rfl h.src fun d₁ hs₁ ht₁ => ?_
  · rw [← hk]
    exact h.a6
  · have hs₁' : SameBut scratch d d₁ :=
      ((SameBut.refl scratch d).put (by decide) 0).trans (hs₁.mono (by decide))
    have h₁ := h.sameBut hs₁'
    have hm : d₁.m (src + k) = b k := h₁.src k hkn
    refine leads_lbu (z := src + k) ?_ (by decide) (by omega) (by omega) ?_
    · rw [← hk, h₁.a6]
      exact Int.add_zero _
    refine leads_li (v := 0) (by decide) ?_
    rw [hm]
    have hs₂ := (hs₁'.put (r := .t2) (by decide) (b k)).put (r := .t3) (by decide) 0
    generalize hd₂ : (d₁.put .t2 (b k)).put .t3 0 = d₂ at *
    have ht1 : d₂.reg .t1 = Life.around width b k := by rw [← hd₂]; exact ht₁
    have ht2 : d₂.reg .t2 = b k := by rw [← hd₂]; rfl
    have ht3 : d₂.reg .t3 = 0 := by rw [← hd₂]; rfl
    have hS : SameBut scratch d d₂ := hs₂
    have ha := Life.around_le hb (show k + width + 1 < width * height by omega)
    refine (leads_rule (by omega) (by omega) ht1 ht2 ht3).mono ?_
    · rintro s ⟨hs, hS', ht⟩
      refine ⟨hs, h.sameBut (hS.trans hS'), ?_⟩
      rw [ht, Life.next, if_pos hi]

end Cell

/-- The border cells from `k` on are already what they will be. -/
theorem Holds.extend {m : Int → Nat} {k k' : Nat}
    (h : Holds m dst k (Life.next width height b)) (hb : Bordered width height m dst k)
    (hk : k' ≤ width * height) (hi : ∀ j, k ≤ j → j < k' → ¬Life.Inner width height j) :
    Holds m dst k' (Life.next width height b) :=
  h.append fun j hge hj => by
    rw [hb j (by omega) hge (hi j hge hj), Life.next, if_neg (hi j hge hj)]

structure Generated (width height : Nat) (src dst : Int) (b : Nat → Nat) (d₀ d : Data) : Prop where
  src : Holds d.m src (width * height) b
  dst : Holds d.m dst (width * height) (Life.next width height b)
  out : d.out = d₀.out
  kept : Kept d₀ d

section Round
variable {warmup measured y x : Nat} {d : Data} {r : List (Call Label)}

theorem Living.stored (hg : Grids (width * height) src dst)
    (h : Living width height src dst b d₀ y x d) :
    let k := y * width + x
    let d' := d.poke (dst + k) (Life.next width height b k)
    Holds d'.m src (width * height) b ∧ Holds d'.m dst (k + 1) (Life.next width height b) ∧
      Bordered width height d'.m dst (k + 1) := by
  intro k d'
  have hk : k < width * height := by
    obtain ⟨-, hy, -, hx⟩ := h.inner
    exact Life.index_lt (by omega) (by omega)
  have hap := hg.apart
  refine ⟨h.src.poke (by omega) _, h.done.poke_end rfl, fun j hj hkj hi => ?_⟩
  exact (d.m_poke_of_ne (by omega) _).trans (h.border j hj (by omega) hi)

theorem leads_store (hw : 3 ≤ width ∧ width ≤ 2046) (hn : width * height < 2 ^ 30)
    (hg : Grids (width * height) src dst) (hr : r <:+ program width height warmup measured)
    (hra : d.reg .ra = (pcOf (program width height warmup measured) r : Int))
    (h : Living width height src dst b d₀ y x d)
    (ht : d.reg .t3 = Life.next width height b (y * width + x)) :
    (machine (program width height warmup measured)).Leads
      (fun s => At r (Generated width height src dst b d₀) s ∨
        At (fromGenCell width).tail (fun d => ∃ k', y * width + x < k' ∧
          ∃ y x, k' = y * width + x ∧ Living width height src dst b d₀ y x d) s)
      { rest := fromStore.tail, data := d } := by
  obtain ⟨hy0, hy1, hx0, hx1⟩ := h.inner
  obtain ⟨hsrc, hdone, hborder⟩ := h.stored hg
  have hk : y * width + x < width * height := Life.index_lt (by omega) (by omega)
  have hh : height ≤ width * height := Nat.le_mul_of_pos_left height (by omega)
  have hlow := hg.b_low
  have hhigh := hg.b_high
  have hv := Life.next_le width height b (y * width + x)
  refine leads_sb h.a7 (by omega) (by omega) ht (by omega) ?_
  generalize hd : d.poke (dst + ↑(y * width + x)) _ = d₁ at *
  have hreg (r : Reg) : d₁.reg r = d.reg r := by rw [← hd]; rfl
  have hout : d₁.out = d₀.out := by rw [← hd]; exact h.out
  have hkept : Kept d₀ d₁ := by rw [← hd]; exact h.kept.poke _ _
  refine leads_addi (v := src + ↑(y * width + x + 1)) ?_ (by decide) ?_
  · rw [hreg, h.a6]
    omega
  refine leads_addi (v := dst + ↑(y * width + x + 1)) ?_ (by decide) ?_
  · have ha : d₁.reg .a7 = dst + ↑(y * width + x) := (hreg .a7).trans h.a7
    exact (congrArg (· + 1) ha).trans (by omega)
  refine leads_addi (v := ↑(x + 1)) ?_ (by decide) ?_
  · exact congrArg (· + 1) ((hreg .t0).trans h.t0)
  have hkept₂ := ((hkept.put (r := .a6) (by decide) (src + ↑(y * width + x + 1))).put (r := .a7)
    (by decide) (dst + ↑(y * width + x + 1))).put (r := .t0) (by decide) ↑(x + 1)
  refine leads_blt (after_program _ _ _ _ .genCell) rfl ((hreg .t5).trans h.t5) hx1 (by omega)
    (fun hx2 => ?_) fun hx2 => ?_
  · exact .now (.inr ⟨rfl, y * width + x + 1, Nat.lt_succ_self _, y, x + 1, rfl,
      { inner := ⟨hy0, hy1, Nat.succ_pos x, hx2⟩
        a4 := (hreg .a4).trans h.a4
        t0 := rfl
        a5 := (hreg .a5).trans h.a5
        t5 := (hreg .t5).trans h.t5
        a6 := rfl
        a7 := rfl
        src := hsrc
        done := hdone
        border := hborder
        out := hout
        kept := hkept₂ }⟩)
  · have hk3 : (y + 1) * width + 1 = y * width + x + 3 := Life.next_row hx2
    refine leads_addi (v := src + ↑((y + 1) * width + 1)) ?_ (by decide) ?_
    · change src + ↑(y * width + x + 1) + 2 = src + ↑((y + 1) * width + 1)
      omega
    refine leads_addi (v := dst + ↑((y + 1) * width + 1)) ?_ (by decide) ?_
    · change dst + ↑(y * width + x + 1) + 2 = dst + ↑((y + 1) * width + 1)
      omega
    refine leads_addi (v := ↑(y + 1)) ?_ (by decide) ?_
    · exact congrArg (· + 1) ((hreg .a4).trans h.a4)
    have hkept₃ := ((hkept₂.put (r := .a6) (by decide) (src + ↑((y + 1) * width + 1))).put
      (r := .a7) (by decide) (dst + ↑((y + 1) * width + 1))).put (r := .a4) (by decide) ↑(y + 1)
    have hbetween (j : Nat) (hj : y * width + x + 1 ≤ j) (hj' : j < (y + 1) * width + 1) :
        ¬Life.Inner width height j := Life.not_inner_between (y := y) (by omega) (by omega)
    refine leads_blt (after_program _ _ _ _ .genRow) rfl ((hreg .a5).trans h.a5) hy1 (by omega)
      (fun hy2 => ?_) fun hy2 => ?_
    · refine leads_li (v := 1) (by decide) (leads_label (.now (.inr ⟨rfl, (y + 1) * width + 1,
        by omega, y + 1, 1, rfl, ?_⟩)))
      exact
        { inner := ⟨Nat.succ_pos y, hy2, Nat.one_pos, by omega⟩
          a4 := rfl
          t0 := rfl
          a5 := (hreg .a5).trans h.a5
          t5 := (hreg .t5).trans h.t5
          a6 := rfl
          a7 := rfl
          src := hsrc
          done := hdone.extend hborder (Nat.le_of_lt (Life.index_lt (by omega) (by omega))) hbetween
          border := fun j hj hk => hborder j hj (by omega)
          out := hout
          kept := hkept₃.put (by decide) 1 }
    · exact leads_ret hr ((hreg .ra).trans hra) (.now (.inl ⟨rfl,
        { src := hsrc
          dst := hdone.extend hborder (Nat.le_refl _) fun j hj _ =>
            Life.not_inner_after (y := y) (by omega) hy2
          out := hout
          kept := hkept₃ }⟩))

theorem leads_generation (hw : 3 ≤ width ∧ width ≤ 2046) (hh : 3 ≤ height)
    (hn : width * height < 2 ^ 30) (hg : Grids (width * height) src dst)
    (hr : r <:+ program width height warmup measured)
    (hra : d.reg .ra = (pcOf (program width height warmup measured) r : Int))
    (ha0 : d.reg .a0 = src) (ha1 : d.reg .a1 = dst) (hs3 : d.reg .s3 = width)
    (hs4 : d.reg .s4 = height) (hb : ∀ k < width * height, b k ≤ 1)
    (hsrc : Holds d.m src (width * height) b) (hdst : Bordered width height d.m dst 0) :
    (machine (program width height warmup measured)).Leads
      (At r (Generated width height src dst b d))
      { rest := (fromGeneration width).tail, data := d } := by
  have hh : height ≤ width * height := Nat.le_mul_of_pos_left height (by omega)
  refine leads_li (v := 1) (by decide) ?_
  refine leads_addi (v := height - 1) (congrArg (· + -1) hs4) (by decide) ?_
  refine leads_add (v := src + width) (congrArg₂ (· + ·) ha0 hs3) ?_
  refine leads_addi (v := src + ↑(1 * width + 1)) ?_ (by decide) ?_
  · change src + width + 1 = src + ↑(1 * width + 1)
    omega
  refine leads_add (v := dst + width) (congrArg₂ (· + ·) ha1 hs3) ?_
  refine leads_addi (v := dst + ↑(1 * width + 1)) ?_ (by decide) ?_
  · change dst + width + 1 = dst + ↑(1 * width + 1)
    omega
  refine leads_addi (v := width - 1) (congrArg (· + -1) hs3) (by decide) ?_
  refine leads_label (leads_li (v := 1) (by decide) (leads_label ?_))
  refine leads_up (P := fun k d' => ∃ y x, k = y * width + x ∧
    Living width height src dst b d y x d') (width * height) ?_ ?_ ⟨1, 1, rfl, ?_⟩
  · rintro _ d' ⟨y, x, rfl, h⟩
    obtain ⟨-, hy, -, hx⟩ := h.inner
    exact Life.index_lt (by omega) (by omega)
  · rintro _ d' ⟨y, x, rfl, h⟩
    refine (leads_cell hw ⟨hg.a_low, hg.a_high⟩ hb h).trans ?_
    rintro ⟨_, d₁⟩ ⟨rfl, h₁, ht⟩
    exact leads_store hw hn hg hr ((h₁.kept .ra (by decide)).trans hra) h₁ ht
  · exact
      { inner := ⟨Nat.one_pos, by omega, Nat.one_pos, by omega⟩
        a4 := rfl
        t0 := rfl
        a5 := rfl
        t5 := rfl
        a6 := rfl
        a7 := rfl
        src := hsrc
        done := Holds.extend (k := 0) (fun j hj => absurd hj (Nat.not_lt_zero j)) hdst
          (Nat.le_of_lt (Life.index_lt (by omega) (by omega)))
          fun j _ hj => Life.not_inner_first (by omega)
        border := fun j hj _ => hdst j hj (Nat.zero_le j)
        out := rfl
        kept := by
          intro q hq
          simp only [saved, List.mem_cons, List.not_mem_nil, or_false] at hq
          rcases hq with rfl | rfl | rfl | rfl | rfl | rfl | rfl | rfl <;> rfl }

end Round

end Generation

end Rv64imCore.Gol
