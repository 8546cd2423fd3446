import Rv64imCore.GolProgram
import Rv64imCore.Life

/-! The reference plays Life. -/

namespace Rv64imCore.Gol
set_option autoImplicit true

def Rectangular (w h : Nat) (g : Grid) : Prop := g.length = h ∧ ∀ row ∈ g, row.length = w

theorem cell_nat (g : Grid) (y x : Nat) : cell g y x = (g.getD y []).getD x 0 := by
  rw [cell, Int.toNat_natCast, Int.toNat_natCast]

section Fill
variable {w h : Nat} {g : Grid}

theorem Rectangular.setCell (hg : Rectangular w h g) (y x v : Nat) :
    Rectangular w h (setCell g y x v) := by
  refine ⟨(List.length_modify ..).trans hg.1, fun row hr => ?_⟩
  obtain ⟨k, hk, rfl⟩ := List.mem_iff_getElem.mp hr
  have hk' : k < g.length := Nat.lt_of_lt_of_eq hk (List.length_modify ..)
  have hl : (g[k]).length = w := hg.2 _ (List.getElem_mem hk')
  simp only [Gol.setCell, List.getElem_modify]
  split
  · rw [List.length_set, hl]
  · exact hl

theorem cell_setCell (hg : Rectangular w h g) (hy : y < h) (hx : x < w) (v y' x' : Nat) :
    cell (setCell g y x v) y' x' = if y' = y ∧ x' = x then v else cell g y' x' := by
  have hl : y < g.length := Nat.lt_of_lt_of_eq hy hg.1.symm
  have hr : (g[y]).length = w := hg.2 _ (List.getElem_mem hl)
  have hrow : (setCell g y x v).getD y' [] =
      if y = y' then (g[y]).set x v else g.getD y' [] := by
    simp only [setCell, List.getD_eq_getElem?_getD, List.getElem?_modify]
    by_cases h : y = y'
    · subst h
      simp [hl]
    · simp [h]
  rw [cell_nat, cell_nat, hrow]
  by_cases h : y = y'
  · subst h
    have hg : g.getD y [] = g[y] := by simp [hl]
    simp only [if_true, true_and, hg, List.getD_eq_getElem?_getD, List.getElem?_set, hr, hx,
      eq_comm (a := x)]
    split <;> rfl
  · rw [if_neg h, if_neg fun hc => h hc.1.symm]

theorem zeros_rectangular : Rectangular w h (zeros w h) :=
  ⟨List.length_replicate, fun row hr => by rw [List.eq_of_mem_replicate hr, List.length_replicate]⟩

theorem cell_zeros (y x : Nat) : cell (zeros w h) y x = 0 := by
  simp only [cell_nat, zeros, List.getD_eq_getElem?_getD, List.getElem?_replicate]
  by_cases hy : y < h
  · by_cases hx : x < w <;> simp [hy, hx]
  · simp [hy]

theorem fill_row (hg : Rectangular w h g) (hy : y < h) (f : Nat → Nat) (xs : List Nat)
    (hxs : ∀ x ∈ xs, x < w) :
    Rectangular w h (xs.foldl (fun g x => setCell g y x (f x)) g) ∧
      ∀ y' x' : Nat, cell (xs.foldl (fun g x => setCell g y x (f x)) g) y' x' =
        if y' = y ∧ x' ∈ xs then f x' else cell g y' x' := by
  induction xs generalizing g with
  | nil => exact ⟨hg, fun y' x' => by simp⟩
  | cons x xs ih =>
    have hx := hxs x List.mem_cons_self
    obtain ⟨hr, hc⟩ := ih (hg.setCell y x (f x)) fun z hz => hxs z (List.mem_cons_of_mem x hz)
    refine ⟨hr, fun y' x' => ?_⟩
    rw [List.foldl_cons, hc, cell_setCell hg hy hx]
    grind

theorem fill_rows (hg : Rectangular w h g) (f : Nat → Nat → Nat) (ys xs : List Nat)
    (hys : ∀ y ∈ ys, y < h) (hxs : ∀ x ∈ xs, x < w) :
    Rectangular w h (ys.foldl (fun g y => xs.foldl (fun g x => setCell g y x (f y x)) g) g) ∧
      ∀ y' x' : Nat,
        cell (ys.foldl (fun g y => xs.foldl (fun g x => setCell g y x (f y x)) g) g) y' x' =
          if y' ∈ ys ∧ x' ∈ xs then f y' x' else cell g y' x' := by
  induction ys generalizing g with
  | nil => exact ⟨hg, fun y' x' => by simp⟩
  | cons y ys ih =>
    have hy := hys y List.mem_cons_self
    obtain ⟨hr, hc⟩ := fill_row hg hy (f y) xs hxs
    obtain ⟨hr', hc'⟩ := ih hr fun z hz => hys z (List.mem_cons_of_mem y hz)
    refine ⟨hr', fun y' x' => ?_⟩
    rw [List.foldl_cons, hc', hc]
    grind

theorem mem_inside {n k : Nat} : k ∈ inside n ↔ 0 < k ∧ k + 1 < n := by
  rw [inside, List.mem_range'_1]
  omega

theorem fill_spec (f : Nat → Nat → Nat) : Rectangular w h (fill w h f) ∧
    ∀ y x : Nat, cell (fill w h f) y x =
      if (0 < y ∧ y + 1 < h) ∧ 0 < x ∧ x + 1 < w then f y x else 0 := by
  obtain ⟨hr, hc⟩ := fill_rows zeros_rectangular f (inside h) (inside w)
    (fun y hy => Nat.lt_of_succ_lt (mem_inside.mp hy).2)
    (fun x hx => Nat.lt_of_succ_lt (mem_inside.mp hx).2)
  refine ⟨hr, fun y x => ?_⟩
  rw [fill, hc, cell_zeros]
  exact if_congr (and_congr mem_inside mem_inside) rfl rfl

end Fill

/-- The rows of a grid one after the other. -/
def flat (w : Nat) (g : Grid) (k : Nat) : Nat := cell g ↑(k / w) ↑(k % w)

theorem flat_index {w : Nat} (g : Grid) (hx : x < w) : flat w g (y * w + x) = cell g y x := by
  rw [flat, Life.row hx, Life.column hx]

theorem flat_seed (w h k : Nat) : flat w (seed w h) k =
    if Life.Inner w h k then (if (k % w ^^^ k / w) &&& 3 = 0 then 1 else 0) else 0 := by
  rw [flat, seed, (fill_spec _).2]
  exact if_congr and_assoc rfl rfl

theorem around_flat {w : Nat} (g : Grid) (hx : x + 2 < w) :
    Life.around w (flat w g) ((y + 1) * w + (x + 1)) =
      (around.map fun p => cell g (↑(y + 1) + p.1) (↑(x + 1) + p.2)).sum := by
  have hr : around = [(-1, -1), (-1, 0), (-1, 1), (0, -1), (0, 1), (1, -1), (1, 0), (1, 1)] := rfl
  have hk : (y + 1) * w + (x + 1) = y * w + w + x + 1 := by rw [Nat.succ_mul]; omega
  have h2 : (y + 2) * w = y * w + w + w := by rw [Nat.succ_mul, Nat.succ_mul]
  have hi (j y' x' : Nat) (hj : j = y' * w + x') (hx' : x' < w) : flat w g j = cell g y' x' := by
    rw [hj, flat_index g hx']
  rw [Life.around, hk, hi _ y x (by omega) (by omega), hi _ y (x + 1) (by omega) (by omega),
    hi _ y (x + 2) (by omega) (by omega), hi _ (y + 1) x (by rw [Nat.succ_mul]; omega) (by omega),
    hi _ (y + 1) (x + 2) (by rw [Nat.succ_mul]; omega) (by omega),
    hi _ (y + 2) x (by omega) (by omega), hi _ (y + 2) (x + 1) (by omega) (by omega),
    hi _ (y + 2) (x + 2) (by omega) (by omega), hr]
  have hm (z : Nat) : ((z + 1 : Nat) : Int) + -1 = z := by omega
  have hp (z : Nat) : ((z + 1 : Nat) : Int) + 1 = ↑(z + 2) := by omega
  simp only [List.map_cons, List.map_nil, List.sum_cons, List.sum_nil, hm, hp, Int.add_zero]
  omega

theorem flat_step {w h k : Nat} (g : Grid) (hk : k < w * h) :
    flat w (step w h g) k = Life.next w h (flat w g) k := by
  obtain ⟨y, x, hy, hx, rfl⟩ := Life.exists_index hk
  rw [flat_index _ hx, step, (fill_spec _).2, Life.next]
  by_cases hi : Life.Inner w h (y * w + x)
  · obtain ⟨hy0, hy1, hx0, hx1⟩ := (Life.inner_iff hx).mp hi
    obtain ⟨y, rfl⟩ := Nat.exists_eq_succ_of_ne_zero (Nat.ne_of_gt hy0)
    obtain ⟨x, rfl⟩ := Nat.exists_eq_succ_of_ne_zero (Nat.ne_of_gt hx0)
    rw [if_pos ⟨⟨hy0, hy1⟩, hx0, hx1⟩, if_pos hi, Life.rule, flat_index _ hx,
      around_flat g hx1]
  · rw [if_neg hi, if_neg]
    rintro ⟨⟨hy0, hy1⟩, hx0, hx1⟩
    exact hi ((Life.inner_iff hx).mpr ⟨hy0, hy1, hx0, hx1⟩)

theorem sum_flat {w h : Nat} {g : Grid} (hg : Rectangular w h g) :
    (g.map List.sum).sum = ((List.range (w * h)).map (flat w g)).sum := by
  induction g generalizing h with
  | nil =>
    obtain rfl : h = 0 := hg.1.symm
    rfl
  | cons row g ih =>
    obtain ⟨h, rfl⟩ : ∃ k, h = k + 1 := ⟨g.length, hg.1.symm⟩
    have hrow : row.length = w := hg.2 row List.mem_cons_self
    have hrest := ih (h := h) ⟨Nat.succ.inj hg.1, fun r hr => hg.2 r (List.mem_cons_of_mem row hr)⟩
    have hfirst : row.sum = ((List.range w).map (flat w (row :: g))).sum := by
      congr 1
      apply List.ext_getElem
      · simp [hrow]
      · intro x hx _
        have hc := flat_index (y := 0) (row :: g) (Nat.lt_of_lt_of_eq hx hrow)
        rw [Nat.zero_mul, Nat.zero_add, cell_nat] at hc
        rw [List.getElem_map, List.getElem_range, hc]
        simp [hx]
    have hnext (k : Nat) (hk : k < w * h) : flat w g k = flat w (row :: g) (w + k) := by
      have hw : 0 < w := Nat.pos_of_mul_pos_right (Nat.zero_lt_of_lt hk)
      rw [flat, flat, Nat.add_mod_left, Nat.add_div_left k hw, cell_nat, cell_nat]
      rfl
    rw [List.map_cons, List.sum_cons, hrest, hfirst, Nat.mul_succ, Nat.add_comm (w * h),
      List.range_add, List.map_append, List.sum_append, List.map_map]
    congr 2
    exact List.map_congr_left fun k hk => hnext k (List.mem_range.mp hk)

end Rv64imCore.Gol
