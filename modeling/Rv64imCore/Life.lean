import Mathlib.Algebra.BigOperators.Group.List.Basic
import Mathlib.Data.List.Basic

/-! The Game of Life on a rectangle whose rows lie one after the other. -/

namespace Life
set_option autoImplicit true

/-- The cell `k` is not on the border. -/
def Inner (w h k : Nat) : Prop := 0 < k / w ∧ k / w + 1 < h ∧ 0 < k % w ∧ k % w + 1 < w

instance : Decidable (Inner w h k) := inferInstanceAs (Decidable (_ ∧ _ ∧ _ ∧ _))

/-- The cells around an inner cell. -/
def around (w : Nat) (b : Nat → Nat) (k : Nat) : Nat :=
  b (k - w - 1) + b (k - w) + b (k - w + 1) + b (k - 1) + b (k + 1) + b (k + w - 1) + b (k + w)
    + b (k + w + 1)

def rule (alive s : Nat) : Nat := if s = 3 ∨ alive ≠ 0 ∧ s = 2 then 1 else 0

def next (w h : Nat) (b : Nat → Nat) (k : Nat) : Nat :=
  if Inner w h k then rule (b k) (around w b k) else 0

theorem rule_le (alive s : Nat) : rule alive s ≤ 1 := by
  rw [rule]
  split <;> decide

theorem next_le (w h : Nat) (b : Nat → Nat) (k : Nat) : next w h b k ≤ 1 := by
  rw [next]
  split
  · exact rule_le _ _
  · exact Nat.zero_le 1

theorem around_le {b : Nat → Nat} (hb : ∀ k < n, b k ≤ 1) (hk : k + w + 1 < n) :
    around w b k ≤ 8 := by
  have h1 := hb (k - w - 1) (by omega)
  have h2 := hb (k - w) (by omega)
  have h3 := hb (k - w + 1) (by omega)
  have h4 := hb (k - 1) (by omega)
  have h5 := hb (k + 1) (by omega)
  have h6 := hb (k + w - 1) (by omega)
  have h7 := hb (k + w) (by omega)
  have h8 := hb (k + w + 1) (by omega)
  rw [around]
  omega

section Index
variable {w h x y : Nat}

theorem row (hx : x < w) : (y * w + x) / w = y := by
  rw [Nat.mul_comm, Nat.mul_add_div (Nat.zero_lt_of_lt hx), Nat.div_eq_of_lt hx, Nat.add_zero]

theorem column (hx : x < w) : (y * w + x) % w = x := by
  rw [Nat.mul_comm, Nat.mul_add_mod, Nat.mod_eq_of_lt hx]

theorem inner_iff (hx : x < w) : Inner w h (y * w + x) ↔ 0 < y ∧ y + 1 < h ∧ 0 < x ∧ x + 1 < w := by
  rw [Inner, row hx, column hx]

theorem next_row (hx : x + 2 = w) : (y + 1) * w + 1 = y * w + x + 3 := by
  rw [Nat.succ_mul]
  omega

theorem index_lt (hy : y < h) (hx : x < w) : y * w + x < w * h := by
  calc y * w + x < y * w + w := by omega
    _ = (y + 1) * w := (Nat.succ_mul y w).symm
    _ ≤ h * w := Nat.mul_le_mul_right w hy
    _ = w * h := Nat.mul_comm h w

theorem exists_index (hk : k < w * h) : ∃ y x, y < h ∧ x < w ∧ k = y * w + x := by
  have hw : 0 < w := Nat.pos_of_mul_pos_right (Nat.zero_lt_of_lt hk)
  refine ⟨k / w, k % w, Nat.div_lt_of_lt_mul hk, Nat.mod_lt k hw, ?_⟩
  rw [Nat.mul_comm, Nat.div_add_mod]

theorem not_inner_first (hj : j ≤ w) : ¬Inner w h j := by
  rintro ⟨h0, -, h1, -⟩
  rcases Nat.lt_or_eq_of_le hj with hj | rfl
  · rw [Nat.div_eq_of_lt hj] at h0
    exact Nat.lt_irrefl 0 h0
  · rw [Nat.mod_self] at h1
    exact Nat.lt_irrefl 0 h1

theorem not_inner_between (hl : y * w + w ≤ j + 1) (hu : j ≤ y * w + w) : ¬Inner w h j := by
  rintro ⟨-, -, h0, h1⟩
  have hw : 0 < w := by omega
  rcases Nat.lt_or_ge j (y * w + w) with hj | hj
  · obtain rfl : j = y * w + (w - 1) := by omega
    rw [column (by omega)] at h1
    omega
  · obtain rfl : j = (y + 1) * w + 0 := by rw [Nat.succ_mul]; omega
    rw [column hw] at h0
    omega

theorem not_inner_after (hl : y * w + w ≤ j + 1) (hy : y + 2 = h) : ¬Inner w h j := by
  intro hi
  have hw : 0 < w := by
    have := hi.2.2.2
    omega
  have hj : y * w + w ≤ j := by
    rcases Nat.lt_or_ge j (y * w + w) with hj | hj
    · exact absurd hi (not_inner_between hl (Nat.le_of_lt hj))
    · exact hj
  have hd : y + 1 ≤ j / w := by
    rw [Nat.le_div_iff_mul_le hw, Nat.succ_mul]
    exact hj
  have := hi.2.1
  omega

end Index

end Life
