import Mathlib.Tactic.Ring

/-! Restoring division: one trial subtraction a step, from the highest quotient bit down. -/

namespace Restoring
set_option autoImplicit true

/-- The trial subtraction of `D` from `r`: the quotient bit and what it leaves. -/
def bit (D r : Nat) : Bool := decide (D ≤ r)
def rest (D r : Nat) : Nat := if D ≤ r then r - D else r

/-- Before the subtraction of `D`: the quotient so far is `q`, and what is left is below `2D`. -/
structure Prefix (R D q r : Nat) : Prop where
  eq : R = q * (2 * D) + r
  lt : r < 2 * D

theorem Prefix.init (h : R < 2 * D) : Prefix R D 0 R :=
  ⟨by rw [Nat.zero_mul, Nat.zero_add], h⟩

theorem rest_lt (h : r < 2 * D) : rest D r < D := by
  unfold rest
  split <;> omega

theorem bit_mul_add_rest (D r : Nat) : (bit D r).toNat * D + rest D r = r := by
  unfold bit rest
  by_cases h : D ≤ r
  · simp [h]
  · simp [h]

/-- After it, the divisor itself bounds what is left. -/
theorem Prefix.step (h : Prefix R D q r) :
    R = (2 * q + (bit D r).toNat) * D + rest D r ∧ rest D r < D := by
  refine ⟨?_, rest_lt h.lt⟩
  calc R = q * (2 * D) + ((bit D r).toNat * D + rest D r) := by
        rw [bit_mul_add_rest]; exact h.eq
    _ = (2 * q + (bit D r).toNat) * D + rest D r := by ring

theorem Prefix.next (h : Prefix R (2 * D) q r) :
    Prefix R D (2 * q + (bit (2 * D) r).toNat) (rest (2 * D) r) :=
  ⟨h.step.1, h.step.2⟩

theorem div_mod_of_scaled (hp : 0 < p) (h : a * p = q * (b * p) + r) (hr : r < b * p) :
    q = a / b ∧ r / p = a % b := by
  have hd : p ∣ r := by
    have h' : r = (a - q * b) * p := by
      rw [Nat.sub_mul, h, Nat.mul_assoc]
      omega
    exact ⟨a - q * b, by rw [Nat.mul_comm]; exact h'⟩
  obtain ⟨m, rfl⟩ := hd
  have hm : m < b := by
    rw [Nat.mul_comm b p] at hr
    exact Nat.lt_of_mul_lt_mul_left hr
  have ha : a = q * b + m := by
    apply Nat.eq_of_mul_eq_mul_right hp
    rw [h]
    ring
  rw [Nat.mul_div_cancel_left m hp, ha]
  refine ⟨?_, ?_⟩
  · rw [Nat.mul_comm, Nat.mul_add_div (by omega), Nat.div_eq_of_lt hm, Nat.add_zero]
  · rw [Nat.mul_comm, Nat.mul_add_mod, Nat.mod_eq_of_lt hm]

end Restoring
