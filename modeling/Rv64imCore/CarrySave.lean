import Mathlib.Algebra.BigOperators.Intervals
import Mathlib.Data.Int.ModEq
import Mathlib.Tactic.Ring
import Rv64imCore.Bits

/-! Rows of bits, the numbers they spell, and columns of counters whose carries ripple. -/

namespace Bits
set_option autoImplicit true

open Finset

/-- The number that the first `n` bits of a row spell. -/
def value (f : Nat → Bool) (n : Nat) : Nat := ∑ k ∈ range n, (f k).toNat * 2 ^ k

@[simp] theorem value_zero (f : Nat → Bool) : value f 0 = 0 := rfl

theorem value_succ (f : Nat → Bool) (n : Nat) :
    value f (n + 1) = value f n + (f n).toNat * 2 ^ n := sum_range_succ _ _

theorem toNat_ofFn (f : Nat → Bool) (w : Nat) : (ofFn f w).toNat = value f w := by
  induction w with
  | zero => rfl
  | succ w ih =>
    have hlt : value f w < 2 ^ w := by rw [← ih]; exact (ofFn f w).isLt
    rw [ofFn, BitVec.toNat_cons, ih, value_succ, Nat.shiftLeft_eq, Nat.mul_comm,
      ← Nat.two_pow_add_eq_or_of_lt hlt]
    ring

theorem value_getLsbD (x : BitVec w) (n : Nat) : value x.getLsbD n = x.toNat % 2 ^ n := by
  induction n with
  | zero => rw [value_zero, Nat.pow_zero, Nat.mod_one]
  | succ n ih =>
    rw [value_succ, ih, Nat.mod_pow_succ, Nat.mul_comm, BitVec.getLsbD, Nat.toNat_testBit]

/-- A row spells its word's signed number, up to a multiple of the word's modulus. -/
theorem toNat_modEq (x : BitVec w) : (x.toNat : Int) ≡ x.toInt [ZMOD 2 ^ w] := by
  rw [BitVec.toInt_eq_toNat_bmod, Int.ModEq]
  have h := Int.bmod_emod (x := (x.toNat : Int)) (m := 2 ^ w)
  push_cast at h
  exact h.symm

theorem value_modEq (x : BitVec w) (h : n ≤ w) :
    (value x.getLsbD n : Int) ≡ x.toInt [ZMOD 2 ^ n] := by
  have hd : (2 : Int) ^ n ∣ 2 ^ w := pow_dvd_pow 2 h
  have hx := (toNat_modEq x).of_dvd hd
  rw [value_getLsbD]
  push_cast
  exact (Int.mod_modEq _ _).trans hx

/-- A shifted row of a sign-extended word spells a multiple of the word's number. -/
theorem value_shift_modEq (x : BitVec w) (m : Nat) (hw : w ≤ v) (h : n ≤ v) :
    (value (x.signExtend v <<< m).getLsbD n : Int) ≡ x.toInt * 2 ^ m [ZMOD 2 ^ n] := by
  have hd : (2 : Int) ^ n ∣ 2 ^ v := pow_dvd_pow 2 h
  have hx : ((x.signExtend v).toNat : Int) ≡ x.toInt [ZMOD 2 ^ v] := by
    have := toNat_modEq (x.signExtend v)
    rwa [BitVec.toInt_signExtend_of_le hw] at this
  rw [value_getLsbD, BitVec.toNat_shiftLeft, Nat.shiftLeft_eq]
  push_cast
  refine (Int.mod_modEq _ _).trans (((Int.mod_modEq _ _).trans ?_).of_dvd hd)
  exact hx.mul_right _

theorem eq_ofInt_of_modEq {x : BitVec w} (h : (x.toNat : Int) ≡ z [ZMOD 2 ^ w]) :
    x = BitVec.ofInt w z := by
  apply BitVec.eq_of_toNat_eq
  rw [BitVec.toNat_ofInt]
  have hx : (x.toNat : Int) % 2 ^ w = x.toNat :=
    Int.emod_eq_of_lt (Int.natCast_nonneg _) (by exact_mod_cast x.isLt)
  have hz : z % ((2 ^ w : Nat) : Int) = x.toNat := by
    push_cast
    rw [← hx]
    exact h.symm
  rw [hz, Int.toNat_natCast]

theorem toNat_ofInt_modEq (w : Nat) (z : Int) :
    ((BitVec.ofInt w z).toNat : Int) ≡ z [ZMOD 2 ^ w] := by
  have hp : ((2 ^ w : Nat) : Int) ≠ 0 := by exact_mod_cast (Nat.two_pow_pos w).ne'
  rw [BitVec.toNat_ofInt, Int.toNat_of_nonneg (Int.emod_nonneg _ hp)]
  push_cast
  exact Int.mod_modEq _ _

theorem ofInt_extractLsb' (z : Int) (h : n ≤ w) :
    (BitVec.ofInt w z).extractLsb' 0 n = BitVec.ofInt n z := by
  apply eq_ofInt_of_modEq
  have hd : (2 : Int) ^ n ∣ 2 ^ w := pow_dvd_pow 2 h
  rw [BitVec.extractLsb'_toNat, Nat.shiftRight_zero]
  push_cast
  exact (Int.mod_modEq _ _).trans ((toNat_ofInt_modEq w z).of_dvd hd)

/-! Column `i` counts `a i` ones of weight `2^i` and `r i` carries from the column below; it
leaves one bit of its own weight and, of the next one, a bit and the carries into the next
column. -/

section Columns
variable {a r : Nat → Nat} {s c : Nat → Bool}

/-- The bits a column leaves for the next weight, in the row of that weight. -/
def shifted (c : Nat → Bool) : Nat → Bool
  | 0 => false
  | i + 1 => c i

theorem columns_sum (h0 : r 0 = 0)
    (h : ∀ i, a i + r i = (s i).toNat + 2 * ((c i).toNat + r (i + 1))) (n : Nat) :
    ∑ i ∈ range n, a i * 2 ^ i = value s n + value (shifted c) (n + 1) + r n * 2 ^ n := by
  induction n with
  | zero => simp [value_succ, shifted, h0]
  | succ n ih =>
    calc ∑ i ∈ range (n + 1), a i * 2 ^ i
        = value s n + value (shifted c) (n + 1) + (a n + r n) * 2 ^ n := by
          rw [sum_range_succ, ih]; ring
      _ = value s (n + 1) + value (shifted c) (n + 1 + 1) + r (n + 1) * 2 ^ (n + 1) := by
          rw [h, value_succ s, value_succ (shifted c) (n + 1), shifted]; ring

theorem columns_modEq (h0 : r 0 = 0)
    (h : ∀ i, a i + r i = (s i).toNat + 2 * ((c i).toNat + r (i + 1))) (n : Nat) :
    value s n + value (shifted c) n ≡ ∑ i ∈ range n, a i * 2 ^ i [MOD 2 ^ n] := by
  rw [columns_sum h0 h, value_succ, Nat.add_assoc (value s n), Nat.add_assoc (value (shifted c) n),
    ← Nat.add_mul, ← Nat.add_assoc]
  exact Nat.modEq_add_mul_modulus_iff.mpr rfl

end Columns

theorem row_modEq {x y z s c : Nat → Bool}
    (h : ∀ i, (x i).toNat + (y i).toNat + (z i).toNat = (s i).toNat + 2 * (c i).toNat) (n : Nat) :
    value s n + value (shifted c) n ≡ value x n + value y n + value z n [MOD 2 ^ n] := by
  have hsum : ∑ i ∈ range n, ((x i).toNat + (y i).toNat + (z i).toNat) * 2 ^ i
      = value x n + value y n + value z n := by
    simp only [value, Nat.add_mul, sum_add_distrib]
  rw [← hsum]
  exact columns_modEq (r := fun _ => 0) rfl (fun i => by rw [Nat.add_zero, Nat.add_zero, h]) n

end Bits
