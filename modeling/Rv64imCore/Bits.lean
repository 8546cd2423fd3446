import Mathlib.Algebra.Group.Int.Defs
import Mathlib.Algebra.Group.Nat.Defs
import Mathlib.Logic.Function.Basic

namespace Bits
set_option autoImplicit true

/-- The word whose bit `i` is `f i`. -/
def ofFn (f : Nat → Bool) : (w : Nat) → BitVec w
  | 0 => 0#0
  | w + 1 => BitVec.cons (f w) (ofFn f w)

@[simp] theorem getLsbD_ofFn (f : Nat → Bool) (w i : Nat) :
    (ofFn f w).getLsbD i = (decide (i < w) && f i) := by
  induction w with
  | zero => simp
  | succ w ih =>
    rw [ofFn, BitVec.getLsbD_cons, ih]
    by_cases hi : i = w
    · subst hi; simp
    · have hlt : i < w + 1 ↔ i < w := by omega
      simp [hi, hlt]

theorem fill_append (x : BitVec w) : BitVec.fill n x.msb ++ x = x.signExtend (n + w) := by
  apply BitVec.eq_of_getLsbD_eq
  intro k hk
  rw [BitVec.getLsbD_append, BitVec.getLsbD_signExtend, BitVec.getLsbD_fill]
  by_cases hlt : k < w
  · simp [hlt, hk]
  · have hk' : k - w < n := by omega
    simp [hlt, hk, hk']

theorem fill_append_low (x : BitVec w) : BitVec.fill 32 (x.getLsbD 31) ++ x.extractLsb' 0 32
    = (x.extractLsb' 0 32).signExtend 64 := by
  rw [← fill_append, BitVec.msb_eq_getLsbD_last]
  simp

theorem signExtend_ofInt {x : Int} (hl : -2 ^ n ≤ x) (hu : x < 2 ^ n) :
    (BitVec.ofInt (n + 1) x).signExtend v = BitVec.ofInt v x := by
  rw [BitVec.signExtend, BitVec.toInt_ofInt, Int.bmod_eq_of_le] <;> rw [Nat.pow_succ] <;>
    push_cast <;> omega

theorem clear_low (x : BitVec (n + j)) :
    x.extractLsb' j n ++ 0#j = x &&& ~~~BitVec.ofNat (n + j) (2 ^ j - 1) := by
  apply BitVec.eq_of_getLsbD_eq
  intro k hk
  have hm : (BitVec.ofNat (n + j) (2 ^ j - 1)).getLsbD k = decide (k < j) := by
    rw [BitVec.getLsbD_ofNat, Nat.testBit_two_pow_sub_one, decide_eq_true hk, Bool.true_and]
  rw [BitVec.getLsbD_append, BitVec.getLsbD_and, BitVec.getLsbD_not, hm]
  by_cases hlt : k < j
  · simp [hlt]
  · have hk' : k - j < n := by omega
    have hadd : j + (k - j) = k := by omega
    simp [hlt, hk, hk', hadd]

theorem and_not_one {x : BitVec (n + 1)} (h : x.getLsbD 0 = false) : x &&& ~~~1#(n + 1) = x := by
  apply BitVec.eq_of_getLsbD_eq
  intro k hk
  rw [BitVec.getLsbD_and, BitVec.getLsbD_not, BitVec.getLsbD_one]
  cases k with
  | zero => rw [h, Bool.false_and]
  | succ k => simp [hk]

end Bits
