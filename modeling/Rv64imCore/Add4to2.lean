import Rv64imCore.BoothMul
import Rv64imCore.CarrySave

/-! `rv64im_core_add_4to2`: two chained rows of full adders leave two words with the sum of four. -/

namespace Rv64imCore.Add4to2
set_option autoImplicit true

open Bits

variable (i1 i2 i3 i4 : BitVec w)

def tmpO1 (i : Nat) : Bool := addFullSum (i1.getLsbD i) (i2.getLsbD i) (i3.getLsbD i)
def tmpO2 (i : Nat) : Bool := addFullCo (i1.getLsbD i) (i2.getLsbD i) (i3.getLsbD i)

def tmpI1 (i : Nat) : Bool := tmpO1 i1 i2 i3 i
def tmpI2 : Nat → Bool
  | 0 => false
  | i + 1 => tmpO2 i1 i2 i3 i

def sum (i : Nat) : Bool := addFullSum (tmpI1 i1 i2 i3 i) (tmpI2 i1 i2 i3 i) (i4.getLsbD i)
def tmpCo (i : Nat) : Bool := addFullCo (tmpI1 i1 i2 i3 i) (tmpI2 i1 i2 i3 i) (i4.getLsbD i)

def o1 : BitVec w := ofFn (sum i1 i2 i3 i4) w
/-- `{tmp_co[BITS-2:0], 1'b0}`. -/
def o2 : BitVec w := ofFn (shifted (tmpCo i1 i2 i3 i4)) w

theorem tmpI2_eq : tmpI2 i1 i2 i3 = shifted (tmpO2 i1 i2 i3) := by
  funext i
  cases i with
  | zero => rfl
  | succ i => rfl

/-- At every width the two outputs add up to the four inputs, modulo `2 ^ w`. -/
theorem outputs_sum : o1 i1 i2 i3 i4 + o2 i1 i2 i3 i4 = i1 + i2 + i3 + i4 := by
  have hv : ∀ x : BitVec w, value x.getLsbD w = x.toNat := by
    intro x
    rw [value_getLsbD, Nat.mod_eq_of_lt x.isLt]
  have h1 : value (tmpO1 i1 i2 i3) w + value (tmpI2 i1 i2 i3) w
      ≡ i1.toNat + i2.toNat + i3.toNat [MOD 2 ^ w] := by
    have h := row_modEq (fun i => addFull_eq (i1.getLsbD i) (i2.getLsbD i) (i3.getLsbD i)) w
    rw [hv, hv, hv] at h
    rw [tmpI2_eq]
    exact h
  have h2 : value (sum i1 i2 i3 i4) w + value (shifted (tmpCo i1 i2 i3 i4)) w
      ≡ value (tmpO1 i1 i2 i3) w + value (tmpI2 i1 i2 i3) w + i4.toNat [MOD 2 ^ w] := by
    have h := row_modEq
      (fun i => addFull_eq (tmpI1 i1 i2 i3 i) (tmpI2 i1 i2 i3 i) (i4.getLsbD i)) w
    rw [hv] at h
    exact h
  apply BitVec.eq_of_toNat_eq
  simp only [o1, o2, BitVec.toNat_add, toNat_ofFn, Nat.mod_add_mod]
  exact h2.trans (h1.add_right i4.toNat)

example : o1 (13#4) 11#4 7#4 9#4 + o2 (13#4) 11#4 7#4 9#4 = 8#4 := by decide

end Rv64imCore.Add4to2
