import Rv64imCore.Divider
import Rv64imCore.Restoring

/-! One trial subtraction of the divider, and the architecture's DIV, DIVU, REM and REMU. -/

namespace Rv64imCore.Div
set_option autoImplicit true

theorem addFull_toNat (s : State) :
    (addFull s).toNat = (2 ^ 65 + s.remReg.toNat - s.divReg.toNat) % 2 ^ 65 := by
  have hr := s.remReg.isLt
  have hd := s.divReg.isLt
  have hz (x : BitVec 64) : (0#1 ++ x).toNat = x.toNat := by
    rw [BitVec.toNat_append]; simp
  rw [addFull, BitVec.toNat_add, BitVec.toNat_add, BitVec.toNat_not, hz, hz]
  simp only [BitVec.ofNat_eq_ofNat, BitVec.toNat_ofNat]
  omega

theorem addSign_eq (s : State) :
    (!addSign s) = Restoring.bit s.divReg.toNat s.remReg.toNat := by
  have hr := s.remReg.isLt
  have hd := s.divReg.isLt
  rw [addSign, BitVec.getLsbD, addFull_toNat, Restoring.bit, Nat.testBit_eq_decide_div_mod_eq,
    ← decide_not, decide_eq_decide]
  omega

theorem subRes_toNat (s : State) :
    (subRes s).toNat = Restoring.rest s.divReg.toNat s.remReg.toNat := by
  have hr := s.remReg.isLt
  have hd := s.divReg.isLt
  have ha := addSign_eq s
  rw [subRes, Restoring.rest]
  by_cases h : s.divReg.toNat ≤ s.remReg.toNat
  · have hs : addSign s = false := by
      rw [Restoring.bit, decide_eq_true h] at ha
      simpa using ha
    rw [if_pos h, hs, if_neg (by decide), BitVec.extractLsb'_toNat, addFull_toNat,
      Nat.shiftRight_zero]
    omega
  · have hs : addSign s = true := by
      rw [Restoring.bit, decide_eq_false h] at ha
      simpa using ha
    rw [if_neg h, hs, if_pos rfl]

theorem quotientNs_toNat (s : State) (h : s.resReg.toNat < 2 ^ 63) : (quotientNs s).toNat
    = 2 * s.resReg.toNat + (Restoring.bit s.divReg.toNat s.remReg.toNat).toNat := by
  have hb (c : Bool) : (BitVec.ofBool c).toNat = c.toNat := by cases c <;> rfl
  have hlt : (!addSign s).toNat < 2 ^ 1 := Bool.toNat_lt _
  rw [quotientNs, BitVec.toNat_append, hb, Nat.shiftLeft_eq, ← addSign_eq, Nat.mul_comm,
    ← Nat.two_pow_add_eq_or_of_lt hlt, BitVec.extractLsb'_toNat, Nat.shiftRight_zero,
    Nat.mod_eq_of_lt h, Nat.pow_one]

/-! The architecture's DIV, DIVU, REM and REMU of the two operands. -/

def overflows (j : In) : Bool := j.rs1 == BitVec.intMin 64 && j.rs2 == BitVec.allOnes 64

def quotient (j : In) : BitVec 64 :=
  if j.rs2 = 0#64 then BitVec.allOnes 64
  else if j.isSigned then
    if overflows j then BitVec.intMin 64 else BitVec.ofInt 64 (j.rs1.toInt.tdiv j.rs2.toInt)
  else BitVec.ofNat 64 (j.rs1.toNat / j.rs2.toNat)

def remainder (j : In) : BitVec 64 :=
  if j.rs2 = 0#64 then j.rs1
  else if j.isSigned then
    if overflows j then 0#64 else BitVec.ofInt 64 (j.rs1.toInt.tmod j.rs2.toInt)
  else BitVec.ofNat 64 (j.rs1.toNat % j.rs2.toNat)

/-- The sign the divider latches for an operand, and a word with that sign put back. -/
def negative (isSigned : Bool) (x : BitVec 64) : Bool := isSigned && x.getLsbD 63
def signed (neg : Bool) (x : BitVec 64) : BitVec 64 := if neg then -x else x

theorem signed_absVal (b : Bool) (x : BitVec 64) : signed (negative b x) (absVal b x) = x := by
  unfold signed absVal negative
  cases b && x.getLsbD 63 with
  | true =>
    change -(~~~x + 1#64) = x
    rw [← BitVec.neg_eq_not_add, BitVec.neg_neg]
  | false => rfl

theorem absVal_eq_zero_iff (b : Bool) (x : BitVec 64) : absVal b x = 0#64 ↔ x = 0#64 := by
  constructor
  · intro h
    rw [← signed_absVal b x, h]
    cases negative b x <;> rfl
  · intro h
    rw [h]
    cases b <;> rfl

theorem toInt_absVal (x : BitVec 64) :
    x.toInt =
      if negative true x then -((absVal true x).toNat : Int) else (absVal true x).toNat := by
  have hm : negative true x = x.msb := (BitVec.msb_eq_getLsbD_last x).symm
  have ha : absVal true x = if negative true x then -x else x := by
    rw [BitVec.neg_eq_not_add]; rfl
  rw [ha, hm, BitVec.toInt_eq_msb_cond]
  cases h : x.msb with
  | false => rw [if_neg (by decide), if_neg (by decide), if_neg (by decide)]
  | true =>
    have hx := x.isLt
    have h63 := BitVec.msb_eq_true_iff_two_mul_ge.mp h
    rw [if_pos rfl, if_pos rfl, if_pos rfl, BitVec.toNat_neg]
    omega

/-- The overflow is what the low 64 bits of the quotient make of it. -/
theorem quotient_signed (j : In) (hs : j.isSigned = true) (h : j.rs2 ≠ 0#64) :
    quotient j = BitVec.ofInt 64 (j.rs1.toInt.tdiv j.rs2.toInt) := by
  rw [quotient, if_neg h, hs, if_pos rfl]
  cases hov : overflows j with
  | false => rfl
  | true =>
    simp only [overflows, Bool.and_eq_true, beq_iff_eq] at hov
    rw [hov.1, hov.2]
    decide

theorem remainder_signed (j : In) (hs : j.isSigned = true) (h : j.rs2 ≠ 0#64) :
    remainder j = BitVec.ofInt 64 (j.rs1.toInt.tmod j.rs2.toInt) := by
  rw [remainder, if_neg h, hs, if_pos rfl]
  cases hov : overflows j with
  | false => rfl
  | true =>
    simp only [overflows, Bool.and_eq_true, beq_iff_eq] at hov
    rw [hov.1, hov.2]
    decide

/-- Quotient and remainder through the magnitudes, as the divider computes them. -/
theorem quotient_eq (j : In) (h : rs2Abs j ≠ 0#64) :
    quotient j = signed (negative j.isSigned j.rs1 ^^ negative j.isSigned j.rs2)
      (BitVec.ofNat 64 ((rs1Abs j).toNat / (rs2Abs j).toNat)) := by
  have h2 : j.rs2 ≠ 0#64 := fun h' => h ((absVal_eq_zero_iff _ _).mpr h')
  cases hs : j.isSigned with
  | false =>
    rw [quotient, if_neg h2, rs1Abs, rs2Abs, hs]
    rfl
  | true =>
    rw [quotient_signed j hs h2, rs1Abs, rs2Abs, hs, toInt_absVal j.rs1, toInt_absVal j.rs2]
    cases negative true j.rs1 <;> cases negative true j.rs2 <;>
      simp [signed, Int.neg_tdiv, Int.tdiv_neg, ← Int.natCast_ediv, BitVec.ofInt_neg]

theorem remainder_eq (j : In) (h : rs2Abs j ≠ 0#64) :
    remainder j = signed (negative j.isSigned j.rs1)
      (BitVec.ofNat 64 ((rs1Abs j).toNat % (rs2Abs j).toNat)) := by
  have h2 : j.rs2 ≠ 0#64 := fun h' => h ((absVal_eq_zero_iff _ _).mpr h')
  cases hs : j.isSigned with
  | false =>
    rw [remainder, if_neg h2, rs1Abs, rs2Abs, hs]
    rfl
  | true =>
    have hmod (a b : Nat) : BitVec.ofInt 64 ((a : Int).tmod b) = BitVec.ofNat 64 (a % b) := by
      rw [← Int.ofNat_tmod, BitVec.ofInt_natCast]
    rw [remainder_signed j hs h2, rs1Abs, rs2Abs, hs, toInt_absVal j.rs1, toInt_absVal j.rs2]
    cases negative true j.rs1 <;> cases negative true j.rs2 <;>
      simp [signed, Int.neg_tmod, Int.tmod_neg, hmod, BitVec.ofInt_neg]

end Rv64imCore.Div
