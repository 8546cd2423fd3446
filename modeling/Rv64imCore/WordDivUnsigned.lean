import Mathlib.Data.Int.GCD
import Rv64imCore.CarrySave
import Rv64imCore.WordDivision

/-! The answers to a word division as numbers, and the operands for which DIVUW and REMUW are right.
-/

namespace Rv64imCore.Exu
set_option autoImplicit true

section Numbers
variable (a b : BitVec 64)

theorem low_toNat (x : BitVec 64) : (x.setWidth 32).toNat = x.toNat % 2 ^ 32 :=
  BitVec.toNat_setWidth ..

theorem ofInt_low (z : Int) : (BitVec.ofInt 64 z).setWidth 32 = BitVec.ofInt 32 z := by
  rw [BitVec.setWidth_eq_extractLsb' (by decide)]
  exact Bits.ofInt_extractLsb' z (by decide)

theorem ofNat_low (n : Nat) : (BitVec.ofNat 64 n).setWidth 32 = BitVec.ofNat 32 n := by
  apply BitVec.eq_of_toNat_eq
  rw [low_toNat, BitVec.toNat_ofNat, BitVec.toNat_ofNat]
  omega

theorem low_eq_zero_iff (x : BitVec 64) : x.setWidth 32 = 0#32 ↔ x.toNat % 2 ^ 32 = 0 := by
  rw [← BitVec.toNat_inj, low_toNat]
  rfl

theorem eq_zero_iff (x : BitVec 64) : x = 0#64 ↔ x.toNat = 0 := by
  rw [← BitVec.toNat_inj]
  rfl

theorem low_toInt (x : BitVec 64) : ∃ h : Int, x.toInt = h * 2 ^ 32 + (x.setWidth 32).toInt := by
  have hx := x.isLt
  refine ⟨(x.toInt - (x.setWidth 32).toInt) / 2 ^ 32, ?_⟩
  rw [BitVec.toInt_eq_toNat_cond, BitVec.toInt_eq_toNat_cond (x.setWidth 32), low_toNat]
  split <;> split <;> omega

theorem low_toInt_eq_zero_iff (x : BitVec 64) :
    (x.setWidth 32).toInt = 0 ↔ x.setWidth 32 = 0#32 := by
  rw [← BitVec.toInt_inj]
  rfl

theorem ofInt_eq_iff (y z : Int) :
    BitVec.ofInt 32 y = BitVec.ofInt 32 z ↔ y % 2 ^ 32 = z % 2 ^ 32 := by
  constructor
  · intro h
    have hy := Bits.toNat_ofInt_modEq 32 y
    rw [h] at hy
    exact hy.symm.trans (Bits.toNat_ofInt_modEq 32 z)
  · intro h
    apply Bits.eq_ofInt_of_modEq
    exact (Bits.toNat_ofInt_modEq 32 y).trans h

theorem correct_divuw_iff : Correct .divuw a b ↔
    (if b.toNat = 0 then 2 ^ 32 - 1 else a.toNat / b.toNat % 2 ^ 32)
      = if b.toNat % 2 ^ 32 = 0 then 2 ^ 32 - 1 else a.toNat % 2 ^ 32 / (b.toNat % 2 ^ 32) := by
  have hw : (WordDivOp.divuw.wide a b).setWidth 32 = if b = 0#64 then BitVec.allOnes 32
      else BitVec.ofNat 32 (a.toNat / b.toNat) := by
    change (if b = 0#64 then BitVec.allOnes 64
      else BitVec.ofNat 64 (a.toNat / b.toNat)).setWidth 32 = _
    split
    · decide
    · exact ofNat_low _
  have hlt : a.toNat % 2 ^ 32 / (b.toNat % 2 ^ 32) < 2 ^ 32 :=
    Nat.lt_of_le_of_lt (Nat.div_le_self _ _) (Nat.mod_lt _ (by decide))
  rw [correct_iff, hw, WordDivOp.word, ← BitVec.toNat_inj]
  simp only [eq_zero_iff, low_eq_zero_iff, apply_ite BitVec.toNat, BitVec.toNat_allOnes,
    BitVec.toNat_ofNat, low_toNat, Nat.mod_eq_of_lt hlt]

theorem correct_remuw_iff : Correct .remuw a b ↔
    (if b.toNat = 0 then a.toNat else a.toNat % b.toNat) % 2 ^ 32
      = if b.toNat % 2 ^ 32 = 0 then a.toNat % 2 ^ 32
        else a.toNat % 2 ^ 32 % (b.toNat % 2 ^ 32) := by
  have hw : (WordDivOp.remuw.wide a b).setWidth 32 = if b = 0#64 then a.setWidth 32
      else BitVec.ofNat 32 (a.toNat % b.toNat) := by
    change (if b = 0#64 then a else BitVec.ofNat 64 (a.toNat % b.toNat)).setWidth 32 = _
    split
    · rfl
    · exact ofNat_low _
  have hlt : a.toNat % 2 ^ 32 % (b.toNat % 2 ^ 32) < 2 ^ 32 :=
    Nat.lt_of_le_of_lt (Nat.mod_le _ _) (Nat.mod_lt _ (by decide))
  rw [correct_iff, hw, WordDivOp.word, ← BitVec.toNat_inj]
  simp only [eq_zero_iff, low_eq_zero_iff, apply_ite BitVec.toNat, BitVec.toNat_ofNat, low_toNat,
    Nat.mod_eq_of_lt hlt, apply_ite (· % 2 ^ 32)]

theorem word_divw {a b : BitVec 32} (h : b ≠ 0#32) :
    WordDivOp.divw.word a b = BitVec.ofInt 32 (a.toInt.tdiv b.toInt) := by
  rw [WordDivOp.word, if_neg h]
  split
  · next ho => rw [ho.1, ho.2]; decide
  · rfl

theorem word_remw {a b : BitVec 32} (h : b ≠ 0#32) :
    WordDivOp.remw.word a b = BitVec.ofInt 32 (a.toInt.tmod b.toInt) := by
  rw [WordDivOp.word, if_neg h]
  split
  · next ho => rw [ho.1, ho.2]; decide
  · rfl

theorem correct_divw_iff (hb : b ≠ 0#64) : Correct .divw a b ↔
    a.toInt.tdiv b.toInt % 2 ^ 32
      = (if (b.setWidth 32).toInt = 0 then -1
        else (a.setWidth 32).toInt.tdiv (b.setWidth 32).toInt) % 2 ^ 32 := by
  have hw : (WordDivOp.divw.wide a b).setWidth 32 = BitVec.ofInt 32 (a.toInt.tdiv b.toInt) := by
    rw [← ofInt_low]
    exact congrArg _ (Div.quotient_signed _ rfl hb)
  rw [correct_iff, hw]
  by_cases hz : b.setWidth 32 = 0#32
  · rw [if_pos ((low_toInt_eq_zero_iff b).mpr hz), ← ofInt_eq_iff, WordDivOp.word, if_pos hz]
    rfl
  · rw [if_neg (mt (low_toInt_eq_zero_iff b).mp hz), word_divw hz, ofInt_eq_iff]

theorem correct_remw_iff (hb : b ≠ 0#64) : Correct .remw a b ↔
    a.toInt.tmod b.toInt % 2 ^ 32
      = (if (b.setWidth 32).toInt = 0 then (a.setWidth 32).toInt
        else (a.setWidth 32).toInt.tmod (b.setWidth 32).toInt) % 2 ^ 32 := by
  have hw : (WordDivOp.remw.wide a b).setWidth 32 = BitVec.ofInt 32 (a.toInt.tmod b.toInt) := by
    rw [← ofInt_low]
    exact congrArg _ (Div.remainder_signed _ rfl hb)
  rw [correct_iff, hw]
  by_cases hz : b.setWidth 32 = 0#32
  · rw [if_pos ((low_toInt_eq_zero_iff b).mpr hz), ← ofInt_eq_iff, WordDivOp.word, if_pos hz,
      BitVec.ofInt_toInt]
  · rw [if_neg (mt (low_toInt_eq_zero_iff b).mp hz), word_remw hz, ofInt_eq_iff]

end Numbers

section Unsigned
variable {a b : BitVec 64}

theorem extended_divuw_iff : WordDivOp.divuw.extended a = true ↔ a.toNat < 2 ^ 32 := by
  change (a == (a.setWidth 32).setWidth 64) = true ↔ _
  have hlt := a.isLt
  rw [beq_iff_eq, ← BitVec.toNat_inj, BitVec.toNat_setWidth, BitVec.toNat_setWidth]
  omega

theorem extended_remuw_iff : WordDivOp.remuw.extended a = true ↔ a.toNat < 2 ^ 32 :=
  extended_divuw_iff

theorem correct_divuw_zero : Correct .divuw a 0#64 := by
  rw [correct_divuw_iff]
  rfl

theorem correct_divuw (ha : a.toNat < 2 ^ 32) (hb : b.toNat < 2 ^ 32) : Correct .divuw a b := by
  rw [correct_divuw_iff, Nat.mod_eq_of_lt ha, Nat.mod_eq_of_lt hb]
  split
  · rfl
  · exact Nat.mod_eq_of_lt (Nat.lt_of_le_of_lt (Nat.div_le_self _ _) ha)

theorem exists_halves (x : BitVec 64) : ∃ h l : Nat, x.toNat = 2 ^ 32 * h + l ∧ h < 2 ^ 32 ∧
    l < 2 ^ 32 ∧ x.toNat % 2 ^ 32 = l := by
  have hlt := x.isLt
  exact ⟨x.toNat / 2 ^ 32, x.toNat % 2 ^ 32, (Nat.div_add_mod _ _).symm, by omega,
    Nat.mod_lt _ (by decide), rfl⟩

/-- A dividend with a bit in its upper half: the quotient by a power of two takes it in, and where
only the top bit is set, that by 3. -/
theorem not_correct_divuw_dividend (ha : ¬a.toNat < 2 ^ 32) :
    ∃ b : BitVec 64, b.toNat < 2 ^ 32 ∧ ¬Correct .divuw a b := by
  obtain ⟨h, l, hx, hh, hl, hmod⟩ := exists_halves a
  by_cases hm : h % 2 ^ 31 = 0
  · refine ⟨3#64, by decide, ?_⟩
    obtain rfl : h = 2 ^ 31 := by omega
    rw [correct_divuw_iff, hmod, hx]
    change ¬(2 ^ 32 * 2 ^ 31 + l) / 3 % 2 ^ 32 = l / 3
    omega
  · refine ⟨0x80000000#64, by decide, ?_⟩
    rw [correct_divuw_iff, hmod, hx]
    change ¬(2 ^ 32 * h + l) / 2 ^ 31 % 2 ^ 32 = l / 2 ^ 31
    omega

/-- A divisor with a bit in its upper half is above every extended dividend. -/
theorem not_correct_divuw_divisor (hb : ¬b.toNat < 2 ^ 32) :
    ∃ a : BitVec 64, a.toNat < 2 ^ 32 ∧ ¬Correct .divuw a b := by
  by_cases hz : b.toNat % 2 ^ 32 = 0
  · refine ⟨0#64, by decide, ?_⟩
    rw [correct_divuw_iff, if_neg (by omega), if_pos hz]
    simp
  · refine ⟨BitVec.ofNat 64 (b.toNat % 2 ^ 32), ?_, ?_⟩
    · rw [BitVec.toNat_ofNat]; omega
    · have hn : (BitVec.ofNat 64 (b.toNat % 2 ^ 32)).toNat = b.toNat % 2 ^ 32 := by
        rw [BitVec.toNat_ofNat]; omega
      rw [correct_divuw_iff, if_neg (by omega), if_neg hz, hn, Nat.mod_mod,
        Nat.div_self (by omega), Nat.div_eq_of_lt (by omega)]
      decide

theorem correct_remuw_zero (hb : b.toNat % 2 ^ 32 = 0) : Correct .remuw a b := by
  rw [correct_remuw_iff, if_pos hb]
  split
  · rfl
  · exact Nat.mod_mod_of_dvd _ (Nat.dvd_of_mod_eq_zero hb)

theorem correct_remuw (ha : a.toNat < 2 ^ 32) (hb : b.toNat < 2 ^ 32) : Correct .remuw a b := by
  rw [correct_remuw_iff, Nat.mod_eq_of_lt ha, Nat.mod_eq_of_lt hb]
  split
  · exact Nat.mod_eq_of_lt ha
  · exact Nat.mod_eq_of_lt (Nat.lt_of_le_of_lt (Nat.mod_le _ _) ha)

/-- `2^32` is 1 modulo `2^32 - 1` and 2 modulo `2^31 - 1`: one of the two sees the upper half. -/
theorem not_correct_remuw_dividend (ha : ¬a.toNat < 2 ^ 32) :
    ∃ b : BitVec 64, b.toNat < 2 ^ 32 ∧ ¬Correct .remuw a b := by
  obtain ⟨h, l, hx, hh, hl, hmod⟩ := exists_halves a
  by_cases hm : h = 2 ^ 32 - 1
  · refine ⟨0x7fffffff#64, by decide, ?_⟩
    rw [correct_remuw_iff, hmod, hx, hm]
    change ¬(2 ^ 32 * (2 ^ 32 - 1) + l) % (2 ^ 31 - 1) % 2 ^ 32 = l % (2 ^ 31 - 1)
    rw [Nat.mod_eq_of_lt (a := _ % (2 ^ 31 - 1)) (by omega)]
    omega
  · refine ⟨0xffffffff#64, by decide, ?_⟩
    rw [correct_remuw_iff, hmod, hx]
    change ¬(2 ^ 32 * h + l) % (2 ^ 32 - 1) % 2 ^ 32 = l % (2 ^ 32 - 1)
    rw [Nat.mod_eq_of_lt (a := _ % (2 ^ 32 - 1)) (by omega)]
    omega

theorem not_correct_remuw_divisor (hb : ¬b.toNat < 2 ^ 32) (hz : b.toNat % 2 ^ 32 ≠ 0) :
    ∃ a : BitVec 64, a.toNat < 2 ^ 32 ∧ ¬Correct .remuw a b := by
  have hn : (BitVec.ofNat 64 (b.toNat % 2 ^ 32)).toNat = b.toNat % 2 ^ 32 := by
    rw [BitVec.toNat_ofNat]; omega
  refine ⟨BitVec.ofNat 64 (b.toNat % 2 ^ 32), by omega, ?_⟩
  rw [correct_remuw_iff, if_neg (by omega), if_neg hz, hn, Nat.mod_mod, Nat.mod_self,
    Nat.mod_eq_of_lt (a := b.toNat % 2 ^ 32) (b := b.toNat) (by omega), Nat.mod_mod]
  exact hz

end Unsigned

end Rv64imCore.Exu
