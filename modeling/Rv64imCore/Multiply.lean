import Mathlib.Algebra.BigOperators.ModEq
import Mathlib.Algebra.BigOperators.Ring.Finset
import Mathlib.Tactic.LinearCombination
import Rv64imCore.CarrySave
import Rv64imCore.Exu

/-! The Booth multiplier adds up to the product, and MEM selects the result of the instruction. -/

namespace Rv64imCore
set_option autoImplicit true

open Finset

namespace Compress34to2

/-- How many of the first `n` bits are set. -/
def ones (x : Nat → Bool) (n : Nat) : Nat := ∑ k ∈ range n, (x k).toNat

theorem ones_stage (x : Nat → Bool) (n : Nat) :
    ones x (3 * n) = ones (fun k => sum3 x (3 * k)) n + 2 * ones (fun k => co3 x (3 * k)) n := by
  induction n with
  | zero => rfl
  | succ n ih =>
    have hs : ones x (3 * (n + 1))
        = ones x (3 * n) + ((x (3 * n)).toNat + (x (3 * n + 1)).toNat + (x (3 * n + 2)).toNat) := by
      rw [ones, ones, Nat.mul_succ, sum_range_succ, sum_range_succ, sum_range_succ]
      omega
    rw [hs, ih, addFull_eq]
    simp only [ones, sum_range_succ, sum3, co3]
    omega

section Stages
variable (inp ci : Nat → Bool)

/-! Each stage takes its own carries in and leaves its full adders' carries out. -/

theorem ones_stage0 : ones inp 34 + ones ci 11
    = ones (inTmp1 inp ci) 23 + 2 * ones (fun k => co3 inp (3 * k)) 11 := by
  have hs : ones inp 33 = _ := ones_stage inp 11
  have ht : ones (inTmp1 inp ci) 23
      = ones ci 11 + (inp 33).toNat + ones (fun k => sum3 inp (3 * k)) 11 := by
    simp [ones, sum_range_succ, inTmp1, Nat.add_assoc]
  have hi : ones inp 34 = ones inp 33 + (inp 33).toNat := sum_range_succ _ _
  omega

theorem ones_stage1 : ones (inTmp1 inp ci) 23 + ones (fun k => ci (11 + k)) 7
    = ones (inTmp2 inp ci) 16 + 2 * ones (fun k => co3 (inTmp1 inp ci) (3 * k)) 7 := by
  have hs : ones (inTmp1 inp ci) 21 = _ := ones_stage (inTmp1 inp ci) 7
  have ht : ones (inTmp2 inp ci) 16 = ones (fun k => ci (11 + k)) 7
      + (inTmp1 inp ci 21).toNat + (inTmp1 inp ci 22).toNat
      + ones (fun k => sum3 (inTmp1 inp ci) (3 * k)) 7 := by
    simp [ones, sum_range_succ, inTmp2, Nat.add_assoc]
  have hi : ones (inTmp1 inp ci) 23 = ones (inTmp1 inp ci) 21
      + (inTmp1 inp ci 21).toNat + (inTmp1 inp ci 22).toNat := by
    rw [ones, sum_range_succ, sum_range_succ]; rfl
  omega

theorem ones_stage2 : ones (inTmp2 inp ci) 16 + ones (fun k => ci (18 + k)) 5
    = ones (inTmp3 inp ci) 11 + 2 * ones (fun k => co3 (inTmp2 inp ci) (3 * k)) 5 := by
  have hs : ones (inTmp2 inp ci) 15 = _ := ones_stage (inTmp2 inp ci) 5
  have ht : ones (inTmp3 inp ci) 11 = ones (fun k => ci (18 + k)) 5
      + (inTmp2 inp ci 15).toNat + ones (fun k => sum3 (inTmp2 inp ci) (3 * k)) 5 := by
    simp [ones, sum_range_succ, inTmp3, Nat.add_assoc]
  have hi : ones (inTmp2 inp ci) 16 = ones (inTmp2 inp ci) 15 + (inTmp2 inp ci 15).toNat :=
    sum_range_succ _ _
  omega

theorem ones_stage3 : ones (inTmp3 inp ci) 11 + ones (fun k => ci (23 + k)) 3
    = ones (inTmp4 inp ci) 8 + 2 * ones (fun k => co3 (inTmp3 inp ci) (3 * k)) 3 := by
  have hs : ones (inTmp3 inp ci) 9 = _ := ones_stage (inTmp3 inp ci) 3
  have ht : ones (inTmp4 inp ci) 8 = ones (fun k => ci (23 + k)) 3
      + (inTmp3 inp ci 9).toNat + (inTmp3 inp ci 10).toNat
      + ones (fun k => sum3 (inTmp3 inp ci) (3 * k)) 3 := by
    simp [ones, sum_range_succ, inTmp4, Nat.add_assoc]
  have hi : ones (inTmp3 inp ci) 11 = ones (inTmp3 inp ci) 9
      + (inTmp3 inp ci 9).toNat + (inTmp3 inp ci 10).toNat := by
    rw [ones, sum_range_succ, sum_range_succ]; rfl
  omega

theorem ones_stage4 : ones (inTmp4 inp ci) 8 + ones (fun k => ci (26 + k)) 2
    = ones (inTmp5 inp ci) 6 + 2 * ones (fun k => co3 (inTmp4 inp ci) (3 * k)) 2 := by
  have hs : ones (inTmp4 inp ci) 6 = _ := ones_stage (inTmp4 inp ci) 2
  have ht : ones (inTmp5 inp ci) 6 = ones (fun k => ci (26 + k)) 2
      + (inTmp4 inp ci 6).toNat + (inTmp4 inp ci 7).toNat
      + ones (fun k => sum3 (inTmp4 inp ci) (3 * k)) 2 := by
    simp [ones, sum_range_succ, inTmp5, Nat.add_assoc]
  have hi : ones (inTmp4 inp ci) 8 = ones (inTmp4 inp ci) 6
      + (inTmp4 inp ci 6).toNat + (inTmp4 inp ci 7).toNat := by
    rw [ones, sum_range_succ, sum_range_succ]; rfl
  omega

theorem ones_stage5 : ones (inTmp5 inp ci) 6 + ones (fun k => ci (28 + k)) 2
    = ones (inTmp6 inp ci) 4 + 2 * ones (fun k => co3 (inTmp5 inp ci) (3 * k)) 2 := by
  have hs : ones (inTmp5 inp ci) 6 = _ := ones_stage (inTmp5 inp ci) 2
  have ht : ones (inTmp6 inp ci) 4 = ones (fun k => ci (28 + k)) 2
      + ones (fun k => sum3 (inTmp5 inp ci) (3 * k)) 2 := by
    simp [ones, sum_range_succ, inTmp6, Nat.add_assoc]
  omega

theorem ones_stage6 : ones (inTmp6 inp ci) 4 + (ci 30).toNat
    = ones (inTmp7 inp ci) 3 + 2 * ones (fun k => co3 (inTmp6 inp ci) (3 * k)) 1 := by
  have hs : ones (inTmp6 inp ci) 3 = _ := ones_stage (inTmp6 inp ci) 1
  have ht : ones (inTmp7 inp ci) 3 = (ci 30).toNat + (inTmp6 inp ci 3).toNat
      + ones (fun k => sum3 (inTmp6 inp ci) (3 * k)) 1 := by
    simp [ones, sum_range_succ, inTmp7, Nat.add_assoc]
  have hi : ones (inTmp6 inp ci) 4 = ones (inTmp6 inp ci) 3 + (inTmp6 inp ci 3).toNat :=
    sum_range_succ _ _
  omega

theorem ones_stage7 : ones (inTmp7 inp ci) 3 = (s inp ci).toNat + 2 * (c inp ci).toNat := by
  have hs : ones (inTmp7 inp ci) 3 = _ := ones_stage (inTmp7 inp ci) 1
  simpa [ones, s, c] using hs

theorem ones_ci : ones ci 31 = ones ci 11 + ones (fun k => ci (11 + k)) 7
    + ones (fun k => ci (18 + k)) 5 + ones (fun k => ci (23 + k)) 3
    + ones (fun k => ci (26 + k)) 2 + ones (fun k => ci (28 + k)) 2 + (ci 30).toNat := by
  simp [ones, sum_range_succ, Nat.add_assoc]

theorem ones_co : ones (co inp ci) 31 = ones (fun k => co3 inp (3 * k)) 11
    + ones (fun k => co3 (inTmp1 inp ci) (3 * k)) 7
    + ones (fun k => co3 (inTmp2 inp ci) (3 * k)) 5
    + ones (fun k => co3 (inTmp3 inp ci) (3 * k)) 3
    + ones (fun k => co3 (inTmp4 inp ci) (3 * k)) 2
    + ones (fun k => co3 (inTmp5 inp ci) (3 * k)) 2
    + ones (fun k => co3 (inTmp6 inp ci) (3 * k)) 1 := by
  simp [ones, sum_range_succ, co, Nat.add_assoc]

/-- The compressor keeps the count: its 65 inputs are its sum bit and twice its carries. -/
theorem ones_compress : ones inp 34 + ones ci 31
    = (s inp ci).toNat + 2 * ((c inp ci).toNat + ones (co inp ci) 31) := by
  have h0 := ones_stage0 inp ci
  have h1 := ones_stage1 inp ci
  have h2 := ones_stage2 inp ci
  have h3 := ones_stage3 inp ci
  have h4 := ones_stage4 inp ci
  have h5 := ones_stage5 inp ci
  have h6 := ones_stage6 inp ci
  have h7 := ones_stage7 inp ci
  rw [ones_ci, ones_co]
  omega

end Stages

end Compress34to2

namespace BoothMul

section Digits
variable (rs1 rs2 : BitVec 65)

/-- The Booth digit of weight `2^(2i+1)`. -/
def digit (i : Nat) : Int :=
  (rs2.getLsbD (2 * i)).toNat + (rs2.getLsbD (2 * i + 1)).toNat
    - 2 * (rs2.getLsbD (2 * i + 2)).toNat

theorem booth_eq (i : Nat) : booth rs2 i = BitVec.ofNat 3 (4 * (rs2.getLsbD (2 * i + 2)).toNat
    + 2 * (rs2.getLsbD (2 * i + 1)).toNat + (rs2.getLsbD (2 * i)).toNat) := by
  apply BitVec.eq_of_getLsbD_eq
  intro k hk
  rw [booth, BitVec.getLsbD_extractLsb']
  obtain rfl | rfl | rfl : k = 0 ∨ k = 1 ∨ k = 2 := by omega
  all_goals
    change rs2.getLsbD _ = _
    cases rs2.getLsbD (2 * i + 2) <;> cases rs2.getLsbD (2 * i + 1) <;>
      cases rs2.getLsbD (2 * i) <;> rfl

theorem sign_append : rs1.extractLsb' 64 1 ++ rs1 = rs1.signExtend 66 := by
  have hs : rs1.extractLsb' 64 1 = BitVec.fill 1 rs1.msb := by
    apply BitVec.eq_of_getLsbD_eq
    intro k hk
    obtain rfl : k = 0 := by omega
    simp [BitVec.msb_eq_getLsbD_last]
  rw [hs, Bits.fill_append]

theorem toInt_not_eq : (~~~rs1).toInt = -rs1.toInt - 1 := by
  have h := rs1.isLt
  simp only [BitVec.toInt_eq_toNat_cond, BitVec.toNat_not]
  split <;> split <;> omega

/-- A Booth row, with the one that completes its negation, is the digit times `rs1`. -/
theorem toInt_boothRes (i : Nat) :
    (boothRes rs1 rs2 i).toInt + (boothAdd1 rs2 i).toNat = digit rs2 i * rs1.toInt := by
  have hx : (rs1.extractLsb' 64 1 ++ rs1).toInt = rs1.toInt := by
    rw [sign_append]; exact BitVec.toInt_signExtend_of_le (by decide)
  have hnx : (~~~(rs1.extractLsb' 64 1) ++ ~~~rs1).toInt = -rs1.toInt - 1 := by
    have he : ~~~(rs1.extractLsb' 64 1) = (~~~rs1).extractLsb' 64 1 := by
      apply BitVec.eq_of_getLsbD_eq
      intro k hk
      obtain rfl : k = 0 := by omega
      simp
    rw [he, sign_append, BitVec.toInt_signExtend_of_le (by decide), toInt_not_eq]
  have h2x : (rs1 ++ 0#1).toInt = 2 * rs1.toInt := by
    rw [BitVec.toInt_append]; simp
  have hn2x : (~~~rs1 ++ 1#1).toInt = -2 * rs1.toInt - 1 := by
    rw [BitVec.toInt_append, toInt_not_eq]; simp; omega
  rw [boothRes, boothAdd1, digit, booth_eq]
  cases rs2.getLsbD (2 * i + 2) <;> cases rs2.getLsbD (2 * i + 1) <;>
    cases rs2.getLsbD (2 * i) <;> simp [-BitVec.toInt_or, hx, hnx, h2x, hn2x]

/-- The digits spell `rs2` when its lowest bit is taken off. -/
theorem digits_sum (n : Nat) :
    ∑ i ∈ range n, digit rs2 i * 2 ^ (2 * i + 1) - (rs2.getLsbD 0).toNat
      = Bits.value rs2.getLsbD (2 * n) - (rs2.getLsbD (2 * n)).toNat * 2 ^ (2 * n) := by
  induction n with
  | zero => simp
  | succ n ih =>
    rw [sum_range_succ, Nat.mul_succ, Bits.value_succ, Bits.value_succ, digit]
    push_cast
    linear_combination ih

theorem digits_toInt :
    ∑ i ∈ range 32, digit rs2 i * 2 ^ (2 * i + 1) - (rs2.getLsbD 0).toNat = rs2.toInt := by
  have hv : Bits.value rs2.getLsbD (2 * 32 + 1) = rs2.toNat := by
    rw [Bits.value_getLsbD]; exact Nat.mod_eq_of_lt rs2.isLt
  have hm : rs2.msb = rs2.getLsbD (2 * 32) := BitVec.msb_eq_getLsbD_last rs2
  rw [Bits.value_succ] at hv
  rw [digits_sum, BitVec.toInt_eq_msb_cond, hm, ← hv]
  cases rs2.getLsbD (2 * 32) with
  | false => rw [if_neg (by decide), Bool.toNat_false]; push_cast; ring
  | true => rw [if_pos rfl, Bool.toNat_true]; push_cast; ring

end Digits

section Rows
variable (rs1 rs2 : BitVec 65)

theorem value_row (j : Nat) (h : j < 32) :
    (Bits.value (partialData rs1 rs2 j) 128 : Int)
      ≡ (boothRes rs1 rs2 j).toInt * 2 ^ (2 * j + 1) [ZMOD 2 ^ 128] := by
  have he : partialData rs1 rs2 j
      = ((boothRes rs1 rs2 j).signExtend 130 <<< (2 * j + 1)).getLsbD := by
    funext k
    rw [partialData, if_pos h]
  rw [he]
  exact Bits.value_shift_modEq _ _ (by decide) (by decide)

/-- The row of `-y0x`, less the one that `partialAdd1` holds for it. -/
theorem value_negated :
    (Bits.value (partialData rs1 rs2 32) 128 : Int)
      ≡ (rs2.getLsbD 0).toNat * (-rs1.toInt - 1) [ZMOD 2 ^ 128] := by
  have he : partialData rs1 rs2 32 = (if rs2.getLsbD 0
      then BitVec.fill 65 (!rs1.getLsbD 64) ++ ~~~rs1 else 0#130).getLsbD := by
    funext k
    simp [partialData]
  rw [he]
  refine (Bits.value_modEq _ (by decide)).trans ?_
  cases rs2.getLsbD 0 with
  | false => simp
  | true =>
    have hb : (!rs1.getLsbD 64) = (~~~rs1).getLsbD 64 := by simp
    rw [if_pos rfl, hb, ← BitVec.msb_eq_getLsbD_last, Bits.fill_append,
      BitVec.toInt_signExtend_of_le (by decide), toInt_not_eq]
    simp

theorem value_add1 (n : Nat) (h : n ≤ 32) : Bits.value (partialAdd1 rs2) (2 * n + 1)
    = (rs2.getLsbD 0).toNat + ∑ i ∈ range n, (boothAdd1 rs2 i).toNat * 2 ^ (2 * i + 1) := by
  induction n with
  | zero => simp [Bits.value_succ, partialAdd1]
  | succ n ih =>
    have h1 : partialAdd1 rs2 (2 * n + 1) = boothAdd1 rs2 n := by
      have hm : (2 * n + 1) % 2 = 1 := by omega
      have hd : (2 * n + 1) / 2 = n := by omega
      rw [partialAdd1, if_neg (by omega), if_pos (by omega), hm, hd]
      rfl
    have h2 : partialAdd1 rs2 (2 * n + 2) = false := by
      have hm : (2 * n + 2) % 2 = 0 := by omega
      rw [partialAdd1, if_neg (by omega), hm]
      simp
    rw [Nat.mul_succ, Bits.value_succ, Bits.value_succ, ih (by omega), sum_range_succ, h1, h2]
    simp [Nat.add_assoc]

theorem value_add1_all : Bits.value (partialData rs1 rs2 33) 128
    = (rs2.getLsbD 0).toNat + ∑ i ∈ range 32, (boothAdd1 rs2 i).toNat * 2 ^ (2 * i + 1) := by
  have he : partialData rs1 rs2 33 = partialAdd1 rs2 := by
    funext k
    simp [partialData]
  have hz : ∀ m, Bits.value (partialAdd1 rs2) (65 + m) = Bits.value (partialAdd1 rs2) 65 := by
    intro m
    induction m with
    | zero => rfl
    | succ m ih =>
      have hk : partialAdd1 rs2 (65 + m) = false := by
        rw [partialAdd1, if_neg (by omega), if_neg (by omega)]
      rw [← Nat.add_assoc, Bits.value_succ, ih, hk]
      simp
  rw [he, show (128 : Nat) = 65 + 63 from rfl, hz]
  exact value_add1 rs2 32 (Nat.le_refl _)

theorem rows_sum : ((∑ j ∈ range 34, Bits.value (partialData rs1 rs2 j) 128 : Nat) : Int)
    ≡ rs1.toInt * rs2.toInt [ZMOD 2 ^ 128] := by
  have hb : ((∑ j ∈ range 32, Bits.value (partialData rs1 rs2 j) 128 : Nat) : Int)
      ≡ ∑ j ∈ range 32, (boothRes rs1 rs2 j).toInt * 2 ^ (2 * j + 1) [ZMOD 2 ^ 128] := by
    push_cast
    exact Int.ModEq.sum fun j hj => value_row rs1 rs2 j (mem_range.mp hj)
  have hd : ∑ j ∈ range 32, (boothRes rs1 rs2 j).toInt * 2 ^ (2 * j + 1)
      + ∑ j ∈ range 32, ((boothAdd1 rs2 j).toNat : Int) * 2 ^ (2 * j + 1)
      = (∑ j ∈ range 32, digit rs2 j * 2 ^ (2 * j + 1)) * rs1.toInt := by
    rw [← sum_add_distrib, sum_mul]
    refine sum_congr rfl fun j _ => ?_
    rw [← add_mul, toInt_boothRes]
    ring
  have hy := digits_toInt rs2
  rw [sum_range_succ, sum_range_succ, value_add1_all]
  push_cast
  have hs := (hb.add (value_negated rs1 rs2)).add_right ((rs2.getLsbD 0).toNat
    + ∑ j ∈ range 32, ((boothAdd1 rs2 j).toNat : Int) * 2 ^ (2 * j + 1))
  push_cast at hs
  refine hs.trans (congrArg (· % _) ?_)
  linear_combination hd + rs1.toInt * hy

end Rows

section Product
variable (rs1 rs2 : BitVec 65)

theorem addOpc_eq : addOpc rs1 rs2
    = Bits.shifted fun i => Compress34to2.c (in34to2 rs1 rs2 i) (ci rs1 rs2 i) := by
  funext i
  cases i <;> rfl

theorem columns_eq_rows (n : Nat) :
    ∑ i ∈ range n, Compress34to2.ones (in34to2 rs1 rs2 i) 34 * 2 ^ i
      = ∑ j ∈ range 34, Bits.value (partialData rs1 rs2 j) n := by
  simp only [Compress34to2.ones, sum_mul, Bits.value, in34to2]
  exact sum_comm

theorem compress_rows (n : Nat) :
    Bits.value (addOps rs1 rs2) n + Bits.value (addOpc rs1 rs2) n
      ≡ ∑ j ∈ range 34, Bits.value (partialData rs1 rs2 j) n [MOD 2 ^ n] := by
  have h0 : Compress34to2.ones (ci rs1 rs2 0) 31 = 0 := by simp [Compress34to2.ones, ci]
  rw [← columns_eq_rows, addOpc_eq]
  exact Bits.columns_modEq (r := fun i => Compress34to2.ones (ci rs1 rs2 i) 31) h0
    (fun i => Compress34to2.ones_compress (in34to2 rs1 rs2 i) (ci rs1 rs2 i)) n

/-- The two vectors add up to the signed product of the operands. -/
theorem mulCasRes_add : mulCasRes1 rs1 rs2 + mulCasRes2 rs1 rs2
    = BitVec.ofInt 128 (rs1.toInt * rs2.toInt) := by
  apply Bits.eq_ofInt_of_modEq
  have hc := Int.natCast_modEq_iff.mpr (compress_rows rs1 rs2 128)
  rw [BitVec.toNat_add, mulCasRes1, mulCasRes2, Bits.toNat_ofFn, Bits.toNat_ofFn]
  rw [Nat.cast_pow, Nat.cast_ofNat] at hc
  rw [Int.natCast_emod, Nat.cast_pow, Nat.cast_ofNat]
  exact (Int.mod_modEq _ _).trans (hc.trans (rows_sum rs1 rs2))

end Product

end BoothMul

inductive MulOp where
  | mul
  | mulh
  | mulhsu
  | mulhu
  | mulw

namespace MulOp

/-- The opcode and the `funct3` of the instruction; its `funct7` is one. -/
def opcode : MulOp → BitVec 7
  | mulw => 0b0111011#7
  | _ => 0b0110011#7
def fun3 : MulOp → BitVec 3
  | mul => 0b000#3
  | mulh => 0b001#3
  | mulhsu => 0b010#3
  | mulhu => 0b011#3
  | mulw => 0b000#3

def encodes (op : MulOp) (inst : BitVec 32) : Bool :=
  Id.opcode inst == op.opcode && Id.fun3 inst == op.fun3 && Id.fun7 inst == 0b0000001#7

/-- What the instruction leaves in `rd`: part of the product of its operands as it reads them. -/
def result : MulOp → BitVec 64 → BitVec 64 → BitVec 64
  | mul, a, b => a * b
  | mulh, a, b => BitVec.ofInt 64 (a.toInt * b.toInt / 2 ^ 64)
  | mulhsu, a, b => BitVec.ofInt 64 (a.toInt * b.toNat / 2 ^ 64)
  | mulhu, a, b => BitVec.ofInt 64 (a.toNat * b.toNat / 2 ^ 64)
  | mulw, a, b => (a.setWidth 32 * b.setWidth 32).signExtend 64

variable {op : MulOp} {inst : BitVec 32}

theorem encodes_iff : op.encodes inst = true ↔
    Id.opcode inst = op.opcode ∧ Id.fun3 inst = op.fun3 ∧ Id.fun7 inst = 0b0000001#7 := by
  simp [encodes, and_assoc]

theorem muldivOp_of_encodes (h : op.encodes inst = true) : Id.muldivOp inst = true := by
  obtain ⟨ho, -, h7⟩ := encodes_iff.mp h
  rw [Id.muldivOp, Id.decMd, Id.decMdw, ho, h7]
  cases op <;> rfl

/-- How the instruction reads its operands and which part of the product it keeps. -/
def signed1 : MulOp → Bool
  | mulhu => false
  | _ => true
def signed2 : MulOp → Bool
  | mulhu | mulhsu => false
  | _ => true
def high : MulOp → Bool
  | mulh | mulhsu | mulhu => true
  | _ => false
def word : MulOp → Bool
  | mulw => true
  | _ => false

theorem wires (h : op.encodes inst = true) :
    Alu.mulOp (Id.info inst) = true ∧ Alu.mulhu (Id.info inst) = !op.signed1 ∧
      (Alu.mulhu (Id.info inst) || Alu.mulhsu (Id.info inst)) = !op.signed2 ∧
      (Alu.mulMode (Id.info inst)).getLsbD 1 = op.high ∧
      (Alu.mulMode (Id.info inst)).getLsbD 0 = op.word := by
  have hm := muldivOp_of_encodes h
  obtain ⟨h0, h1, h2, h3, -, -, -, -, hw⟩ := Alu.muldiv_wires inst hm
  obtain ⟨ho, hf, h7⟩ := encodes_iff.mp h
  rw [Alu.mulOp, Alu.mulMode, BitVec.getLsbD_ofBoolListBE, BitVec.getLsbD_ofBoolListBE, h0, h1, h2,
    h3, hw, Id.mul, Id.mulh, Id.mulhsu, Id.mulhu, hm, Id.mdSextW, Id.decMd, Id.decMdw, ho, hf, h7]
  cases op <;> exact ⟨rfl, rfl, rfl, rfl, rfl⟩

end MulOp

theorem ofInt_high (z : Int) :
    (BitVec.ofInt 128 z).extractLsb' 64 64 = BitVec.ofInt 64 (z / 2 ^ 64) := by
  apply BitVec.eq_of_toNat_eq
  rw [BitVec.extractLsb'_toNat, Nat.shiftRight_eq_div_pow, BitVec.toNat_ofInt, BitVec.toNat_ofInt]
  omega

theorem ofInt_setWidth (a : BitVec 64) : BitVec.ofInt 32 a.toInt = a.setWidth 32 := by
  rw [← Bits.ofInt_extractLsb' (w := 64) _ (by decide), BitVec.ofInt_toInt,
    BitVec.setWidth_eq_extractLsb' (by decide)]

theorem Ls.mulSelect_eq {mode : BitVec 2} {cas1 cas2 : BitVec 128} (z : Int)
    (h : cas1 + cas2 = BitVec.ofInt 128 z)
    (hm : (mode.getLsbD 0 && mode.getLsbD 1) = false) : Ls.mulSelect mode cas1 cas2
      = if mode.getLsbD 0 then (BitVec.ofInt 32 z).signExtend 64
        else if mode.getLsbD 1 then BitVec.ofInt 64 (z / 2 ^ 64) else BitVec.ofInt 64 z := by
  rw [Ls.mulSelect, h, Bits.fill_append_low, Bits.ofInt_extractLsb' _ (by decide), ofInt_high,
    Bits.ofInt_extractLsb' _ (by decide)]
  revert hm
  cases mode.getLsbD 0 <;> cases mode.getLsbD 1 <;> simp

namespace Alu

theorem toInt_extend (a : BitVec 64) (b : Bool) :
    (BitVec.ofBool (if b then false else a.getLsbD 63) ++ a).toInt
      = if b then (a.toNat : Int) else a.toInt := by
  have hb (c : Bool) : (BitVec.ofBool c).toInt = -(c.toNat : Int) := by cases c <;> rfl
  rw [BitVec.toInt_append, if_neg (by decide), hb]
  cases b with
  | true => simp
  | false =>
    rw [BitVec.toInt_eq_msb_cond, BitVec.msb_eq_getLsbD_last]
    change 2 ^ 64 * -((a.getLsbD 63).toNat : Int) + _ = if a.getLsbD 63 = true then _ else _
    cases a.getLsbD 63 with
    | false => rw [if_neg (by decide), Bool.toNat_false]; ring
    | true => rw [if_pos rfl, Bool.toNat_true]; push_cast; ring

theorem mulSelect_result {op : MulOp} {x : IdAlu} (hi : x.info = Id.info x.inst)
    (h : op.encodes x.inst = true) :
    Ls.mulSelect (mulMode x.info) (mulCasRes1 x) (mulCasRes2 x)
      = op.result x.rs1Data x.rs2Data := by
  obtain ⟨-, h1, h2, hh, hw⟩ := MulOp.wires h
  have hm : ((mulMode x.info).getLsbD 0 && (mulMode x.info).getLsbD 1) = false := by
    rw [hi, hh, hw]
    cases op <;> rfl
  rw [mulCasRes1, mulCasRes2,
    Ls.mulSelect_eq _ (BoothMul.mulCasRes_add (mulOp1 x) (mulOp2 x)) hm, mulOp1, mulOp2,
    toInt_extend, toInt_extend, hi, h2, h1, hh, hw]
  cases op with
  | mul =>
    change BitVec.ofInt 64 (x.rs1Data.toInt * x.rs2Data.toInt) = x.rs1Data * x.rs2Data
    rw [BitVec.ofInt_mul, BitVec.ofInt_toInt, BitVec.ofInt_toInt]
  | mulh => rfl
  | mulhsu => rfl
  | mulhu => rfl
  | mulw =>
    change (BitVec.ofInt 32 (x.rs1Data.toInt * x.rs2Data.toInt)).signExtend 64 = _
    rw [BitVec.ofInt_mul, ofInt_setWidth, ofInt_setWidth]
    rfl

end Alu

namespace Core

/-- The multiplier's two vectors add up to the product of its 65-bit operands, and what the LSU
passes on for a multiply that has moved to MEM is the instruction's result. -/
theorem multiply_correct :
    (∀ rs1 rs2 : BitVec 65, BoothMul.mulCasRes1 rs1 rs2 + BoothMul.mulCasRes2 rs1 rs2
      = BitVec.ofInt 128 (rs1.toInt * rs2.toInt)) ∧
    ∀ (op : MulOp) (s : State) (i : In) (l : Lsu.State) (r : Lsu.Rsp),
      s.exu.idAlu.info = Id.info s.exu.idAlu.inst → op.encodes s.exu.idAlu.inst = true →
      Lsu.iduData { l with mem := memNs s i } r
        = op.result (aluRs1Data s i.toEarly) (aluRs2Data s i.toEarly) := by
  refine ⟨BoothMul.mulCasRes_add, ?_⟩
  intro op s i l r hi h
  have hm : Alu.muldivReq s.exu.idAlu.info = true := by
    rw [hi, Alu.muldivReq_info, MulOp.muldivOp_of_encodes h]
  have hreq : (memNs s i).req = false := by
    have hc := (Alu.classes_info s.exu.idAlu.inst).muldiv (by rw [← hi, hm])
    rw [← hi] at hc
    change (Alu.memReq s.exu.idAlu.info && _) = false
    rw [hc.2.1]
    rfl
  have hop : (memNs s i).mulOp = true := by
    change Alu.mulOp s.exu.idAlu.info = true
    rw [hi]
    exact (MulOp.wires h).1
  rw [Lsu.iduData, Lsu.alutordData, hreq, hop]
  exact Alu.mulSelect_result (x := aluIn s i.toEarly) hi h

/-- `mulh a0, a0, a1` in EX, with -1 and 2 as operands. -/
def mulhInEx : State :=
  { (default : State) with
    exu := { (default : Exu) with
      idAlu := { IdAlu.bubble with
        inst := 0x02b51533, info := Id.info 0x02b51533, rs1Data := -1, rs2Data := 2 } } }

def mulhIn : In :=
  { rsp := { vld := false, rdata := 0 }, intr := 0, lsuReqRdy := false, lsuReqHit := false
    ifuReqRdy := false, ifuRspVld := false, ifuRdata := 0 }

theorem multiply_correct_mulh :
    Lsu.iduData { Lsu.resetState with mem := memNs mulhInEx mulhIn } mulhIn.rsp = -1 :=
  (multiply_correct.2 .mulh mulhInEx mulhIn Lsu.resetState mulhIn.rsp rfl (by decide)).trans
    (by decide)

end Core

end Rv64imCore
