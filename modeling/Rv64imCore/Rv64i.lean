import Mathlib.Logic.Basic

/-! The integer computations of RV64I: which words they are and what they compute. -/

namespace Rv64i
set_option autoImplicit true

def opcode (inst : BitVec 32) : BitVec 7 := inst.extractLsb' 0 7
def rd (inst : BitVec 32) : BitVec 5 := inst.extractLsb' 7 5
def funct3 (inst : BitVec 32) : BitVec 3 := inst.extractLsb' 12 3
def funct7 (inst : BitVec 32) : BitVec 7 := inst.extractLsb' 25 7
def immI (inst : BitVec 32) : BitVec 64 := (inst.extractLsb' 20 12).signExtend 64
def immU (inst : BitVec 32) : BitVec 64 := (inst.extractLsb' 12 20 ++ 0#12).signExtend 64
def rs1 (inst : BitVec 32) : BitVec 5 := inst.extractLsb' 15 5
def rs2 (inst : BitVec 32) : BitVec 5 := inst.extractLsb' 20 5
def immS (inst : BitVec 32) : BitVec 64 :=
  (inst.extractLsb' 25 7 ++ inst.extractLsb' 7 5).signExtend 64
def immB (inst : BitVec 32) : BitVec 64 :=
  (inst.extractLsb' 31 1 ++ inst.extractLsb' 7 1 ++ inst.extractLsb' 25 6 ++ inst.extractLsb' 8 4
    ++ 0#1).signExtend 64
def immJ (inst : BitVec 32) : BitVec 64 :=
  (inst.extractLsb' 31 1 ++ inst.extractLsb' 12 8 ++ inst.extractLsb' 20 1
    ++ inst.extractLsb' 21 10 ++ 0#1).signExtend 64

inductive Op where
  | add
  | sub
  | sll
  | slt
  | sltu
  | xor
  | srl
  | sra
  | or
  | and
  deriving DecidableEq

namespace Op

def funct3 : Op → BitVec 3
  | add | sub => 0b000
  | sll => 0b001
  | slt => 0b010
  | sltu => 0b011
  | xor => 0b100
  | srl | sra => 0b101
  | or => 0b110
  | and => 0b111

def funct7 : Op → BitVec 7
  | sub | sra => 0b0100000
  | _ => 0

def isShift : Op → Bool
  | sll | srl | sra => true
  | _ => false

/-- The operations that also come on the low words. -/
def hasWord : Op → Bool
  | add | sub | sll | srl | sra => true
  | _ => false

/-- A shift takes its amount modulo the width. -/
def eval (a b : BitVec w) : Op → BitVec w
  | add => a + b
  | sub => a - b
  | sll => a <<< (b.toNat % w)
  | slt => if a.slt b then 1 else 0
  | sltu => if a.ult b then 1 else 0
  | xor => a ^^^ b
  | srl => a >>> (b.toNat % w)
  | sra => a.sshiftRight (b.toNat % w)
  | or => a ||| b
  | and => a &&& b

/-- The same on the low words, sign-extended. -/
def evalWord (a b : BitVec 64) (o : Op) : BitVec 64 :=
  (o.eval (a.setWidth 32) (b.setWidth 32)).signExtend 64

end Op

/-- `OP`, `OP-32`, `OP-IMM`, `OP-IMM-32`, `LUI` and `AUIPC`. -/
inductive Instr where
  | op (o : Op)
  | op32 (o : Op)
  | opImm (o : Op)
  | opImm32 (o : Op)
  | lui
  | auipc
  deriving DecidableEq

namespace Instr

/-- The words of an instruction. A 64-bit shift immediate has six bits, so that bit 25 is its. -/
def encodes (inst : BitVec 32) : Instr → Bool
  | op o => opcode inst == 0b0110011 && Rv64i.funct3 inst == o.funct3
      && Rv64i.funct7 inst == o.funct7
  | op32 o => o.hasWord && opcode inst == 0b0111011 && Rv64i.funct3 inst == o.funct3
      && Rv64i.funct7 inst == o.funct7
  | opImm o => o != .sub && opcode inst == 0b0010011 && Rv64i.funct3 inst == o.funct3
      && (!o.isShift || (Rv64i.funct7 inst).extractLsb' 1 6 == o.funct7.extractLsb' 1 6)
  | opImm32 o => o.hasWord && o != .sub && opcode inst == 0b0011011
      && Rv64i.funct3 inst == o.funct3 && (!o.isShift || Rv64i.funct7 inst == o.funct7)
  | lui => opcode inst == 0b0110111
  | auipc => opcode inst == 0b0010111

/-- What the instruction writes to rd. -/
def result (inst : BitVec 32) (pc rs1 rs2 : BitVec 64) : Instr → BitVec 64
  | op o => o.eval rs1 rs2
  | op32 o => o.evalWord rs1 rs2
  | opImm o => o.eval rs1 (immI inst)
  | opImm32 o => o.evalWord rs1 (immI inst)
  | lui => immU inst
  | auipc => pc + immU inst

end Instr

/-- The bytes a load or a store moves. -/
def accessBytes (f : BitVec 3) : Nat :=
  match (f.extractLsb' 0 2).toNat with
  | 0 => 1
  | 1 => 2
  | 2 => 4
  | _ => 8

/-- The byte offset of an address in its 64-bit word. -/
def offset (a : BitVec 64) : Nat := a.toNat % 8

/-- A naturally aligned access. -/
def aligned (f : BitVec 3) (a : BitVec 64) : Bool := a.toNat % accessBytes f == 0

def isStore (inst : BitVec 32) : Bool := opcode inst == 0b0100011 && (funct3 inst).ult 4
def isLoad (inst : BitVec 32) : Bool := opcode inst == 0b0000011 && funct3 inst != 7

/-- The little-endian bytes from byte `off` of a word on, extended as the load asks. -/
def loadValue (f : BitVec 3) (off : Nat) (word : BitVec 64) : BitVec 64 :=
  if f.getLsbD 2 then (word.extractLsb' (8 * off) (8 * accessBytes f)).setWidth 64
  else (word.extractLsb' (8 * off) (8 * accessBytes f)).signExtend 64

/-! Shifts as a data path builds them. -/

theorem sshiftRight_eq_fill (x : BitVec 64) (k : BitVec 6) :
    (if x.getLsbD 63 then BitVec.allOnes 64 <<< ~~~k else 0) ||| x >>> k
      = x.sshiftRight k.toNat := by
  have hk : k.toNat < 64 := k.isLt
  have hn : (~~~k).toNat = 63 - k.toNat := BitVec.toNat_not
  have hm : x.msb = x.getLsbD 63 := BitVec.msb_eq_getLsbD_last x
  apply BitVec.eq_of_getLsbD_eq
  intro n hn64
  rw [BitVec.getLsbD_or, BitVec.ushiftRight_eq', BitVec.getLsbD_ushiftRight,
    BitVec.getLsbD_sshiftRight, hm]
  have hfill : (if x.getLsbD 63 then BitVec.allOnes 64 <<< ~~~k else 0).getLsbD n
      = (x.getLsbD 63 && decide (63 - k.toNat ≤ n)) := by
    cases x.getLsbD 63 with
    | false => simp
    | true =>
      rw [if_pos rfl, BitVec.shiftLeft_eq', BitVec.getLsbD_shiftLeft, hn]
      by_cases hle : 63 - k.toNat ≤ n
      · have h1 : n - (63 - k.toNat) < 64 := by omega
        rw [BitVec.getLsbD_allOnes]
        simp [hle, hn64, h1]
      · have h1 : n < 63 - k.toNat := by omega
        simp [hle, h1]
  rw [hfill]
  by_cases hs : k.toNat + n < 64
  · by_cases h63 : 63 - k.toNat ≤ n
    · have he : k.toNat + n = 63 := by omega
      simp [he, hn64, h63]
    · simp [hs, hn64, h63]
  · have h63 : 63 - k.toNat ≤ n := by omega
    have hge : x.getLsbD (k.toNat + n) = false := BitVec.getLsbD_of_ge x _ (by omega)
    simp [hs, hn64, h63, hge]

theorem word_sub (x y : BitVec 64) :
    (x - y).setWidth 32 = x.setWidth 32 - y.setWidth 32 := by
  apply BitVec.eq_of_toNat_eq
  simp only [BitVec.toNat_setWidth, BitVec.toNat_sub]
  omega

theorem word_shiftLeft (x : BitVec 64) (k : Nat) :
    (x <<< k).setWidth 32 = x.setWidth 32 <<< k := by
  apply BitVec.eq_of_getLsbD_eq
  intro n hn
  simp only [BitVec.getLsbD_setWidth, BitVec.getLsbD_shiftLeft]
  by_cases hk : n < k
  · simp [hk]
  · have h1 : n - k < 32 := by omega
    have h2 : n < 64 := by omega
    simp [hk, hn, h1, h2]

/-- A word shift to the right needs the upper half cleared, or sign-extended. -/
theorem word_ushiftRight (x : BitVec 32) (k : Nat) :
    (x.setWidth 64 >>> k).setWidth 32 = x >>> k := by
  apply BitVec.eq_of_getLsbD_eq
  intro n hn
  simp only [BitVec.getLsbD_setWidth, BitVec.getLsbD_ushiftRight, hn, decide_true, Bool.true_and]
  by_cases hk : k + n < 64
  · simp [hk]
  · have hge : x.getLsbD (k + n) = false := BitVec.getLsbD_of_ge x _ (by omega)
    simp [hge]

theorem word_sshiftRight (x : BitVec 32) (hk : k < 32) :
    ((x.signExtend 64).sshiftRight k).setWidth 32 = x.sshiftRight k := by
  apply BitVec.eq_of_getLsbD_eq
  intro n hn
  have h1 : k + n < 64 := by omega
  have h2 : ¬64 ≤ n := by omega
  have h3 : ¬32 ≤ n := by omega
  simp only [BitVec.getLsbD_setWidth, BitVec.getLsbD_sshiftRight, BitVec.getLsbD_signExtend]
  simp [hn, h1, h2, h3]

end Rv64i
