import Rv64imCore.Units

namespace Rv64imCore
set_option autoImplicit true

/-- The two control words the decoder sends down the pipe. -/
structure Info where
  typeInfo : BitVec 6
  opInfo : BitVec 14
  deriving DecidableEq, Inhabited

/-! `rv64im_core_id`: one definition for each decode wire of the instruction word. -/

namespace Id

def rs1 (inst : BitVec 32) : BitVec 5 := inst.extractLsb' 15 5
def rs2 (inst : BitVec 32) : BitVec 5 := inst.extractLsb' 20 5
def rd (inst : BitVec 32) : BitVec 5 := inst.extractLsb' 7 5
def opcode (inst : BitVec 32) : BitVec 7 := inst.extractLsb' 0 7
def fun3 (inst : BitVec 32) : BitVec 3 := inst.extractLsb' 12 3
def fun7 (inst : BitVec 32) : BitVec 7 := inst.extractLsb' 25 7

variable (inst : BitVec 32)

def decR : Bool := opcode inst == 0b0110011#7 && (fun7 inst).extractLsb' 0 5 == 0#5
def decRw : Bool := opcode inst == 0b0111011#7 && (fun7 inst).extractLsb' 0 5 == 0#5
def decRi : Bool := opcode inst == 0b0010011#7
def decRiw : Bool := opcode inst == 0b0011011#7
def decMd : Bool := opcode inst == 0b0110011#7 && fun7 inst == 0b0000001#7
def decMdw : Bool := opcode inst == 0b0111011#7 && fun7 inst == 0b0000001#7
def decBranch : Bool := opcode inst == 0b1100011#7
def decJal : Bool := opcode inst == 0b1101111#7
def decJalr : Bool := opcode inst == 0b1100111#7 && fun3 inst == 0b000#3
def decLd : Bool := opcode inst == 0b0000011#7
def decSt : Bool := opcode inst == 0b0100011#7
def decLui : Bool := opcode inst == 0b0110111#7
def decAuipc : Bool := opcode inst == 0b0010111#7
def decCsr : Bool := opcode inst == 0b1110011#7

def opCode : BitVec 5 := inst.extractLsb' 30 2 ++ fun3 inst
def aluOp : Bool :=
  decR inst || decRi inst || decAuipc inst || decLui inst || decRw inst || decRiw inst
def addOp : Bool :=
  decAuipc inst || ((decR inst || decRw inst) && opCode inst == 0b00000#5)
    || ((decRi inst || decRiw inst) && (opCode inst).extractLsb' 0 3 == 0b000#3)
def subOp : Bool := (decR inst || decRw inst) && opCode inst == 0b01000#5

/-- The guard the three shift wires share: a word shift must not use bit 25. -/
def shiftOp (code : BitVec 5) : Bool :=
  (decRi inst || ((decR inst || decRw inst || decRiw inst) && (fun7 inst).getLsbD 0 == false))
    && opCode inst == code && (fun7 inst).extractLsb' 1 4 == 0#4

def sllOp : Bool := shiftOp inst 0b00001#5
def srlOp : Bool := shiftOp inst 0b00101#5
def sraOp : Bool := shiftOp inst 0b01101#5

/-- The guard the comparison and logic wires share. -/
def logicOp (code : BitVec 3) : Bool :=
  ((decR inst && (fun7 inst).extractLsb' 5 2 == 0b00#2) || decRi inst)
    && (opCode inst).extractLsb' 0 3 == code

def sltOp : Bool := logicOp inst 0b010#3
def sltuOp : Bool := logicOp inst 0b011#3
def xorOp : Bool := logicOp inst 0b100#3
def orOp : Bool := logicOp inst 0b110#3
def andOp : Bool := logicOp inst 0b111#3
def op2Imm : Bool := decRi inst || decRiw inst || decAuipc inst
def op1Pc : Bool := decAuipc inst
def resImm : Bool := decLui inst
def aluSextW : Bool := decRw inst || decRiw inst
def aluInfo : BitVec 14 :=
  BitVec.ofBoolListBE [addOp inst, subOp inst, sllOp inst, srlOp inst, sraOp inst, sltOp inst,
    sltuOp inst, xorOp inst, orOp inst, andOp inst, op2Imm inst, op1Pc inst, resImm inst,
    aluSextW inst]

def memOp : Bool := decLd inst || decSt inst
def load (f : BitVec 3) : Bool := decLd inst && fun3 inst == f
def store (f : BitVec 3) : Bool := decSt inst && fun3 inst == f
def lb : Bool := load inst 0b000#3
def lh : Bool := load inst 0b001#3
def lw : Bool := load inst 0b010#3
def ld : Bool := load inst 0b011#3
def lbu : Bool := load inst 0b100#3
def lhu : Bool := load inst 0b101#3
def lwu : Bool := load inst 0b110#3
def sb : Bool := store inst 0b000#3
def sh : Bool := store inst 0b001#3
def sw : Bool := store inst 0b010#3
def sd : Bool := store inst 0b011#3
def rwCtrl : Bool := decLd inst
/-- `mem_info` padded on the right to the width of `o_id_op_info`. -/
def memInfo : BitVec 14 :=
  BitVec.ofBoolListBE [lb inst, lh inst, lw inst, ld inst, lbu inst, lhu inst, lwu inst,
    sb inst, sh inst, sw inst, sd inst, rwCtrl inst, false, false]

def bjpOp : Bool := decBranch inst || decJalr inst || decJal inst
def branch (f : BitVec 3) : Bool := decBranch inst && fun3 inst == f
def beq : Bool := branch inst 0b000#3
def bne : Bool := branch inst 0b001#3
def blt : Bool := branch inst 0b100#3
def bge : Bool := branch inst 0b101#3
def bltu : Bool := branch inst 0b110#3
def bgeu : Bool := branch inst 0b111#3
def jal : Bool := decJal inst
def jalr : Bool := decJalr inst
def bjpInfo : BitVec 14 :=
  BitVec.ofBoolListBE [beq inst, bne inst, blt inst, bge inst, bltu inst, bgeu inst, jal inst,
    jalr inst, false, false, false, false, false, false]

def muldivOp : Bool := decMd inst || decMdw inst
def mul : Bool := muldivOp inst && fun3 inst == 0b000#3
def mulh : Bool := decMd inst && fun3 inst == 0b001#3
def mulhsu : Bool := decMd inst && fun3 inst == 0b010#3
def mulhu : Bool := decMd inst && fun3 inst == 0b011#3
def div : Bool := muldivOp inst && fun3 inst == 0b100#3
def divu : Bool := muldivOp inst && fun3 inst == 0b101#3
def rem : Bool := muldivOp inst && fun3 inst == 0b110#3
def remu : Bool := muldivOp inst && fun3 inst == 0b111#3
def mdSextW : Bool := decMdw inst
def muldivInfo : BitVec 14 :=
  BitVec.ofBoolListBE [mul inst, mulh inst, mulhsu inst, mulhu inst, div inst, divu inst,
    rem inst, remu inst, mdSextW inst, false, false, false, false, false]

def fence : Bool :=
  opcode inst == 0b0001111#7 && inst.extractLsb' 28 4 ++ inst.extractLsb' 7 13 == 0#17
def fencei : Bool := inst == 0x0000100f#32
def ecall : Bool := inst == 0x00000073#32
def ebreak : Bool := inst == 0x00100073#32
def mret : Bool := inst == 0x30200073#32
def sysOp : Bool := fence inst || fencei inst || ecall inst || ebreak inst || mret inst
def sysInfo : BitVec 14 :=
  BitVec.ofBoolListBE [fence inst, fencei inst, ecall inst, ebreak inst, mret inst,
    false, false, false, false, false, false, false, false, false]

def csrOp : Bool := decCsr inst
def csr (f : BitVec 3) : Bool := decCsr inst && fun3 inst == f
def csrrw : Bool := csr inst 0b001#3
def csrrs : Bool := csr inst 0b010#3
def csrrc : Bool := csr inst 0b011#3
def csrrwi : Bool := csr inst 0b101#3
def csrrsi : Bool := csr inst 0b110#3
def csrrci : Bool := csr inst 0b111#3
def csrInfo : BitVec 14 :=
  BitVec.ofBoolListBE [csrrw inst, csrrs inst, csrrc inst, csrrwi inst, csrrsi inst, csrrci inst,
    false, false, false, false, false, false, false, false]

/-- `o_id_type_info` and `o_id_op_info`. -/
def info : Info where
  typeInfo := BitVec.ofBoolListBE
    [csrOp inst, sysOp inst, muldivOp inst, bjpOp inst, memOp inst, aluOp inst]
  opInfo :=
    mask (aluOp inst) (aluInfo inst) ||| mask (memOp inst) (memInfo inst)
      ||| mask (bjpOp inst) (bjpInfo inst) ||| mask (muldivOp inst) (muldivInfo inst)
      ||| mask (sysOp inst) (sysInfo inst) ||| mask (csrOp inst) (csrInfo inst)

def typeI : Bool := decLd inst || decJalr inst || decRi inst || decRiw inst
def typeU : Bool := decAuipc inst || decLui inst
def typeS : Bool := decSt inst
def typeB : Bool := decBranch inst
def typeJ : Bool := decJal inst

def immI : BitVec 64 := BitVec.fill 52 (inst.getLsbD 31) ++ inst.extractLsb' 20 12
def immU : BitVec 64 := BitVec.fill 32 (inst.getLsbD 31) ++ inst.extractLsb' 12 20 ++ 0#12
def immS : BitVec 64 :=
  BitVec.fill 52 (inst.getLsbD 31) ++ inst.extractLsb' 25 7 ++ inst.extractLsb' 7 5
def immB : BitVec 64 :=
  BitVec.fill 52 (inst.getLsbD 31) ++ inst.extractLsb' 7 1 ++ inst.extractLsb' 25 6
    ++ inst.extractLsb' 8 4 ++ 0#1
def immJ : BitVec 64 :=
  BitVec.fill 43 (inst.getLsbD 31) ++ inst.extractLsb' 31 1 ++ inst.extractLsb' 12 8
    ++ inst.extractLsb' 20 1 ++ inst.extractLsb' 21 10 ++ 0#1

/-- `o_id_imm_data`. -/
def immData : BitVec 64 :=
  mask (typeI inst) (immI inst) ||| mask (typeU inst) (immU inst)
    ||| mask (typeS inst) (immS inst) ||| mask (typeB inst) (immB inst)
    ||| mask (typeJ inst) (immJ inst)

end Id

/-- `RV64IM_CORE_INST_NOP`. -/
def instNop : BitVec 32 := 0x00000013#32

end Rv64imCore
