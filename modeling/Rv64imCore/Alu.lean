import Rv64imCore.BoothMul
import Rv64imCore.Decode
import Rv64imCore.Divider

namespace Rv64imCore
set_option autoImplicit true

/-- The pipeline register of `rv64im_core_id_alu`; with the bypassed operands it is also what the
ALU reads. -/
structure IdAlu where
  inst : BitVec 32
  pc : BitVec 64
  rs1Data : BitVec 64
  rs2Data : BitVec 64
  immData : BitVec 64
  rdIndex : BitVec 5
  info : Info
  deriving Inhabited

/-- The reset value of the register: a `nop` with no type. -/
def IdAlu.bubble : IdAlu :=
  { inst := instNop, pc := 0, rs1Data := 0, rs2Data := 0, immData := 0, rdIndex := 0,
    info := ⟨0, 0⟩ }

/-! `rv64im_core_alu`, one definition for each wire. -/

namespace Alu

section Ops
variable (n : Info)

def aluReq : Bool := n.typeInfo.getLsbD 0
def memReq : Bool := n.typeInfo.getLsbD 1
def bjpReq : Bool := n.typeInfo.getLsbD 2
def muldivReq : Bool := n.typeInfo.getLsbD 3
def sysReq : Bool := n.typeInfo.getLsbD 4
def csrReq : Bool := n.typeInfo.getLsbD 5

def addOp : Bool := aluReq n && n.opInfo.getLsbD 13
def subOp : Bool := aluReq n && n.opInfo.getLsbD 12
def sllOp : Bool := aluReq n && n.opInfo.getLsbD 11
def srlOp : Bool := aluReq n && n.opInfo.getLsbD 10
def sraOp : Bool := aluReq n && n.opInfo.getLsbD 9
def sltOp : Bool := aluReq n && n.opInfo.getLsbD 8
def sltuOp : Bool := aluReq n && n.opInfo.getLsbD 7
def xorOp : Bool := aluReq n && n.opInfo.getLsbD 6
def orOp : Bool := aluReq n && n.opInfo.getLsbD 5
def andOp : Bool := aluReq n && n.opInfo.getLsbD 4
def op2Imm : Bool := aluReq n && n.opInfo.getLsbD 3
def op1Pc : Bool := aluReq n && n.opInfo.getLsbD 2
def resImm : Bool := aluReq n && n.opInfo.getLsbD 1
def aluSextW : Bool := aluReq n && n.opInfo.getLsbD 0

def memLb : Bool := memReq n && n.opInfo.getLsbD 13
def memLh : Bool := memReq n && n.opInfo.getLsbD 12
def memLw : Bool := memReq n && n.opInfo.getLsbD 11
def memLd : Bool := memReq n && n.opInfo.getLsbD 10
def memLbu : Bool := memReq n && n.opInfo.getLsbD 9
def memLhu : Bool := memReq n && n.opInfo.getLsbD 8
def memLwu : Bool := memReq n && n.opInfo.getLsbD 7
def memSb : Bool := memReq n && n.opInfo.getLsbD 6
def memSh : Bool := memReq n && n.opInfo.getLsbD 5
def memSw : Bool := memReq n && n.opInfo.getLsbD 4
def memSd : Bool := memReq n && n.opInfo.getLsbD 3
/-- `o_alu_mem_rw_ctrl`: set for a load. -/
def memRwCtrl : Bool := memReq n && n.opInfo.getLsbD 2
/-- `o_alu_mem_rw_len`: {signed, 64 bit, 32 bit, 16 bit, 8 bit}. -/
def memRwLen : BitVec 5 :=
  BitVec.ofBoolListBE [memLw n || memLh n || memLb n, memSd n || memLd n,
    memSw n || memLw n || memLwu n, memSh n || memLh n || memLhu n,
    memSb n || memLb n || memLbu n]

def beq : Bool := bjpReq n && n.opInfo.getLsbD 13
def bne : Bool := bjpReq n && n.opInfo.getLsbD 12
def blt : Bool := bjpReq n && n.opInfo.getLsbD 11
def bge : Bool := bjpReq n && n.opInfo.getLsbD 10
def bltu : Bool := bjpReq n && n.opInfo.getLsbD 9
def bgeu : Bool := bjpReq n && n.opInfo.getLsbD 8
def jal : Bool := bjpReq n && n.opInfo.getLsbD 7
def jalr : Bool := bjpReq n && n.opInfo.getLsbD 6

def mul : Bool := muldivReq n && n.opInfo.getLsbD 13
def mulh : Bool := muldivReq n && n.opInfo.getLsbD 12
def mulhsu : Bool := muldivReq n && n.opInfo.getLsbD 11
def mulhu : Bool := muldivReq n && n.opInfo.getLsbD 10
def div : Bool := muldivReq n && n.opInfo.getLsbD 9
def divu : Bool := muldivReq n && n.opInfo.getLsbD 8
def rem : Bool := muldivReq n && n.opInfo.getLsbD 7
def remu : Bool := muldivReq n && n.opInfo.getLsbD 6
def mdSextW : Bool := muldivReq n && n.opInfo.getLsbD 5
def mulOp : Bool := mul n || mulh n || mulhsu n || mulhu n
def divOp : Bool := div n || divu n || rem n || remu n
/-- `ex_ls_mul_mode`: {use high 64 bit, use low 32 bit}. -/
def mulMode : BitVec 2 := BitVec.ofBoolListBE [mulh n || mulhsu n || mulhu n, mdSextW n]

def ecall : Bool := sysReq n && n.opInfo.getLsbD 11
def ebreak : Bool := sysReq n && n.opInfo.getLsbD 10
def mret : Bool := sysReq n && n.opInfo.getLsbD 9

def csrrw : Bool := csrReq n && n.opInfo.getLsbD 13
def csrrs : Bool := csrReq n && n.opInfo.getLsbD 12
def csrrc : Bool := csrReq n && n.opInfo.getLsbD 11
def csrrwi : Bool := csrReq n && n.opInfo.getLsbD 10
def csrrsi : Bool := csrReq n && n.opInfo.getLsbD 9
def csrrci : Bool := csrReq n && n.opInfo.getLsbD 8

end Ops

variable (i : IdAlu)

def aluOp1 : BitVec 64 := if op1Pc i.info then i.pc else i.rs1Data
def aluOp2 : BitVec 64 := if op2Imm i.info then i.immData else i.rs2Data

def addsubOp1 : BitVec 64 := mask (addOp i.info || subOp i.info) (aluOp1 i)
def addsubOp2 : BitVec 64 :=
  mask (addOp i.info || subOp i.info) (aluOp2 i) ||| mask (resImm i.info) i.immData
def addsubRes : BitVec 64 :=
  addsubOp1 i + (if subOp i.info then ~~~(addsubOp2 i) + 1 else addsubOp2 i)

def andRes : BitVec 64 := mask (andOp i.info) (aluOp1 i) &&& mask (andOp i.info) (aluOp2 i)
def orRes : BitVec 64 := mask (orOp i.info) (aluOp1 i) ||| mask (orOp i.info) (aluOp2 i)

def xorOp1 : BitVec 64 :=
  mask (xorOp i.info) (aluOp1 i) ||| mask (beq i.info || bne i.info) i.rs1Data
def xorOp2 : BitVec 64 :=
  mask (xorOp i.info) (aluOp2 i) ||| mask (beq i.info || bne i.info) i.rs2Data
def xorRes : BitVec 64 := xorOp1 i ^^^ xorOp2 i

/-- The shift amount: a word shift drops its sixth bit. -/
def shiftAmt (op : Bool) : BitVec 6 :=
  mask op ((aluOp2 i).extractLsb' 0 6) &&& (BitVec.ofBool (!aluSextW i.info) ++ 0b11111#5)

def sllRes : BitVec 64 := mask (sllOp i.info) (aluOp1 i) <<< shiftAmt i (sllOp i.info)

def srlOp1 : BitVec 64 :=
  mask (srlOp i.info) (if aluSextW i.info then 0#32 ++ (aluOp1 i).extractLsb' 0 32 else aluOp1 i)
def srlRes : BitVec 64 := srlOp1 i >>> shiftAmt i (srlOp i.info)

def sraOp1 : BitVec 64 :=
  mask (sraOp i.info) (if aluSextW i.info then
    BitVec.fill 32 ((aluOp1 i).getLsbD 31) ++ (aluOp1 i).extractLsb' 0 32 else aluOp1 i)
def sraRes : BitVec 64 :=
  mask ((sraOp1 i).getLsbD 63) (BitVec.allOnes 64 <<< ~~~(shiftAmt i (sraOp i.info)))
    ||| sraOp1 i >>> shiftAmt i (sraOp i.info)

def sltOp1 : BitVec 64 :=
  mask (sltOp i.info) (aluOp1 i) ||| mask (blt i.info || bge i.info) i.rs1Data
def sltOp2 : BitVec 64 :=
  mask (sltOp i.info) (aluOp2 i) ||| mask (blt i.info || bge i.info) i.rs2Data
def sltCmpRes : Bool :=
  ((sltOp1 i).getLsbD 63 && !(sltOp2 i).getLsbD 63)
    || ((sltOp1 i).getLsbD 63 == (sltOp2 i).getLsbD 63
      && ((sltOp1 i).extractLsb' 0 63).ult ((sltOp2 i).extractLsb' 0 63))
def sltRes : BitVec 64 := 0#63 ++ BitVec.ofBool (sltCmpRes i)

def sltuOp1 : BitVec 64 :=
  mask (sltuOp i.info) (aluOp1 i) ||| mask (bltu i.info || bgeu i.info) i.rs1Data
def sltuOp2 : BitVec 64 :=
  mask (sltuOp i.info) (aluOp2 i) ||| mask (bltu i.info || bgeu i.info) i.rs2Data
def sltuRes : BitVec 64 := 0#63 ++ BitVec.ofBool ((sltuOp1 i).ult (sltuOp2 i))

def aluRes : BitVec 64 :=
  addsubRes i ||| andRes i ||| orRes i ||| xorRes i ||| sllRes i ||| srlRes i ||| sraRes i
    ||| sltRes i ||| sltuRes i

def sextW (w : Bool) (x : BitVec 64) : BitVec 64 :=
  if w then BitVec.fill 32 (x.getLsbD 31) ++ x.extractLsb' 0 32 else x

def aluToRdData : BitVec 64 := sextW (aluSextW i.info) (aluRes i)

def jumpRes : Bool :=
  (beq i.info && xorRes i == 0) || (bne i.info && xorRes i != 0)
    || (blt i.info && (sltRes i).getLsbD 0) || (bge i.info && !(sltRes i).getLsbD 0)
    || (bltu i.info && (sltuRes i).getLsbD 0) || (bgeu i.info && !(sltuRes i).getLsbD 0)
def bjpOp1 : BitVec 64 := if jalr i.info then i.rs1Data else i.pc
def bxTgt : BitVec 64 := bjpOp1 i + i.immData
/-- The target with bit 0 cleared, which only a `jalr` uses. -/
def jalrTgt : BitVec 64 := (bxTgt i).extractLsb' 1 63 ++ 0#1
def bxIfCond : Bool :=
  beq i.info || bne i.info || blt i.info || bge i.info || bltu i.info || bgeu i.info
def condErr (predictPt : Bool) : Bool := bxIfCond i && (jumpRes i ^^ predictPt)
def jalrErr (iduPc : BitVec 64) : Bool := jalrTgt i != iduPc

def isCall (inst : BitVec 32) : Bool :=
  (Id.opcode inst == 0b1101111#7 || (Id.opcode inst == 0b1100111#7 && Id.fun3 inst == 0b000#3))
    && (Id.rd inst == 1#5 || Id.rd inst == 5#5)
def isReturn (inst : BitVec 32) : Bool :=
  Id.opcode inst == 0b1100111#7 && Id.fun3 inst == 0b000#3
    && (Id.rs1 inst == 1#5 || Id.rs1 inst == 5#5) && Id.rs1 inst != Id.rd inst
def bxIfPush : Bool := isCall i.inst
def bxIfPop : Bool := isReturn i.inst

def pcInc4 : BitVec 64 := i.pc + 4
/-- `jump_addr`, where `jump_addr_sel` is {predicted taken but not taken, jalr}. -/
def jumpAddr (predictPt : Bool) : BitVec 64 :=
  mask (jalr i.info) (jalrTgt i) ||| mask (condErr i predictPt && predictPt) (pcInc4 i)
    ||| mask (!(jalr i.info || (condErr i predictPt && predictPt))) (bxTgt i)

def bjpToRdWe : Bool := jal i.info || jalr i.info
def bjpToRdData : BitVec 64 := if bjpToRdWe i then pcInc4 i else 0

/-- `o_alu_flush`. -/
def flush (predictPt : Bool) (iduPc : BitVec 64) : Bool :=
  condErr i predictPt || (jalr i.info && jalrErr i iduPc)

def mulOp1 : BitVec 65 :=
  BitVec.ofBool (if mulhu i.info then false else i.rs1Data.getLsbD 63) ++ i.rs1Data
def mulOp2 : BitVec 65 :=
  BitVec.ofBool (if mulhu i.info || mulhsu i.info then false else i.rs2Data.getLsbD 63)
    ++ i.rs2Data
def mulCasRes1 : BitVec 128 := BoothMul.mulCasRes1 (mulOp1 i) (mulOp2 i)
def mulCasRes2 : BitVec 128 := BoothMul.mulCasRes2 (mulOp1 i) (mulOp2 i)

def divIn (stall : Bool) : Div.In :=
  { rs1 := i.rs1Data, rs2 := i.rs2Data, isSigned := div i.info || rem i.info,
    divReq := divOp i.info, stall := stall }

def muldivToRdWe (divAck : Bool) : Bool := (divOp i.info && divAck) || mulOp i.info
def muldivRes (d : Div.State) : BitVec 64 :=
  mask (div i.info || divu i.info) (Div.divRes d)
    ||| mask (rem i.info || remu i.info) (Div.divRem d)
def muldivToRdData (d : Div.State) : BitVec 64 := sextW (mdSextW i.info) (muldivRes i d)

def csrAddr : BitVec 12 := i.inst.extractLsb' 20 12
def csrOp2 : BitVec 64 :=
  if csrrw i.info || csrrs i.info || csrrc i.info then i.rs1Data
  else 0#59 ++ i.inst.extractLsb' 15 5
/-- `o_alu_csr_wdata`. In the source's middle term `&` binds tighter than `|`, so the operand is
or-ed in whatever the operation. -/
def csrWdata (csrRdata : BitVec 64) : BitVec 64 :=
  mask (csrrw i.info || csrrwi i.info) (csrOp2 i)
    ||| (mask (csrrs i.info || csrrsi i.info) csrRdata ||| csrOp2 i)
    ||| (mask (csrrc i.info || csrrci i.info) csrRdata &&& ~~~(csrOp2 i))

/-- `o_alu_mem_req`: an asynchronous interrupt withdraws the request. -/
def memReqOut (intr : Bool) : Bool := memReq i.info && !intr
def memAddr : BitVec 64 := i.rs1Data + i.immData

def rdWen (divAck intr : Bool) : Bool :=
  (aluReq i.info || bjpToRdWe i || csrReq i.info || muldivToRdWe i divAck || memRwCtrl i.info)
    && !intr
def rdIndex (divAck intr : Bool) : BitVec 5 := if rdWen i divAck intr then i.rdIndex else 0
/-- `alu_rd_wdata`, also `o_alu_idu_data`. -/
def rdWdata (d : Div.State) (csrRdata : BitVec 64) : BitVec 64 :=
  mask (aluReq i.info) (aluToRdData i) ||| mask (bjpToRdWe i) (bjpToRdData i)
    ||| mask (muldivToRdWe i (Div.ack d)) (muldivToRdData i d) ||| mask (csrReq i.info) csrRdata
/-- `o_alu_idu_load`: loads and multiplies share the hazard flag. -/
def iduLoad : Bool := memRwCtrl i.info || mulOp i.info
def stall (divAck addrStall : Bool) : Bool := (divOp i.info && !divAck) || addrStall

end Alu

end Rv64imCore
