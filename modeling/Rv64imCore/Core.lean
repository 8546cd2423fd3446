import Rv64imCore.Csr
import Rv64imCore.Ifu
import Rv64imCore.Lsu

/-! `rv64im_core_pipe_ctrl`, `rv64im_core_exu` and `rv64im_core_core`. -/

namespace Rv64imCore
set_option autoImplicit true

namespace PipeCtrl

/-- `o_pipec_stall`, in the order {wbu, mem, exu, idu, ifu}. -/
def stall (exuStall memStall iduStall : Bool) : BitVec 5 :=
  BitVec.fill 5 (exuStall || memStall) ||| mask iduStall 0b00011#5

/-- `o_pipec_flush`, in the same order. -/
def flush (intrFlush exuFlush memStall iduStall : Bool) : BitVec 5 :=
  mask intrFlush (0#1 ++ BitVec.ofBool (!memStall) ++ 0b111#3)
    ||| mask (exuFlush && !memStall) 0b00111#5 ||| mask (iduStall && !memStall) 0b00100#5

def flushAddr (intrFlush : Bool) (intrFlushAddr : BitVec 64) (exuFlush : Bool)
    (exuFlushAddr : BitVec 64) : BitVec 64 :=
  if intrFlush then intrFlushAddr else if exuFlush then exuFlushAddr else 0

/-! What the two vectors say, stage by stage. -/

section Stages
variable (e m d f : Bool)

theorem stall_ifu : (stall e m d).getLsbD 0 = (e || m || d) := by revert e m d; decide
theorem stall_idu : (stall e m d).getLsbD 1 = (e || m || d) := by revert e m d; decide
theorem stall_exu : (stall e m d).getLsbD 2 = (e || m) := by revert e m d; decide
theorem stall_mem : (stall e m d).getLsbD 3 = (e || m) := by revert e m d; decide
theorem stall_wbu : (stall e m d).getLsbD 4 = (e || m) := by revert e m d; decide
theorem flush_ifu : (flush f e m d).getLsbD 0 = (f || (e && !m)) := by revert e m d f; decide
theorem flush_idu : (flush f e m d).getLsbD 1 = (f || (e && !m)) := by revert e m d f; decide
theorem flush_exu : (flush f e m d).getLsbD 2 = (f || (e && !m) || (d && !m)) := by
  revert e m d f; decide
theorem flush_mem : (flush f e m d).getLsbD 3 = (f && !m) := by revert e m d f; decide
theorem flush_wbu : (flush f e m d).getLsbD 4 = false := by revert e m d f; decide

end Stages

end PipeCtrl

namespace Core

/-- The registers of `rv64im_core_exu`. -/
structure Exu where
  idAlu : IdAlu
  predictPt : Bool
  div : Div.State
  csr : CsrReg.State
  deriving Inhabited

structure State where
  ifu : Ifu.State
  idu : Idu.State
  exu : Exu
  lsu : Lsu.State
  wbu : RdPort
  deriving Inhabited

def State.reset (s : State) : State :=
  { ifu := s.ifu.reset
    idu := Idu.resetState
    exu := { idAlu := IdAlu.bubble, predictPt := false, div := s.exu.div.reset,
             csr := CsrReg.resetState }
    lsu := Lsu.resetState
    wbu := Wbu.resetState }

/-- `bypass_use_rs1` and `bypass_use_rs2` of `rv64im_core_exu`. -/
def bypassUseRs1 (inst : BitVec 32) : Bool :=
  Id.opcode inst == 0b0110011#7 || Id.opcode inst == 0b0111011#7
    || Id.opcode inst == 0b0100011#7 || Id.opcode inst == 0b1100011#7
    || Id.opcode inst == 0b0000011#7 || Id.opcode inst == 0b0010011#7
    || Id.opcode inst == 0b0011011#7 || Id.opcode inst == 0b1100111#7
    || (Id.opcode inst == 0b1110011#7 && !(Id.fun3 inst).ult 0b001#3
      && !(0b011#3).ult (Id.fun3 inst))
def bypassUseRs2 (inst : BitVec 32) : Bool :=
  Id.opcode inst == 0b0110011#7 || Id.opcode inst == 0b0111011#7
    || Id.opcode inst == 0b0100011#7 || Id.opcode inst == 0b1100011#7

theorem bypassUseRs1_eq (inst : BitVec 32) : bypassUseRs1 inst = Regfile.useRs1 inst := rfl
theorem bypassUseRs2_eq (inst : BitVec 32) : bypassUseRs2 inst = Regfile.useRs2 inst := rfl

/-- The inputs that the request address may depend on: the data response and the interrupt
lines {external, software, timer}. -/
structure Early where
  rsp : Lsu.Rsp
  intr : BitVec 3

structure In extends Early where
  lsuReqRdy : Bool
  lsuReqHit : Bool
  ifuReqRdy : Bool
  ifuRspVld : Bool
  ifuRdata : BitVec 64

section EarlyWires
variable (s : State) (e : Early)

def memStall : Bool := Lsu.dataStall s.lsu e.rsp

/-- `bypass_rs1` and `bypass_rs2`, for the use bit and index of one source. -/
def bypass (use : Bool) (index : BitVec 5) : Bool :=
  Lsu.loadBypassVld s.lsu e.rsp && s.lsu.mem.rdIndex != 0 && use && index == s.lsu.mem.rdIndex
def bypassRs1 : Bool :=
  bypass s e (bypassUseRs1 s.exu.idAlu.inst) (Id.rs1 s.exu.idAlu.inst)
def bypassRs2 : Bool :=
  bypass s e (bypassUseRs2 s.exu.idAlu.inst) (Id.rs2 s.exu.idAlu.inst)
def aluRs1Data : BitVec 64 :=
  if bypassRs1 s e then Lsu.iduData s.lsu e.rsp else s.exu.idAlu.rs1Data
def aluRs2Data : BitVec 64 :=
  if bypassRs2 s e then Lsu.iduData s.lsu e.rsp else s.exu.idAlu.rs2Data

theorem aluRs1Data_eq : aluRs1Data s e =
    if bypass s e (Regfile.useRs1 s.exu.idAlu.inst) (Id.rs1 s.exu.idAlu.inst) then
      Lsu.iduData s.lsu e.rsp
    else s.exu.idAlu.rs1Data := by
  rw [aluRs1Data, bypassRs1, bypassUseRs1_eq]

theorem aluRs2Data_eq : aluRs2Data s e =
    if bypass s e (Regfile.useRs2 s.exu.idAlu.inst) (Id.rs2 s.exu.idAlu.inst) then
      Lsu.iduData s.lsu e.rsp
    else s.exu.idAlu.rs2Data := by
  rw [aluRs2Data, bypassRs2, bypassUseRs2_eq]

def aluIn : IdAlu :=
  { s.exu.idAlu with rs1Data := aluRs1Data s e, rs2Data := aluRs2Data s e }

def intrIn : IntrCtrl.In :=
  { req := CsrReg.intrReq s.exu.csr e.intr
    ecall := Alu.ecall s.exu.idAlu.info
    ebreak := Alu.ebreak s.exu.idAlu.info
    mret := Alu.mret s.exu.idAlu.info
    pc := s.exu.idAlu.pc
    inst := s.exu.idAlu.inst
    mtvec := s.exu.csr.mtvec
    mepc := s.exu.csr.mepc
    mstatus := s.exu.csr.mstatus }
def aluIntr : Bool := IntrCtrl.asyncIntr (intrIn s e)
def intrFlush : Bool := IntrCtrl.flushEn (intrIn s e)

def csrRdata : BitVec 64 := CsrReg.rdata s.exu.csr (Alu.csrAddr s.exu.idAlu)

def exuFlush : Bool := Alu.flush (aluIn s e) s.exu.predictPt s.idu.ifId.pc

/-- `o_lsu_addr`, `o_lsu_wen`, `o_lsu_wdata` and `o_lsu_wmask`. -/
def lsuAddr : BitVec 64 := (Alu.memAddr (aluIn s e)).extractLsb' 3 61 ++ 0#3
def lsuWen : Bool := !Alu.memRwCtrl s.exu.idAlu.info
def lsuWdata : BitVec 64 :=
  Ls.wdata (Alu.memAddr (aluIn s e)) (aluRs2Data s e) (Alu.memRwLen s.exu.idAlu.info)
def lsuWmask : BitVec 8 :=
  Ls.wmask (Alu.memAddr (aluIn s e)) (Alu.memRwLen s.exu.idAlu.info)

/-- The load-use hazard. A flush resets the divider within the cycle and so withdraws its
acknowledge, but a load or multiply in EX raises the write enable without it. -/
def loadUseHazard : Bool :=
  Regfile.idFlushEx s.idu.ifId.inst (Alu.iduLoad s.exu.idAlu)
    (Alu.rdWen s.exu.idAlu (Div.ack s.exu.div) (aluIntr s e))
    (Alu.rdIndex s.exu.idAlu (Div.ack s.exu.div) (aluIntr s e))

end EarlyWires

section Wires
variable (s : State) (i : In)

def iduPipeStall : Bool := loadUseHazard s i.toEarly && !i.lsuReqHit

def pipecFlush : BitVec 5 :=
  PipeCtrl.flush (intrFlush s i.toEarly) (exuFlush s i.toEarly) (memStall s i.toEarly)
    (iduPipeStall s i)
def flushIfu : Bool := (pipecFlush s i).getLsbD 0
def flushIdu : Bool := (pipecFlush s i).getLsbD 1
def flushExu : Bool := (pipecFlush s i).getLsbD 2
def flushMem : Bool := (pipecFlush s i).getLsbD 3
def flushWbu : Bool := (pipecFlush s i).getLsbD 4

/-- The divider as this cycle sees it. -/
def divNow : Div.State := s.exu.div.settle (flushExu s i)

def exuRdWen : Bool := Alu.rdWen s.exu.idAlu (Div.ack (divNow s i)) (aluIntr s i.toEarly)
def exuRdIndex : BitVec 5 := Alu.rdIndex s.exu.idAlu (Div.ack (divNow s i)) (aluIntr s i.toEarly)
def exuRdData : BitVec 64 := Alu.rdWdata (aluIn s i.toEarly) (divNow s i) (csrRdata s)
def exuPort : RdPort := { wen := exuRdWen s i, index := exuRdIndex s i, data := exuRdData s i }

def exuMemReq : Bool := Alu.memReqOut s.exu.idAlu (aluIntr s i.toEarly)
def lsuReqVld : Bool := Lsu.reqVld s.lsu i.rsp (exuMemReq s i) (flushMem s i)
def addrStall : Bool := Lsu.addrStall s.lsu i.rsp (exuMemReq s i) (flushMem s i) i.lsuReqRdy
def exuStall : Bool := Alu.stall s.exu.idAlu (Div.ack (divNow s i)) (addrStall s i)

def pipecStall : BitVec 5 :=
  PipeCtrl.stall (exuStall s i) (memStall s i.toEarly) (iduPipeStall s i)
def stallIfu : Bool := (pipecStall s i).getLsbD 0
def stallIdu : Bool := (pipecStall s i).getLsbD 1
def stallExu : Bool := (pipecStall s i).getLsbD 2
def stallMem : Bool := (pipecStall s i).getLsbD 3
def stallWbu : Bool := (pipecStall s i).getLsbD 4

def pipecFlushAddr : BitVec 64 :=
  PipeCtrl.flushAddr (intrFlush s i.toEarly) (IntrCtrl.flushAddr (intrIn s i.toEarly))
    (exuFlush s i.toEarly) (Alu.jumpAddr (aluIn s i.toEarly) s.exu.predictPt)

def bx : Bx :=
  { cond := Alu.bxIfCond s.exu.idAlu
    pc := s.exu.idAlu.pc
    pt := Alu.jumpRes (aluIn s i.toEarly)
    push := Alu.bxIfPush s.exu.idAlu
    pop := Alu.bxIfPop s.exu.idAlu }

def ifuIn : Ifu.In :=
  { flush := flushIfu s i, flushAddr := pipecFlushAddr s i, stall := stallIfu s i
    reqRdy := i.ifuReqRdy, rspVld := i.ifuRspVld, rdata := i.ifuRdata, bx := bx s i }

/-- The operands that ID reads for the instruction it holds. -/
def iduRsData (index : BitVec 5) : BitVec 64 :=
  Regfile.rsData s.idu.regs index (Alu.iduLoad s.exu.idAlu) (exuPort s i)
    (Lsu.iduPort s.lsu i.rsp) s.wbu

/-- What ID hands to the EX register. -/
def idAluNs : IdAlu :=
  { inst := s.idu.ifId.inst
    pc := s.idu.ifId.pc
    rs1Data := iduRsData s i (Id.rs1 s.idu.ifId.inst)
    rs2Data := iduRsData s i (Id.rs2 s.idu.ifId.inst)
    immData := Id.immData s.idu.ifId.inst
    rdIndex := Id.rd s.idu.ifId.inst
    info := Id.info s.idu.ifId.inst }

def csrIn : CsrReg.In :=
  { intrSource := i.intr
    wdata := Alu.csrWdata (aluIn s i.toEarly) (csrRdata s)
    wen := Alu.csrReq s.exu.idAlu.info
    addr := Alu.csrAddr s.exu.idAlu
    intrWen := IntrCtrl.csrWen (intrIn s i.toEarly)
    intrMstatus := IntrCtrl.wmstatus (intrIn s i.toEarly)
    intrMepc := IntrCtrl.wmepc (intrIn s i.toEarly)
    intrMcause := IntrCtrl.wmcause (intrIn s i.toEarly)
    intrMtval := IntrCtrl.wmtval (intrIn s i.toEarly) }

def exuNext : Exu :=
  { idAlu := reg (flushExu s i) IdAlu.bubble (!stallExu s i) (idAluNs s i) s.exu.idAlu
    predictPt := reg (flushExu s i) false (!stallExu s i) s.idu.ifId.predictPt s.exu.predictPt
    div := Div.next (flushExu s i) s.exu.div (Alu.divIn (aluIn s i.toEarly) (stallExu s i))
    csr := CsrReg.next s.exu.csr (csrIn s i) }

/-- What EX hands to the MEM register. -/
def memNs : Lsu.MemReg :=
  { rdIndex := exuRdIndex s i
    rdWen := exuRdWen s i
    rdData := exuRdData s i
    addr := Alu.memAddr (aluIn s i.toEarly)
    rs2Data := aluRs2Data s i.toEarly
    rwCtrl := Alu.memRwCtrl s.exu.idAlu.info
    rwLen := Alu.memRwLen s.exu.idAlu.info
    req := exuMemReq s i
    mulOp := Alu.mulOp s.exu.idAlu.info
    mulMode := Alu.mulMode s.exu.idAlu.info
    mulCasRes1 := Alu.mulCasRes1 (aluIn s i.toEarly)
    mulCasRes2 := Alu.mulCasRes2 (aluIn s i.toEarly) }

/-- What MEM hands to the WB register. -/
def wbNs : RdPort :=
  { wen := Lsu.rdWen s.lsu, index := s.lsu.mem.rdIndex, data := Lsu.iduData s.lsu i.rsp }

def next : State :=
  { ifu := Ifu.next s.ifu (ifuIn s i)
    idu := Idu.next s.idu (Ifu.fetched s.ifu (ifuIn s i)) (flushIdu s i) (stallIdu s i)
      (stallWbu s i) s.wbu
    exu := exuNext s i
    lsu := Lsu.next s.lsu i.rsp (memNs s i) (flushMem s i) (stallMem s i) i.lsuReqRdy
    wbu := Wbu.next s.wbu (wbNs s i) (flushWbu s i) (stallWbu s i) }

end Wires

end Core

end Rv64imCore
