import Rv64imCore.Clocked
import Rv64imCore.Core
import Rv64imCore.DecodeFacts

/-! `rv64im_core_exu` as a machine of its own: the EX register, the divider and the CSR file under
any inputs. Its outputs to the fetch unit and the LSU are those of `Core`. -/

namespace Rv64imCore
set_option autoImplicit true

namespace Exu

/-- The instruction ID hands over, the load bypass, the pipeline controller and the interrupt
lines {external, software, timer}. -/
structure In where
  inst : BitVec 32
  pc : BitVec 64
  predictPt : Bool
  rs1Data : BitVec 64
  rs2Data : BitVec 64
  loadBypassVld : Bool
  loadBypassRd : BitVec 5
  loadBypassData : BitVec 64
  flush : Bool
  stall : Bool
  intr : BitVec 3

section Wires
variable (x : Core.Exu) (i : In)

def idAluNs : IdAlu :=
  { inst := i.inst, pc := i.pc, rs1Data := i.rs1Data, rs2Data := i.rs2Data
    immData := Id.immData i.inst, rdIndex := Id.rd i.inst, info := Id.info i.inst }

def bypass (use : Bool) (index : BitVec 5) : Bool :=
  i.loadBypassVld && i.loadBypassRd != 0 && use && index == i.loadBypassRd
def aluRs1Data : BitVec 64 :=
  if bypass i (Core.bypassUseRs1 x.idAlu.inst) (Id.rs1 x.idAlu.inst) then i.loadBypassData
  else x.idAlu.rs1Data
def aluRs2Data : BitVec 64 :=
  if bypass i (Core.bypassUseRs2 x.idAlu.inst) (Id.rs2 x.idAlu.inst) then i.loadBypassData
  else x.idAlu.rs2Data
def aluIn : IdAlu := { x.idAlu with rs1Data := aluRs1Data x i, rs2Data := aluRs2Data x i }

def intrIn : IntrCtrl.In :=
  { req := CsrReg.intrReq x.csr i.intr
    ecall := Alu.ecall x.idAlu.info
    ebreak := Alu.ebreak x.idAlu.info
    mret := Alu.mret x.idAlu.info
    pc := x.idAlu.pc
    inst := x.idAlu.inst
    mtvec := x.csr.mtvec
    mepc := x.csr.mepc
    mstatus := x.csr.mstatus }

def csrRdata : BitVec 64 := CsrReg.rdata x.csr (Alu.csrAddr x.idAlu)
def csrIn : CsrReg.In :=
  { intrSource := i.intr
    wdata := Alu.csrWdata (aluIn x i) (csrRdata x)
    wen := Alu.csrReq x.idAlu.info
    addr := Alu.csrAddr x.idAlu
    intrWen := IntrCtrl.csrWen (intrIn x i)
    intrMstatus := IntrCtrl.wmstatus (intrIn x i)
    intrMepc := IntrCtrl.wmepc (intrIn x i)
    intrMcause := IntrCtrl.wmcause (intrIn x i)
    intrMtval := IntrCtrl.wmtval (intrIn x i) }

/-- The divider as this cycle sees it, and what `o_exu_idu_data` carries. -/
def divNow : Div.State := x.div.settle i.flush
def rdData : BitVec 64 := Alu.rdWdata (aluIn x i) (divNow x i) (csrRdata x)

def next : Core.Exu :=
  { idAlu := reg i.flush IdAlu.bubble (!i.stall) (idAluNs i) x.idAlu
    predictPt := reg i.flush false (!i.stall) i.predictPt x.predictPt
    div := Div.next i.flush x.div (Alu.divIn (aluIn x i) i.stall)
    csr := CsrReg.next x.csr (csrIn x i) }

end Wires

def reset (x : Core.Exu) : Core.Exu :=
  { idAlu := IdAlu.bubble, predictPt := false, div := x.div.reset, csr := CsrReg.resetState }

def machine : Clocked.Machine Core.Exu In := { next := next }

theorem decoded_next {x : Core.Exu} (h : x.idAlu.Decoded) (i : In) : (next x i).idAlu.Decoded := by
  change (reg i.flush IdAlu.bubble (!i.stall) (idAluNs i) x.idAlu).Decoded
  cases i.flush with
  | true => exact .inr rfl
  | false =>
    cases i.stall with
    | true => exact h
    | false => exact .inl ⟨rfl, rfl, rfl⟩

theorem decoded_run {x : Core.Exu} (h : x.idAlu.Decoded) (i : Nat → In) (n : Nat) :
    (machine.run x i n).idAlu.Decoded :=
  machine.run_invariant (P := fun x => x.idAlu.Decoded) h (fun _ a h => decoded_next h a) n

end Exu

namespace Core

/-- What the core feeds its EXU. -/
def exuIn (s : State) (i : In) : Exu.In :=
  { inst := s.idu.ifId.inst, pc := s.idu.ifId.pc, predictPt := s.idu.ifId.predictPt
    rs1Data := iduRsData s i (Id.rs1 s.idu.ifId.inst)
    rs2Data := iduRsData s i (Id.rs2 s.idu.ifId.inst)
    loadBypassVld := Lsu.loadBypassVld s.lsu i.rsp
    loadBypassRd := s.lsu.mem.rdIndex
    loadBypassData := Lsu.iduData s.lsu i.rsp
    flush := flushExu s i, stall := stallExu s i, intr := i.intr }

/-- The EXU inside the core takes a step of the machine. -/
theorem exuNext_eq (s : State) (i : In) : exuNext s i = Exu.next s.exu (exuIn s i) := rfl

theorem exuRdData_eq (s : State) (i : In) : exuRdData s i = Exu.rdData s.exu (exuIn s i) := rfl

end Core

end Rv64imCore
