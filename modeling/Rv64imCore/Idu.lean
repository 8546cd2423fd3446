import Rv64imCore.Decode

/-! `rv64im_core_if_id`, `rv64im_core_regfile` and `rv64im_core_idu`. -/

namespace Rv64imCore
set_option autoImplicit true

/-- A register-file write port or forwarding path: enable, index and data. -/
structure RdPort where
  wen : Bool
  index : BitVec 5
  data : BitVec 64
  deriving Inhabited

namespace Regfile

/-- The operand-use tables, which `rv64im_core_exu` repeats for its bypass. -/
def useRs1 (inst : BitVec 32) : Bool :=
  Id.opcode inst == 0b0110011#7 || Id.opcode inst == 0b0111011#7
    || Id.opcode inst == 0b0100011#7 || Id.opcode inst == 0b1100011#7
    || Id.opcode inst == 0b0000011#7 || Id.opcode inst == 0b0010011#7
    || Id.opcode inst == 0b0011011#7 || Id.opcode inst == 0b1100111#7
    || (Id.opcode inst == 0b1110011#7 && !(Id.fun3 inst).ult 0b001#3
      && !(0b011#3).ult (Id.fun3 inst))
def useRs2 (inst : BitVec 32) : Bool :=
  Id.opcode inst == 0b0110011#7 || Id.opcode inst == 0b0111011#7
    || Id.opcode inst == 0b0100011#7 || Id.opcode inst == 0b1100011#7

/-- `o_rf_id_flush_ex`, the load-use hazard. -/
def idFlushEx (inst : BitVec 32) (exuLoad exuRdWen : Bool) (exuRdIndex : BitVec 5) : Bool :=
  exuRdWen && exuLoad && exuRdIndex != 0
    && ((useRs1 inst && Id.rs1 inst == exuRdIndex) || (useRs2 inst && Id.rs2 inst == exuRdIndex))

/-- `o_rf_rs1_data` and `o_rf_rs2_data`: the forwarding multiplexer for one source index. -/
def rsData (regs : BitVec 5 → BitVec 64) (index : BitVec 5) (exuLoad : Bool)
    (exu mem wbu : RdPort) : BitVec 64 :=
  if index == 0 then 0
  else if index == exu.index && exu.wen && !exuLoad then exu.data
  else if index == mem.index && mem.wen then mem.data
  else if index == wbu.index && wbu.wen then wbu.data
  else regs index

/-- Register 0 is the constant zero and is never written. -/
def next (regs : BitVec 5 → BitVec 64) (wbStall : Bool) (wbu : RdPort) : BitVec 5 → BitVec 64 :=
  fun r => if r = 0 then 0
    else reg false 0 (wbu.wen && !wbStall && wbu.index == r) wbu.data (regs r)

end Regfile

namespace Idu

/-- The IF/ID register and the prediction bit that travels with it. -/
structure IfId where
  inst : BitVec 32
  pc : BitVec 64
  predictPt : Bool
  deriving DecidableEq, Inhabited

def IfId.bubble : IfId := { inst := instNop, pc := 0, predictPt := false }

structure State where
  ifId : IfId
  regs : BitVec 5 → BitVec 64
  deriving Inhabited

def resetState : State := { ifId := IfId.bubble, regs := fun _ => 0 }

/-- What the fetch unit hands over in a cycle. -/
structure Fetched where
  vld : Bool
  pc : BitVec 64
  inst : BitVec 32
  predictPt : Bool

def ifIdNs (f : Fetched) : IfId :=
  { inst := if f.vld then f.inst else instNop
    pc := if f.vld then f.pc else 0
    predictPt := f.predictPt }

def next (s : State) (f : Fetched) (flush stall wbStall : Bool) (wbu : RdPort) : State :=
  { ifId := reg flush IfId.bubble (!stall) (ifIdNs f) s.ifId
    regs := Regfile.next s.regs wbStall wbu }

end Idu

end Rv64imCore
