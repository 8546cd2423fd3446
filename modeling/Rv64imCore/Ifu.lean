import Rv64imCore.Alu
import Rv64imCore.Idu

/-! `rv64im_core_satcnt`, `rv64im_core_ras` and `rv64im_core_ifu`, with `SAT_CNT`, `RAS` and
`TIME_OPT` defined as in `rv64im_core_defines`. -/

namespace Rv64imCore
set_option autoImplicit true

/-- What a branch in EX tells the predictors. -/
structure Bx where
  cond : Bool
  pc : BitVec 64
  pt : Bool
  push : Bool
  pop : Bool

namespace Satcnt

structure State where
  satCnt : BitVec 10 → BitVec 2
  cntVld : BitVec 10 → Bool
  cntVal : BitVec 2
  predVld : Bool
  deriving Inhabited

/-- The generate loop stops one short of the depth: the last entry has no reset and no update. -/
def generated (k : BitVec 10) : Bool := k != 1023#10

def State.reset (s : State) : State :=
  { satCnt := fun k => if generated k then 0b10 else s.satCnt k
    cntVld := fun k => if generated k then false else s.cntVld k
    cntVal := 0
    predVld := false }

def index (pc : BitVec 64) : BitVec 10 := pc.extractLsb' 2 10

def cntNext (c : BitVec 2) (pt : Bool) : BitVec 2 :=
  if pt && c != 0b11 then c + 1 else if !pt && c != 0b00 then c - 1 else c

def next (s : State) (bx : Bx) (predPc : BitVec 64) (predEn : Bool) : State :=
  { satCnt := fun k =>
      if generated k && index bx.pc == k && bx.cond then cntNext (s.satCnt k) bx.pt else s.satCnt k
    cntVld := fun k => if generated k && index bx.pc == k && bx.cond then true else s.cntVld k
    cntVal := reg false 0 predEn (s.satCnt (index predPc)) s.cntVal
    predVld := reg false false predEn (s.cntVld (index predPc)) s.predVld }

def predPt (s : State) : Bool := s.cntVal.getLsbD 1

end Satcnt

namespace Ras

structure State where
  wptr : BitVec 5
  tgtVld : BitVec 5 → Bool
  retTgt : BitVec 5 → BitVec 64
  deriving Inhabited

def State.reset (s : State) : State := { s with wptr := 0, tgtVld := fun _ => false }

def rptr (s : State) : BitVec 5 := s.wptr - 1
def popVld (s : State) : Bool := s.tgtVld (rptr s)
def popTgt (s : State) : BitVec 64 := s.retTgt (rptr s)

def next (s : State) (push pop : Bool) (pushTgt : BitVec 64) : State :=
  { wptr := reg false 0 (push || pop)
      (s.wptr + BitVec.setWidth 5 (BitVec.ofBool push) - BitVec.setWidth 5 (BitVec.ofBool pop))
      s.wptr
    retTgt := fun k => if push && k == s.wptr then pushTgt else s.retTgt k
    tgtVld := fun k =>
      if push && !pop && k == s.wptr then true
      else if !push && pop && k == rptr s then false
      else s.tgtVld k }

end Ras

namespace Ifu

structure State where
  pc : BitVec 64
  flush : Bool
  flushAddr : BitVec 64
  instOfStall : BitVec 32
  dataStallVld : Bool
  rspRdy : Bool
  satcnt : Satcnt.State
  ras : Ras.State
  deriving Inhabited

/-- `RV64IM_CORE_PC_RESET_ADDR`. -/
def pcResetAddr : BitVec 64 := 0x000000007FFFFFFC

def State.reset (s : State) : State :=
  { pc := pcResetAddr, flush := false, flushAddr := 0, instOfStall := 0, dataStallVld := false,
    rspRdy := false, satcnt := s.satcnt.reset, ras := s.ras.reset }

/-- The pipeline controller, the instruction cache and the predictor updates of one cycle. -/
structure In where
  flush : Bool
  flushAddr : BitVec 64
  stall : Bool
  reqRdy : Bool
  rspVld : Bool
  rdata : BitVec 64
  bx : Bx

variable (s : State) (i : In)

def dataShake : Bool := s.rspRdy && i.rspVld
def ifStall : Bool := i.stall && !i.flush

/-- `inst_ok`, also `o_if_vld`. -/
def instOk : Bool := (dataShake s i || s.dataStallVld) && !i.stall && !(i.flush || s.flush)
def instOfCache : BitVec 32 :=
  if s.pc.getLsbD 2 then i.rdata.extractLsb' 32 32 else i.rdata.extractLsb' 0 32
/-- `o_if_inst`. -/
def inst : BitVec 32 :=
  if instOk s i then (if s.dataStallVld then s.instOfStall else instOfCache s i) else instNop
/-- `o_if_pc`. -/
def ifPc : BitVec 64 := if instOk s i then s.pc else 0

def uncondJump (inst : BitVec 32) : Bool := Id.opcode inst == 0b1101111#7
def condBxx (inst : BitVec 32) : Bool :=
  Id.opcode inst == 0b1100011#7 && Id.fun3 inst != 0b010#3 && Id.fun3 inst != 0b011#3
def pcOffset (inst : BitVec 32) : BitVec 64 :=
  if uncondJump inst then
    BitVec.fill 43 (inst.getLsbD 31) ++ inst.extractLsb' 31 1 ++ inst.extractLsb' 12 8
      ++ inst.extractLsb' 20 1 ++ inst.extractLsb' 21 10 ++ 0#1
  else
    BitVec.fill 51 (inst.getLsbD 31) ++ inst.extractLsb' 31 1 ++ inst.extractLsb' 7 1
      ++ inst.extractLsb' 25 6 ++ inst.extractLsb' 8 4 ++ 0#1

def condPt (inst : BitVec 32) : Bool := s.satcnt.predVld && Satcnt.predPt s.satcnt && condBxx inst
/-- `dirbrn_pt`, also `o_if_predict_pt`. -/
def dirbrnPt (inst : BitVec 32) : Bool :=
  if condBxx inst then (if s.satcnt.predVld then condPt s inst else inst.getLsbD 31)
  else uncondJump inst

def pushTgt : BitVec 64 := i.bx.pc + 4
def retTgt : BitVec 64 := if i.bx.push then pushTgt i else Ras.popTgt s.ras

/-- The successor that the fetch unit chooses for a delivered instruction. -/
def succPc (inst : BitVec 32) : BitVec 64 :=
  if Alu.isReturn inst && Ras.popVld s.ras then retTgt s i
  else if dirbrnPt s inst then s.pc + pcOffset inst
  else s.pc + 4

def pcNext : BitVec 64 := if s.flush then s.flushAddr else succPc s i (inst s i)

def reqVld : Bool := !(s.rspRdy && !i.rspVld) && !(i.stall || i.flush)
def addr : BitVec 64 := (pcNext s i).extractLsb' 2 62 ++ 0#2
def addrShake : Bool := i.reqRdy && reqVld s i

def fetched : Idu.Fetched :=
  { vld := instOk s i, pc := ifPc s i, inst := inst s i, predictPt := dirbrnPt s (inst s i) }

def next : State :=
  { pc := reg false pcResetAddr (addrShake s i) (pcNext s i) s.pc
    flush := if i.flush && !addrShake s i then true
      else if s.flush && addrShake s i then false else s.flush
    flushAddr := reg false 0 i.flush i.flushAddr s.flushAddr
    instOfStall := reg false 0 (dataShake s i && ifStall i) (instOfCache s i) s.instOfStall
    dataStallVld := if dataShake s i && ifStall i then true
      else if s.dataStallVld && !ifStall i then false else s.dataStallVld
    rspRdy := if addrShake s i then true else if dataShake s i then false else s.rspRdy
    satcnt := Satcnt.next s.satcnt i.bx (pcNext s i) (addrShake s i)
    ras := Ras.next s.ras i.bx.push i.bx.pop (pushTgt i) }

end Ifu

end Rv64imCore
