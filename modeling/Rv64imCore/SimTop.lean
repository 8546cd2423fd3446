import Rv64imCore.Top

/-! `rv64im_core_sim_top`: the core with the memory of the simulator and the trace of its
write-back, and `exec_once` of `sim_main.cpp`. -/

namespace Rv64imCore.Sim
set_option autoImplicit true

/-- The registers of the trace. -/
structure Trace where
  memPc : BitVec 64
  wbuPc : BitVec 64
  wbBuff : Bool
  intrBuff : Bool
  deviceSign : Bool
  deriving DecidableEq, Inhabited

/-- `wb_buff` has no reset, and the simulator starts it at zero. -/
def Trace.reset : Trace :=
  { memPc := 0x80000000, wbuPc := 0x80000000, wbBuff := false, intrBuff := false
    deviceSign := false }

section Trace
variable (w : Trace) (s : Core.State) (i : Core.In)

def asyncIntr : Bool := Core.aluIntr s i.toEarly
def wbWait : Bool := Core.stallWbu s i

def wbStart : Bool := w.memPc == 0x80000004
def wbSign : Bool := wbStart w || (w.wbBuff && w.wbuPc != 0 && !wbWait s i)
def wbPc : BitVec 64 := w.wbuPc
def wbIntr : Bool := w.intrBuff && w.wbuPc == s.exu.csr.mtvec
def intrNum : BitVec 64 := s.exu.csr.mcause
def wbDevice : Bool := w.deviceSign

def wbLsReq : Bool := s.lsu.mem.req
def wbLsIsDevice : Bool :=
  s.lsu.mem.addr.extractLsb' 28 4 == 0xa || s.lsu.mem.addr.extractLsb' 28 4 == 0x2

def Trace.next : Trace :=
  { memPc := if wbWait s i then w.memPc else if asyncIntr s i then 0 else s.exu.idAlu.pc
    wbuPc := if wbWait s i then w.wbuPc else w.memPc
    wbBuff := wbStart w || w.wbBuff
    intrBuff := if asyncIntr s i then true
      else if wbSign w s i && w.wbuPc == s.exu.csr.mtvec then false
      else w.intrBuff
    deviceSign := if wbWait s i then w.deviceSign else wbLsReq s && wbLsIsDevice s }

/-- A call of `exec_once` on the reference. -/
inductive Difftest where
  | step
  | raiseIntr (no : BitVec 64)
  | check
  | skipRef
  deriving DecidableEq

/-- `exec_once`, with the counter `wb_num`. -/
def execOnce (wbNum : Nat) : Nat × List Difftest :=
  if wbSign w s i then
    (wbNum + 1,
      if wbNum ≠ 0 then
        [.step] ++ (if wbIntr w s then [.raiseIntr (intrNum s)] else []) ++ [.check]
          ++ (if wbDevice w then [.skipRef] else [])
      else [])
  else (wbNum, [])

end Trace

structure State where
  top : Top.State
  trace : Trace
  raddr : BitVec 32
  deriving Inhabited

def State.reset (s : State) : State := { s with top := s.top.reset, trace := Trace.reset }

/-- What `mem_read` returns in a cycle. -/
structure In where
  memRead : BitVec 32 → Bool → BitVec 64

section Wires
variable (s : State) (i : In)

/-- The bridge's outputs depend on no input of the memory. -/
def axiOut : Axi.In :=
  Top.axiIn s.top { awReady := false, wReady := false, bValid := false, arReady := false
                    rValid := false, rData := 0 }

/-- The memory takes and answers at once. -/
def topIn : Top.In :=
  { awReady := Axi.awValid s.top.axi (axiOut s)
    wReady := Axi.wValid s.top.axi (axiOut s)
    bValid := Axi.bReady s.top.axi
    arReady := Axi.arValid s.top.axi (axiOut s)
    rValid := Axi.rReady s.top.axi
    rData := i.memRead s.raddr (Axi.rReady s.top.axi) }

def coreIn : Core.In := Sys.coreIn s.top.sys (Top.sysIn s.top (topIn s i))

def next : State :=
  { top := Top.next s.top (topIn s i)
    trace := s.trace.next s.top.sys.core (coreIn s i)
    raddr := Axi.arAddr s.top.axi (axiOut s) }

end Wires

/-- `rv64im_core_sim_top`. -/
def machine : Clocked.Machine State In := { next := next }

end Rv64imCore.Sim
