import Rv64imCore.Units

/-! `rv64im_core_csr_reg` and `rv64im_core_intr_ctrl`. -/

namespace Rv64imCore
set_option autoImplicit true

namespace CsrReg

structure State where
  mstatus : BitVec 64
  mtvec : BitVec 64
  mepc : BitVec 64
  mcause : BitVec 64
  mtval : BitVec 64
  mie : BitVec 64
  mip : BitVec 64
  cycle : BitVec 64
  deriving DecidableEq, Inhabited

structure In where
  intrSource : BitVec 3
  wdata : BitVec 64
  wen : Bool
  addr : BitVec 12
  intrWen : Bool
  intrMstatus : BitVec 64
  intrMepc : BitVec 64
  intrMcause : BitVec 64
  intrMtval : BitVec 64

def resetState : State :=
  { mstatus := 0, mtvec := 0, mepc := 0, mcause := 0, mtval := 0, mie := 0x888, mip := 0,
    cycle := 0 }

def mcycle (s : State) : BitVec 32 := s.cycle.extractLsb' 0 32
def mcycleh (s : State) : BitVec 32 := s.cycle.extractLsb' 32 32

def rdata (s : State) (addr : BitVec 12) : BitVec 64 :=
  mask (addr == 0x300#12) s.mstatus ||| mask (addr == 0x305#12) s.mtvec
    ||| mask (addr == 0x341#12) s.mepc ||| mask (addr == 0x342#12) s.mcause
    ||| mask (addr == 0x343#12) s.mtval ||| mask (addr == 0x304#12) s.mie
    ||| mask (addr == 0x344#12) s.mip ||| mask (addr == 0xc00#12) (0#32 ++ mcycle s)
    ||| mask (addr == 0xc80#12) (0#32 ++ mcycleh s)

/-- The machine CSRs that both an instruction and a trap write share this enable and data. -/
def trapWen (i : In) (addr : BitVec 12) : Bool := (i.wen && i.addr == addr) || i.intrWen
def trapWdata (i : In) (intrData : BitVec 64) : BitVec 64 :=
  if i.intrWen then intrData else i.wdata

def mipWdata (source : BitVec 3) : BitVec 64 :=
  0#52 ++ source.extractLsb' 2 1 ++ 0#3 ++ source.extractLsb' 0 1 ++ 0#3
    ++ source.extractLsb' 1 1 ++ 0#3

def next (s : State) (i : In) : State :=
  { mstatus := reg false 0 (trapWen i 0x300) (trapWdata i i.intrMstatus) s.mstatus
    mtvec := reg false 0 (i.wen && i.addr == 0x305#12) i.wdata s.mtvec
    mepc := reg false 0 (trapWen i 0x341) (trapWdata i i.intrMepc) s.mepc
    mcause := reg false 0 (trapWen i 0x342) (trapWdata i i.intrMcause) s.mcause
    mtval := reg false 0 (trapWen i 0x343) (trapWdata i i.intrMtval) s.mtval
    mie := reg false 0x888 (i.wen && i.addr == 0x304#12) i.wdata s.mie
    mip := mipWdata i.intrSource
    cycle := s.cycle + 1 }

/-- `o_cr_intr_req`, in the order external, software, timer. -/
def intrReq (s : State) (source : BitVec 3) : BitVec 3 :=
  BitVec.ofBoolListBE [s.mie.getLsbD 11 && source.getLsbD 2, s.mie.getLsbD 3 && source.getLsbD 1,
    s.mie.getLsbD 7 && source.getLsbD 0]

end CsrReg

namespace IntrCtrl

structure In where
  req : BitVec 3
  ecall : Bool
  ebreak : Bool
  mret : Bool
  pc : BitVec 64
  inst : BitVec 32
  mtvec : BitVec 64
  mepc : BitVec 64
  mstatus : BitVec 64

variable (i : In)

def syncIntr : Bool := i.ecall
def mretIntr : Bool := i.mret
def globalIntrEn : Bool := i.mstatus.getLsbD 3
def timeIntr : Bool := globalIntrEn i && i.req.getLsbD 0
def softwareIntr : Bool := globalIntrEn i && i.req.getLsbD 1
def externalIntr : Bool := globalIntrEn i && i.req.getLsbD 2
def externalIntrSel : Bool := externalIntr i
def softwareIntrSel : Bool := softwareIntr i && !externalIntr i
def timeIntrSel : Bool := timeIntr i && !externalIntr i && !softwareIntr i
/-- An asynchronous interrupt waits while EX holds a bubble, whose pc is zero. -/
def asyncIntr : Bool :=
  (externalIntrSel i || softwareIntrSel i || timeIntrSel i) && i.pc != 0

def intrReq : Bool := syncIntr i || asyncIntr i
def intrExit : Bool := mretIntr i
def flushEn : Bool := intrReq i || intrExit i
def flushAddr : BitVec 64 :=
  mask (intrReq i) (i.mtvec.extractLsb' 2 62 ++ 0#2) ||| mask (intrExit i) i.mepc

def csrWen : Bool := intrReq i || intrExit i
def wmepc : BitVec 64 := if intrReq i then i.pc else 0
def wmstatus : BitVec 64 :=
  mask (intrReq i) (i.mstatus.extractLsb' 8 56 ++ i.mstatus.extractLsb' 3 1
      ++ i.mstatus.extractLsb' 4 3 ++ 0#1 ++ i.mstatus.extractLsb' 0 3)
    ||| mask (intrExit i) (i.mstatus.extractLsb' 8 56 ++ 1#1
      ++ i.mstatus.extractLsb' 4 3 ++ i.mstatus.extractLsb' 7 1 ++ i.mstatus.extractLsb' 0 3)
def wmcause : BitVec 64 :=
  if i.ecall then 11
  else if i.ebreak then 3
  else if externalIntrSel i then 0x800000000000000b
  else if softwareIntrSel i then 0x8000000000000003
  else if timeIntrSel i then 0x8000000000000007
  else 0
def wmtval : BitVec 64 := if syncIntr i then 0#32 ++ i.inst else 0

end IntrCtrl

end Rv64imCore
