import Rv64imCore.Axi
import Rv64imCore.Clocked
import Rv64imCore.Core

/-! The wiring of `rv64im_core_top`, in two steps: the core with its data side, whose instruction
port and memory bus stay open, and the whole top with the I-cache and the AXI bridge. -/

namespace Rv64imCore
set_option autoImplicit true

/-- A value for each slave of the data bus: D-cache, CLINT, devices. -/
def slaves (dcache clint device : α) : Fin 3 → α
  | 0 => dcache
  | 1 => clint
  | 2 => device

namespace Sys

structure State where
  core : Core.State
  csFf : Fin 3 → Bool
  dcache : Dcache.State 6
  clint : Clint.State
  atob : AtoB.State
  deriving Inhabited

def State.reset (s : State) : State :=
  { core := s.core.reset, csFf := fun _ => false, dcache := s.dcache.reset
    clint := Clint.resetState, atob := s.atob.reset }

/-- The instruction port of the core and the slave side of `rv64im_core_2to1`. -/
structure In where
  ifuReqRdy : Bool
  ifuRspVld : Bool
  ifuRdata : BitVec 64
  busRdata : BitVec 64
  busReady : Bool

section Wires
variable (s : State) (i : In)

/-- `m1_vld` and its fellows: the D-cache on the memory bus. -/
def m1 : Abr :=
  { valid := Dcache.abrValid s.dcache, wen := Dcache.abrWen s.dcache
    addr := Dcache.abrAddr s.dcache, wdata := Dcache.abrWdata s.dcache
    wmask := Dcache.abrWmask }
/-- `m2_vld` and its fellows: the device bridge. -/
def m2 : Abr := AtoB.abr s.atob
def m3 : Abr := TwoToOne.abr (m2 s) (m1 s)
def m1Rdy : Bool := TwoToOne.ready (m1 s) i.busReady
def m1Rdata : BitVec 64 := TwoToOne.rdata (m1 s) i.busRdata
def m2Rdy : Bool := TwoToOne.ready (m2 s) i.busReady
def m2Rdata : BitVec 64 := TwoToOne.rdata (m2 s) i.busRdata

def sRspVld : Fin 3 → Bool :=
  slaves (Dcache.memRspVld s.dcache) (Clint.rspVld s.clint) (AtoB.rspVld s.atob (m2Rdy s i))
def sRdata : Fin 3 → BitVec 64 :=
  slaves (Dcache.memRdata s.dcache) s.clint.rdata (AtoB.rspRdata s.atob (m2Rdy s i) (m2Rdata s i))
def sRspRdy (k : Fin 3) : Bool := s.csFf k && s.core.lsu.rspRdy

def rsp : Lsu.Rsp :=
  { vld := OneToN.rspVld s.csFf (sRspVld s i), rdata := OneToN.rdata s.csFf (sRdata s i) }
def coreIntr : BitVec 3 :=
  BitVec.ofBoolListBE [false, Clint.msipOut s.clint, Clint.mtip s.clint]
def early : Core.Early := { rsp := rsp s i, intr := coreIntr s }

def lsuAddr : BitVec 64 := Core.lsuAddr s.core (early s i)
def cs : Fin 3 → Bool := OneToN.cs (lsuAddr s i)
def sReqRdy : Fin 3 → Bool :=
  slaves (Dcache.memReqRdy s.dcache (sRspRdy s 0)) (Clint.reqRdy s.clint) s.atob.reqRdy
def lsuReqRdy : Bool := OneToN.reqRdy (cs s i) (sReqRdy s)
def lsuReqHit : Bool :=
  cs s i 0 && Dcache.memReqHit s.dcache (sRspRdy s 0) ((lsuAddr s i).extractLsb' 0 32)

def coreIn : Core.In :=
  { toEarly := early s i, lsuReqRdy := lsuReqRdy s i, lsuReqHit := lsuReqHit s i
    ifuReqRdy := i.ifuReqRdy, ifuRspVld := i.ifuRspVld, ifuRdata := i.ifuRdata }

def lsuReqVld : Bool := Core.lsuReqVld s.core (coreIn s i)
def req (k : Fin 3) : Req :=
  { vld := cs s i k && lsuReqVld s i
    wen := Core.lsuWen s.core
    addr := (lsuAddr s i).extractLsb' 0 32
    wdata := Core.lsuWdata s.core (early s i)
    wmask := Core.lsuWmask s.core (early s i) }

def dcacheIn : Dcache.In :=
  { reqVld := (req s i 0).vld, wen := (req s i 0).wen, addr := (req s i 0).addr
    wdata := (req s i 0).wdata, wmask := (req s i 0).wmask, rspRdy := sRspRdy s 0
    abrRdata := m1Rdata s i, abrReady := m1Rdy s i }

def next : State :=
  { core := Core.next s.core (coreIn s i)
    csFf := OneToN.next s.csFf (cs s i) (lsuReqVld s i)
    dcache := Dcache.next s.dcache (dcacheIn s i)
    clint := Clint.next s.clint (req s i 1) (sRspRdy s 1)
    atob := AtoB.next s.atob (req s i 2) (sRspRdy s 2) (m2Rdy s i) (m2Rdata s i) }

end Wires

/-- The core, the decoder and its three slaves. -/
def machine : Clocked.Machine State In := { next := next }

end Sys

namespace Top

structure State where
  sys : Sys.State
  icache : Dcache.State 6
  axi : Axi.State
  deriving Inhabited

def State.reset (s : State) : State :=
  { sys := s.sys.reset, icache := s.icache.reset, axi := Axi.resetState }

/-- The AXI slave's side of the five channels. -/
structure In where
  awReady : Bool
  wReady : Bool
  bValid : Bool
  arReady : Bool
  rValid : Bool
  rData : BitVec 64

section Wires
variable (s : State) (i : In)

/-- `m0_vld` and its fellows: the I-cache on the memory bus. -/
def m0 : Abr :=
  { valid := Dcache.abrValid s.icache, wen := Dcache.abrWen s.icache
    addr := Dcache.abrAddr s.icache, wdata := Dcache.abrWdata s.icache
    wmask := Dcache.abrWmask }

def axiIn : Axi.In :=
  { m0 := m0 s, m1 := Sys.m3 s.sys, awReady := i.awReady, wReady := i.wReady
    bValid := i.bValid, arReady := i.arReady, rValid := i.rValid, rData := i.rData }

def sysIn : Sys.In :=
  { ifuReqRdy := Dcache.memReqRdy s.icache s.sys.core.ifu.rspRdy
    ifuRspVld := Dcache.memRspVld s.icache
    ifuRdata := Dcache.memRdata s.icache
    busRdata := Axi.m1Rdata (axiIn s i)
    busReady := Axi.m1Rdy s.axi (axiIn s i) }

def ifuIn : Ifu.In := Core.ifuIn s.sys.core (Sys.coreIn s.sys (sysIn s i))

def icacheIn : Dcache.In :=
  { reqVld := Ifu.reqVld s.sys.core.ifu (ifuIn s i)
    wen := false
    addr := (Ifu.addr s.sys.core.ifu (ifuIn s i)).extractLsb' 0 32
    wdata := 0
    wmask := 0
    rspRdy := s.sys.core.ifu.rspRdy
    abrRdata := Axi.m0Rdata (axiIn s i)
    abrReady := Axi.m0Rdy s.axi (axiIn s i) }

def next : State :=
  { sys := Sys.next s.sys (sysIn s i)
    icache := Dcache.next s.icache (icacheIn s i)
    axi := Axi.next s.axi (axiIn s i) }

end Wires

/-- `rv64im_core_top`. -/
def machine : Clocked.Machine State In := { next := next }

end Top

end Rv64imCore
