import Rv64imCore.Bus

/-! `rv64im_core_axi_rw`, without the constant side-band signals. -/

namespace Rv64imCore.Axi
set_option autoImplicit true

structure State where
  m0Rget : Bool
  arOver : Bool
  awOver : Bool
  wOver : Bool
  deriving DecidableEq, Inhabited

def resetState : State := { m0Rget := false, arOver := false, awOver := false, wOver := false }

/-- The two masters and the slave's side of the five channels. -/
structure In where
  m0 : Abr
  m1 : Abr
  awReady : Bool
  wReady : Bool
  bValid : Bool
  arReady : Bool
  rValid : Bool
  rData : BitVec 64

variable (s : State) (i : In)

def m0Ren : Bool := i.m0.valid && !i.m0.wen
def m1Ren : Bool := i.m1.valid && !i.m1.wen
def m1Wen : Bool := i.m1.valid && i.m1.wen

def rReady : Bool := s.arOver
def bReady : Bool := s.awOver && s.wOver
def rOver : Bool := i.rValid && rReady s
def bOver : Bool := i.bValid && bReady s

def m0Valid : Bool := (m0Ren i && !m1Ren i) || s.m0Rget

def arValid : Bool := (m0Ren i || m1Ren i) && !s.arOver
def arAddr : BitVec 32 := if m0Valid s i then i.m0.addr else i.m1.addr
def awValid : Bool := m1Wen i && !s.awOver
def awAddr : BitVec 32 := i.m1.addr
def wValid : Bool := m1Wen i && !s.wOver
def wData : BitVec 64 := i.m1.wdata
def wStrb : BitVec 8 := i.m1.wmask
def wLast : Bool := false

def m0Rdata : BitVec 64 := if m0Ren i then i.rData else 0
def m1Rdata : BitVec 64 := if m1Ren i then i.rData else 0
def m0Rdy : Bool := m0Valid s i && rOver s i
def m1Rdy : Bool := bOver s i || (!m0Valid s i && rOver s i)

def next : State :=
  { m0Rget := if m0Ren i && !m1Ren i then true else if rOver s i then false else s.m0Rget
    arOver := if rOver s i then false else if i.arReady && arValid s i then true else s.arOver
    awOver := if bOver s i then false else if i.awReady && awValid s i then true else s.awOver
    wOver := if bOver s i then false else if i.wReady && wValid s i then true else s.wOver }

end Rv64imCore.Axi
