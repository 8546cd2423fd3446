import Rv64imCore.Bytes
import Rv64imCore.Units

/-! `rv64im_core_sram64x64` (the model without `ASIC_SRAM`), `rv64im_core_ram` and
`rv64im_core_dcache`. The four copies of each per-way array and wire are one function of the way. -/

namespace Rv64imCore
set_option autoImplicit true

namespace Sram

structure State where
  mem : BitVec 6 → BitVec 64
  rdataQ : BitVec 64
  deriving Inhabited

def next (s : State) (cs wen : Bool) (addr : BitVec 6) (wdata : BitVec 64) (wmask : BitVec 8) :
    State :=
  { mem := fun a =>
      if cs && wen && a == addr then Bytes.merge wmask wdata (s.mem a) else s.mem a
    rdataQ := if cs then s.mem addr else s.rdataQ }

end Sram

/-- The or of four masked words, as the read multiplexers are written. -/
def orWays (f : Fin 4 → BitVec w) : BitVec w := f 3 ||| f 2 ||| f 1 ||| f 0
def anyWay (f : Fin 4 → Bool) : Bool := f 3 || f 2 || f 1 || f 0

namespace Ram

structure State where
  bankFf : BitVec 4
  banks : Fin 4 → Sram.State
  deriving Inhabited

/-- The array contents and the output registers of the SRAMs have no reset. -/
def State.reset (s : State) : State := { s with bankFf := 0 }

def rdata (s : State) : BitVec 64 :=
  orWays fun b => mask (s.bankFf.getLsbD b) (s.banks b).rdataQ

def next (s : State) (cs : Bool) (addr : BitVec 6) (bankSel : BitVec 4) (wen : Bool)
    (wmask : BitVec 8) (wdata : BitVec 64) : State :=
  { bankFf := reg false 0 cs bankSel s.bankFf
    banks := fun b => Sram.next (s.banks b) (cs && bankSel.getLsbD b) wen addr wdata wmask }

end Ram

namespace Dcache

def norm : BitVec 2 := 0b00
def wbus : BitVec 2 := 0b01
def rbus : BitVec 2 := 0b10

/-- The registers, for `2 ^ k` sets: `k` is `INDEX_SIZE`. -/
structure State (k : Nat) where
  state : BitVec 2
  tagArry : Fin 4 → BitVec k → BitVec (27 - k)
  /-- Bit 1 of `sign_arry`. -/
  dryArry : Fin 4 → BitVec k → Bool
  /-- Bit 0 of `sign_arry`. -/
  vldArry : Fin 4 → BitVec k → Bool
  plruArry : BitVec k → BitVec 3
  wenFf : Bool
  addrFf : BitVec 32
  vldC1 : Bool
  wayHitFf : Fin 4 → Bool
  wayVicFf : Fin 4 → Bool
  wmaskFf : BitVec 8
  wdataFf : BitVec 64
  vicAddrFf : BitVec 32
  wcnt : BitVec 2
  rramCnt : BitVec 2
  wbusEnFf : Bool
  wbusVld : Bool
  rcnt : BitVec 2
  rbusVld : Bool
  dataOfBus : BitVec 64
  rbusDoneFf : Bool
  ram : Fin 4 → Ram.State
  deriving Inhabited

def State.reset (s : State k) : State k :=
  { state := 0, tagArry := fun _ _ => 0, dryArry := fun _ _ => false, vldArry := fun _ _ => false
    plruArry := fun _ => 0, wenFf := false, addrFf := 0, vldC1 := false
    wayHitFf := fun _ => false, wayVicFf := fun _ => false, wmaskFf := 0, wdataFf := 0
    vicAddrFf := 0, wcnt := 0, rramCnt := 0, wbusEnFf := false, wbusVld := false, rcnt := 0
    rbusVld := false, dataOfBus := 0, rbusDoneFf := false, ram := fun w => (s.ram w).reset }

structure In where
  reqVld : Bool
  wen : Bool
  addr : BitVec 32
  wdata : BitVec 64
  wmask : BitVec 8
  rspRdy : Bool
  abrRdata : BitVec 64
  abrReady : Bool

def idxOf (k : Nat) (addr : BitVec 32) : BitVec k := addr.extractLsb' 5 k
def tagOf (k : Nat) (addr : BitVec 32) : BitVec (27 - k) := addr.extractLsb' (5 + k) (27 - k)
def bankOf (addr : BitVec 32) : BitVec 2 := addr.extractLsb' 3 2

section Outputs
variable (s : State k)

def stateIsNorm : Bool := s.state == norm
def stateIsWbus : Bool := s.state == wbus
def stateIsRbus : Bool := s.state == rbus

def memRspVld : Bool := s.vldC1
def stallC1 (rspRdy : Bool) : Bool := memRspVld s && !rspRdy
def memReqRdy (rspRdy : Bool) : Bool := stateIsNorm s && !stallC1 s rspRdy

def wayVld (addr : BitVec 32) (w : Fin 4) : Bool := s.vldArry w (idxOf k addr)
def wayDry (addr : BitVec 32) (w : Fin 4) : Bool := s.dryArry w (idxOf k addr)
def wayHit (addr : BitVec 32) (w : Fin 4) : Bool :=
  s.tagArry w (idxOf k addr) == tagOf k addr && wayVld s addr w
def memReqHit (rspRdy : Bool) (addr : BitVec 32) : Bool :=
  memReqRdy s rspRdy && anyWay (wayHit s addr)

/-- The victim the PLRU bits of a set point at. -/
def plruVic (p : BitVec 3) : Fin 4 → Bool
  | 3 => p.getLsbD 2 && p.getLsbD 0
  | 2 => !p.getLsbD 2 && p.getLsbD 0
  | 1 => p.getLsbD 1 && !p.getLsbD 0
  | 0 => !p.getLsbD 1 && !p.getLsbD 0
def wayVic (addr : BitVec 32) : Fin 4 → Bool := plruVic (s.plruArry (idxOf k addr))
def vicDry (addr : BitVec 32) : Bool :=
  anyWay fun w => wayVic s addr w && wayDry s addr w && wayVld s addr w

def dataOfRam : BitVec 64 := orWays fun w => mask (s.wayHitFf w) (Ram.rdata (s.ram w))
def memRdata : BitVec 64 := if s.rbusDoneFf then s.dataOfBus else dataOfRam s

def wbusAddr : BitVec 32 := s.vicAddrFf.extractLsb' 5 27 ++ s.wcnt ++ 0#3
def wbusData : BitVec 64 := orWays fun w => mask (s.wayVicFf w) (Ram.rdata (s.ram w))
def rbusAddr : BitVec 32 := s.addrFf.extractLsb' 5 27 ++ s.rcnt ++ 0#3

def abrValid : Bool := if stateIsWbus s then s.wbusVld else s.rbusVld
def abrAddr : BitVec 32 := if stateIsWbus s then wbusAddr s else rbusAddr s
def abrWen : Bool := stateIsWbus s
def abrWdata : BitVec 64 := wbusData s
def abrWmask : BitVec 8 := 0xff

end Outputs

section Next
variable (s : State k) (i : In)

def reqVld : Bool := i.reqVld && memReqRdy s i.rspRdy
def reqW : Bool := reqVld s i && i.wen
def reqHit : Bool := reqVld s i && anyWay (wayHit s i.addr)
def reqMiss : Bool := reqVld s i && !anyWay (wayHit s i.addr)

def woverOne : Bool := i.abrReady && s.wbusVld
def wbusDone : Bool := woverOne s i && s.wcnt == 0b11
def busRramVld : Bool := s.wbusEnFf || (woverOne s i && s.wcnt != 0b11)
def busWramVld : Bool := s.rbusVld && i.abrReady
def rbusDone : Bool := busWramVld s i && s.rcnt == 0b11

def wbusEn : Bool := reqMiss s i && vicDry s i.addr
def rbusEn : Bool := (reqMiss s i && !vicDry s i.addr) || wbusDone s i
def normEn : Bool := rbusDone s i
def stateEn : Bool := normEn s i || wbusEn s i || rbusEn s i
def stateNs : BitVec 2 :=
  mask (normEn s i) norm ||| mask (wbusEn s i) wbus ||| mask (rbusEn s i) rbus

def bankOfMiss : BitVec 2 := bankOf s.addrFf
def missWdata : BitVec 64 := Bytes.merge s.wmaskFf s.wdataFf i.abrRdata
def rbusData : BitVec 64 :=
  if s.wenFf && s.rcnt == bankOfMiss s then missWdata s i else i.abrRdata

def ramCs (w : Fin 4) : Bool :=
  (wayHit s i.addr w && reqVld s i) || (s.wayVicFf w && busWramVld s i)
    || (s.wayVicFf w && busRramVld s i)
def ramWen : Bool := (stateIsNorm s && i.wen) || (stateIsRbus s && busWramVld s i)
def ramAddr : BitVec k :=
  if stateIsWbus s then idxOf k s.vicAddrFf
  else if stateIsRbus s then idxOf k s.addrFf
  else idxOf k i.addr
def ramBankSel : BitVec 4 :=
  if stateIsWbus s then 1#4 <<< s.rramCnt
  else if stateIsRbus s then 1#4 <<< s.rcnt
  else 1#4 <<< bankOf i.addr
def ramWdata : BitVec 64 := if stateIsRbus s then rbusData s i else i.wdata
def ramWmask : BitVec 8 := if stateIsRbus s then 0xff else i.wmask

def vicTag : BitVec (27 - k) :=
  orWays fun w => mask (wayVic s i.addr w) (s.tagArry w (idxOf k i.addr))
def vicAddr : BitVec 32 := BitVec.setWidth 32 (vicTag s i ++ idxOf k i.addr ++ 0#5)

def vldC1Ns : Bool := if stallC1 s i.rspRdy then s.vldC1 else reqHit s i || rbusDone s i

def idxFf : BitVec k := idxOf k s.addrFf
def idxUpSel : BitVec k := if reqHit s i then idxOf k i.addr else idxFf s

def tagArryNs (w : Fin 4) : BitVec (27 - k) :=
  if rbusDone s i && s.wayVicFf w then tagOf k s.addrFf else s.tagArry w (idxFf s)
def signArryUpEn1 : Bool := (reqHit s i && reqW s i) || (rbusDone s i && s.wenFf)
def dryNs (w : Fin 4) : Bool :=
  if (reqHit s i && reqW s i && wayHit s i.addr w) || (rbusDone s i && s.wenFf && s.wayVicFf w)
  then true else s.dryArry w (idxUpSel s i)
def vldNs (w : Fin 4) : Bool :=
  if rbusDone s i && s.wayVicFf w then true else s.vldArry w (idxFf s)

/-- `hit_plru_up` and `mis_plru_up`: the bits after a use of the selected way. -/
def plruUp (way : Fin 4 → Bool) (p : BitVec 3) : BitVec 3 :=
  mask (way 3) (BitVec.ofBoolListBE [false, p.getLsbD 1, false])
    ||| mask (way 2) (BitVec.ofBoolListBE [true, p.getLsbD 1, false])
    ||| mask (way 1) (BitVec.ofBoolListBE [p.getLsbD 2, false, true])
    ||| mask (way 0) (BitVec.ofBoolListBE [p.getLsbD 2, true, true])
def plruArryNs : BitVec 3 :=
  if reqHit s i then plruUp (wayHit s i.addr) (s.plruArry (idxUpSel s i))
  else plruUp s.wayVicFf (s.plruArry (idxUpSel s i))

def next : State k :=
  { state := reg false 0 (stateEn s i) (stateNs s i) s.state
    tagArry := fun w j =>
      if rbusDone s i && j == idxFf s then tagArryNs s i w else s.tagArry w j
    dryArry := fun w j =>
      if signArryUpEn1 s i && j == idxUpSel s i then dryNs s i w else s.dryArry w j
    vldArry := fun w j => if rbusDone s i && j == idxFf s then vldNs s i w else s.vldArry w j
    plruArry := fun j =>
      if (reqHit s i || rbusDone s i) && j == idxUpSel s i then plruArryNs s i else s.plruArry j
    wenFf := reg false false (reqMiss s i) i.wen s.wenFf
    addrFf := reg false 0 (reqMiss s i) i.addr s.addrFf
    vldC1 := vldC1Ns s i
    wayHitFf := reg false (fun _ => false) (reqHit s i) (wayHit s i.addr) s.wayHitFf
    wayVicFf := reg false (fun _ => false) (reqMiss s i) (wayVic s i.addr) s.wayVicFf
    wmaskFf := reg false 0 (reqMiss s i) i.wmask s.wmaskFf
    wdataFf := reg false 0 (reqMiss s i) i.wdata s.wdataFf
    vicAddrFf := reg false 0 (reqMiss s i) (vicAddr s i) s.vicAddrFf
    wcnt := reg false 0 (woverOne s i) (s.wcnt + 1) s.wcnt
    rramCnt := reg false 0 (busRramVld s i) (s.rramCnt + 1) s.rramCnt
    wbusEnFf := wbusEn s i
    wbusVld := busRramVld s i || (s.wbusVld && !i.abrReady)
    rcnt := reg false 0 (busWramVld s i) (s.rcnt + 1) s.rcnt
    rbusVld := rbusEn s i || (s.rbusVld && !i.abrReady) || (busWramVld s i && s.rcnt != 0b11)
    dataOfBus := reg false 0 (!s.wenFf && s.rcnt == bankOfMiss s && busWramVld s i) i.abrRdata
      s.dataOfBus
    rbusDoneFf := if rbusDone s i then true
      else if memRspVld s && i.rspRdy then false else s.rbusDoneFf
    ram := fun w => Ram.next (s.ram w) (ramCs s i w) (BitVec.setWidth 6 (ramAddr s i))
      (ramBankSel s i) (ramWen s i) (ramWmask s i) (ramWdata s i) }

end Next

end Dcache

end Rv64imCore
