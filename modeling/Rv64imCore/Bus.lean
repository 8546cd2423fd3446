import Rv64imCore.Dcache

/-! `rv64im_core_1toN`, `rv64im_core_AtoB`, `rv64im_core_2to1` and `rv64im_core_clint`. -/

namespace Rv64imCore
set_option autoImplicit true

/-- A request on the data bus. -/
structure Req where
  vld : Bool
  wen : Bool
  addr : BitVec 32
  wdata : BitVec 64
  wmask : BitVec 8

/-- A master on the valid/ready memory bus. -/
structure Abr where
  valid : Bool
  wen : Bool
  addr : BitVec 32
  wdata : BitVec 64
  wmask : BitVec 8

namespace OneToN

instance neZero_slaves : @NeZero Nat Zero.ofOfNat0 3 := ⟨Nat.succ_ne_zero 2⟩

/-- The chip selects that `rv64im_core_top` decodes: D-cache, CLINT, devices. -/
def cs (lsuAddr : BitVec 64) : Fin 3 → Bool
  | 0 => lsuAddr.extractLsb' 28 4 == 0x8#4
  | 1 => lsuAddr.extractLsb' 28 4 == 0x2#4
  | 2 => lsuAddr.extractLsb' 28 4 != 0x2#4 && lsuAddr.extractLsb' 28 4 != 0x8#4

/-- The reduction `|(sel & x)` over the slaves. -/
def anySel (sel x : Fin 3 → Bool) : Bool := (sel 0 && x 0) || (sel 1 && x 1) || (sel 2 && x 2)

def reqRdy (cs rdy : Fin 3 → Bool) : Bool := anySel cs rdy
def rspVld (csFf vld : Fin 3 → Bool) : Bool := anySel csFf vld
def rdata (csFf : Fin 3 → Bool) (d : Fin 3 → BitVec 64) : BitVec 64 :=
  mask (csFf 0) (d 0) ||| mask (csFf 1) (d 1) ||| mask (csFf 2) (d 2)

/-- Every asserted request overwrites the select register, also a refused one. -/
def next (csFf : Fin 3 → Bool) (cs : Fin 3 → Bool) (reqVld : Bool) : Fin 3 → Bool :=
  reg false (fun _ => false) reqVld cs csFf

end OneToN

namespace AtoB

structure State where
  reqRdy : Bool
  valid : Bool
  rdata : BitVec 64
  addr : BitVec 32
  wdata : BitVec 64
  wmask : BitVec 8
  wen : Bool
  deriving Inhabited

def State.reset (s : State) : State := { s with reqRdy := true, valid := false, rdata := 0 }

variable (s : State)

def abr : Abr :=
  { valid := s.valid, wen := s.wen, addr := s.addr, wdata := s.wdata, wmask := s.wmask }
def rspVld (abrReady : Bool) : Bool := !s.reqRdy && ((s.valid && abrReady) || !s.valid)
def rspRdata (abrReady : Bool) (abrRdata : BitVec 64) : BitVec 64 :=
  if abrReady then abrRdata else s.rdata

def next (q : Req) (rspRdy abrReady : Bool) (abrRdata : BitVec 64) : State :=
  let shake := q.vld && s.reqRdy
  let done := s.valid && abrReady
  { addr := if shake then q.addr else s.addr
    wdata := if shake then q.wdata else s.wdata
    wmask := if shake then q.wmask else s.wmask
    wen := if shake then q.wen else s.wen
    reqRdy := if shake then false else if rspVld s abrReady && rspRdy then true else s.reqRdy
    valid := if shake then true else if done then false else s.valid
    rdata := if done then abrRdata else s.rdata }

end AtoB

namespace TwoToOne

/-- The two masters are assumed never to be valid together; `m0` wins if they are. -/
def abr (m0 m1 : Abr) : Abr :=
  { valid := m0.valid || m1.valid
    wen := (m0.valid && m0.wen) || (m1.valid && m1.wen)
    addr := if m0.valid then m0.addr else m1.addr
    wdata := if m0.valid then m0.wdata else m1.wdata
    wmask := if m0.valid then m0.wmask else m1.wmask }

def rdata (m : Abr) (abrRdata : BitVec 64) : BitVec 64 := if m.valid then abrRdata else 0
def ready (m : Abr) (abrReady : Bool) : Bool := if m.valid then abrReady else false

end TwoToOne

namespace Clint

structure State where
  msip : BitVec 32
  mtimecmp : BitVec 64
  mtime : BitVec 64
  rdata : BitVec 64
  cnt : Bool
  deriving Inhabited

def resetState : State :=
  { msip := 0, mtimecmp := 0xffffffffffffffff, mtime := 0, rdata := 0, cnt := false }

variable (s : State)

def reqRdy : Bool := !s.cnt
def rspVld : Bool := s.cnt
def msipOut : Bool := s.msip.getLsbD 0
def mtip : Bool := !s.mtime.ult s.mtimecmp

/-- `mtime_cs`, `mtimecmp_cs` and `msip_cs`. -/
def sel (q : Req) (addr : BitVec 64) : Bool := (q.vld && reqRdy s) && 0#32 ++ q.addr == addr
def mtimeCs (q : Req) : Bool := sel s q 0x20003ff8
def mtimecmpCs (q : Req) : Bool := sel s q 0x20004000
def msipCs (q : Req) : Bool := sel s q 0x20000000

def rdataNext (q : Req) : BitVec 64 :=
  mask (msipCs s q && !q.wen) (0#32 ++ s.msip) ||| mask (mtimecmpCs s q && !q.wen) s.mtimecmp
    ||| mask (mtimeCs s q && !q.wen) s.mtime

def next (q : Req) (rspRdy : Bool) : State :=
  { mtime := if mtimeCs s q && q.wen then q.wdata else s.mtime + 1
    mtimecmp := reg false 0 (mtimecmpCs s q && q.wen) q.wdata s.mtimecmp
    msip := reg false 0 (msipCs s q && q.wen) (0#31 ++ q.wdata.extractLsb' 0 1) s.msip
    rdata := reg false 0 (msipCs s q || mtimecmpCs s q || mtimeCs s q) (rdataNext s q) s.rdata
    cnt := if q.vld && reqRdy s then true else if rspVld s && rspRdy then false else s.cnt }

end Clint

end Rv64imCore
