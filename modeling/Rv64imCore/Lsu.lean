import Rv64imCore.Idu

/-! `rv64im_core_ls`, `rv64im_core_lsu` and the write-back stage. -/

namespace Rv64imCore
set_option autoImplicit true

namespace Ls

/-- `str_index` and `addr_index`: the byte offset of an access in its word. -/
def strIndex (addr : BitVec 64) (k : BitVec 3) : Bool := addr.extractLsb' 0 3 == k

def wmask (addr : BitVec 64) (len : BitVec 5) : BitVec 8 :=
  let x := strIndex addr
  mask (len.getLsbD 0) (BitVec.ofBoolListBE [x 7, x 6, x 5, x 4, x 3, x 2, x 1, x 0])
    ||| mask (len.getLsbD 1) (BitVec.ofBoolListBE [x 6, x 6, x 4, x 4, x 2, x 2, x 0, x 0])
    ||| mask (len.getLsbD 2) (BitVec.ofBoolListBE [x 4, x 4, x 4, x 4, x 0, x 0, x 0, x 0])
    ||| mask (len.getLsbD 3) (BitVec.ofBoolListBE [x 0, x 0, x 0, x 0, x 0, x 0, x 0, x 0])

def sbRes (addr rs2 : BitVec 64) : BitVec 64 :=
  let x := fun k => mask (strIndex addr k) (rs2.extractLsb' 0 8)
  x 7 ++ x 6 ++ x 5 ++ x 4 ++ x 3 ++ x 2 ++ x 1 ++ x 0
def shRes (addr rs2 : BitVec 64) : BitVec 64 :=
  let x := fun k => mask (strIndex addr k) (rs2.extractLsb' 0 16)
  x 6 ++ x 4 ++ x 2 ++ x 0
def swRes (addr rs2 : BitVec 64) : BitVec 64 :=
  let x := fun k => mask (strIndex addr k) (rs2.extractLsb' 0 32)
  x 4 ++ x 0
def sdRes (addr rs2 : BitVec 64) : BitVec 64 := mask (strIndex addr 0) rs2

def wdata (addr rs2 : BitVec 64) (len : BitVec 5) : BitVec 64 :=
  mask (len.getLsbD 0) (sbRes addr rs2) ||| mask (len.getLsbD 1) (shRes addr rs2)
    ||| mask (len.getLsbD 2) (swRes addr rs2) ||| mask (len.getLsbD 3) (sdRes addr rs2)

/-- One lane of `lb_res`, `lh_res` or `lw_res`: the `w` bits from `lsb` on, extended by their top
bit when the length matches and the access is signed. -/
def lane (rdata : BitVec 64) (ext : Bool) (lsb w : Nat) : BitVec 64 :=
  BitVec.setWidth 64
    (BitVec.fill (64 - w) (ext && rdata.getLsbD (lsb + w - 1)) ++ rdata.extractLsb' lsb w)

/-- `lb_res`. -/
def lbRes (addr : BitVec 64) (len : BitVec 5) (rdata : BitVec 64) : BitVec 64 :=
  let x := fun k lsb =>
    mask (strIndex addr k) (lane rdata (len.getLsbD 0 && len.getLsbD 4) lsb 8)
  x 0 0 ||| x 1 8 ||| x 2 16 ||| x 3 24 ||| x 4 32 ||| x 5 40 ||| x 6 48 ||| x 7 56
def lhRes (addr : BitVec 64) (len : BitVec 5) (rdata : BitVec 64) : BitVec 64 :=
  let x := fun k lsb =>
    mask (strIndex addr k) (lane rdata (len.getLsbD 1 && len.getLsbD 4) lsb 16)
  x 0 0 ||| x 2 16 ||| x 4 32 ||| x 6 48
def lwRes (addr : BitVec 64) (len : BitVec 5) (rdata : BitVec 64) : BitVec 64 :=
  let x := fun k lsb =>
    mask (strIndex addr k) (lane rdata (len.getLsbD 2 && len.getLsbD 4) lsb 32)
  x 0 0 ||| x 4 32

/-- `memtord_data`: the lane and extension a load of address `addr` and length `len` takes from a
memory word. -/
def format (addr : BitVec 64) (len : BitVec 5) (rdata : BitVec 64) : BitVec 64 :=
  mask (len.getLsbD 0) (lbRes addr len rdata) ||| mask (len.getLsbD 1) (lhRes addr len rdata)
    ||| mask (len.getLsbD 2) (lwRes addr len rdata) ||| mask (len.getLsbD 3) rdata

/-- `mul_res` and the part of it that the multiply asks for. -/
def mulSelect (mode : BitVec 2) (cas1 cas2 : BitVec 128) : BitVec 64 :=
  mask (mode.getLsbD 0)
      (BitVec.fill 32 ((cas1 + cas2).getLsbD 31) ++ (cas1 + cas2).extractLsb' 0 32)
    ||| mask (mode.getLsbD 1) ((cas1 + cas2).extractLsb' 64 64)
    ||| mask (!(mode.getLsbD 0 || mode.getLsbD 1)) ((cas1 + cas2).extractLsb' 0 64)

end Ls

namespace Lsu

/-- What EX hands to the MEM register. -/
structure MemReg where
  rdIndex : BitVec 5
  rdWen : Bool
  rdData : BitVec 64
  addr : BitVec 64
  rs2Data : BitVec 64
  rwCtrl : Bool
  rwLen : BitVec 5
  req : Bool
  mulOp : Bool
  mulMode : BitVec 2
  mulCasRes1 : BitVec 128
  mulCasRes2 : BitVec 128
  deriving Inhabited

def MemReg.bubble : MemReg :=
  { rdIndex := 0, rdWen := false, rdData := 0, addr := 0, rs2Data := 0, rwCtrl := false,
    rwLen := 0, req := false, mulOp := false, mulMode := 0, mulCasRes1 := 0, mulCasRes2 := 0 }

structure State where
  mem : MemReg
  dataShakeDone : Bool
  rdataR : BitVec 64
  addrFf : BitVec 64
  rspRdy : Bool
  deriving Inhabited

def resetState : State :=
  { mem := MemReg.bubble, dataShakeDone := false, rdataR := 0, addrFf := 0, rspRdy := false }

/-- The response port of the data bus. -/
structure Rsp where
  vld : Bool
  rdata : BitVec 64

variable (s : State) (r : Rsp)

def dataShake : Bool := s.rspRdy && r.vld
def dataStall : Bool := s.mem.req && s.rspRdy && !r.vld
def memRdata : BitVec 64 := if s.dataShakeDone then s.rdataR else r.rdata
def memtordData : BitVec 64 := Ls.format s.addrFf s.mem.rwLen (memRdata s r)
def alutordData : BitVec 64 :=
  if s.mem.mulOp then Ls.mulSelect s.mem.mulMode s.mem.mulCasRes1 s.mem.mulCasRes2
  else s.mem.rdData
/-- `o_ls_idu_data`, also `o_ls_memtord_data`. -/
def iduData : BitVec 64 := if s.mem.req then memtordData s r else alutordData s
/-- `o_ls_rd_wen`, the write enable that goes on to WB. -/
def rdWen : Bool := if s.mem.req then s.mem.rwCtrl else s.mem.rdWen
def loadBypassVld : Bool := s.mem.req && s.mem.rwCtrl && (r.vld || s.dataShakeDone)

/-- The forwarding path to ID; its enable is the register's own. -/
def iduPort : RdPort := { wen := s.mem.rdWen, index := s.mem.rdIndex, data := iduData s r }

/-- `req_vld`: no data stall, and no flush of the MEM register. -/
def reqVld (memReq flush : Bool) : Bool := memReq && !dataStall s r && !flush
def addrStall (memReq flush reqRdy : Bool) : Bool := memReq && reqVld s r memReq flush && !reqRdy

def next (ex : MemReg) (flush stall reqRdy : Bool) : State :=
  let addrShake := reqRdy && reqVld s r ex.req flush
  { mem := reg flush MemReg.bubble (!stall) ex s.mem
    dataShakeDone := reg false false (dataShake s r || s.dataShakeDone)
      (if s.dataShakeDone then stall else dataShake s r && stall) s.dataShakeDone
    rdataR := reg false 0 (dataShake s r) r.rdata s.rdataR
    addrFf := reg false 0 addrShake ex.addr s.addrFf
    rspRdy := if addrShake then true else if dataShake s r then false else s.rspRdy }

end Lsu

namespace Wbu

/-- `rv64im_core_wbu`; the stage is never flushed in operation but keeps its flush input. -/
def next (s : RdPort) (mem : RdPort) (flush stall : Bool) : RdPort :=
  reg flush { wen := false, index := 0, data := 0 } (!stall) mem s

def resetState : RdPort := { wen := false, index := 0, data := 0 }

end Wbu

end Rv64imCore
