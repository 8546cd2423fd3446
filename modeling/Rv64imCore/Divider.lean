import Rv64imCore.Bits
import Rv64imCore.Units

/-! `rv64im_core_div`, the iterative divider. -/

namespace Rv64imCore.Div
set_option autoImplicit true

structure State where
  cnt : BitVec 6
  busy : Bool
  op1Signed : Bool
  op2Signed : Bool
  fastDivR : Bool
  rvldCntR : BitVec 6
  dvldCntR : BitVec 6
  divReady : Bool
  remReg : BitVec 64
  divReg : BitVec 64
  resReg : BitVec 64
  deriving Inhabited

structure In where
  rs1 : BitVec 64
  rs2 : BitVec 64
  isSigned : Bool
  divReq : Bool
  stall : Bool

/-- The data registers have no reset. -/
def State.reset (s : State) : State :=
  { s with cnt := 0, busy := false, op1Signed := false, op2Signed := false, fastDivR := false,
           rvldCntR := 0, dvldCntR := 0, divReady := false }

/-- The registers as a cycle sees them: `rstn` is an asynchronous reset that the ALU drives with
`rstn & !i_alu_flush`, so a flush already clears them in its own cycle. -/
def State.settle (flush : Bool) (s : State) : State := if flush then s.reset else s

def absVal (isSigned : Bool) (x : BitVec 64) : BitVec 64 :=
  if isSigned && x.getLsbD 63 then ~~~x + 1 else x

/-- `rvld_dec` and `dvld_dec`: bit `i` says that no bit above `i` is set. -/
def vldDec (x : BitVec 64) : BitVec 64 := Bits.ofFn (fun i => x >>> (i + 1) == 0) 64

def vldOnehot (x : BitVec 64) : BitVec 64 := x &&& vldDec x

/-- `rvld_cnt` and `dvld_cnt`: the loop keeps the last index whose one-hot bit is set. -/
def vldCnt (x : BitVec 64) : BitVec 6 :=
  (List.range 64).foldl (fun c i => if (vldOnehot x).getLsbD i then BitVec.ofNat 6 i else c) 0

def rs1Abs (i : In) : BitVec 64 := absVal i.isSigned i.rs1
def rs2Abs (i : In) : BitVec 64 := absVal i.isSigned i.rs2

def fastDiv (i : In) : Bool :=
  ((vldDec (rs1Abs i) &&& vldDec (rs2Abs i)) == vldDec (rs2Abs i)
      && vldDec (rs1Abs i) != vldDec (rs2Abs i))
    || vldOnehot (rs2Abs i) == 0

def divDone (s : State) : Bool := s.rvldCntR - s.dvldCntR == s.cnt || s.fastDivR

def ack (s : State) : Bool := s.divReady

def addFull (s : State) : BitVec 65 :=
  (0#1 ++ s.remReg) + ~~~(0#1 ++ s.divReg) + 1
def addSign (s : State) : Bool := (addFull s).getLsbD 64
def subRes (s : State) : BitVec 64 :=
  if addSign s then s.remReg else (addFull s).extractLsb' 0 64

def remRegNs (s : State) (i : In) : BitVec 64 :=
  mask (!s.busy) (rs1Abs i <<< ~~~(vldCnt (rs1Abs i))) ||| mask (s.busy && !s.fastDivR) (subRes s)
    ||| mask (s.busy && s.fastDivR) s.remReg
def divRegNs (s : State) (i : In) : BitVec 64 :=
  mask (!s.busy) (rs2Abs i <<< ~~~(vldCnt (rs2Abs i)))
    ||| mask s.busy (0#1 ++ s.divReg.extractLsb' 1 63)
def quotientNs (s : State) : BitVec 64 :=
  s.resReg.extractLsb' 0 63 ++ BitVec.ofBool (!addSign s)
def quotientSignCorrection (s : State) : Bool :=
  s.busy && !s.divReady && divDone s && !s.fastDivR && (s.op1Signed ^^ s.op2Signed)
def resRegNs (s : State) : BitVec 64 :=
  mask (!s.busy) 0 ||| mask (s.busy && !quotientSignCorrection s) (quotientNs s)
    ||| mask (quotientSignCorrection s) (~~~(quotientNs s) + 1)

def remResSel (s : State) : BitVec 64 := s.remReg >>> ~~~s.rvldCntR
def divRes (s : State) : BitVec 64 :=
  if s.fastDivR then BitVec.fill 64 (s.dvldCntR == 0) else s.resReg
def divRem (s : State) : BitVec 64 :=
  if s.op1Signed then ~~~(remResSel s) + 1 else remResSel s

def busyEn (s : State) (i : In) : Bool := if ack s then !i.stall else i.divReq
def dataUpdEn (s : State) (i : In) : Bool := if ack s then !i.stall else i.divReq || s.busy
def divReadyEn (s : State) (i : In) : Bool := if s.divReady then !i.stall else s.busy

/-- One clock edge; `rst` is the flush of the EX register. -/
def next (rst : Bool) (s₀ : State) (i : In) : State :=
  let s := s₀.settle rst
  let start := i.divReq && !s.busy
  { busy := reg rst false (busyEn s i) (if ack s then i.stall else i.divReq) s.busy
    op1Signed := reg rst false start (i.isSigned && i.rs1.getLsbD 63) s.op1Signed
    op2Signed := reg rst false start (i.isSigned && i.rs2.getLsbD 63) s.op2Signed
    fastDivR := reg rst false start (fastDiv i) s.fastDivR
    rvldCntR := reg rst 0 start (vldCnt (rs1Abs i)) s.rvldCntR
    dvldCntR := reg rst 0 start (vldCnt (rs2Abs i)) s.dvldCntR
    cnt := reg rst 0 (divReadyEn s i) (if s.divReady then 0 else s.cnt + 1) s.cnt
    divReady := reg rst false (divReadyEn s i) (if s.divReady then false else divDone s) s.divReady
    remReg := reg false 0 (dataUpdEn s i) (remRegNs s i) s.remReg
    divReg := reg false 0 (dataUpdEn s i) (divRegNs s i) s.divReg
    resReg := reg false 0 (dataUpdEn s i) (resRegNs s) s.resReg }

end Rv64imCore.Div
