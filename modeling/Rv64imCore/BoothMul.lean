import Rv64imCore.Bits
import Rv64imCore.Units

/-! `rv64im_core_add_full`, `rv64im_core_compress_34to2` and `rv64im_core_booth_mul`. A column of
bits is a function of the bit index. -/

namespace Rv64imCore
set_option autoImplicit true

def addFullSum (a b ci : Bool) : Bool := a ^^ b ^^ ci
def addFullCo (a b ci : Bool) : Bool := (a && b) || (a && ci) || (b && ci)

theorem addFull_eq (a b ci : Bool) :
    a.toNat + b.toNat + ci.toNat = (addFullSum a b ci).toNat + 2 * (addFullCo a b ci).toNat := by
  cases a <;> cases b <;> cases ci <;> rfl

namespace Compress34to2

/-- The full adder of a stage that takes bits `i`, `i + 1` and `i + 2` of its input. -/
def sum3 (x : Nat → Bool) (i : Nat) : Bool := addFullSum (x i) (x (i + 1)) (x (i + 2))
def co3 (x : Nat → Bool) (i : Nat) : Bool := addFullCo (x i) (x (i + 1)) (x (i + 2))

variable (inp ci : Nat → Bool)

def inTmp1 (k : Nat) : Bool :=
  if k < 11 then ci k else if k = 11 then inp 33 else sum3 inp (3 * (k - 12))
def inTmp2 (k : Nat) : Bool :=
  if k < 7 then ci (11 + k) else if k < 9 then inTmp1 inp ci (14 + k)
  else sum3 (inTmp1 inp ci) (3 * (k - 9))
def inTmp3 (k : Nat) : Bool :=
  if k < 5 then ci (18 + k) else if k = 5 then inTmp2 inp ci 15
  else sum3 (inTmp2 inp ci) (3 * (k - 6))
def inTmp4 (k : Nat) : Bool :=
  if k < 3 then ci (23 + k) else if k < 5 then inTmp3 inp ci (6 + k)
  else sum3 (inTmp3 inp ci) (3 * (k - 5))
def inTmp5 (k : Nat) : Bool :=
  if k < 2 then ci (26 + k) else if k < 4 then inTmp4 inp ci (4 + k)
  else sum3 (inTmp4 inp ci) (3 * (k - 4))
def inTmp6 (k : Nat) : Bool :=
  if k < 2 then ci (28 + k) else sum3 (inTmp5 inp ci) (3 * (k - 2))
def inTmp7 (k : Nat) : Bool :=
  if k = 0 then ci 30 else if k = 1 then inTmp6 inp ci 3 else sum3 (inTmp6 inp ci) 0

def co (k : Nat) : Bool :=
  if k < 11 then co3 inp (3 * k)
  else if k < 18 then co3 (inTmp1 inp ci) (3 * (k - 11))
  else if k < 23 then co3 (inTmp2 inp ci) (3 * (k - 18))
  else if k < 26 then co3 (inTmp3 inp ci) (3 * (k - 23))
  else if k < 28 then co3 (inTmp4 inp ci) (3 * (k - 26))
  else if k < 30 then co3 (inTmp5 inp ci) (3 * (k - 28))
  else co3 (inTmp6 inp ci) 0
def s : Bool := sum3 (inTmp7 inp ci) 0
def c : Bool := co3 (inTmp7 inp ci) 0

end Compress34to2

namespace BoothMul

variable (rs1 rs2 : BitVec 65)

def booth (i : Nat) : BitVec 3 := rs2.extractLsb' (2 * i) 3

def boothRes (i : Nat) : BitVec 66 :=
  mask (booth rs2 i == 0b000#3 || booth rs2 i == 0b111#3) 0
    ||| mask (booth rs2 i == 0b001#3 || booth rs2 i == 0b010#3) (rs1.extractLsb' 64 1 ++ rs1)
    ||| mask (booth rs2 i == 0b101#3 || booth rs2 i == 0b110#3)
      (~~~(rs1.extractLsb' 64 1) ++ ~~~rs1)
    ||| mask (booth rs2 i == 0b011#3) (rs1 ++ 0#1)
    ||| mask (booth rs2 i == 0b100#3) (~~~rs1 ++ 1#1)

def boothAdd1 (i : Nat) : Bool :=
  (booth rs2 i).getLsbD 2 && !((booth rs2 i).getLsbD 1 && (booth rs2 i).getLsbD 0)

/-- `partial_data[33]`: the carry of each negated product, and of `-y0x` at bit 0. -/
def partialAdd1 (k : Nat) : Bool :=
  if k = 0 then rs2.getLsbD 0
  else if k < 65 then k % 2 == 1 && boothAdd1 rs2 (k / 2) else false

/-- Bit `k` of `partial_data[j]`. The first 32 rows are a sign-extended Booth digit, shifted. -/
def partialData (j k : Nat) : Bool :=
  if j < 32 then ((boothRes rs1 rs2 j).signExtend 130 <<< (2 * j + 1)).getLsbD k
  else if j = 32 then
    (if rs2.getLsbD 0 then (BitVec.fill 65 (!rs1.getLsbD 64) ++ ~~~rs1) else 0#130).getLsbD k
  else partialAdd1 rs2 k

def in34to2 (i : Nat) : Nat → Bool := fun j => partialData rs1 rs2 j i

/-- The carries into column `i`, which are the carries out of column `i - 1`. -/
def ci : Nat → Nat → Bool
  | 0 => fun _ => false
  | i + 1 => Compress34to2.co (in34to2 rs1 rs2 i) (ci i)

def addOps (i : Nat) : Bool := Compress34to2.s (in34to2 rs1 rs2 i) (ci rs1 rs2 i)

def addOpc : Nat → Bool
  | 0 => false
  | i + 1 => Compress34to2.c (in34to2 rs1 rs2 i) (ci rs1 rs2 i)

def mulCasRes1 : BitVec 128 := Bits.ofFn (addOps rs1 rs2) 128
def mulCasRes2 : BitVec 128 := Bits.ofFn (addOpc rs1 rs2) 128

end BoothMul

end Rv64imCore
