import Mathlib.Algebra.Group.Int.Defs
import Rv64imCore.Hart

/-! The assembler of `build_gol_image.py`. Its integers are Python's, without bound. -/

namespace Rv64imCore.Gol
set_option autoImplicit true

/-- `x & (2 ** k - 1)`, of a negative integer as well. -/
def low (k : Nat) (x : Int) : Nat := (x % 2 ^ k).toNat

def rtype (f7 rs2 rs1 f3 rd op : Nat) : Nat :=
  f7 <<< 25 ||| rs2 <<< 20 ||| rs1 <<< 15 ||| f3 <<< 12 ||| rd <<< 7 ||| op

def itype (imm : Int) (rs1 f3 rd op : Nat) : Nat :=
  low 12 imm <<< 20 ||| rs1 <<< 15 ||| f3 <<< 12 ||| rd <<< 7 ||| op

def stype (imm : Int) (rs2 rs1 f3 : Nat) : Nat :=
  let u := low 12 imm
  (u >>> 5) <<< 25 ||| rs2 <<< 20 ||| rs1 <<< 15 ||| f3 <<< 12 ||| (u &&& 31) <<< 7 ||| 0x23

def btype (imm : Int) (rs2 rs1 f3 : Nat) : Nat :=
  let u := low 13 imm
  (u >>> 12 &&& 1) <<< 31 ||| (u >>> 5 &&& 0x3f) <<< 25 ||| rs2 <<< 20 ||| rs1 <<< 15
    ||| f3 <<< 12 ||| (u >>> 1 &&& 0xf) <<< 8 ||| (u >>> 11 &&& 1) <<< 7 ||| 0x63

def utype (imm20 : Int) (rd op : Nat) : Nat := low 20 imm20 <<< 12 ||| rd <<< 7 ||| op

def jtype (imm : Int) (rd : Nat) : Nat :=
  let u := low 21 imm
  (u >>> 20 &&& 1) <<< 31 ||| (u >>> 1 &&& 0x3ff) <<< 21 ||| (u >>> 11 &&& 1) <<< 20
    ||| (u >>> 12 &&& 0xff) <<< 12 ||| rd <<< 7 ||| 0x6f

inductive Reg where
  | zero | ra | sp | gp | tp | t0 | t1 | t2
  | s0 | s1 | a0 | a1 | a2 | a3 | a4 | a5
  | a6 | a7 | s2 | s3 | s4 | s5 | s6 | s7
  | s8 | s9 | s10 | s11 | t3 | t4 | t5 | t6
  deriving DecidableEq

/-- The numbers of `REG`, all below 32. -/
def REG : Reg → BitVec 5
  | .zero => 0 | .ra => 1 | .sp => 2 | .gp => 3 | .tp => 4 | .t0 => 5 | .t1 => 6 | .t2 => 7
  | .s0 => 8 | .s1 => 9 | .a0 => 10 | .a1 => 11 | .a2 => 12 | .a3 => 13 | .a4 => 14 | .a5 => 15
  | .a6 => 16 | .a7 => 17 | .s2 => 18 | .s3 => 19 | .s4 => 20 | .s5 => 21 | .s6 => 22 | .s7 => 23
  | .s8 => 24 | .s9 => 25 | .s10 => 26 | .s11 => 27 | .t3 => 28 | .t4 => 29 | .t5 => 30 | .t6 => 31

/-- What `resolve` has to write into a word: a conditional branch or a `jal`. -/
inductive Kind where
  | beq | bne | blt | bge | jal
  deriving DecidableEq

/-- The table `f3` of `resolve`. -/
def Kind.f3 : Kind → Nat
  | beq => 0
  | bne => 1
  | blt => 4
  | bge => 5
  | jal => 0

structure Fix (L : Type) where
  idx : Nat
  kind : Kind
  label : L
  a : BitVec 5
  b : BitVec 5

structure Asm (L : Type) where
  words : List Nat
  labels : L → Option Nat
  fix : List (Fix L)

namespace Asm

def init : Asm L := { words := [], labels := fun _ => none, fix := [] }

def pc (a : Asm L) : Nat := 0x80000000 + 4 * a.words.length

section Methods
variable [DecidableEq L] (s : Asm L)

def label (n : L) : Asm L := { s with labels := Function.update s.labels n (some s.pc) }
def emit (w : Nat) : Asm L := { s with words := s.words ++ [w &&& 0xffffffff] }
def addi (rd rs : Reg) (imm : Int) : Asm L :=
  s.emit (itype imm (REG rs).toNat 0 (REG rd).toNat 0x13)
def andi (rd rs : Reg) (imm : Int) : Asm L :=
  s.emit (itype imm (REG rs).toNat 7 (REG rd).toNat 0x13)
def add (rd a b : Reg) : Asm L :=
  s.emit (rtype 0 (REG b).toNat (REG a).toNat 0 (REG rd).toNat 0x33)
def sub (rd a b : Reg) : Asm L :=
  s.emit (rtype 0x20 (REG b).toNat (REG a).toNat 0 (REG rd).toNat 0x33)
def xor (rd a b : Reg) : Asm L :=
  s.emit (rtype 0 (REG b).toNat (REG a).toNat 4 (REG rd).toNat 0x33)
def lbu (rd : Reg) (imm : Int) (rs : Reg) : Asm L :=
  s.emit (itype imm (REG rs).toNat 4 (REG rd).toNat 0x03)
def sb (rs2 : Reg) (imm : Int) (rs1 : Reg) : Asm L :=
  s.emit (stype imm (REG rs2).toNat (REG rs1).toNat 0)
def sd (rs2 : Reg) (imm : Int) (rs1 : Reg) : Asm L :=
  s.emit (stype imm (REG rs2).toNat (REG rs1).toNat 3)
def csrrCycle (rd : Reg) : Asm L :=
  s.emit (0xc00 <<< 20 ||| 0 <<< 15 ||| 2 <<< 12 ||| (REG rd).toNat <<< 7 ||| 0x73)
def branch (kind : Kind) (a b : Reg) (label : L) : Asm L :=
  emit { s with fix := s.fix ++
    [{ idx := s.words.length, kind := kind, label := label, a := REG a, b := REG b }] } 0
def jal (rd : Reg) (label : L) : Asm L :=
  emit { s with fix := s.fix ++
    [{ idx := s.words.length, kind := .jal, label := label, a := REG rd, b := 0 }] } 0
def ret : Asm L := s.emit (itype 0 (REG .ra).toNat 0 (REG .zero).toNat 0x67)

def li (rd : Reg) (val : Int) : Asm L :=
  let val := low 32 val
  let signed : Int := if val < 0x80000000 then val else val - 0x100000000
  if -2048 ≤ signed ∧ signed ≤ 2047 then s.addi rd .zero signed
  else
    let hi := (val + 0x800) >>> 12
    let lo : Int := val - ↑(hi <<< 12)
    (s.emit (utype hi (REG rd).toNat 0x37)).addi rd rd lo

def mv (rd rs : Reg) : Asm L := s.addi rd rs 0

/-- The word of a branch, at the distance to its label. -/
def resolved (f : Fix L) (off : Int) : Nat :=
  if f.kind = .jal then jtype off f.a.toNat else btype off f.b.toNat f.a.toNat f.kind.f3

/-- One round of `resolve`; `none` is a `KeyError`. -/
def resolveOne (f : Fix L) : Option (Asm L) :=
  (s.labels f.label).map fun l =>
    let off : Int := l - (0x80000000 + 4 * f.idx)
    { s with words := s.words.set f.idx (resolved f off) }

def resolve : Option (Asm L) := s.fix.foldlM resolveOne s

end Methods

end Asm

end Rv64imCore.Gol
