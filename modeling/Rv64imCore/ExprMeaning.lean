import Mathlib.Order.Fin.Basic
import Rv64imCore.Expr
import Rv64imCore.Infix

/-! What the expressions of the debugger mean. -/

namespace Rv64imCore.Sdb
set_option autoImplicit true

inductive Op where
  | add | sub | mul | div | eq | ne | and
  deriving DecidableEq

namespace Op

def text : Op → Text
  | add => ['+']
  | sub => ['-']
  | mul => ['*']
  | div => ['/']
  | eq => ['=', '=']
  | ne => ['!', '=']
  | and => ['&', '&']

/-- The tighter, the higher. -/
def prec : Op → Fin 4
  | and => 0
  | eq => 1
  | ne => 1
  | add => 2
  | sub => 2
  | mul => 3
  | div => 3

/-- Signed arithmetic on 32 bits. -/
def apply : Op → BitVec 32 → BitVec 32 → BitVec 32
  | add, a, b => a + b
  | sub, a, b => a - b
  | mul, a, b => a * b
  | div, a, b => a.sdiv b
  | eq, a, b => if a = b then 1 else 0
  | ne, a, b => if a = b then 0 else 1
  | and, a, b => if a = 0 ∨ b = 0 then 0 else 1

end Op

structure Dec where
  digits : Text
  nonempty : digits ≠ []
  isDigit : ∀ c ∈ digits, c.isDigit = true

structure Hex where
  x : Char
  isX : x = 'x' ∨ x = 'X'
  digits : Text
  nonempty : digits ≠ []
  short : digits.length ≤ 8
  isDigit : ∀ c ∈ digits, isDigitOf 16 c = true

/-- A register by its place in `regs`. -/
inductive Atom where
  | dec (d : Dec)
  | hex (h : Hex)
  | reg (r : Fin 33)

scoped instance neZero_regs : @NeZero Nat Zero.ofOfNat0 33 := ⟨Nat.succ_ne_zero 32⟩

def regName (r : Fin 33) : Text := if r = 0 then ['0'] else regs.getD r []

def regValue (env : Env) (r : Fin 33) : BitVec 32 :=
  (if r = 32 then env.pc else env.gpr r).setWidth 32

def Dec.value (d : Dec) : Nat := ofDigits 10 d.digits
def Hex.value (h : Hex) : Nat := ofDigits 16 h.digits

def Atom.text : Atom → Text
  | dec d => d.digits
  | hex h => '0' :: h.x :: h.digits
  | reg r => '$' :: regName r

def Atom.value (env : Env) : Atom → BitVec 32
  | dec d => BitVec.ofNat 32 d.value
  | hex h => BitVec.ofNat 32 h.value
  | reg r => regValue env r

abbrev Expr := Infix.Expr Atom Op

namespace Expr

def value (env : Env) (e : Expr) : BitVec 32 := e.eval (Atom.value env) Op.apply

def NoDivisionByZero (env : Env) (e : Expr) : Prop :=
  e.Each (Atom.value env) Op.apply fun o _ b => o = .div → b ≠ 0

end Expr

def tokText : Infix.Tok Atom Op → Text
  | .atom a => a.text
  | .op o => o.text
  | .lpar => ['(']
  | .rpar => [')']

/-- A line with spaces in front of, between and behind the tokens. -/
inductive Spells : List (Infix.Tok Atom Op) → Text → Prop where
  | nil (n : Nat) : Spells [] (List.replicate n ' ')
  | cons (n : Nat) : Spells ts s → Spells (t :: ts) (List.replicate n ' ' ++ (tokText t ++ s))

/-- `strtoul` reads it as a decimal number, and it fits into the string of a token. -/
structure Dec.Plain (d : Dec) : Prop where
  short : d.digits.length < 32
  small : d.value < 2 ^ 64
  decimal : first d.digits ≠ '0' ∨ d.value < 8

/-- The name is matched whole, and looked up. -/
def PlainReg (r : Fin 33) : Prop := (regName r).length ≤ 2 ∧ r ≠ 31

/-- One value for all hexadecimal literals and one for all registers, each of these looked up;
decimals are read as such; no division of the least number by -1. -/
structure Expr.Plain (env : Env) (e : Expr) : Prop where
  dec : ∀ d, .dec d ∈ e.atoms → d.Plain
  hex : ∀ h h', .hex h ∈ e.atoms → .hex h' ∈ e.atoms → h.value = h'.value
  reg : ∀ r, .reg r ∈ e.atoms → PlainReg r
  same : ∀ r r', .reg r ∈ e.atoms → .reg r' ∈ e.atoms → regValue env r = regValue env r'
  noTrap : e.Each (Atom.value env) Op.apply fun o a b =>
    o = .div → ¬(a = BitVec.intMin 32 ∧ b = -1)

end Rv64imCore.Sdb
