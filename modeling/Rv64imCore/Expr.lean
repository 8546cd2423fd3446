import Mathlib.Algebra.Group.Nat.Defs
import Mathlib.Data.Fin.Basic
import Mathlib.Logic.Function.Basic

/-! The expressions of the debugger: `expr.cpp`, and `isa_reg_str2val` of `sim_main.cpp`. -/

namespace Rv64imCore.Sdb
set_option autoImplicit true

abbrev Text := List Char

/-- `**p`: the first character of a string, which at its end is 0. -/
def first (t : Text) : Char := t.headD (Char.ofNat 0)

theorem first_append (s : Text) (h : u ≠ []) : first (u ++ s) = first u := by
  cases u with
  | nil => exact absurd rfl h
  | cons c u => rfl

/-- A set of characters, and how often in a row they may be matched. -/
structure Piece where
  set : Char → Bool
  min : Nat := 1
  max : Option Nat := some 1

inductive TokenType where
  | NOTYPE | EQ | NUM | NEQ | AND | H | REG
  | char (c : Char)
  deriving DecidableEq

namespace Piece

def one (c : Char) : Piece := { set := (· == c) }

def len (p : Piece) (s : Text) : Option Nat :=
  let n := (s.takeWhile p.set).length
  let n := match p.max with
    | none => n
    | some m => Nat.min n m
  if p.min ≤ n then some n else none

end Piece

/-- The length of the longest match at the start; in the rules only the last piece varies. -/
def rmEo : List Piece → Text → Option Nat
  | [], _ => some 0
  | p :: ps, s => (p.len s).bind fun n => (rmEo ps (s.drop n)).map (n + ·)

def rules : List (List Piece × TokenType) :=
  [([.one '0', { set := fun c => c == 'x' || c == 'X' },
      { set := Char.isAlphanum, max := some 8 }], .H),
    ([.one '$', { set := fun c => c.isLower || c.isDigit, max := some 2 }], .REG),
    ([{ set := (· == ' '), max := none }], .NOTYPE),
    ([.one '+'], .char '+'),
    ([.one '=', .one '='], .EQ),
    ([.one '!', .one '='], .NEQ),
    ([.one '&', .one '&'], .AND),
    ([{ set := Char.isDigit, max := none }], .NUM),
    ([.one '-'], .char '-'),
    ([.one '*'], .char '*'),
    ([.one '/'], .char '/'),
    ([.one '('], .char '('),
    ([.one ')'], .char ')')]

/-- The first rule that matches, and how much. -/
def matchRule (s : Text) : Option (TokenType × Nat) :=
  rules.findSome? fun r => (rmEo r.1 s).map (r.2, ·)

structure Token where
  type : TokenType
  str : Text

/-- No rule matches, or the tokens run over `tokens[32]` or over a `str[32]`. -/
inductive TokenFault where
  | noMatch
  | overrun

/-- `make_token` from a position on: `skip` characters still belong to the token before it, and
there are `nr` tokens. -/
def makeTokenFrom : Nat → Nat → Text → Except TokenFault (List Token)
  | _, _, [] => .ok []
  | skip + 1, nr, _ :: cs => makeTokenFrom skip nr cs
  | 0, nr, c :: cs =>
    match matchRule (c :: cs) with
    | none => .error .noMatch
    | some (type, n) =>
      if type = .NOTYPE then makeTokenFrom (n - 1) nr cs
      else if 32 ≤ nr ∨ 32 ≤ n then .error .overrun
      else (makeTokenFrom (n - 1) (nr + 1) cs).map ({ type, str := (c :: cs).take n } :: ·)

def makeToken (e : Text) : Except TokenFault (List Token) := makeTokenFrom 0 0 e

def digitVal (c : Char) : Nat :=
  if c.isDigit then c.toNat - 48 else if c.isLower then c.toNat - 87 else c.toNat - 55

def isDigitOf (base : Nat) (c : Char) : Bool := c.isAlphanum && decide (digitVal c < base)

def ofDigits (base : Nat) (s : Text) : Nat := s.foldl (fun n c => base * n + digitVal c) 0

/-- The digits in front, as a number. -/
def number (base : Nat) (s : Text) : Nat := ofDigits base (s.takeWhile (isDigitOf base))

/-- `strtol` or `strtoul` with base 0, up to the largest value `max`; no string here has a sign
in front of a digit. -/
def strto (max : Nat) (s : Text) : Nat :=
  Nat.min max <| match s with
    | '0' :: x :: c :: cs =>
      if (x = 'x' ∨ x = 'X') ∧ isDigitOf 16 c then number 16 (c :: cs) else number 8 s
    | '0' :: _ => number 8 s
    | _ => number 10 s

def strtol (s : Text) : Nat := strto (2 ^ 63 - 1) s
def strtoul (s : Text) : Nat := strto (2 ^ 64 - 1) s

/-- `sprintf(s, "%u", v)`. -/
def sprintU (v : BitVec 32) : Text := Nat.toDigits 10 v.toNat

def regs : List Text :=
  [['$', '0'], ['r', 'a'], ['s', 'p'], ['g', 'p'], ['t', 'p'], ['t', '0'], ['t', '1'], ['t', '2'],
    ['s', '0'], ['s', '1'], ['a', '0'], ['a', '1'], ['a', '2'], ['a', '3'], ['a', '4'], ['a', '5'],
    ['a', '6'], ['a', '7'], ['s', '2'], ['s', '3'], ['s', '4'], ['s', '5'], ['s', '6'], ['s', '7'],
    ['s', '8'], ['s', '9'], ['s', '1', '0'], ['s', '1', '1'], ['t', '3'], ['t', '4'], ['t', '5'],
    ['t', '6'], ['p', 'c']]

/-- What the debugger finds around it; `before` is what lies in front of the array `str`. -/
structure Env where
  gpr : Nat → BitVec 64
  pc : BitVec 64
  paddrRead : BitVec 64 → BitVec 64
  before : Char

def isaRegStr2val (env : Env) (s : Text) : Option (BitVec 64) :=
  if s = ['p', 'c'] then some env.pc
  else if s = ['0'] then some (env.gpr 0)
  else ((List.range' 1 30).find? fun i => s = regs.getD i []).map env.gpr

/-- A pointer of `str`: to one of the two buffers, or to the string of the token it stands for. -/
inductive Ptr where
  | s1 | s2 | token

/-- What `expr` keeps from one call to the next. -/
structure Statics where
  str : Nat → Option Ptr
  s1 : Text
  s2 : Text

namespace Statics

def point (st : Statics) (a : Nat) (p : Ptr) : Statics :=
  { st with str := Function.update st.str a (some p) }

/-- The string of one token. -/
def put (env : Env) (st : Statics) (a : Nat) (t : Token) : Statics :=
  match t.type with
  | .H => { st.point a .s1 with s1 := sprintU (BitVec.ofNat 32 (strtol t.str)) }
  | .REG =>
    match isaRegStr2val env (t.str.drop 1) with
    | some v => { st.point a .s2 with s2 := sprintU (v.setWidth 32) }
    | none => st
  | _ => st.point a .token

def fill (env : Env) : Nat → List Token → Statics → Statics
  | _, [], st => st
  | a, t :: ts, st => fill env (a + 1) ts (st.put env a t)

/-- `str[a]` read; nothing behind a null pointer. -/
def text (st : Statics) (a : Nat) (t : Token) : Option Text :=
  (st.str a).map fun
    | .s1 => st.s1
    | .s2 => st.s2
    | .token => t.str

def texts (st : Statics) : Nat → List Token → Option (List Text)
  | _, [] => some []
  | a, t :: ts => (st.text a t).bind fun x => (texts st (a + 1) ts).map (x :: ·)

end Statics

/-- The loop of `check_parentheses`. -/
def depth : Nat → List Text → Nat
  | n, [] => n
  | n, t :: ts =>
    if first t = '(' then depth (n + 1) ts
    else if first t = ')' ∧ n ≠ 0 then depth (n - 1) ts
    else depth n ts

def checkParentheses (t : Text) (ts : List Text) : Bool :=
  first t == '(' && first (ts.getLastD []) == ')' && depth 0 ts.dropLast == 0

scoped instance neZero_ops : @NeZero Nat Zero.ofOfNat0 4 := ⟨Nat.succ_ne_zero 3⟩

/-- Which of `op1` to `op4` takes an operator; `prev` is `**(i-1)`. -/
def opOf (prev : Char) (t : Text) : Option (Fin 4) :=
  if t = ['&', '&'] then some 0
  else if t = ['=', '='] ∨ t = ['!', '='] then some 1
  else if first t = '+' ∨ first t = '-' then some 2
  else if (prev ≠ '*' ∨ prev ≠ '/') ∧ (first t = '*' ∨ first t = '/') then some 3
  else none

structure Scan where
  n : Int
  op : Fin 4 → Nat

def Scan.look (s : Scan) (i : Nat) (prev : Char) (t : Text) : Scan :=
  if first t = '(' then { s with n := s.n + 1 }
  else if first t = ')' then { s with n := s.n - 1 }
  else if s.n = 0 then
    match opOf prev t with
    | some k => { s with op := Function.update s.op k i }
    | none => s
  else s

/-- The loop that looks for the operator; the pointers are counted from `p`. -/
def scan : Nat → Char → List Text → Scan → Scan
  | _, _, [], s => s
  | i, prev, t :: ts, s => scan (i + 1) (first t) ts (s.look i prev t)

def Scan.choose (s : Scan) : Nat :=
  if s.op 0 ≠ 0 then s.op 0
  else if s.op 1 ≠ 0 then s.op 1
  else if s.op 2 ≠ 0 then s.op 2
  else s.op 3

/-- The operator that `eval` splits at. -/
def opAt (prev : Char) (ts : List Text) : Nat := (scan 0 prev ts.dropLast ⟨0, fun _ => 0⟩).choose

/-- The `switch`; the division of the least number by -1 traps. -/
def operate (c : Char) (val1 val2 : BitVec 32) : Option (BitVec 32) :=
  if c = '+' then some (val1 + val2)
  else if c = '-' then some (val1 - val2)
  else if c = '*' then some (val1 * val2)
  else if c = '/' then
    if val2 = 0 then some 0
    else if val1 = BitVec.intMin 32 ∧ val2 = -1 then none
    else some (val1.sdiv val2)
  else if c = '=' then some (if val1 = val2 then 1 else 0)
  else if c = '!' then some (if val1 ≠ val2 then 1 else 0)
  else if c = '&' then some (if val1 ≠ 0 ∧ val2 ≠ 0 then 1 else 0)
  else some 0

theorem Scan.look_op_lt {b : Nat} {s : Scan} (hs : ∀ k, s.op k < b) (hi : i < b) (k : Fin 4) :
    (s.look i prev t).op k < b := by
  rw [look]
  split
  · exact hs k
  split
  · exact hs k
  split
  · cases opOf prev t with
    | none => exact hs k
    | some j =>
      change Function.update s.op j i k < b
      rw [Function.update_apply]
      split
      · exact hi
      · exact hs k
  · exact hs k

theorem scan_op_lt {b : Nat} {s : Scan} (hs : ∀ k, s.op k < b) (hi : i + ts.length ≤ b)
    (k : Fin 4) : (scan i prev ts s).op k < b := by
  induction ts generalizing i prev s with
  | nil => exact hs k
  | cons t ts ih =>
    rw [List.length_cons] at hi
    exact ih (Scan.look_op_lt hs (by omega)) (by omega)

theorem opAt_lt (prev : Char) (h : ts ≠ []) : opAt prev ts < ts.length := by
  have hl := List.length_pos_iff.mpr h
  have ho (k : Fin 4) : (scan 0 prev ts.dropLast ⟨0, fun _ => 0⟩).op k < ts.length :=
    scan_op_lt (fun _ => hl) (by rw [List.length_dropLast]; omega) k
  rw [opAt, Scan.choose]
  split
  · exact ho 0
  split
  · exact ho 1
  split
  · exact ho 2
  · exact ho 3

def eval (env : Env) (prev : Char) : List Text → Option (BitVec 32)
  | [] => some 0
  | [t] => some (BitVec.ofNat 32 (strtoul t))
  | t :: u :: us =>
    if checkParentheses t (u :: us) then eval env (first t) (u :: us).dropLast
    else
      let op := opAt prev (t :: u :: us)
      if op = 0 ∧ first t = '*' then
        (eval env (first t) (u :: us)).map fun a => (env.paddrRead (a.setWidth 64)).setWidth 32
      else
        let c := first ((t :: u :: us).getD op [])
        (eval env prev ((t :: u :: us).take op)).bind fun val1 =>
          (eval env c ((t :: u :: us).drop (op + 1))).bind (operate c val1)
termination_by ts => ts.length
decreasing_by
  · simp only [List.length_dropLast, List.length_cons]
    omega
  · simp only [List.length_cons]
    omega
  · have := opAt_lt prev (List.cons_ne_nil t (u :: us))
    rw [List.length_take]
    omega
  · simp only [List.length_drop, List.length_cons]
    omega

/-- `expr`: what it leaves in `success`, what it returns, and what it keeps. Nothing where the
program would be stopped: tokens run over, a null pointer read, a division that traps. -/
def expr (env : Env) (st : Statics) (e : Text) (success : Bool) :
    Option (Bool × BitVec 32 × Statics) :=
  match makeToken e with
  | .error .noMatch => some (false, 0, st)
  | .error .overrun => none
  | .ok tokens =>
    let st := st.fill env 0 tokens
    (st.texts 0 tokens).bind fun str => (eval env env.before str).map (success, ·, st)

end Rv64imCore.Sdb
