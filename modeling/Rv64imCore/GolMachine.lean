import Rv64imCore.GolAssembler
import Rv64imCore.Leads

/-! A machine that runs the calls themselves, on integers, and RV64I on their words. -/

namespace Rv64imCore.Gol
set_option autoImplicit true
open Rv64i (Hart Store)

/-- The image in memory, little endian, from 0x80000000 on. -/
def Loaded (ws : List Nat) (mem : BitVec 32 → BitVec 8) : Prop :=
  ∀ k w, ws[k]? = some w → ∀ j < 4,
    mem (BitVec.ofNat 32 (0x80000000 + 4 * k + j)) = (BitVec.ofNat 32 w).extractLsb' (8 * j) 8

theorem fetch_loaded {h : Hart} (hl : Loaded ws h.mem) (hw : ws[k]? = some w)
    (hp : h.pc = BitVec.ofNat 64 (0x80000000 + 4 * k)) : h.fetch = BitVec.ofNat 32 w := by
  have hm := hl k w hw
  have ha (j : Nat) : h.pc.setWidth 32 + BitVec.ofNat 32 j
      = BitVec.ofNat 32 (0x80000000 + 4 * k + j) := by
    rw [hp, BitVec.setWidth_ofNat_of_le (by decide), ← BitVec.ofNat_add]
  have hr : h.fetch = (h.read h.pc).extractLsb' 0 32 :=
    BitVec.setWidth_eq_extractLsb' (by decide)
  rw [hr, Hart.read, Bytes.ofBytes_low, ha, ha, ha, ha, hm 3 (by decide), hm 2 (by decide),
    hm 1 (by decide), hm 0 (by decide)]
  rw [BitVec.extractLsb'_append_extractLsb'_eq_extractLsb' (show 8 * 3 = 8 * 2 + 8 from rfl),
    BitVec.extractLsb'_append_extractLsb'_eq_extractLsb' (show 8 * 2 = 8 * 1 + 8 from rfl),
    BitVec.extractLsb'_append_extractLsb'_eq_extractLsb' (show 8 * 1 = 8 * 0 + 8 from rfl)]
  exact BitVec.extractLsb'_eq_self

theorem store_frame (h : Hart) {a : BitVec 64} {n : Nat} {v : BitVec 64} {x : BitVec 32}
    (hn : (a.setWidth 32).toNat + n ≤ 2 ^ 32)
    (hx : x.toNat < (a.setWidth 32).toNat ∨ (a.setWidth 32).toNat + n ≤ x.toNat) :
    (h.store a n v).mem x = h.mem x := by
  have hd : ¬(x - a.setWidth 32).toNat < n := by
    have := x.isLt
    rw [BitVec.toNat_sub]
    omega
  exact if_neg hd

/-- The grids lie from here up to the marker device. -/
def gridBase : Int := 0x80010000 - 0x100000000
def mark : Int := 0xa0000100 - 0x100000000

structure Data where
  x : Reg → Int
  m : Int → Nat
  out : List Store

namespace Data

def reg (d : Data) (r : Reg) : Int := if r = .zero then 0 else d.x r
def put (d : Data) (r : Reg) (v : Int) : Data := { d with x := Function.update d.x r v }
def poke (d : Data) (z : Int) (v : Nat) : Data := { d with m := Function.update d.m z v }
def send (d : Data) (z v : Int) : Data :=
  { d with out := d.out ++ [{ addr := BitVec.ofInt 32 z, bytes := 8, data := BitVec.ofInt 64 v }] }

theorem m_poke_self (d : Data) (z : Int) (v : Nat) : (d.poke z v).m z = v :=
  Function.update_self ..

theorem m_poke_of_ne (d : Data) {z y : Int} (h : y ≠ z) (v : Nat) : (d.poke z v).m y = d.m y :=
  Function.update_of_ne h ..

theorem reg_put (d : Data) (rd : Reg) (v : Int) (r : Reg) :
    (d.put rd v).reg r = if r = .zero then 0 else if r = rd then v else d.reg r := by
  by_cases hz : r = .zero
  · simp only [reg, if_pos hz]
  · simp only [reg, put, if_neg hz, Function.update_apply]

end Data

/-- A call that only touches data; `none` where its immediate or its address is not one that
the integers account for. -/
def Call.exec (d : Data) : Call L → Option Data
  | label _ => some d
  | addi rd rs imm => if -2048 ≤ imm ∧ imm < 2048 then some (d.put rd (d.reg rs + imm)) else none
  | andi rd rs imm =>
      if 0 ≤ imm ∧ imm < 2048 ∧ 0 ≤ d.reg rs then
        some (d.put rd ↑((d.reg rs).toNat &&& imm.toNat))
      else none
  | add rd a b => some (d.put rd (d.reg a + d.reg b))
  | sub rd a b => some (d.put rd (d.reg a - d.reg b))
  | xor rd a b =>
      if 0 ≤ d.reg a ∧ 0 ≤ d.reg b then
        some (d.put rd ↑((d.reg a).toNat ^^^ (d.reg b).toNat))
      else none
  | lbu rd imm rs =>
      if -2048 ≤ imm ∧ imm < 2048 ∧ gridBase ≤ d.reg rs + imm ∧ d.reg rs + imm < mark then
        some (d.put rd (d.m (d.reg rs + imm)))
      else none
  | sb rs2 imm rs1 =>
      if -2048 ≤ imm ∧ imm < 2048 ∧ gridBase ≤ d.reg rs1 + imm ∧ d.reg rs1 + imm < mark
          ∧ 0 ≤ d.reg rs2 ∧ d.reg rs2 < 256 then
        some (d.poke (d.reg rs1 + imm) (d.reg rs2).toNat)
      else none
  | sd rs2 imm rs1 =>
      if -2048 ≤ imm ∧ imm < 2048 ∧ (d.reg rs1 + imm = mark ∨ d.reg rs1 + imm = mark + 8) then
        some (d.send (d.reg rs1 + imm) (d.reg rs2))
      else none
  | li rd val => some (d.put rd (liValue val))
  | mv rd rs => some (d.put rd (d.reg rs))
  | csrrCycle _ => none
  | branch _ _ _ _ => none
  | jal _ _ => none
  | ret => none

/-- The branch test on integers. -/
def Kind.test : Kind → Int → Int → Prop
  | beq, a, b => a = b
  | bne, a, b => a ≠ b
  | blt, a, b => a < b
  | bge, a, b => b ≤ a
  | jal, _, _ => False

/-- The calls still to be run, and the data. -/
structure Mach (L : Type) where
  rest : List (Call L)
  data : Data

def Fits (z : Int) : Prop := -2 ^ 63 ≤ z ∧ z < 2 ^ 63

instance (z : Int) : Decidable (Fits z) := inferInstanceAs (Decidable (_ ∧ _))

section Program
variable [DecidableEq L] (prog : List (Call L))

inductive Step : Mach L → BitVec 64 → Mach L → Prop where
  | exec : c.exec d = some d' → Step { rest := c :: r, data := d } i { rest := r, data := d' }
  | csrr : Step { rest := .csrrCycle rd :: r, data := d } i { rest := r, data := d.put rd i.toNat }
  | taken : kind ≠ .jal → after l prog = some r' → Fits (d.reg a) → Fits (d.reg b) →
      kind.test (d.reg a) (d.reg b) →
      Step { rest := .branch kind a b l :: r, data := d } i { rest := r', data := d }
  | fall : kind ≠ .jal → after l prog = some r' → Fits (d.reg a) → Fits (d.reg b) →
      ¬kind.test (d.reg a) (d.reg b) →
      Step { rest := .branch kind a b l :: r, data := d } i { rest := r, data := d }
  | jal : after l prog = some r' →
      Step { rest := .jal rd l :: r, data := d } i { rest := r', data := d.put rd (pcOf prog r) }
  | ret : r' <:+ prog → d.reg .ra = (pcOf prog r' : Int) →
      Step { rest := .ret :: r, data := d } i { rest := r', data := d }

def machine : Clocked.System (Mach L) (BitVec 64) where
  step := Step prog

/-- The stores to the marker device: the event at its base, the payload behind. -/
def markers (log : List Store) : List Store :=
  log.filter fun s => s.addr = 0xa0000100#32 ∨ s.addr = 0xa0000108#32

/-- The hart is at the words of the calls, with the data. -/
structure Matches (s : Mach L) (t : Rv64i.Traced) : Prop where
  suffix : s.rest <:+ prog
  pc : t.hart.pc = BitVec.ofNat 64 (pcOf prog s.rest)
  reg : ∀ r, t.hart.reg (REG r) = BitVec.ofInt 64 (s.data.reg r)
  mem : ∀ z, gridBase ≤ z → z < mark → (t.hart.mem (BitVec.ofInt 32 z)).toNat = s.data.m z
  image : Loaded (assemble (labelPc prog) 0 prog) t.hart.mem
  out : markers t.log = s.data.out

end Program

end Rv64imCore.Gol
