import Rv64imCore.Bytes
import Rv64imCore.Clocked
import Rv64imCore.Rv64i

/-! RV64I on a byte memory with 32-bit addresses, and `csrr rd, cycle`. -/

namespace Rv64i
set_option autoImplicit true

def Op.all : List Op := [.add, .sub, .sll, .slt, .sltu, .xor, .srl, .sra, .or, .and]

def Instr.all : List Instr :=
  Op.all.map .op ++ Op.all.map .op32 ++ Op.all.map .opImm ++ Op.all.map .opImm32 ++ [.lui, .auipc]

def Instr.decode (inst : BitVec 32) : Option Instr := Instr.all.find? fun n => n.encodes inst

theorem Op.mem_all (o : Op) : o ∈ Op.all := by
  cases o <;> decide

theorem Op.eq_of_codes (o o' : Op) (h3 : o.funct3 = o'.funct3)
    (h7 : o.funct7 = o'.funct7 ∨ o.isShift = false ∧ o ≠ .sub ∧ o' ≠ .sub) : o = o' := by
  have h : ∀ o ∈ Op.all, ∀ o' ∈ Op.all, o.funct3 = o'.funct3 →
      (o.funct7 = o'.funct7 ∨ o.isShift = false ∧ o ≠ .sub ∧ o' ≠ .sub) → o = o' := by decide
  exact h o o.mem_all o' o'.mem_all h3 h7

theorem Op.funct7_of_high (o o' : Op)
    (h : o.funct7.extractLsb' 1 6 = o'.funct7.extractLsb' 1 6) : o.funct7 = o'.funct7 := by
  have h' : ∀ o ∈ Op.all, ∀ o' ∈ Op.all,
      o.funct7.extractLsb' 1 6 = o'.funct7.extractLsb' 1 6 → o.funct7 = o'.funct7 := by decide
  exact h' o o.mem_all o' o'.mem_all h

theorem Op.isShift_eq (o o' : Op) (h : o.funct3 = o'.funct3) : o.isShift = o'.isShift := by
  have h' : ∀ o ∈ Op.all, ∀ o' ∈ Op.all, o.funct3 = o'.funct3 → o.isShift = o'.isShift := by
    decide
  exact h' o o.mem_all o' o'.mem_all h

namespace Instr
variable {inst : BitVec 32}

def opcode : Instr → BitVec 7
  | op _ => 0b0110011
  | op32 _ => 0b0111011
  | opImm _ => 0b0010011
  | opImm32 _ => 0b0011011
  | lui => 0b0110111
  | auipc => 0b0010111

theorem opcode_of_encodes {n : Instr} (h : n.encodes inst = true) :
    Rv64i.opcode inst = n.opcode := by
  cases n <;> simp only [encodes, Bool.and_eq_true, beq_iff_eq] at h
  case op => exact h.1.1
  case op32 => exact h.1.1.2
  case opImm => exact h.1.1.2
  case opImm32 => exact h.1.1.2
  case lui => exact h
  case auipc => exact h

theorem encodes_inj {n n' : Instr} (h : n.encodes inst = true) (h' : n'.encodes inst = true) :
    n = n' := by
  have ho : n.opcode = n'.opcode := (opcode_of_encodes h).symm.trans (opcode_of_encodes h')
  cases n <;> cases n' <;> cases ho
  case op.op o o' =>
    simp only [encodes, Bool.and_eq_true, beq_iff_eq] at h h'
    rw [Op.eq_of_codes o o' (h.1.2.symm.trans h'.1.2) (.inl (h.2.symm.trans h'.2))]
  case op32.op32 o o' =>
    simp only [encodes, Bool.and_eq_true, beq_iff_eq] at h h'
    rw [Op.eq_of_codes o o' (h.1.2.symm.trans h'.1.2) (.inl (h.2.symm.trans h'.2))]
  case opImm.opImm o o' =>
    simp only [encodes, Bool.and_eq_true, Bool.or_eq_true, beq_iff_eq, bne_iff_ne,
      Bool.not_eq_true'] at h h'
    have h3 : o.funct3 = o'.funct3 := h.1.2.symm.trans h'.1.2
    rw [Op.eq_of_codes o o' h3 ?_]
    rcases h.2 with hs | hs
    · exact .inr ⟨hs, h.1.1.1, h'.1.1.1⟩
    · refine h'.2.elim (fun hs' => .inr ⟨(Op.isShift_eq o o' h3).trans hs', h.1.1.1, h'.1.1.1⟩) ?_
      exact fun hs' => .inl (Op.funct7_of_high o o' (hs.symm.trans hs'))
  case opImm32.opImm32 o o' =>
    simp only [encodes, Bool.and_eq_true, Bool.or_eq_true, beq_iff_eq, bne_iff_ne,
      Bool.not_eq_true'] at h h'
    have h3 : o.funct3 = o'.funct3 := h.1.2.symm.trans h'.1.2
    rw [Op.eq_of_codes o o' h3 ?_]
    rcases h.2 with hs | hs
    · exact .inr ⟨hs, h.1.1.1.2, h'.1.1.1.2⟩
    · refine h'.2.elim (fun hs' => ?_) fun hs' => .inl (hs.symm.trans hs')
      exact .inr ⟨(Op.isShift_eq o o' h3).trans hs', h.1.1.1.2, h'.1.1.1.2⟩
  all_goals rfl

theorem mem_all (n : Instr) : n ∈ all := by
  cases n <;> simp [all, Op.mem_all]

theorem decode_eq {n : Instr} (h : n.encodes inst = true) : decode inst = some n := by
  cases hd : decode inst with
  | none => exact absurd h (by simpa using List.find?_eq_none.mp hd n n.mem_all)
  | some n' => rw [encodes_inj h (List.find?_some hd)]

end Instr

/-- Whether a branch is taken. -/
def taken (f : BitVec 3) (a b : BitVec 64) : Option Bool :=
  match f.toNat with
  | 0 => some (a == b)
  | 1 => some (a != b)
  | 4 => some (a.slt b)
  | 5 => some (!a.slt b)
  | 6 => some (a.ult b)
  | 7 => some (!a.ult b)
  | _ => none

structure Hart where
  pc : BitVec 64
  x : BitVec 5 → BitVec 64
  mem : BitVec 32 → BitVec 8

namespace Hart

def reg (s : Hart) (r : BitVec 5) : BitVec 64 := if r = 0 then 0 else s.x r
def write (s : Hart) (r : BitVec 5) (v : BitVec 64) : Hart :=
  { s with x := if r = 0 then s.x else Function.update s.x r v }
def jump (s : Hart) (pc : BitVec 64) : Hart := { s with pc := pc }

/-- The eight bytes from an address on. -/
def read (s : Hart) (a : BitVec 64) : BitVec 64 :=
  Bytes.ofBytes fun j => s.mem (a.setWidth 32 + BitVec.ofNat 32 j)

def store (s : Hart) (a : BitVec 64) (n : Nat) (v : BitVec 64) : Hart :=
  { s with mem := fun x =>
      if (x - a.setWidth 32).toNat < n then Bytes.byte v (x - a.setWidth 32).toNat else s.mem x }

def fetch (s : Hart) : BitVec 32 := (s.read s.pc).setWidth 32

/-- One instruction; `none` is a trap. -/
def execute (inst : BitVec 32) (cycle : BitVec 64) (s : Hart) : Option Hart :=
  let a := s.reg (rs1 inst)
  let b := s.reg (rs2 inst)
  if opcode inst = 0b1101111 then
    some ((s.write (rd inst) (s.pc + 4)).jump (s.pc + immJ inst))
  else if opcode inst = 0b1100111 then
    if funct3 inst = 0 then
      some ((s.write (rd inst) (s.pc + 4)).jump ((a + immI inst) &&& ~~~1))
    else none
  else if opcode inst = 0b1100011 then
    (taken (funct3 inst) a b).map fun t => s.jump (if t then s.pc + immB inst else s.pc + 4)
  else if isLoad inst then
    some ((s.write (rd inst) (loadValue (funct3 inst) 0 (s.read (a + immI inst)))).jump (s.pc + 4))
  else if isStore inst then
    some ((s.store (a + immS inst) (accessBytes (funct3 inst)) b).jump (s.pc + 4))
  else if opcode inst = 0b0001111 ∧ funct3 inst = 0 then
    some (s.jump (s.pc + 4))
  else if opcode inst = 0b1110011 ∧ funct3 inst = 2 ∧ rs1 inst = 0
      ∧ inst.extractLsb' 20 12 = 0xc00 then
    some ((s.write (rd inst) cycle).jump (s.pc + 4))
  else
    (Instr.decode inst).map fun n => (s.write (rd inst) (n.result inst s.pc a b)).jump (s.pc + 4)

section Execute
variable {inst : BitVec 32} {cycle : BitVec 64} {s : Hart}

theorem execute_jal (h : opcode inst = 0b1101111) :
    s.execute inst cycle = some ((s.write (rd inst) (s.pc + 4)).jump (s.pc + immJ inst)) := by
  simp [execute, h]

theorem execute_jalr (h : opcode inst = 0b1100111) (h3 : funct3 inst = 0) :
    s.execute inst cycle = some ((s.write (rd inst) (s.pc + 4)).jump
      ((s.reg (rs1 inst) + immI inst) &&& ~~~1)) := by
  simp [execute, h, h3]

theorem execute_branch (h : opcode inst = 0b1100011)
    (ht : taken (funct3 inst) (s.reg (rs1 inst)) (s.reg (rs2 inst)) = some t) :
    s.execute inst cycle = some (s.jump (if t then s.pc + immB inst else s.pc + 4)) := by
  simp [execute, h, ht]

theorem execute_load (h : isLoad inst = true) :
    s.execute inst cycle = some ((s.write (rd inst)
      (loadValue (funct3 inst) 0 (s.read (s.reg (rs1 inst) + immI inst)))).jump (s.pc + 4)) := by
  have ho : opcode inst = 0b0000011 := by
    simp only [isLoad, Bool.and_eq_true, beq_iff_eq] at h
    exact h.1
  simp [execute, ho, h]

theorem execute_store (h : isStore inst = true) :
    s.execute inst cycle = some ((s.store (s.reg (rs1 inst) + immS inst)
      (accessBytes (funct3 inst)) (s.reg (rs2 inst))).jump (s.pc + 4)) := by
  have ho : opcode inst = 0b0100011 := by
    simp only [isStore, Bool.and_eq_true, beq_iff_eq] at h
    exact h.1
  simp [execute, isLoad, ho, h]

theorem execute_cycle (h : opcode inst = 0b1110011) (h3 : funct3 inst = 2) (hr : rs1 inst = 0)
    (hc : inst.extractLsb' 20 12 = 0xc00) :
    s.execute inst cycle = some ((s.write (rd inst) cycle).jump (s.pc + 4)) := by
  simp [execute, isLoad, isStore, h, h3, hr, hc]

theorem execute_int {n : Instr} (h : n.encodes inst = true) :
    s.execute inst cycle = some ((s.write (rd inst)
      (n.result inst s.pc (s.reg (rs1 inst)) (s.reg (rs2 inst)))).jump (s.pc + 4)) := by
  have ho := Instr.opcode_of_encodes h
  cases n <;> simp [execute, isLoad, isStore, ho, Instr.opcode, Instr.decode_eq h]

end Execute

end Hart

/-- A store as the memory sees it. -/
structure Store where
  addr : BitVec 32
  bytes : Nat
  data : BitVec 64
  deriving DecidableEq

/-- The store that an instruction makes. -/
def Hart.stores (inst : BitVec 32) (s : Hart) : List Store :=
  if isStore inst then
    [{ addr := (s.reg (rs1 inst) + immS inst).setWidth 32, bytes := accessBytes (funct3 inst)
       data := s.reg (rs2 inst) }]
  else []

/-- A hart and the stores it has made. -/
structure Traced where
  hart : Hart
  log : List Store

/-- A hart that runs from its memory; each input is the cycle counter of one instruction. -/
def traced : Clocked.Machine (Option Traced) (BitVec 64) where
  next s cycle := s.bind fun t => (t.hart.execute t.hart.fetch cycle).map fun h =>
    { hart := h, log := t.log ++ t.hart.stores t.hart.fetch }

end Rv64i
