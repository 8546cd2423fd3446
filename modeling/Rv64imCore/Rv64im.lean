import Rv64imCore.Hart
import Rv64imCore.Lanes
import Rv64imCore.Multiply
import Rv64imCore.WordDivision

/-! RV64IM on a byte memory, as far as a program sees it: the integer instructions of `Rv64i`, the
M extension, and reads of the CSRs, whose values come from outside. -/

namespace Rv64im
set_option autoImplicit true
open Rv64i (Hart)
open Rv64imCore (MulOp WordDivOp)

inductive DivOp where
  | div
  | divu
  | rem
  | remu
  deriving DecidableEq

namespace DivOp

/-- The `funct3` of the instruction; its opcode is OP and its `funct7` one. -/
def funct3 : DivOp → BitVec 3
  | div => 0b100
  | divu => 0b101
  | rem => 0b110
  | remu => 0b111

def encodes (op : DivOp) (inst : BitVec 32) : Bool :=
  Rv64i.opcode inst == 0b0110011 && Rv64i.funct3 inst == op.funct3
    && Rv64i.funct7 inst == 0b0000001

def isSigned : DivOp → Bool
  | div | rem => true
  | divu | remu => false
def isDiv : DivOp → Bool
  | div | divu => true
  | rem | remu => false

def result (op : DivOp) (a b : BitVec 64) : BitVec 64 :=
  if op.isDiv then
    if b = 0 then BitVec.allOnes 64
    else if op.isSigned then
      if a = BitVec.intMin 64 ∧ b = BitVec.allOnes 64 then BitVec.intMin 64
      else BitVec.ofInt 64 (a.toInt.tdiv b.toInt)
    else BitVec.ofNat 64 (a.toNat / b.toNat)
  else if b = 0 then a
  else if op.isSigned then
    if a = BitVec.intMin 64 ∧ b = BitVec.allOnes 64 then 0
    else BitVec.ofInt 64 (a.toInt.tmod b.toInt)
  else BitVec.ofNat 64 (a.toNat % b.toNat)

end DivOp

inductive MulDiv where
  | mul (op : MulOp)
  | div (op : DivOp)
  | divw (op : WordDivOp)

namespace MulDiv

def all : List MulDiv :=
  [.mul .mul, .mul .mulh, .mul .mulhsu, .mul .mulhu, .mul .mulw, .div .div, .div .divu,
    .div .rem, .div .remu, .divw .divw, .divw .divuw, .divw .remw, .divw .remuw]

def encodes (inst : BitVec 32) : MulDiv → Bool
  | mul op => op.encodes inst
  | div op => op.encodes inst
  | divw op => op.encodes inst

def result (a b : BitVec 64) : MulDiv → BitVec 64
  | mul op => op.result a b
  | div op => op.result a b
  | divw op => op.result a b

def decode (inst : BitVec 32) : Option MulDiv := all.find? fun n => n.encodes inst

theorem encodes_of_decode {n : MulDiv} (h : decode inst = some n) : n.encodes inst = true :=
  List.find?_some h

end MulDiv

/-- `csrrw` and its five fellows. -/
def isCsr (inst : BitVec 32) : Bool :=
  Rv64i.opcode inst == 0b1110011 && Rv64i.funct3 inst != 0 && Rv64i.funct3 inst != 4

def csrAddr (inst : BitVec 32) : BitVec 12 := inst.extractLsb' 20 12

/-- One instruction; `none` is a trap. -/
def execute (csr : BitVec 12 → BitVec 64) (inst : BitVec 32) (h : Hart) : Option Hart :=
  match MulDiv.decode inst with
  | some n => some ((h.write (Rv64i.rd inst) (n.result (h.reg (Rv64i.rs1 inst))
      (h.reg (Rv64i.rs2 inst)))).jump (h.pc + 4))
  | none =>
    if isCsr inst then some ((h.write (Rv64i.rd inst) (csr (csrAddr inst))).jump (h.pc + 4))
    else h.execute inst 0

def loadAddr (inst : BitVec 32) (h : Hart) : BitVec 64 := h.reg (Rv64i.rs1 inst) + Rv64i.immI inst
def storeAddr (inst : BitVec 32) (h : Hart) : BitVec 64 := h.reg (Rv64i.rs1 inst) + Rv64i.immS inst

/-- A load or store that meets a device: the device's word is what a load takes its value from. -/
def accessDevice (word : BitVec 64) (inst : BitVec 32) (h : Hart) : Hart :=
  if Rv64i.isLoad inst then
    (h.write (Rv64i.rd inst) (Rv64i.loadValue (Rv64i.funct3 inst)
      (Rv64i.offset (loadAddr inst h)) word)).jump (h.pc + 4)
  else h.jump (h.pc + 4)

/-- The surroundings of a hart: the words of the program text by their addresses, the 64-bit words
of memory that hold text, the addresses that are memory, and what device access number `n` reads. -/
structure Platform where
  code : BitVec 64 → Option (BitVec 32)
  text : BitVec 29 → Bool
  ram : BitVec 64 → Bool
  device : Nat → BitVec 64

namespace Platform

/-- A load or store is naturally aligned, and a store leaves the program text alone. -/
def permits (P : Platform) (inst : BitVec 32) (h : Hart) : Bool :=
  (!Rv64i.isLoad inst || Rv64i.aligned (Rv64i.funct3 inst) (loadAddr inst h))
    && (!Rv64i.isStore inst || (Rv64i.aligned (Rv64i.funct3 inst) (storeAddr inst h)
      && !(P.ram (storeAddr inst h) && P.text ((storeAddr inst h).extractLsb' 3 29))))

def onDevice (P : Platform) (inst : BitVec 32) (h : Hart) : Bool :=
  (Rv64i.isLoad inst && !P.ram (loadAddr inst h))
    || (Rv64i.isStore inst && !P.ram (storeAddr inst h))

end Platform

/-- What moves a hart on: an instruction that retires, with the values of the CSRs and the device's
word, or a trap or return that goes to a pc instead of the next instruction. -/
inductive Event where
  | retire (csr : BitVec 12 → BitVec 64) (word : BitVec 64)
  | trap (pc : BitVec 64)

namespace Platform

/-- The instruction at the pc. -/
def retire (P : Platform) (csr : BitVec 12 → BitVec 64) (word : BitVec 64) (h : Hart) :
    Option Hart :=
  (P.code h.pc).bind fun inst =>
    if P.permits inst h then
      if P.onDevice inst h then some (accessDevice word inst h) else execute csr inst h
    else none

def step (P : Platform) (h : Hart) : Event → Option Hart
  | .retire csr word => P.retire csr word h
  | .trap pc => some (h.jump pc)

end Platform

/-- A hart through a list of events; `none` once it cannot follow. -/
def Platform.follow (P : Platform) (h : Hart) (es : List Event) : Option Hart := es.foldlM P.step h

theorem Platform.follow_concat (P : Platform) (h : Hart) (es : List Event) (e : Event) :
    P.follow h (es ++ [e]) = (P.follow h es).bind fun h => P.step h e := by
  simp [follow, List.foldlM_append]

theorem Platform.follow_prefix {P : Platform} {h h' : Hart} {es es' : List Event}
    (hp : es <+: es') (hf : P.follow h es' = some h') : ∃ h'', P.follow h es = some h'' := by
  obtain ⟨ds, rfl⟩ := hp
  rw [follow, List.foldlM_append] at hf
  obtain ⟨h'', hf', -⟩ := Option.bind_eq_some_iff.mp hf
  exact ⟨h'', hf'⟩

end Rv64im
