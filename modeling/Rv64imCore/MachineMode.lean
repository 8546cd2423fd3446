import Rv64imCore.Rv64im
import Rv64imCore.TrapReturn
import Rv64imCore.Zicsr

/-! RV64IM with machine mode: a hart with the CSRs of traps, which enters traps and returns from
them by itself. -/

namespace Rv64imCore.Csr
set_option autoImplicit true

def all : List Csr := [mstatus, mie, mtvec, mepc, mcause, mtval]

/-- The CSR at an address. -/
def ofAddr (a : BitVec 12) : Option Csr := all.find? (·.addr == a)

theorem addr_of_ofAddr (h : ofAddr a = some c) : c.addr = a := by
  simpa using List.find?_some h

theorem addr_ne_of_ofAddr (h : ofAddr a = none) (c : Csr) : a ≠ c.addr := by
  rintro rfl
  cases c <;> cases h

end Rv64imCore.Csr

namespace Rv64im
set_option autoImplicit true
open Rv64i (Hart)
open Rv64imCore (Csr Zicsr.op Zicsr.operand)
open Rv64imCore.IntrCtrl (base enterMstatus returnMstatus)

/-- The CSRs that a program can write. `none` is a value that it cannot count on. -/
structure Csrs where
  mstatus : BitVec 64
  mie : BitVec 64
  mtvec : BitVec 64
  mepc : Option (BitVec 64)
  mcause : Option (BitVec 64)
  mtval : Option (BitVec 64)

namespace Csrs

/-- The three interrupt enables start set. -/
def reset : Csrs :=
  { mstatus := 0, mie := 0x888, mtvec := 0, mepc := some 0, mcause := some 0, mtval := some 0 }

def get (c : Csrs) : Csr → Option (BitVec 64)
  | .mstatus => some c.mstatus
  | .mie => some c.mie
  | .mtvec => some c.mtvec
  | .mepc => c.mepc
  | .mcause => c.mcause
  | .mtval => c.mtval

def set (c : Csrs) (v : BitVec 64) : Csr → Csrs
  | .mstatus => { c with mstatus := v }
  | .mie => { c with mie := v }
  | .mtvec => { c with mtvec := v }
  | .mepc => { c with mepc := some v }
  | .mcause => { c with mcause := some v }
  | .mtval => { c with mtval := some v }

@[simp] theorem get_set (c : Csrs) (v : BitVec 64) (r r' : Csr) :
    (c.set v r).get r' = if r' = r then some v else c.get r' := by
  cases r <;> cases r' <;> rfl

/-- The other addresses, of counters and pending bits, are read from outside. -/
def read (c : Csrs) (live : BitVec 12 → BitVec 64) (a : BitVec 12) : Option (BitVec 64) :=
  match Csr.ofAddr a with
  | some r => c.get r
  | none => some (live a)

/-- The old value that an instruction needs; `csrrw` to x0 needs none. -/
def old (c : Csrs) (live : BitVec 12 → BitVec 64) (inst : BitVec 32) : Option (BitVec 64) :=
  if Zicsr.op inst = .rw ∧ Rv64i.rd inst = 0 then some 0 else c.read live (csrAddr inst)

def update (c : Csrs) (inst : BitVec 32) (old rs1 : BitVec 64) : Csrs :=
  match Csr.ofAddr (csrAddr inst) with
  | some r => c.set ((Zicsr.op inst).write old (Zicsr.operand inst rs1)) r
  | none => c

def enter (c : Csrs) (pc cause tval : BitVec 64) : Csrs :=
  { c with mstatus := enterMstatus c.mstatus, mepc := some pc, mcause := some cause
           mtval := some tval }

/-- A return gives up the values of the trap that it ends. -/
def leave (c : Csrs) : Csrs :=
  { c with mstatus := returnMstatus c.mstatus, mepc := none, mcause := none, mtval := none }

/-- The cause of the interrupt to take, of the sources external, software and timer. -/
def taken (c : Csrs) (source : BitVec 3) : Option (BitVec 64) :=
  if c.mstatus.getLsbD 3 then
    if c.mie.getLsbD 11 && source.getLsbD 2 then some 0x800000000000000b
    else if c.mie.getLsbD 3 && source.getLsbD 1 then some 0x8000000000000003
    else if c.mie.getLsbD 7 && source.getLsbD 0 then some 0x8000000000000007
    else none
  else none

end Csrs

/-- A hart in machine mode. -/
structure MHart where
  hart : Hart
  csrs : Csrs

namespace MHart

def trap (m : MHart) (cause tval : BitVec 64) : MHart :=
  { hart := m.hart.jump (base m.csrs.mtvec), csrs := m.csrs.enter m.hart.pc cause tval }

def mret (m : MHart) : Option MHart :=
  m.csrs.mepc.map fun a => { hart := m.hart.jump a, csrs := m.csrs.leave }

/-- The interrupt sources are looked at before an instruction. -/
def interrupt (m : MHart) (source : BitVec 3) : MHart :=
  match m.csrs.taken source with
  | some cause => m.trap cause 0
  | none => m

end MHart

/-- What moves the hart on: an instruction, with the values of the counters and the device's word,
or the interrupt lines. -/
inductive MEvent where
  | exec (live : BitVec 12 → BitVec 64) (word : BitVec 64)
  | interrupt (source : BitVec 3)

namespace Platform

/-- The instruction at the pc; an `ecall` leaves its own word in `mtval`. -/
def exec (P : Platform) (live : BitVec 12 → BitVec 64) (word : BitVec 64) (m : MHart) :
    Option MHart :=
  (P.code m.hart.pc).bind fun inst =>
    if inst = 0x00000073 then some (m.trap 11 (inst.setWidth 64))
    else if inst = 0x30200073 then m.mret
    else if isCsr inst then
      (m.csrs.old live inst).bind fun old =>
        (P.retire (fun _ => old) word m.hart).map fun h =>
          { hart := h, csrs := m.csrs.update inst old (m.hart.reg (Rv64i.rs1 inst)) }
    else (P.retire live word m.hart).map fun h => { m with hart := h }

def mstep (P : Platform) (m : MHart) : MEvent → Option MHart
  | .exec live word => P.exec live word m
  | .interrupt source => some (m.interrupt source)

/-- A hart in machine mode through a list of events; `none` once it cannot follow. -/
def mfollow (P : Platform) (m : MHart) (es : List MEvent) : Option MHart := es.foldlM P.mstep m

theorem mfollow_append (P : Platform) (m : MHart) (es es' : List MEvent) :
    P.mfollow m (es ++ es') = (P.mfollow m es).bind fun m' => P.mfollow m' es' := by
  rw [mfollow, List.foldlM_append]
  rfl

theorem mfollow_one (P : Platform) (m : MHart) (e : MEvent) : P.mfollow m [e] = P.mstep m e := by
  simp [mfollow]

end Platform

section Retire
variable {P : Platform} {csr csr' : BitVec 12 → BitVec 64} {word : BitVec 64} {h h' : Hart}

theorem write_zero (h : Hart) (v w : BitVec 64) : h.write 0 v = h.write 0 w := rfl

/-- An instruction takes at most one CSR, into a register. -/
theorem execute_congr {inst : BitVec 32} (hc : isCsr inst = true →
    Rv64i.rd inst = 0 ∨ csr (csrAddr inst) = csr' (csrAddr inst)) :
    execute csr inst h = execute csr' inst h := by
  rw [execute, execute]
  split
  · rfl
  · split
    · rename_i hi
      rcases hc hi with h0 | h0
      · rw [h0, write_zero h _ (csr' (csrAddr inst))]
      · rw [h0]
    · rfl

theorem Platform.retire_congr (hc : ∀ inst, P.code h.pc = some inst → isCsr inst = true →
    Rv64i.rd inst = 0 ∨ csr (csrAddr inst) = csr' (csrAddr inst)) :
    P.retire csr word h = P.retire csr' word h := by
  rw [Platform.retire, Platform.retire]
  cases hp : P.code h.pc with
  | none => rfl
  | some inst => simp only [Option.bind_some, execute_congr (hc inst hp)]

end Retire

end Rv64im
