import Rv64imCore.Csr

/-! What the write of an instruction does to the CSR file. -/

namespace Rv64imCore
set_option autoImplicit true

namespace CsrReg

/-- The inputs of the CSR file without the write of the instruction in EX. -/
def In.noWrite (i : In) : In := { i with wen := false }

/-- The instruction's write changes a register in this cycle. A trap overrides the write of the
four trap registers, but not that of `mtvec` and `mie`. -/
def changes (s : State) (i : In) : Bool :=
  i.wen && ((i.addr == 0x305#12 && i.wdata != s.mtvec) || (i.addr == 0x304#12 && i.wdata != s.mie)
    || (!i.intrWen && ((i.addr == 0x300#12 && i.wdata != s.mstatus)
      || (i.addr == 0x341#12 && i.wdata != s.mepc) || (i.addr == 0x342#12 && i.wdata != s.mcause)
      || (i.addr == 0x343#12 && i.wdata != s.mtval))))

theorem reg_eq_iff (v r c : BitVec 64) (b : Bool) :
    reg false r b v c = c ↔ (b && v != c) = false := by
  cases b <;> simp

theorem plain_noWrite_iff (i : In) (a : BitVec 12) (r c : BitVec 64) :
    reg false r (i.wen && i.addr == a) i.wdata c =
      reg false r (i.noWrite.wen && i.noWrite.addr == a) i.noWrite.wdata c ↔
    (i.wen && i.addr == a && i.wdata != c) = false := by
  rw [show (i.noWrite.wen && i.noWrite.addr == a) = false from rfl, reg_hold, reg_eq_iff]

theorem trap_noWrite_iff (i : In) (a : BitVec 12) (r d c : BitVec 64) :
    reg false r (trapWen i a) (trapWdata i d) c =
      reg false r (trapWen i.noWrite a) (trapWdata i.noWrite d) c ↔
    (!i.intrWen && (i.wen && i.addr == a && i.wdata != c)) = false := by
  cases hi : i.intrWen with
  | true => simp [trapWen, trapWdata, In.noWrite, hi]
  | false =>
    have h1 : trapWen i a = (i.wen && i.addr == a) := by simp [trapWen, hi]
    have h2 : trapWen i.noWrite a = false := by simp [trapWen, In.noWrite, hi]
    have h3 : trapWdata i d = i.wdata := by simp [trapWdata, hi]
    rw [h1, h2, h3, reg_hold, reg_eq_iff]
    simp

theorem next_noWrite_iff (s : State) (i : In) :
    next s i = next s i.noWrite ↔ changes s i = false := by
  have he : next s i = next s i.noWrite ↔
      (next s i).mstatus = (next s i.noWrite).mstatus ∧
      (next s i).mtvec = (next s i.noWrite).mtvec ∧ (next s i).mepc = (next s i.noWrite).mepc ∧
      (next s i).mcause = (next s i.noWrite).mcause ∧
      (next s i).mtval = (next s i.noWrite).mtval ∧ (next s i).mie = (next s i.noWrite).mie := by
    rw [State.mk.injEq]
    exact ⟨fun h => ⟨h.1, h.2.1, h.2.2.1, h.2.2.2.1, h.2.2.2.2.1, h.2.2.2.2.2.1⟩,
      fun h => ⟨h.1, h.2.1, h.2.2.1, h.2.2.2.1, h.2.2.2.2.1, h.2.2.2.2.2, rfl, rfl⟩⟩
  have hstatus := trap_noWrite_iff i 0x300 0 i.intrMstatus s.mstatus
  have htvec := plain_noWrite_iff i 0x305 0 s.mtvec
  have hepc := trap_noWrite_iff i 0x341 0 i.intrMepc s.mepc
  have hcause := trap_noWrite_iff i 0x342 0 i.intrMcause s.mcause
  have htval := trap_noWrite_iff i 0x343 0 i.intrMtval s.mtval
  have hie := plain_noWrite_iff i 0x304 0x888 s.mie
  refine he.trans ((and_congr hstatus (and_congr htvec (and_congr hepc (and_congr hcause
    (and_congr htval hie))))).trans ?_)
  simp only [changes]
  grind

end CsrReg

/-- The CSRs that an instruction can write. -/
inductive Csr where
  | mstatus
  | mie
  | mtvec
  | mepc
  | mcause
  | mtval
  deriving DecidableEq

namespace Csr

def addr : Csr → BitVec 12
  | mstatus => 0x300
  | mie => 0x304
  | mtvec => 0x305
  | mepc => 0x341
  | mcause => 0x342
  | mtval => 0x343

def get (s : CsrReg.State) : Csr → BitVec 64
  | mstatus => s.mstatus
  | mie => s.mie
  | mtvec => s.mtvec
  | mepc => s.mepc
  | mcause => s.mcause
  | mtval => s.mtval

theorem rdata_addr (s : CsrReg.State) (c : Csr) : CsrReg.rdata s c.addr = c.get s := by
  cases c <;> simp [CsrReg.rdata, addr, get]

/-- An instruction's write reaches the one CSR that it addresses. -/
theorem get_next {s : CsrReg.State} {i : CsrReg.In} {c : Csr} (hw : i.wen = true)
    (hi : i.intrWen = false) (ha : i.addr = c.addr) (d : Csr) :
    d.get (CsrReg.next s i) = if d = c then i.wdata else d.get s := by
  cases c <;> cases d <;>
    simp [CsrReg.next, CsrReg.trapWen, CsrReg.trapWdata, get, addr, hw, hi, ha]

theorem get_next_of_addr_ne {s : CsrReg.State} {i : CsrReg.In} {d : Csr} (ha : i.addr ≠ d.addr) :
    d.get (CsrReg.next s i) = d.get (CsrReg.next s i.noWrite) := by
  have hw : (i.wen && i.addr == d.addr) = false := by
    rw [beq_eq_false_iff_ne.mpr ha, Bool.and_false]
  cases d <;> simp only [addr, BitVec.ofNat_eq_ofNat] at hw <;>
    simp only [CsrReg.next, CsrReg.trapWen, CsrReg.trapWdata, CsrReg.In.noWrite, get,
      BitVec.ofNat_eq_ofNat, hw, Bool.false_and] <;> rfl

end Csr

end Rv64imCore
