import Rv64imCore.CsrWrite
import Rv64imCore.Issue

/-! The Zicsr instructions in EX against what the extension asks of them. -/

namespace Rv64imCore
set_option autoImplicit true

namespace Zicsr

/-- What an instruction makes of a CSR: `csrrw`, `csrrs`, `csrrc` and their immediate forms. -/
inductive Op where
  | rw
  | rs
  | rc
  deriving DecidableEq

def Op.write (old x : BitVec 64) : Op → BitVec 64
  | rw => x
  | rs => old ||| x
  | rc => old &&& ~~~x

def op (inst : BitVec 32) : Op :=
  if (Id.fun3 inst).extractLsb' 0 2 == 1 then .rw
  else if (Id.fun3 inst).extractLsb' 0 2 == 2 then .rs
  else .rc

/-- The value of rs1, or the zero-extended field of rs1. -/
def operand (inst : BitVec 32) (rs1 : BitVec 64) : BitVec 64 :=
  if (Id.fun3 inst).getLsbD 2 then (Id.rs1 inst).setWidth 64 else rs1

end Zicsr

/-- An instruction of the Zicsr extension. -/
def Id.zicsr (inst : BitVec 32) : Bool := csrOp inst && (fun3 inst).extractLsb' 0 2 != 0

namespace Core
variable {s : State} {i : In}

theorem csrReq_of_zicsr {x : IdAlu} (hd : x.Decoded) (h : Id.zicsr x.inst = true) :
    Alu.csrReq x.info = true ∧ Alu.sysReq x.info = false := by
  simp only [Id.zicsr, Bool.and_eq_true] at h
  rcases hd with ⟨hi, -⟩ | rfl
  · rw [hi, Alu.csrReq_info, Alu.sysReq_info]
    refine ⟨h.1, ?_⟩
    rw [Bool.eq_false_iff]
    intro hs
    have ho := Id.csrOp_opcode h.1
    rcases Id.sysOp_opcode hs with h' | ⟨-, h'⟩
    · rw [ho] at h'; exact absurd h' (by decide)
    · rw [h'] at h; exact absurd h.2 (by decide)
  · exact absurd h.1 (by decide)

/-- Only a data stall holds a CSR instruction, and only an interrupt kills it. -/
theorem zicsr_control (hd : s.exu.idAlu.Decoded) (h : Id.zicsr s.exu.idAlu.inst = true) :
    stallExu s i = memStall s i.toEarly ∧ intrFlush s i.toEarly = aluIntr s i.toEarly ∧
    exuFlush s i.toEarly = false ∧ iduPipeStall s i = false := by
  obtain ⟨hc, hs⟩ := csrReq_of_zicsr hd h
  obtain ⟨-, hm, hb, hmd⟩ := hd.classes.csr hc
  refine ⟨?_, ?_, ?_, ?_⟩
  · rw [stallExu_eq, exuStall_eq_false hm (Alu.divOp_eq_false hmd), Bool.false_or]
  · simp [intrFlush, aluIntr, IntrCtrl.flushEn, IntrCtrl.intrReq, IntrCtrl.intrExit,
      IntrCtrl.syncIntr, IntrCtrl.mretIntr, intrIn, Alu.ecall, Alu.mret, hs]
  · exact Alu.flush_eq_false (i := aluIn s i.toEarly) hb _ _
  · exact iduPipeStall_eq_false hm hmd

theorem exuRdData_of_zicsr (hd : s.exu.idAlu.Decoded) (h : Id.zicsr s.exu.idAlu.inst = true) :
    exuRdData s i = CsrReg.rdata s.exu.csr (Alu.csrAddr s.exu.idAlu) := by
  obtain ⟨hc, -⟩ := csrReq_of_zicsr hd h
  obtain ⟨ha, -, hb, hmd⟩ := hd.classes.csr hc
  have h1 : Alu.aluReq (aluIn s i.toEarly).info = false := ha
  have h2 : Alu.bjpToRdWe (aluIn s i.toEarly) = false := by
    simp [Alu.bjpToRdWe, Alu.jal, Alu.jalr, aluIn, hb]
  have h3 : ∀ a, Alu.muldivToRdWe (aluIn s i.toEarly) a = false := by
    simp [Alu.muldivToRdWe, aluIn, Alu.divOp_eq_false hmd, Alu.mulOp_eq_false hmd]
  have h4 : Alu.csrReq (aluIn s i.toEarly).info = true := hc
  rw [exuRdData, Alu.rdWdata, h1, h2, h3, h4, csrRdata]
  simp

end Core

namespace Alu

theorem opInfo_csr {inst : BitVec 32} (h : Id.csrOp inst = true) (hs : Id.sysOp inst = false) :
    (Id.info inst).opInfo = Id.csrInfo inst := by
  have hc := (classes_info inst).csr (by rw [csrReq_info, h])
  simp only [aluReq_info, memReq_info, bjpReq_info, muldivReq_info] at hc
  simp [Id.info, h, hs, hc]

theorem csr_wires {inst : BitVec 32} (h : Id.csrOp inst = true) (hs : Id.sysOp inst = false) :
    csrrw (Id.info inst) = Id.csrrw inst ∧ csrrs (Id.info inst) = Id.csrrs inst ∧
      csrrc (Id.info inst) = Id.csrrc inst ∧ csrrwi (Id.info inst) = Id.csrrwi inst ∧
      csrrsi (Id.info inst) = Id.csrrsi inst ∧ csrrci (Id.info inst) = Id.csrrci inst := by
  simp only [csrrw, csrrs, csrrc, csrrwi, csrrsi, csrrci, opInfo_csr h hs, csrReq_info, h,
    Bool.true_and, Id.csrInfo, BitVec.getLsbD_ofBoolListBE]
  exact ⟨rfl, rfl, rfl, rfl, rfl, rfl⟩

theorem zicsr_fun3 {inst : BitVec 32} (h : Id.zicsr inst = true) :
    Id.fun3 inst = 1 ∨ Id.fun3 inst = 2 ∨ Id.fun3 inst = 3 ∨ Id.fun3 inst = 5 ∨
      Id.fun3 inst = 6 ∨ Id.fun3 inst = 7 := by
  simp only [Id.zicsr, Bool.and_eq_true, bne_iff_ne] at h
  have hc : ∀ f : BitVec 3, f.extractLsb' 0 2 ≠ 0 →
      f = 1 ∨ f = 2 ∨ f = 3 ∨ f = 5 ∨ f = 6 ∨ f = 7 := by decide
  exact hc _ h.2

/-- What the code writes: the operand is or-ed in whatever the operation. -/
def zicsrWrite (old x : BitVec 64) : Zicsr.Op → BitVec 64
  | .rw => x
  | _ => old ||| x

theorem csrWdata_eq {x : IdAlu} (hi : x.info = Id.info x.inst) (h : Id.zicsr x.inst = true)
    (hs : Id.sysOp x.inst = false) (old : BitVec 64) : csrWdata x old =
      zicsrWrite old (Zicsr.operand x.inst x.rs1Data) (Zicsr.op x.inst) := by
  have hc : Id.csrOp x.inst = true := by
    rw [Id.zicsr, Bool.and_eq_true] at h
    exact h.1
  obtain ⟨h1, h2, h3, h4, h5, h6⟩ := csr_wires hc hs
  have hd : Id.decCsr x.inst = true := hc
  have hzero : 0#59 ++ x.inst.extractLsb' 15 5 = (x.inst.extractLsb' 15 5).setWidth 64 := by
    apply BitVec.eq_of_getLsbD_eq
    intro k hk
    rw [BitVec.getLsbD_append, BitVec.getLsbD_setWidth]
    by_cases h5 : k < 5
    · simp [h5, hk]
    · simp [h5]
  have hor (a b : BitVec 64) : b ||| (a &&& ~~~b) = a ||| b := by
    ext k
    simp
    cases a[k] <;> cases b[k] <;> rfl
  rcases zicsr_fun3 h with hf | hf | hf | hf | hf | hf <;>
    simp [csrWdata, csrOp2, hi, h1, h2, h3, h4, h5, h6, Id.csrrw, Id.csrrs, Id.csrrc, Id.csrrwi,
      Id.csrrsi, Id.csrrci, Id.csr, hd, hf, Zicsr.operand, Zicsr.op, zicsrWrite, Id.rs1, hzero, hor]

/-- Only a clear goes wrong, and only of a bit that the operand names. -/
theorem zicsrWrite_eq_iff (old x : BitVec 64) (o : Zicsr.Op) :
    zicsrWrite old x o = o.write old x ↔ (o = .rc → x = 0) := by
  cases o with
  | rw => simp [zicsrWrite, Zicsr.Op.write]
  | rs => simp [zicsrWrite, Zicsr.Op.write]
  | rc =>
    simp only [zicsrWrite, Zicsr.Op.write, forall_const]
    constructor
    · intro h
      apply BitVec.eq_of_getLsbD_eq
      intro k hk
      have hb : (old ||| x).getLsbD k = (old &&& ~~~x).getLsbD k := by rw [h]
      rw [BitVec.getLsbD_or, BitVec.getLsbD_and, BitVec.getLsbD_not] at hb
      cases hx : x.getLsbD k with
      | false => simp
      | true => simp [hx] at hb
    · rintro rfl
      have hn : ~~~(0 : BitVec 64) = BitVec.allOnes 64 := by decide
      rw [hn, BitVec.and_allOnes]
      exact BitVec.or_zero

end Alu

namespace Core

section Zicsr
variable (s : State) (i : In) (c : Csr)

/-- rd receives the old value, the CSR the new one, and no other CSR is touched: the two that
count and sample go on as they would without the instruction. -/
structure ZicsrCorrect : Prop where
  rd : exuPort s i =
    { wen := true, index := Id.rd s.exu.idAlu.inst, data := c.get s.exu.csr }
  csr : c.get (next s i).exu.csr = (Zicsr.op s.exu.idAlu.inst).write (c.get s.exu.csr)
    (Zicsr.operand s.exu.idAlu.inst (aluRs1Data s i.toEarly))
  others : ∀ d, d ≠ c → d.get (next s i).exu.csr = d.get s.exu.csr
  mip : (next s i).exu.csr.mip = (CsrReg.next s.exu.csr (csrIn s i).noWrite).mip
  cycle : (next s i).exu.csr.cycle = (CsrReg.next s.exu.csr (csrIn s i).noWrite).cycle

end Zicsr

section Cycle
variable {s : State} {i : In} {c : Csr}

theorem zicsr_decoded (hd : s.exu.idAlu.Decoded) (hz : Id.zicsr s.exu.idAlu.inst = true) :
    s.exu.idAlu.info = Id.info s.exu.idAlu.inst ∧
      s.exu.idAlu.rdIndex = Id.rd s.exu.idAlu.inst ∧ Id.sysOp s.exu.idAlu.inst = false := by
  obtain ⟨-, hs⟩ := csrReq_of_zicsr hd hz
  rcases hd with ⟨hi, -, hr⟩ | hb
  · rw [hi, Alu.sysReq_info] at hs
    exact ⟨hi, hr, hs⟩
  · rw [hb] at hz
    exact absurd hz (by decide)

theorem exuPort_of_zicsr (hd : s.exu.idAlu.Decoded) (hz : Id.zicsr s.exu.idAlu.inst = true)
    (hn : intrFlush s i.toEarly = false) : exuPort s i =
      { wen := true, index := Id.rd s.exu.idAlu.inst
        data := CsrReg.rdata s.exu.csr (Alu.csrAddr s.exu.idAlu) } := by
  obtain ⟨hc, -⟩ := csrReq_of_zicsr hd hz
  have hi : aluIntr s i.toEarly = false := by
    rw [← (zicsr_control (i := i) hd hz).2.1]
    exact hn
  have hw : exuRdWen s i = true := by
    rw [exuRdWen, Alu.rdWen, hc, hi]
    simp
  have hx : exuRdIndex s i = Id.rd s.exu.idAlu.inst := by
    rw [← (zicsr_decoded hd hz).2.1]
    exact if_pos hw
  rw [exuPort, hw, hx, exuRdData_of_zicsr hd hz]

theorem csrIn_wdata_of_zicsr (hd : s.exu.idAlu.Decoded)
    (hz : Id.zicsr s.exu.idAlu.inst = true) (ha : Alu.csrAddr s.exu.idAlu = c.addr) :
    (csrIn s i).wdata = Alu.zicsrWrite (c.get s.exu.csr)
      (Zicsr.operand s.exu.idAlu.inst (aluRs1Data s i.toEarly)) (Zicsr.op s.exu.idAlu.inst) := by
  obtain ⟨hi, -, hs⟩ := zicsr_decoded hd hz
  have hr : csrRdata s = c.get s.exu.csr := by rw [csrRdata, ha, Csr.rdata_addr]
  rw [← hr]
  exact Alu.csrWdata_eq (x := aluIn s i.toEarly) hi hz hs (csrRdata s)

/-- A Zicsr instruction that no trap kills does what it should, but for a clear of a nonzero
operand: that sets the bits. -/
theorem zicsr_correct_iff (hd : s.exu.idAlu.Decoded) (hz : Id.zicsr s.exu.idAlu.inst = true)
    (ha : Alu.csrAddr s.exu.idAlu = c.addr) (hn : intrFlush s i.toEarly = false) :
    ZicsrCorrect s i c ↔ (Zicsr.op s.exu.idAlu.inst = .rc →
      Zicsr.operand s.exu.idAlu.inst (aluRs1Data s i.toEarly) = 0) := by
  have hw : (csrIn s i).wen = true := (csrReq_of_zicsr hd hz).1
  have hnext (d : Csr) : d.get (next s i).exu.csr =
      if d = c then (csrIn s i).wdata else d.get s.exu.csr := Csr.get_next hw hn ha d
  rw [← Alu.zicsrWrite_eq_iff (c.get s.exu.csr), ← csrIn_wdata_of_zicsr hd hz ha]
  constructor
  · intro h
    have hc := h.csr
    rw [hnext, if_pos rfl] at hc
    exact hc
  · intro h
    refine ⟨?_, ?_, fun d hdc => ?_, rfl, rfl⟩
    · rw [exuPort_of_zicsr hd hz hn, ha, Csr.rdata_addr]
    · rw [hnext, if_pos rfl, h]
    · rw [hnext, if_neg hdc]

end Cycle

end Core

namespace Sys

/-- The same word at every address. -/
def everywhere (inst : BitVec 32) (_ : Nat) : In :=
  { ifuReqRdy := true, ifuRspVld := true, ifuRdata := inst ++ inst, busRdata := 0
    busReady := false }

/-- `csrrwi x5, mtvec, 4`. -/
theorem zicsr_correct_csrrwi : Core.ZicsrCorrect
    (machine.run (default : State).reset (everywhere 0x305252f3) 4).core
    (coreIn (machine.run (default : State).reset (everywhere 0x305252f3) 4)
      (everywhere 0x305252f3 4)) .mtvec :=
  (Core.zicsr_correct_iff (run_inv default (everywhere 0x305252f3) 4).core.decoded
    (by decide +kernel) (by decide +kernel) (by decide +kernel)).mpr (by decide +kernel)

/-- `csrrci x0, mie, 8` out of reset: the software-interrupt enable stays set. -/
theorem csrrci_sets : ¬∀ (s : Core.State) (i : Core.In) (c : Csr), s.exu.idAlu.Decoded →
    Id.zicsr s.exu.idAlu.inst = true → Alu.csrAddr s.exu.idAlu = c.addr →
    Core.intrFlush s i.toEarly = false → Core.stallExu s i = false →
    Core.ZicsrCorrect s i c := by
  intro h
  let s := machine.run (default : State).reset (everywhere 0x30447073) 4
  have hd := (run_inv default (everywhere 0x30447073) 4).core.decoded
  have hc := (h s.core (coreIn s (everywhere 0x30447073 4)) .mie hd (by decide +kernel)
    (by decide +kernel) (by decide +kernel) (by decide +kernel)).csr
  revert hc
  decide +kernel

end Sys

end Rv64imCore
