import Rv64imCore.Exu
import Rv64imCore.HartMemory
import Rv64imCore.IntegerOps
import Rv64imCore.Operand
import Rv64imCore.Stream
import Rv64imCore.WordDivFits

/-! An instruction that leaves EX with the operands of a hart does what the hart does. -/

namespace Rv64imCore.Core
set_option autoImplicit true
open Rv64i (Hart Instr isLoad isStore)
open Rv64im (DivOp MulDiv Platform accessDevice isCsr loadAddr storeAddr)

/-- The word that a load at an address is answered with, where a device gives `word`. -/
def wordFor (P : Platform) (m : Bytes.Mem 29) (word a : BitVec 64) : BitVec 64 :=
  if P.ram a then Ls.wordAt m a else word

/-- What a result is worth over a memory: a load takes its place in the word. -/
def Result.over (P : Platform) (m : Bytes.Mem 29) (word : BitVec 64) : Result → BitVec 64
  | .value v => v
  | .load a l _ => Ls.format a l (wordFor P m word a)

/-- The divider answers for the operands of EX. -/
def Divided (s : State) (i : In) : Prop :=
  ∃ j, Div.Answered j (divNow s i) ∧ j.rs1 = aluRs1Data s i.toEarly ∧
    j.rs2 = aluRs2Data s i.toEarly ∧
    j.isSigned = (Alu.div s.exu.idAlu.info || Alu.rem s.exu.idAlu.info)

/-- A word division has operands that the missing truncation does not matter for. -/
def WordFits (s : State) (e : Early) : Prop :=
  ∀ op : WordDivOp, op.encodes s.exu.idAlu.inst = true →
    op.fits (aluRs1Data s e) (aluRs2Data s e) = true

instance (s : State) (e : Early) : Decidable (WordFits s e) :=
  decidable_of_iff (∀ op ∈ [WordDivOp.divw, .divuw, .remw, .remuw],
    op.encodes s.exu.idAlu.inst = true → op.fits (aluRs1Data s e) (aluRs2Data s e) = true)
    ⟨fun h op => h op (by cases op <;> decide), fun h op _ => h op⟩

/-- EX presents the instruction that the hart is at, with the operands it has there. -/
structure Presents (s : State) (i : In) (h : Hart) : Prop where
  info : s.exu.idAlu.info = Id.info s.exu.idAlu.inst
  imm : s.exu.idAlu.immData = Id.immData s.exu.idAlu.inst
  rdIndex : s.exu.idAlu.rdIndex = Id.rd s.exu.idAlu.inst
  pc : s.exu.idAlu.pc = h.pc
  rs1 : Regfile.useRs1 s.exu.idAlu.inst = true →
    aluRs1Data s i.toEarly = h.reg (Id.rs1 s.exu.idAlu.inst)
  rs2 : Regfile.useRs2 s.exu.idAlu.inst = true →
    aluRs2Data s i.toEarly = h.reg (Id.rs2 s.exu.idAlu.inst)
  divided : Alu.divOp s.exu.idAlu.info = true → Divided s i
  fits : WordFits s i.toEarly

/-- What EX does when its instruction leaves it is the step of the hart from `h` to `h'`. -/
structure Matches (P : Platform) (word : BitVec 64) (s : State) (i : In) (h h' : Hart) : Prop where
  pc : h'.pc = if Alu.transfers s.exu.idAlu.inst then Alu.successor (aluIn s i.toEarly)
    else h.pc + 4
  regs : ∀ r, r ≠ 0 → ∀ n, h'.reg r =
    if writesRd s.exu.idAlu.info && s.exu.idAlu.rdIndex == r then
      (exResult s i n).over P h.mem word
    else h.reg r
  mem : h'.mem = if Alu.memReq s.exu.idAlu.info && lsuWen s
      && P.ram (Alu.memAddr (aluIn s i.toEarly)) then
      Bytes.Mem.store (n := 29) h.mem (Ls.wordOf (lsuAddr s i.toEarly)) (lsuWmask s i.toEarly)
        (lsuWdata s i.toEarly)
    else h.mem

theorem reg_write_of_ne (h : Hart) (r : BitVec 5) (v : BitVec 64) (hr : r' ≠ 0) :
    (h.write r v).reg r' = if r == r' then v else h.reg r' := by
  simp only [Hart.reg, Hart.write, if_neg hr]
  by_cases h0 : r = 0
  · subst h0
    rw [if_pos rfl, if_neg (by simpa using fun h => hr h.symm)]
  · rw [if_neg h0, Function.update_apply, BEq.comm]
    simp only [beq_iff_eq]

section Class
variable {s : State} {i : In} {h : Hart} {P : Platform} {word : BitVec 64}

theorem Presents.aluIn_eq (hp : Presents s i h) : aluIn s i.toEarly =
    Id.decode s.exu.idAlu.inst h.pc (aluRs1Data s i.toEarly) (aluRs2Data s i.toEarly) := by
  simp only [aluIn, Id.decode, hp.info, hp.imm, hp.rdIndex, hp.pc]

theorem Presents.matches_value (hp : Presents s i h) (hw : writesRd s.exu.idAlu.info = true)
    (hm : Alu.memReq s.exu.idAlu.info = false) (hv : ∀ n, exResult s i n = .value v)
    (hpc : p = if Alu.transfers s.exu.idAlu.inst then Alu.successor (aluIn s i.toEarly)
      else h.pc + 4) :
    Matches P word s i h ((h.write (Rv64i.rd s.exu.idAlu.inst) v).jump p) where
  pc := hpc
  regs := fun r hr n => by
    rw [hw, Bool.true_and, hv, hp.rdIndex]
    exact reg_write_of_ne h _ v hr
  mem := by rw [hm]; rfl

theorem Presents.matches_jump (hw : writesRd s.exu.idAlu.info = false)
    (hm : Alu.memReq s.exu.idAlu.info = false)
    (hpc : p = if Alu.transfers s.exu.idAlu.inst then Alu.successor (aluIn s i.toEarly)
      else h.pc + 4) : Matches P word s i h (h.jump p) where
  pc := hpc
  regs := fun r _ n => by rw [hw]; rfl
  mem := by rw [hm]; rfl

theorem transfers_eq_false {inst : BitVec 32} (h : Id.bjpOp inst = false) :
    Alu.transfers inst = false := by
  simp only [Id.bjpOp, Bool.or_eq_false_iff] at h
  have hc : Ifu.condBxx inst = false := by
    rw [Ifu.condBxx, show (Id.opcode inst == 0b1100011#7) = false from h.1.1]
    rfl
  rw [Alu.transfers, hc, h.1.2, h.2]
  rfl

theorem Presents.exResult_exu (hr : Alu.memReq s.exu.idAlu.info = false)
    (hm : Alu.mulOp s.exu.idAlu.info = false) (n : Nat) :
    exResult s i n = .value (exuRdData s i) := by
  rw [exResult, Alu.memRwCtrl_eq_false hr, hm]
  rfl

/-- The forms of instruction read no operand that the use tables leave out. -/
theorem result_operands {n : Instr} {inst : BitVec 32} (hn : n.encodes inst = true)
    (ha : Regfile.useRs1 inst = true → a = h.reg (Id.rs1 inst))
    (hb : Regfile.useRs2 inst = true → b = h.reg (Id.rs2 inst)) (pc : BitVec 64) :
    n.result inst pc a b =
      n.result inst pc (h.reg (Rv64i.rs1 inst)) (h.reg (Rv64i.rs2 inst)) := by
  have ho : Id.opcode inst = n.opcode := Instr.opcode_of_encodes hn
  cases n with
  | op o => rw [ha (by simp [Regfile.useRs1, ho, Instr.opcode]),
      hb (by simp [Regfile.useRs2, ho, Instr.opcode])]; rfl
  | op32 o => rw [ha (by simp [Regfile.useRs1, ho, Instr.opcode]),
      hb (by simp [Regfile.useRs2, ho, Instr.opcode])]; rfl
  | opImm o => rw [ha (by simp [Regfile.useRs1, ho, Instr.opcode])]; rfl
  | opImm32 o => rw [ha (by simp [Regfile.useRs1, ho, Instr.opcode])]; rfl
  | lui => rfl
  | auipc => rfl

theorem Presents.matches_int (hp : Presents s i h) {n : Instr}
    (hn : n.encodes s.exu.idAlu.inst = true) :
    Matches P word s i h ((h.write (Rv64i.rd s.exu.idAlu.inst) (n.result s.exu.idAlu.inst h.pc
      (h.reg (Rv64i.rs1 s.exu.idAlu.inst)) (h.reg (Rv64i.rs2 s.exu.idAlu.inst)))).jump
        (h.pc + 4)) := by
  obtain ⟨ha, hres⟩ := Alu.aluToRdData_of_encodes h.pc (aluRs1Data s i.toEarly)
    (aluRs2Data s i.toEarly) n hn
  obtain ⟨hm, hb, hmd, -, -⟩ := Alu.classes_of_aluOp ha
  have hmem : Alu.memReq s.exu.idAlu.info = false := by rw [hp.info, Alu.memReq_info, hm]
  have hmul : Alu.mulOp s.exu.idAlu.info = false := by
    rw [hp.info]
    exact Alu.mulOp_eq_false (by rw [Alu.muldivReq_info, hmd])
  refine hp.matches_value ?_ hmem (fun k => ?_) ?_
  · rw [writesRd, hp.info, Alu.aluReq_info, ha]
    rfl
  · rw [exResult_exu hmem hmul, exuRdData, hp.aluIn_eq,
      (Alu.aluOnly h.pc _ _ ha (divNow s i) (csrRdata s)).data, hres,
      result_operands hn hp.rs1 hp.rs2]
  · rw [transfers_eq_false hb]
    rfl

theorem divOp_wires {op : DivOp} {inst : BitVec 32} (h : op.encodes inst = true) :
    Id.muldivOp inst = true ∧ Alu.divOp (Id.info inst) = true ∧
      (Alu.div (Id.info inst) || Alu.rem (Id.info inst)) = op.isSigned ∧
      (Alu.div (Id.info inst) || Alu.divu (Id.info inst)) = op.isDiv ∧
      (Alu.rem (Id.info inst) || Alu.remu (Id.info inst)) = (!op.isDiv) ∧
      Alu.mdSextW (Id.info inst) = false := by
  simp only [DivOp.encodes, Bool.and_eq_true, beq_iff_eq] at h
  have ho : Id.opcode inst = 0b0110011#7 := h.1.1
  have hf : Id.fun3 inst = op.funct3 := h.1.2
  have h7 : Id.fun7 inst = 0b0000001#7 := h.2
  have hm : Id.muldivOp inst = true := by
    rw [Id.muldivOp, Id.decMd, ho, h7]
    rfl
  obtain ⟨-, -, -, -, h0, h1, h2, h3, hw⟩ := Alu.muldiv_wires inst hm
  refine ⟨hm, ?_⟩
  rw [Alu.divOp, h0, h1, h2, h3, hw, Id.div, Id.divu, Id.rem, Id.remu, hm, Id.mdSextW, Id.decMdw,
    ho, hf]
  cases op <;> exact ⟨rfl, rfl, rfl, rfl, rfl⟩

theorem Presents.exuRdData_div (hp : Presents s i h)
    (hd : Alu.divOp s.exu.idAlu.info = true)
    (hr : (Alu.rem s.exu.idAlu.info || Alu.remu s.exu.idAlu.info) =
      !(Alu.div s.exu.idAlu.info || Alu.divu s.exu.idAlu.info)) :
    ∃ j : Div.In, j.rs1 = aluRs1Data s i.toEarly ∧ j.rs2 = aluRs2Data s i.toEarly ∧
      j.isSigned = (Alu.div s.exu.idAlu.info || Alu.rem s.exu.idAlu.info) ∧
      exuRdData s i = Alu.sextW (Alu.mdSextW s.exu.idAlu.info)
        (if (Alu.div s.exu.idAlu.info || Alu.divu s.exu.idAlu.info) then Div.quotient j
          else Div.remainder j) := by
  obtain ⟨j, ha, h1, h2, h3⟩ := hp.divided hd
  refine ⟨j, h1, h2, h3, ?_⟩
  have hc := Alu.classes_info s.exu.idAlu.inst
  rw [← hp.info] at hc
  obtain ⟨hal, -, hb, -, hcs⟩ := hc.muldiv (Alu.divOp_muldivReq hd)
  have hw : Alu.muldivToRdWe (aluIn s i.toEarly) (Div.ack (divNow s i)) = true := by
    rw [Alu.muldivToRdWe, Div.ack, ha.ready]
    change (Alu.divOp s.exu.idAlu.info && true || _) = true
    rw [hd]
    rfl
  have hj : Alu.bjpToRdWe (aluIn s i.toEarly) = false := by
    change (Alu.jal s.exu.idAlu.info || Alu.jalr s.exu.idAlu.info) = false
    rw [Alu.jal, Alu.jalr, hb]
    rfl
  rw [exuRdData, Alu.rdWdata, hw, hj, Alu.muldivToRdData, Alu.muldivRes, ha.res, ha.rem]
  change mask (Alu.aluReq s.exu.idAlu.info) _ ||| _ ||| mask true (Alu.sextW
      (Alu.mdSextW s.exu.idAlu.info)
      (mask (Alu.div s.exu.idAlu.info || Alu.divu s.exu.idAlu.info) _
        ||| mask (Alu.rem s.exu.idAlu.info || Alu.remu s.exu.idAlu.info) _))
    ||| mask (Alu.csrReq s.exu.idAlu.info) _ = _
  rw [hal, hcs, hr]
  cases (Alu.div s.exu.idAlu.info || Alu.divu s.exu.idAlu.info) <;> simp

theorem divOp_result (op : DivOp) (j : Div.In) (hs : j.isSigned = op.isSigned) :
    (if op.isDiv then Div.quotient j else Div.remainder j) = op.result j.rs1 j.rs2 := by
  simp only [Div.quotient, Div.remainder, Div.overflows, DivOp.result, hs, Bool.and_eq_true,
    beq_iff_eq]
  rfl

theorem wide_eq (op : WordDivOp) (j : Div.In) (hs : j.isSigned = op.isSigned) :
    (if op.isDiv then Div.quotient j else Div.remainder j) = op.wide j.rs1 j.rs2 := by
  simp only [WordDivOp.wide, WordDivOp.request, Div.quotient, Div.remainder, Div.overflows, hs]
  rfl

theorem wide_of_fits {op : WordDivOp} (h : op.fits a b = true) :
    ((op.wide a b).setWidth 32).signExtend 64 = op.result a b := by
  have hc : Exu.Correct op a b := by
    rw [WordDivOp.fits, Bool.or_eq_true, Bool.and_eq_true] at h
    rcases h with h | ⟨ha, hb⟩
    · exact Exu.correct_of_zeroFits h
    · exact Exu.correct_of_divisorFits ha hb
  rw [(Exu.correct_iff op a b).mp hc, WordDivOp.result]

theorem use_of_muldivOp {inst : BitVec 32} (h : Id.muldivOp inst = true) :
    Regfile.useRs1 inst = true ∧ Regfile.useRs2 inst = true := by
  rcases Id.muldivOp_opcode h with ho | ho
  all_goals simp [Regfile.useRs1, Regfile.useRs2, ho]

theorem Presents.muldiv_frame (hp : Presents s i h) (hmd : Id.muldivOp s.exu.idAlu.inst = true) :
    Alu.memReq s.exu.idAlu.info = false ∧
      h.pc + 4 = if Alu.transfers s.exu.idAlu.inst then Alu.successor (aluIn s i.toEarly)
        else h.pc + 4 := by
  obtain ⟨-, hm, hb, -⟩ := (Alu.classes_info s.exu.idAlu.inst).muldiv (by
    rw [Alu.muldivReq_info, hmd])
  rw [Alu.bjpReq_info] at hb
  rw [← hp.info] at hm
  refine ⟨hm, ?_⟩
  rw [transfers_eq_false hb]
  rfl

theorem Presents.matches_division (hp : Presents s i h)
    (hmd : Id.muldivOp s.exu.idAlu.inst = true) (hd : Alu.divOp s.exu.idAlu.info = true)
    (hv : exuRdData s i = v) :
    Matches P word s i h ((h.write (Rv64i.rd s.exu.idAlu.inst) v).jump (h.pc + 4)) := by
  obtain ⟨hm, hpc⟩ := hp.muldiv_frame hmd
  have hmul : Alu.mulOp s.exu.idAlu.info = false := by
    rw [Bool.eq_false_iff]
    intro hmul
    rw [Alu.divOp_of_mulOp (.inl ⟨hp.info, hp.imm, hp.rdIndex⟩) hmul] at hd
    cases hd
  refine hp.matches_value ?_ hm (fun k => ?_) hpc
  · rw [writesRd, hd]
    simp
  · rw [exResult_exu hm hmul, hv]

theorem Presents.matches_mulDiv (hp : Presents s i h) {n : MulDiv}
    (hn : n.encodes s.exu.idAlu.inst = true) :
    Matches P word s i h ((h.write (Rv64i.rd s.exu.idAlu.inst) (n.result
      (h.reg (Rv64i.rs1 s.exu.idAlu.inst)) (h.reg (Rv64i.rs2 s.exu.idAlu.inst)))).jump
        (h.pc + 4)) := by
  have hmd : Id.muldivOp s.exu.idAlu.inst = true := by
    cases n with
    | mul op => exact MulOp.muldivOp_of_encodes hn
    | div op => exact (divOp_wires hn).1
    | divw op => exact WordDivOp.muldivOp_of_encodes hn
  obtain ⟨hu1, hu2⟩ := use_of_muldivOp hmd
  have h1 : h.reg (Rv64i.rs1 s.exu.idAlu.inst) = aluRs1Data s i.toEarly := (hp.rs1 hu1).symm
  have h2 : h.reg (Rv64i.rs2 s.exu.idAlu.inst) = aluRs2Data s i.toEarly := (hp.rs2 hu2).symm
  rw [h1, h2]
  cases n with
  | mul op =>
    obtain ⟨hm, hpc⟩ := hp.muldiv_frame hmd
    refine hp.matches_value ?_ hm (fun k => exResult_multiply hp.info hn k) hpc
    rw [writesRd, hp.info, (MulOp.wires hn).1]
    simp
  | div op =>
    obtain ⟨-, hd, hs, hq, hr, hw⟩ := divOp_wires hn
    rw [← hp.info] at hd hs hq hr hw
    obtain ⟨j, h1, h2, h3, hx⟩ := hp.exuRdData_div hd (by rw [hr, hq])
    refine hp.matches_division hmd hd (hx.trans ?_)
    rw [hw, hq, divOp_result op j (h3.trans hs), h1, h2]
    rfl
  | divw op =>
    obtain ⟨hd, hs, hq, hr, hw⟩ := WordDivOp.wires hn
    rw [← hp.info] at hd hs hq hr hw
    obtain ⟨j, h1, h2, h3, hx⟩ := hp.exuRdData_div hd (by rw [hr, hq])
    refine hp.matches_division hmd hd (hx.trans ?_)
    rw [hw, hq, wide_eq op j (h3.trans hs), h1, h2, Alu.sextW_eq, if_pos rfl]
    exact wide_of_fits (hp.fits op hn)

theorem Presents.matches_csr (hp : Presents s i h) (hc : isCsr s.exu.idAlu.inst = true) :
    Matches P word s i h ((h.write (Rv64i.rd s.exu.idAlu.inst)
      (CsrReg.rdata s.exu.csr (Rv64im.csrAddr s.exu.idAlu.inst))).jump (h.pc + 4)) := by
  simp only [isCsr, Bool.and_eq_true, beq_iff_eq] at hc
  have ho : Id.opcode s.exu.idAlu.inst = 0b1110011#7 := hc.1.1
  have hcs : Alu.csrReq s.exu.idAlu.info = true := by
    rw [hp.info, Alu.csrReq_info, Id.csrOp, Id.decCsr, ho]
    rfl
  have hcl := Alu.classes_info s.exu.idAlu.inst
  rw [← hp.info] at hcl
  obtain ⟨ha, hm, hb, hmd⟩ := hcl.csr hcs
  refine hp.matches_value ?_ hm (fun k => ?_) ?_
  · rw [writesRd, hcs]
    simp
  · rw [exResult_exu hm (Alu.mulOp_eq_false hmd), exuRdData, Alu.rdWdata, Alu.bjpToRdWe,
      Alu.muldivToRdWe]
    change Result.value (mask (Alu.aluReq s.exu.idAlu.info) _
      ||| mask (Alu.jal s.exu.idAlu.info || Alu.jalr s.exu.idAlu.info) _
      ||| mask (Alu.divOp s.exu.idAlu.info && _ || Alu.mulOp s.exu.idAlu.info) _
      ||| mask (Alu.csrReq s.exu.idAlu.info) (csrRdata s)) = _
    rw [ha, hcs, Alu.jal, Alu.jalr, hb, Alu.divOp_eq_false hmd, Alu.mulOp_eq_false hmd]
    simp only [Bool.false_and, Bool.or_self, mask_false, mask_true, BitVec.zero_or]
    rfl
  · rw [hp.info, Alu.bjpReq_info] at hb
    rw [transfers_eq_false hb]
    rfl

theorem writesRd_eq_false {n : Info} (ha : Alu.aluReq n = false) (hb : Alu.bjpReq n = false)
    (hc : Alu.csrReq n = false) (hmd : Alu.muldivReq n = false) : writesRd n = Alu.memRwCtrl n := by
  rw [writesRd, ha, hc, Alu.jal, Alu.jalr, hb, Alu.divOp_eq_false hmd, Alu.mulOp_eq_false hmd]
  simp

theorem Presents.matches_fence (hp : Presents s i h)
    (ho : Rv64i.opcode s.exu.idAlu.inst = 0b0001111) :
    Matches P word s i h (h.jump (h.pc + 4)) := by
  have ho : Id.opcode s.exu.idAlu.inst = 0b0001111#7 := ho
  have hb : Id.bjpOp s.exu.idAlu.inst = false := by
    simp [Id.bjpOp, Id.decBranch, Id.decJalr, Id.decJal, ho]
  have hm : Alu.memReq s.exu.idAlu.info = false := by
    rw [hp.info, Alu.memReq_info]
    simp [Id.memOp, Id.decLd, Id.decSt, ho]
  refine Presents.matches_jump ?_ hm (by rw [transfers_eq_false hb]; rfl)
  rw [hp.info, writesRd_eq_false, ← hp.info, Alu.memRwCtrl_eq_false hm]
  · rw [Alu.aluReq_info]
    simp [Id.aluOp, Id.decR, Id.decRi, Id.decAuipc, Id.decLui, Id.decRw, Id.decRiw, ho]
  · rw [Alu.bjpReq_info, hb]
  · rw [Alu.csrReq_info]
    simp [Id.csrOp, Id.decCsr, ho]
  · rw [Alu.muldivReq_info]
    simp [Id.muldivOp, Id.decMd, Id.decMdw, ho]

theorem Presents.matches_link (hp : Presents s i h)
    (hj : Id.decJal s.exu.idAlu.inst = true ∨ Id.decJalr s.exu.idAlu.inst = true)
    (hs : Alu.successor (aluIn s i.toEarly) = p) :
    Matches P word s i h ((h.write (Rv64i.rd s.exu.idAlu.inst) (h.pc + 4)).jump p) := by
  obtain ⟨-, -, -, -, -, -, hjal, hjalr⟩ := Alu.bjp_info s.exu.idAlu.inst
  rw [← hp.info] at hjal hjalr
  have hw : (Alu.jal s.exu.idAlu.info || Alu.jalr s.exu.idAlu.info) = true := by
    rw [hjal, hjalr, Id.jal, Id.jalr]
    rcases hj with hj | hj <;> simp [hj]
  have hb : Alu.bjpReq s.exu.idAlu.info = true := by
    rw [Alu.jal, Alu.jalr, ← Bool.and_or_distrib_left, Bool.and_eq_true] at hw
    exact hw.1
  have hcl := Alu.classes_info s.exu.idAlu.inst
  rw [← hp.info] at hcl
  obtain ⟨ha, hm, hmd, -, hc⟩ := hcl.bjp hb
  refine hp.matches_value ?_ hm (fun k => ?_) ?_
  · rw [Bool.or_eq_true] at hw
    rw [writesRd]
    rcases hw with hw | hw <;> simp [hw]
  · rw [exResult_exu hm (Alu.mulOp_eq_false hmd), exuRdData, Alu.rdWdata, Alu.bjpToRdData,
      Alu.bjpToRdWe, Alu.muldivToRdWe]
    change Result.value (mask (Alu.aluReq s.exu.idAlu.info) _
      ||| mask (Alu.jal s.exu.idAlu.info || Alu.jalr s.exu.idAlu.info)
        (if (Alu.jal s.exu.idAlu.info || Alu.jalr s.exu.idAlu.info) then s.exu.idAlu.pc + 4 else 0)
      ||| mask (Alu.divOp s.exu.idAlu.info && _ || Alu.mulOp s.exu.idAlu.info) _
      ||| mask (Alu.csrReq s.exu.idAlu.info) _) = _
    rw [ha, hw, hc, Alu.divOp_eq_false hmd, Alu.mulOp_eq_false hmd, if_pos rfl, hp.pc]
    simp
  · have ht : Alu.transfers s.exu.idAlu.inst = true := by
      rw [Alu.transfers]
      rcases hj with hj | hj <;> simp [hj]
    rw [ht, if_pos rfl, hs]

theorem Presents.matches_jal (hp : Presents s i h)
    (ho : Rv64i.opcode s.exu.idAlu.inst = 0b1101111) :
    Matches P word s i h ((h.write (Rv64i.rd s.exu.idAlu.inst) (h.pc + 4)).jump
      (h.pc + Rv64i.immJ s.exu.idAlu.inst)) := by
  have ho : Id.opcode s.exu.idAlu.inst = 0b1101111#7 := ho
  have hj : Id.decJal s.exu.idAlu.inst = true := by simp [Id.decJal, ho]
  have hr : Id.decJalr s.exu.idAlu.inst = false := by simp [Id.decJalr, ho]
  refine hp.matches_link (.inl hj) ?_
  rw [hp.aluIn_eq, Alu.successor]
  change (if Id.decJalr s.exu.idAlu.inst then _ else if Id.decJal s.exu.idAlu.inst then
    h.pc + Id.immJ s.exu.idAlu.inst else _) = _
  rw [hr, hj, if_neg (by decide), if_pos rfl, Id.immJ_eq]

theorem Presents.matches_jalr (hp : Presents s i h)
    (ho : Rv64i.opcode s.exu.idAlu.inst = 0b1100111) (h3 : Rv64i.funct3 s.exu.idAlu.inst = 0) :
    Matches P word s i h ((h.write (Rv64i.rd s.exu.idAlu.inst) (h.pc + 4)).jump
      ((h.reg (Rv64i.rs1 s.exu.idAlu.inst) + Rv64i.immI s.exu.idAlu.inst) &&& ~~~1)) := by
  have ho : Id.opcode s.exu.idAlu.inst = 0b1100111#7 := ho
  have h3 : Id.fun3 s.exu.idAlu.inst = 0#3 := h3
  have hr : Id.decJalr s.exu.idAlu.inst = true := by simp [Id.decJalr, ho, h3]
  have hu : Regfile.useRs1 s.exu.idAlu.inst = true := by simp [Regfile.useRs1, ho]
  refine hp.matches_link (.inr hr) ?_
  rw [hp.aluIn_eq, Alu.successor]
  change (if Id.decJalr s.exu.idAlu.inst then
    (aluRs1Data s i.toEarly + Id.immI s.exu.idAlu.inst) &&& ~~~1#64 else _) = _
  rw [hr, if_pos rfl, hp.rs1 hu, Id.immI_eq]
  rfl

theorem taken_eq {f : BitVec 3} {a b : BitVec 64} {t : Bool} (h : Rv64i.taken f a b = some t) :
    Alu.taken f a b = t ∧ f ≠ 2 ∧ f ≠ 3 := by
  have hf : ∀ f : BitVec 3, f = 0 ∨ f = 1 ∨ f = 2 ∨ f = 3 ∨ f = 4 ∨ f = 5 ∨ f = 6 ∨ f = 7 := by
    decide
  rcases hf f with rfl | rfl | rfl | rfl | rfl | rfl | rfl | rfl
  case inr.inr.inl => cases h
  case inr.inr.inr.inl => cases h
  all_goals exact ⟨Option.some.inj h, by decide, by decide⟩

theorem Presents.matches_branch (hp : Presents s i h)
    (ho : Rv64i.opcode s.exu.idAlu.inst = 0b1100011)
    (ht : Rv64i.taken (Rv64i.funct3 s.exu.idAlu.inst) (h.reg (Rv64i.rs1 s.exu.idAlu.inst))
      (h.reg (Rv64i.rs2 s.exu.idAlu.inst)) = some t) :
    Matches P word s i h (h.jump (if t then h.pc + Rv64i.immB s.exu.idAlu.inst else h.pc + 4)) := by
  have ho : Id.opcode s.exu.idAlu.inst = 0b1100011#7 := ho
  obtain ⟨htk, h2, h3⟩ := taken_eq ht
  have hbr : Ifu.condBxx s.exu.idAlu.inst = true := by
    rw [Ifu.condBxx, ho]
    simp only [beq_self_eq_true, Bool.true_and, Bool.and_eq_true, bne_iff_ne]
    exact ⟨h2, h3⟩
  have hj : Id.decJal s.exu.idAlu.inst = false := by simp [Id.decJal, ho]
  have hr : Id.decJalr s.exu.idAlu.inst = false := by simp [Id.decJalr, ho]
  have hb : Alu.bjpReq s.exu.idAlu.info = true := Alu.bjpReq_of_condBxx hp.info hbr
  have hcl := Alu.classes_info s.exu.idAlu.inst
  rw [← hp.info] at hcl
  obtain ⟨ha, hm, hmd, -, hc⟩ := hcl.bjp hb
  obtain ⟨-, -, -, -, -, -, hjal, hjalr⟩ := Alu.bjp_info s.exu.idAlu.inst
  rw [← hp.info] at hjal hjalr
  refine Presents.matches_jump ?_ hm ?_
  · rw [writesRd, ha, hc, hjal, hjalr, Id.jal, Id.jalr, hj, hr, Alu.divOp_eq_false hmd,
      Alu.mulOp_eq_false hmd, Alu.memRwCtrl_eq_false hm]
    rfl
  · have htr : Alu.transfers s.exu.idAlu.inst = true := by rw [Alu.transfers, hbr]; rfl
    rw [htr, if_pos rfl, hp.aluIn_eq, Alu.successor]
    change _ = (if Id.decJalr s.exu.idAlu.inst then _ else if Id.decJal s.exu.idAlu.inst then _
      else if Alu.taken (Id.fun3 s.exu.idAlu.inst) (aluRs1Data s i.toEarly)
        (aluRs2Data s i.toEarly) then h.pc + Id.immB s.exu.idAlu.inst else h.pc + 4)
    rw [hr, hj, if_neg Bool.false_ne_true, if_neg Bool.false_ne_true,
      hp.rs1 (by simp [Regfile.useRs1, ho]), hp.rs2 (by simp [Regfile.useRs2, ho]), Id.immB_eq,
      show Alu.taken (Id.fun3 s.exu.idAlu.inst) (h.reg (Id.rs1 s.exu.idAlu.inst))
        (h.reg (Id.rs2 s.exu.idAlu.inst)) = t from htk]

theorem memRwCtrl_info (inst : BitVec 32) : Alu.memRwCtrl (Id.info inst) = Id.decLd inst := by
  rw [Alu.memRwCtrl, Alu.memReq_info]
  cases hm : Id.memOp inst with
  | false =>
    rw [Id.memOp, Bool.or_eq_false_iff] at hm
    rw [Bool.false_and, hm.1]
  | true =>
    rw [Alu.opInfo_mem hm, Id.memInfo, BitVec.getLsbD_ofBoolListBE]
    rfl

theorem Presents.mem_frame (hp : Presents s i h) (hm : Id.memOp s.exu.idAlu.inst = true) :
    Alu.memReq s.exu.idAlu.info = true ∧ writesRd s.exu.idAlu.info = Id.decLd s.exu.idAlu.inst ∧
      h.pc + 4 = if Alu.transfers s.exu.idAlu.inst then Alu.successor (aluIn s i.toEarly)
        else h.pc + 4 := by
  have hr : Alu.memReq s.exu.idAlu.info = true := by rw [hp.info, Alu.memReq_info, hm]
  have hcl := Alu.classes_info s.exu.idAlu.inst
  rw [← hp.info] at hcl
  obtain ⟨ha, hb, hmd, -, hc⟩ := hcl.mem hr
  refine ⟨hr, ?_, ?_⟩
  · rw [writesRd_eq_false ha hb hc hmd, hp.info, memRwCtrl_info]
  · rw [hp.info, Alu.bjpReq_info] at hb
    rw [transfers_eq_false hb]
    rfl

theorem wordOf_lsuAddr (s : State) (e : Early) :
    Ls.wordOf (lsuAddr s e) = Ls.wordOf (Alu.memAddr (aluIn s e)) := by
  rw [Ls.wordOf, Ls.wordOf, lsuAddr]
  apply BitVec.eq_of_getLsbD_eq
  intro k hk
  have h1 : ¬3 + k < 3 := by omega
  have h2 : k < 61 := by omega
  simp only [BitVec.getLsbD_extractLsb', BitVec.getLsbD_append, h1, if_false]
  simp [h2]

theorem Presents.load_frame (hp : Presents s i h) (hl : isLoad s.exu.idAlu.inst = true) :
    Id.decLd s.exu.idAlu.inst = true ∧
      Alu.memAddr (aluIn s i.toEarly) = loadAddr s.exu.idAlu.inst h := by
  have ho : Id.opcode s.exu.idAlu.inst = 0b0000011#7 := by
    simp only [isLoad, Bool.and_eq_true, beq_iff_eq] at hl
    exact hl.1
  have hi : Id.immData s.exu.idAlu.inst = Rv64i.immI s.exu.idAlu.inst := by
    rw [← Id.immI_eq]
    exact (Id.immData_of_opcode ho).1 (.inl rfl)
  refine ⟨by simp [Id.decLd, ho], ?_⟩
  rw [hp.aluIn_eq, loadAddr, ← hi]
  change aluRs1Data s i.toEarly + _ = _
  rw [hp.rs1 (by simp [Regfile.useRs1, ho])]
  rfl

theorem Presents.matches_load (hp : Presents s i h) (hl : isLoad s.exu.idAlu.inst = true)
    (ha : Rv64i.aligned (Rv64i.funct3 s.exu.idAlu.inst) (loadAddr s.exu.idAlu.inst h) = true)
    (hv : v = Rv64i.loadValue (Rv64i.funct3 s.exu.idAlu.inst)
      (Rv64i.offset (loadAddr s.exu.idAlu.inst h))
      (wordFor P h.mem word (loadAddr s.exu.idAlu.inst h))) :
    Matches P word s i h ((h.write (Rv64i.rd s.exu.idAlu.inst) v).jump (h.pc + 4)) := by
  obtain ⟨hd, hadr⟩ := hp.load_frame hl
  obtain ⟨hm, hw, hpc⟩ := hp.mem_frame (by rw [Id.memOp, hd]; rfl)
  have hr : Alu.memRwCtrl s.exu.idAlu.info = true := by rw [hp.info, memRwCtrl_info, hd]
  refine ⟨hpc, fun r hr' n => ?_, ?_⟩
  · rw [hw, hd, Bool.true_and, exResult, hr, if_pos rfl, Result.over, hadr, hp.info,
      Ls.format_load _ _ hl ha, ← hv, hp.rdIndex]
    exact reg_write_of_ne h _ _ hr'
  · rw [lsuWen, hr, Bool.not_true, Bool.and_false]
    rfl

theorem Presents.store_frame (hp : Presents s i h) (hst : isStore s.exu.idAlu.inst = true) :
    Id.opcode s.exu.idAlu.inst = 0b0100011#7 ∧ Id.decLd s.exu.idAlu.inst = false ∧
      Alu.memAddr (aluIn s i.toEarly) = storeAddr s.exu.idAlu.inst h := by
  have ho : Id.opcode s.exu.idAlu.inst = 0b0100011#7 := by
    simp only [isStore, Bool.and_eq_true, beq_iff_eq] at hst
    exact hst.1
  have hi : Id.immData s.exu.idAlu.inst = Rv64i.immS s.exu.idAlu.inst := by
    rw [← Id.immS_eq]
    exact (Id.immData_of_opcode ho).2.2.1 rfl
  refine ⟨ho, by simp [Id.decLd, ho], ?_⟩
  rw [hp.aluIn_eq, storeAddr, ← hi]
  change aluRs1Data s i.toEarly + _ = _
  rw [hp.rs1 (by simp [Regfile.useRs1, ho])]
  rfl

theorem Presents.matches_store (P : Platform) (word : BitVec 64) (hp : Presents s i h)
    (hst : isStore s.exu.idAlu.inst = true)
    (ha : Rv64i.aligned (Rv64i.funct3 s.exu.idAlu.inst) (storeAddr s.exu.idAlu.inst h) = true) :
    Matches P word s i h ((if P.ram (storeAddr s.exu.idAlu.inst h) then
      h.store (storeAddr s.exu.idAlu.inst h) (Rv64i.accessBytes (Rv64i.funct3 s.exu.idAlu.inst))
        (h.reg (Rv64i.rs2 s.exu.idAlu.inst)) else h).jump (h.pc + 4)) := by
  obtain ⟨ho, hd, hadr⟩ := hp.store_frame hst
  obtain ⟨hm, hw, hpc⟩ := hp.mem_frame (by rw [Id.memOp, Id.decSt, ho]; simp)
  have hr : Alu.memRwCtrl s.exu.idAlu.info = false := by rw [hp.info, memRwCtrl_info, hd]
  have h2 : h.reg (Rv64i.rs2 s.exu.idAlu.inst) = aluRs2Data s i.toEarly :=
    (hp.rs2 (by simp [Regfile.useRs2, ho])).symm
  refine ⟨hpc, fun r _ n => ?_, ?_⟩
  · rw [hw, hd]
    cases P.ram (storeAddr s.exu.idAlu.inst h) <;> rfl
  · rw [hm, lsuWen, hr, Bool.not_false, Bool.and_true, Bool.true_and, wordOf_lsuAddr, lsuWmask,
      lsuWdata, hadr, hp.info, h2]
    cases P.ram (storeAddr s.exu.idAlu.inst h) with
    | true => exact Ls.store_mem hst h _ ha
    | false => rfl

theorem isLoad_of_isStore {inst : BitVec 32} (h : isStore inst = true) : isLoad inst = false := by
  simp only [isStore, Bool.and_eq_true, beq_iff_eq] at h
  rw [isLoad, h.1]
  rfl

theorem Presents.matches_device (hp : Presents s i h)
    (hl : isLoad s.exu.idAlu.inst = true →
      Rv64i.aligned (Rv64i.funct3 s.exu.idAlu.inst) (loadAddr s.exu.idAlu.inst h) = true)
    (hst : isStore s.exu.idAlu.inst = true →
      Rv64i.aligned (Rv64i.funct3 s.exu.idAlu.inst) (storeAddr s.exu.idAlu.inst h) = true)
    (hd : P.onDevice s.exu.idAlu.inst h = true) :
    Matches P word s i h (accessDevice word s.exu.idAlu.inst h) := by
  rw [Platform.onDevice, Bool.or_eq_true, Bool.and_eq_true, Bool.and_eq_true,
    Bool.not_eq_true', Bool.not_eq_true'] at hd
  rw [accessDevice]
  rcases hd with ⟨hld, hr⟩ | ⟨hs, hr⟩
  · rw [if_pos hld]
    refine hp.matches_load hld (hl hld) ?_
    rw [wordFor, hr]
    rfl
  · have hm := hp.matches_store P word hs (hst hs)
    rw [isLoad_of_isStore hs, if_neg Bool.false_ne_true]
    rw [hr] at hm
    exact hm

theorem Presents.matches_base (hp : Presents s i h)
    (hl : isLoad s.exu.idAlu.inst = true →
      Rv64i.aligned (Rv64i.funct3 s.exu.idAlu.inst) (loadAddr s.exu.idAlu.inst h) = true)
    (hst : isStore s.exu.idAlu.inst = true →
      Rv64i.aligned (Rv64i.funct3 s.exu.idAlu.inst) (storeAddr s.exu.idAlu.inst h) = true)
    (hd : P.onDevice s.exu.idAlu.inst h = false)
    (hc : isCsr s.exu.idAlu.inst = false) (he : h.execute s.exu.idAlu.inst 0 = some h') :
    Matches P word s i h h' := by
  simp only [Hart.execute] at he
  split at he
  · rename_i ho
    cases he
    exact hp.matches_jal ho
  split at he
  · rename_i ho
    split at he
    · rename_i h3
      cases he
      exact hp.matches_jalr ho h3
    · cases he
  split at he
  · rename_i ho
    rw [Option.map_eq_some_iff] at he
    obtain ⟨t, ht, rfl⟩ := he
    exact hp.matches_branch ho ht
  split at he
  · rename_i hld
    cases he
    refine hp.matches_load hld (hl hld) ?_
    rw [Platform.onDevice, hld, Bool.true_and, Bool.or_eq_false_iff, Bool.not_eq_false'] at hd
    rw [wordFor, if_pos hd.1]
    exact Ls.loadValue_read h (hl hld)
  split at he
  · rename_i hs
    cases he
    have hm := hp.matches_store P word hs (hst hs)
    rw [Platform.onDevice, hs, Bool.true_and, Bool.or_eq_false_iff, Bool.not_eq_false'] at hd
    rw [if_pos hd.2] at hm
    exact hm
  split at he
  · rename_i hf
    cases he
    exact hp.matches_fence hf.1
  split at he
  · -- the counter is a CSR like the others
    rename_i hr
    rw [isCsr, hr.1, hr.2.1] at hc
    exact absurd hc (by decide)
  · rw [Option.map_eq_some_iff] at he
    obtain ⟨n, hn, rfl⟩ := he
    exact hp.matches_int (List.find?_some hn)

/-- The instruction that EX presents does what the hart does. -/
theorem Presents.matches_retire (hp : Presents s i h)
    (hpm : P.permits s.exu.idAlu.inst h = true)
    (he : (if P.onDevice s.exu.idAlu.inst h then some (accessDevice word s.exu.idAlu.inst h)
      else Rv64im.execute (CsrReg.rdata s.exu.csr) s.exu.idAlu.inst h) = some h') :
    Matches P word s i h h' := by
  simp only [Platform.permits, Bool.and_eq_true, Bool.or_eq_true, Bool.not_eq_true'] at hpm
  have hl (hl : isLoad s.exu.idAlu.inst = true) :
      Rv64i.aligned (Rv64i.funct3 s.exu.idAlu.inst) (loadAddr s.exu.idAlu.inst h) = true :=
    hpm.1.resolve_left (by rw [hl]; decide)
  have hs (hs : isStore s.exu.idAlu.inst = true) :
      Rv64i.aligned (Rv64i.funct3 s.exu.idAlu.inst) (storeAddr s.exu.idAlu.inst h) = true :=
    (hpm.2.resolve_left (by rw [hs]; decide)).1
  split at he
  · rename_i hd
    cases he
    exact hp.matches_device hl hs hd
  · rename_i hdev
    rw [Rv64im.execute] at he
    cases hd : MulDiv.decode s.exu.idAlu.inst with
    | some n =>
      rw [hd] at he
      cases he
      exact hp.matches_mulDiv (MulDiv.encodes_of_decode hd)
    | none =>
      rw [hd] at he
      cases hc : isCsr s.exu.idAlu.inst with
      | true =>
        rw [hc] at he
        cases he
        exact hp.matches_csr hc
      | false =>
        rw [hc] at he
        exact hp.matches_base hl hs (Bool.eq_false_iff.mpr hdev) hc he

end Class

end Rv64imCore.Core
