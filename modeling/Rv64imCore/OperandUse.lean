import Rv64imCore.Core
import Rv64imCore.IntegerOps
import Rv64imCore.Lanes
import Rv64imCore.Zicsr
import Mathlib.Algebra.Group.Nat.Defs

/-! The operand-use tables: a word has the same effects whatever stands in an operand that the
tables leave out. -/

namespace Rv64imCore
set_option autoImplicit true

/-! `dependency_observer.cpp`. -/

namespace DependencyObserver

inductive Source where
  | kRs1
  | kRs2
  | kBoth
  | kFalse
  deriving DecidableEq

def opcode (inst : BitVec 32) : BitVec 32 := inst &&& 0x7f
def funct3 (inst : BitVec 32) : BitVec 32 := (inst >>> 12) &&& 7

/-- The switch on the opcode; the two results are {use_rs1, use_rs2}. -/
def operandUse (inst : BitVec 32) : Bool × Bool :=
  let op := opcode inst
  if op == 0x33#32 || op == 0x3b#32 || op == 0x23#32 || op == 0x63#32 then (true, true)
  else if op == 0x03#32 || op == 0x13#32 || op == 0x1b#32 || op == 0x67#32 then (true, false)
  else if op == 0x73#32 then
    (funct3 inst == 1#32 || funct3 inst == 2#32 || funct3 inst == 3#32, false)
  else (false, false)

def classifySource (inst : BitVec 32) (rd : BitVec 8) : Source :=
  let rs1 : BitVec 8 := ((inst >>> 15) &&& 31).setWidth 8
  let rs2 : BitVec 8 := ((inst >>> 20) &&& 31).setWidth 8
  let rs1Match := rd != 0 && (operandUse inst).1 && rs1 == rd
  let rs2Match := rd != 0 && (operandUse inst).2 && rs2 == rd
  if rs1Match && rs2Match then .kBoth
  else if rs1Match then .kRs1
  else if rs2Match then .kRs2
  else .kFalse

theorem field_eq (inst : BitVec 32) (k w : Nat) :
    inst >>> k &&& BitVec.ofNat 32 (2 ^ w - 1) = (inst.extractLsb' k w).setWidth 32 := by
  apply BitVec.eq_of_getLsbD_eq
  intro j hj
  simp only [BitVec.getLsbD_and, BitVec.getLsbD_ushiftRight, BitVec.getLsbD_ofNat,
    BitVec.getLsbD_setWidth, BitVec.getLsbD_extractLsb', Nat.testBit_two_pow_sub_one, hj,
    decide_true, Bool.true_and]
  exact Bool.and_comm _ _

theorem setWidth_beq {w m n : Nat} (x : BitVec w) (hw : w ≤ m) (hn : n < 2 ^ w) :
    (x.setWidth m == BitVec.ofNat m n) = (x == BitVec.ofNat w n) := by
  have hm : 2 ^ w ≤ 2 ^ m := Nat.pow_le_pow_right (by decide) hw
  rw [Bool.eq_iff_iff, beq_iff_eq, beq_iff_eq, ← BitVec.toNat_inj, ← BitVec.toNat_inj,
    BitVec.toNat_setWidth_of_le hw, BitVec.toNat_ofNat, BitVec.toNat_ofNat,
    Nat.mod_eq_of_lt hn, Nat.mod_eq_of_lt (Nat.lt_of_lt_of_le hn hm)]

theorem opcode_eq (inst : BitVec 32) : opcode inst = (Id.opcode inst).setWidth 32 :=
  field_eq inst 0 7

theorem funct3_eq (inst : BitVec 32) : funct3 inst = (Id.fun3 inst).setWidth 32 :=
  field_eq inst 12 3

theorem opcode_beq (inst : BitVec 32) (h : n < 2 ^ 7) :
    (opcode inst == BitVec.ofNat 32 n) = (Id.opcode inst == BitVec.ofNat 7 n) := by
  rw [opcode_eq, setWidth_beq _ (by decide) h]

theorem funct3_beq (inst : BitVec 32) (h : n < 2 ^ 3) :
    (funct3 inst == BitVec.ofNat 32 n) = (Id.fun3 inst == BitVec.ofNat 3 n) := by
  rw [funct3_eq, setWidth_beq _ (by decide) h]

theorem csr_register_codes (f : BitVec 3) :
    (!f.ult 0b001#3 && !(0b011#3).ult f) = (f == 1 || f == 2 || f == 3) := by
  revert f
  decide

theorem operandUse_eq (inst : BitVec 32) :
    operandUse inst = (Regfile.useRs1 inst, Regfile.useRs2 inst) := by
  simp (disch := decide) only [operandUse, opcode_beq, funct3_beq]
  rw [Regfile.useRs1, Regfile.useRs2, Bool.and_assoc, csr_register_codes]
  generalize Id.opcode inst = o
  generalize (Id.fun3 inst == 1 || Id.fun3 inst == 2 || Id.fun3 inst == 3) = c
  generalize (o == 0x33#7 || o == 0x3b#7 || o == 0x23#7 || o == 0x63#7) = both
  cases both with
  | true => simp
  | false =>
    simp only [Bool.false_or]
    generalize (o == 0x03#7 || o == 0x13#7 || o == 0x1b#7 || o == 0x67#7) = first
    cases first <;> cases c <;> cases o == 0x73#7 <;> rfl

theorem index_beq (inst : BitVec 32) (k : Nat) (rd : BitVec 5) :
    ((inst >>> k &&& 31).setWidth 8 == rd.setWidth 8) = (inst.extractLsb' k 5 == rd) := by
  have hf : inst >>> k &&& 31 = (inst.extractLsb' k 5).setWidth 32 := field_eq inst k 5
  rw [hf, Bool.eq_iff_iff, beq_iff_eq, beq_iff_eq]
  constructor
  · intro h
    have h' := congrArg (BitVec.setWidth 5) h
    simpa using h'
  · rintro rfl
    simp

/-- The observer classifies a consumer as independent just when the load-use interlock lets it
pass. -/
theorem classifySource_eq_kFalse (inst : BitVec 32) (rd : BitVec 5) :
    classifySource inst (rd.setWidth 8) = .kFalse ↔
      Regfile.idFlushEx inst true true rd = false := by
  have h0 : (rd.setWidth 8 != 0) = (rd != 0) := by
    revert rd
    decide
  simp only [classifySource, index_beq, h0, operandUse_eq, Regfile.idFlushEx, Id.rs1, Id.rs2]
  generalize (inst.extractLsb' 15 5 == rd) = hit1
  generalize (inst.extractLsb' 20 5 == rd) = hit2
  cases rd != 0 <;> cases Regfile.useRs1 inst <;> cases hit1 <;>
    cases Regfile.useRs2 inst <;> cases hit2 <;> decide

end DependencyObserver

/-- What the rest of the core supplies to EX in a cycle. -/
structure Env where
  csr : CsrReg.State
  intr : BitVec 3
  predictPt : Bool
  iduPc : BitVec 64

/-- A memory request; only a store has data. -/
structure Request where
  addr : BitVec 64
  rwCtrl : Bool
  rwLen : BitVec 5
  storeData : Option (BitVec 64)

structure Effects where
  rd : RdPort
  flush : Bool
  flushAddr : BitVec 64
  intrFlush : Bool
  intrFlushAddr : BitVec 64
  csr : CsrReg.State
  request : Option Request

namespace Env
variable (e : Env) (x : IdAlu)

def intrIn : IntrCtrl.In :=
  { req := CsrReg.intrReq e.csr e.intr
    ecall := Alu.ecall x.info
    ebreak := Alu.ebreak x.info
    mret := Alu.mret x.info
    pc := x.pc
    inst := x.inst
    mtvec := e.csr.mtvec
    mepc := e.csr.mepc
    mstatus := e.csr.mstatus }

def aluIntr : Bool := IntrCtrl.asyncIntr (e.intrIn x)

def csrRdata : BitVec 64 := CsrReg.rdata e.csr (Alu.csrAddr x)

def csrIn : CsrReg.In :=
  { intrSource := e.intr
    wdata := Alu.csrWdata x (e.csrRdata x)
    wen := Alu.csrReq x.info
    addr := Alu.csrAddr x
    intrWen := IntrCtrl.csrWen (e.intrIn x)
    intrMstatus := IntrCtrl.wmstatus (e.intrIn x)
    intrMepc := IntrCtrl.wmepc (e.intrIn x)
    intrMcause := IntrCtrl.wmcause (e.intrIn x)
    intrMtval := IntrCtrl.wmtval (e.intrIn x) }

/-- The rd data; a multiply adds its two partial sums in MEM. -/
def rdData (d : Div.State) : BitVec 64 :=
  if Alu.mulOp x.info then
    Ls.mulSelect (Alu.mulMode x.info) (Alu.mulCasRes1 x) (Alu.mulCasRes2 x)
  else Alu.rdWdata x d (e.csrRdata x)

def storeData : Option (BitVec 64) := if Alu.memRwCtrl x.info then none else some x.rs2Data

def request : Option Request :=
  if Alu.memReqOut x (e.aluIntr x) then
    some { addr := Alu.memAddr x, rwCtrl := Alu.memRwCtrl x.info, rwLen := Alu.memRwLen x.info
           storeData := storeData x }
  else none

def effects (d : Div.State) : Effects :=
  { rd :=
      { wen := Alu.rdWen x (Div.ack d) (e.aluIntr x)
        index := Alu.rdIndex x (Div.ack d) (e.aluIntr x)
        data := e.rdData x d }
    flush := Alu.flush x e.predictPt e.iduPc
    flushAddr := Alu.jumpAddr x e.predictPt
    intrFlush := IntrCtrl.flushEn (e.intrIn x)
    intrFlushAddr := IntrCtrl.flushAddr (e.intrIn x)
    csr := CsrReg.next e.csr (e.csrIn x)
    request := e.request x }

/-- The word through the decoder and the ALU, with whatever the divider has made of the operands. -/
def execute (div : BitVec 64 → BitVec 64 → Div.State) (inst : BitVec 32) (pc rs1 rs2 : BitVec 64) :
    Effects :=
  e.effects (Id.decode inst pc rs1 rs2) (div rs1 rs2)

end Env

namespace Core

def env (s : State) (i : In) : Env :=
  { csr := s.exu.csr, intr := i.intr, predictPt := s.exu.predictPt, iduPc := s.idu.ifId.pc }

/-- They are the effects that the core has for the word in EX. -/
theorem effects_aluIn (s : State) (i : In) :
    (env s i).effects (aluIn s i.toEarly) (divNow s i) =
      { rd :=
          { wen := exuRdWen s i, index := exuRdIndex s i
            data := if (memNs s i).mulOp then
                Ls.mulSelect (memNs s i).mulMode (memNs s i).mulCasRes1 (memNs s i).mulCasRes2
              else exuRdData s i }
        flush := exuFlush s i.toEarly
        flushAddr := Alu.jumpAddr (aluIn s i.toEarly) s.exu.predictPt
        intrFlush := intrFlush s i.toEarly
        intrFlushAddr := IntrCtrl.flushAddr (intrIn s i.toEarly)
        csr := (exuNext s i).csr
        request := if exuMemReq s i then
            some { addr := (memNs s i).addr, rwCtrl := (memNs s i).rwCtrl
                   rwLen := (memNs s i).rwLen
                   storeData := if (memNs s i).rwCtrl then none else some (memNs s i).rs2Data }
          else none } := rfl

end Core

namespace Alu

/-- Two pairs of operands between which no wire of a word can tell. -/
structure Agree (inst : BitVec 32) (pc a b a' b' : BitVec 64) : Prop where
  branch : Id.decBranch inst = false
  muldiv : Id.muldivOp inst = false
  op1 : dataOp (Id.info inst) = true →
    aluOp1 (Id.decode inst pc a b) = aluOp1 (Id.decode inst pc a' b')
  op2 : dataOp (Id.info inst) = true →
    aluOp2 (Id.decode inst pc a b) = aluOp2 (Id.decode inst pc a' b')
  target : jalr (Id.info inst) = true → a = a'
  csr : (csrrw (Id.info inst) || csrrs (Id.info inst) || csrrc (Id.info inst)) = true →
    a = a' ∨ Id.ecall inst = true
  addr : Id.memOp inst = true → a = a'
  store : Id.decSt inst = true → b = b'

section Effects
variable {inst : BitVec 32} {pc a b a' b' : BitVec 64}

theorem branch_wires (h : Id.decBranch inst = false) :
    beq (Id.info inst) = false ∧ bne (Id.info inst) = false ∧ blt (Id.info inst) = false ∧
      bge (Id.info inst) = false ∧ bltu (Id.info inst) = false ∧ bgeu (Id.info inst) = false := by
  obtain ⟨h1, h2, h3, h4, h5, h6, -⟩ := bjp_info inst
  have hb (f : BitVec 3) : Id.branch inst f = false := by rw [Id.branch, h, Bool.false_and]
  exact ⟨h1.trans (hb _), h2.trans (hb _), h3.trans (hb _), h4.trans (hb _), h5.trans (hb _),
    h6.trans (hb _)⟩

theorem Agree.aluRes (h : Agree inst pc a b a' b') :
    aluRes (Id.decode inst pc a b) = aluRes (Id.decode inst pc a' b') := by
  obtain ⟨h1, h2, h3, h4, h5, h6⟩ := branch_wires h.branch
  have himm : (Id.decode inst pc a b).immData = (Id.decode inst pc a' b').immData := rfl
  simp only [Alu.aluRes, addsubRes, addsubOp1, addsubOp2, andRes, orRes, xorRes, xorOp1, xorOp2,
    sllRes, srlRes, srlOp1, sraRes, sraOp1, sltRes, sltCmpRes, sltOp1, sltOp2, sltuRes, sltuOp1,
    sltuOp2, shiftAmt, Id.decode_info, h1, h2, h3, h4, h5, h6, himm, Bool.or_self, mask_false]
  cases hd : dataOp (Id.info inst) with
  | true =>
    rw [h.op1 hd, h.op2 hd]
    rfl
  | false =>
    obtain ⟨g1, g2, g3, g4, g5, g6, g7, g8, g9, g10⟩ := ops_of_dataOp hd
    simp only [g1, g2, g3, g4, g5, g6, g7, g8, g9, g10, Bool.or_self, mask_false]

theorem Agree.muldivReq (h : Agree inst pc a b a' b') : muldivReq (Id.info inst) = false := by
  rw [muldivReq_info, h.muldiv]

theorem Agree.rdWen (h : Agree inst pc a b a' b') (ack ack' intr : Bool) :
    rdWen (Id.decode inst pc a b) ack intr = rdWen (Id.decode inst pc a' b') ack' intr := by
  have hd := divOp_eq_false h.muldivReq
  simp only [Alu.rdWen, bjpToRdWe, muldivToRdWe, Id.decode_info, hd, Bool.false_and]

theorem Agree.rdWdata (h : Agree inst pc a b a' b') (d d' : Div.State) (csrRdata : BitVec 64) :
    rdWdata (Id.decode inst pc a b) d csrRdata = rdWdata (Id.decode inst pc a' b') d' csrRdata := by
  have hd := divOp_eq_false h.muldivReq
  have hm := mulOp_eq_false h.muldivReq
  simp only [Alu.rdWdata, aluToRdData, h.aluRes, muldivToRdWe, Id.decode_info, hd, hm,
    Bool.false_and, Bool.or_self, mask_false]
  rfl

theorem Agree.bxTgt (h : Agree inst pc a b a' b') :
    bxTgt (Id.decode inst pc a b) = bxTgt (Id.decode inst pc a' b') := by
  have ho : bjpOp1 (Id.decode inst pc a b) = bjpOp1 (Id.decode inst pc a' b') := by
    by_cases hj : jalr (Id.info inst) = true
    · obtain rfl := h.target hj
      rfl
    · rw [bjpOp1, bjpOp1, Id.decode_info, Id.decode_info, if_neg hj, if_neg hj]
      rfl
  rw [Alu.bxTgt, Alu.bxTgt, ho]
  rfl

theorem Agree.condErr (h : Agree inst pc a b a' b') (p : Bool) :
    condErr (Id.decode inst pc a b) p = false := by
  obtain ⟨h1, h2, h3, h4, h5, h6⟩ := branch_wires h.branch
  simp only [Alu.condErr, bxIfCond, Id.decode_info, h1, h2, h3, h4, h5, h6, Bool.or_self,
    Bool.false_and]

theorem Agree.symm (h : Agree inst pc a b a' b') : Agree inst pc a' b' a b where
  branch := h.branch
  muldiv := h.muldiv
  op1 := fun hd => (h.op1 hd).symm
  op2 := fun hd => (h.op2 hd).symm
  target := fun hj => (h.target hj).symm
  csr := fun hc => (h.csr hc).imp_left Eq.symm
  addr := fun hm => (h.addr hm).symm
  store := fun hs => (h.store hs).symm

theorem Agree.flush (h : Agree inst pc a b a' b') (p : Bool) (iduPc : BitVec 64) :
    flush (Id.decode inst pc a b) p iduPc = flush (Id.decode inst pc a' b') p iduPc := by
  simp only [Alu.flush, h.condErr, h.symm.condErr, jalrErr, jalrTgt, h.bxTgt, Id.decode_info]

theorem Agree.jumpAddr (h : Agree inst pc a b a' b') (p : Bool) :
    jumpAddr (Id.decode inst pc a b) p = jumpAddr (Id.decode inst pc a' b') p := by
  simp only [Alu.jumpAddr, h.condErr, h.symm.condErr, jalrTgt, h.bxTgt, Id.decode_info,
    Bool.false_and, mask_false]

theorem decSt_of_request (h : Id.memOp inst = true) (hl : memRwCtrl (Id.info inst) = false) :
    Id.decSt inst = true := by
  simp only [memRwCtrl, memReq_info, h, opInfo_mem h, Bool.true_and, Id.memInfo,
    BitVec.getLsbD_ofBoolListBE] at hl
  have hd : Id.decLd inst = false := hl
  rw [Id.memOp, hd, Bool.false_or] at h
  exact h

/-- `ecall` drives the wire of `csrrc`, but its CSR address is 0. -/
theorem Agree.csrOp2 (h : Agree inst pc a b a' b') :
    csrOp2 (Id.decode inst pc a b) = csrOp2 (Id.decode inst pc a' b') ∨ Id.ecall inst = true := by
  by_cases hc : (csrrw (Id.info inst) || csrrs (Id.info inst) || csrrc (Id.info inst)) = true
  · rcases h.csr hc with rfl | he
    · exact .inl rfl
    · exact .inr he
  · left
    rw [Alu.csrOp2, Alu.csrOp2, Id.decode_info, Id.decode_info, if_neg hc, if_neg hc]
    rfl

end Effects

end Alu

theorem CsrReg.next_addr_zero (s : State) (i : In) (h : i.addr = 0) (w : BitVec 64) :
    next s { i with wdata := w } = next s i := by
  simp only [next, trapWen, trapWdata, h]
  cases i.intrWen <;> simp [reg]

namespace Env
open Alu (Agree)
variable {inst : BitVec 32} {pc a b a' b' : BitVec 64}

theorem csr_of_agree (h : Agree inst pc a b a' b') (e : Env) :
    CsrReg.next e.csr (e.csrIn (Id.decode inst pc a b)) =
      CsrReg.next e.csr (e.csrIn (Id.decode inst pc a' b')) := by
  rcases h.csrOp2 with ho | he
  · have hw : Alu.csrWdata (Id.decode inst pc a b) (e.csrRdata (Id.decode inst pc a b)) =
        Alu.csrWdata (Id.decode inst pc a' b') (e.csrRdata (Id.decode inst pc a' b')) := by
      simp only [Alu.csrWdata, ho, Id.decode_info]
      rfl
    simp only [csrIn, hw]
    rfl
  · have hz : Alu.csrAddr (Id.decode inst pc a' b') = 0 := by
      rw [Id.ecall, beq_iff_eq] at he
      rw [he]
      change BitVec.extractLsb' 20 12 0x00000073#32 = 0
      decide
    exact CsrReg.next_addr_zero e.csr (e.csrIn (Id.decode inst pc a' b')) hz _

theorem request_of_agree (h : Agree inst pc a b a' b') (e : Env) :
    e.request (Id.decode inst pc a b) = e.request (Id.decode inst pc a' b') := by
  by_cases hm : Id.memOp inst = true
  · obtain rfl := h.addr hm
    have hs : storeData (Id.decode inst pc a b) = storeData (Id.decode inst pc a b') := by
      by_cases hl : Alu.memRwCtrl (Id.info inst) = true
      · rw [storeData, storeData, Id.decode_info, Id.decode_info, if_pos hl, if_pos hl]
      · rw [Bool.not_eq_true] at hl
        rw [h.store (Alu.decSt_of_request hm hl)]
    rw [request, request, hs]
    rfl
  · rw [Bool.not_eq_true] at hm
    simp [request, Alu.memReqOut, hm]

/-- Operands that no wire can tell apart have the same effects. -/
theorem effects_of_agree (h : Agree inst pc a b a' b') (e : Env) (d d' : Div.State) :
    e.effects (Id.decode inst pc a b) d = e.effects (Id.decode inst pc a' b') d' := by
  have hi : e.aluIntr (Id.decode inst pc a b) = e.aluIntr (Id.decode inst pc a' b') := rfl
  have hw := h.rdWen (Div.ack d) (Div.ack d') (e.aluIntr (Id.decode inst pc a' b'))
  have hx : Alu.rdIndex (Id.decode inst pc a b) (Div.ack d) (e.aluIntr (Id.decode inst pc a' b')) =
      Alu.rdIndex (Id.decode inst pc a' b') (Div.ack d') (e.aluIntr (Id.decode inst pc a' b')) := by
    rw [Alu.rdIndex, Alu.rdIndex, hw]
    rfl
  have hd : e.rdData (Id.decode inst pc a b) d = e.rdData (Id.decode inst pc a' b') d' := by
    have hm := Alu.mulOp_eq_false h.muldivReq
    have hr : e.csrRdata (Id.decode inst pc a b) = e.csrRdata (Id.decode inst pc a' b') := rfl
    simp only [rdData, Id.decode_info, hm, hr, h.rdWdata d d', Bool.false_eq_true, if_false]
  simp only [effects, hi, hw, hx, hd, h.flush, h.jumpAddr, csr_of_agree h, request_of_agree h]
  rfl

end Env

namespace Alu
open Regfile (useRs1 useRs2)
variable {inst : BitVec 32}

/-- Outside the register-register opcodes the data path takes the immediate, and the pc when it is
no immediate opcode either. -/
theorem dataOp_operands (hr : Id.decR inst = false) (hrw : Id.decRw inst = false)
    (h : dataOp (Id.info inst) = true) : op2Imm (Id.info inst) = true ∧
      (Id.decRi inst = false → Id.decRiw inst = false → op1Pc (Id.info inst) = true) := by
  have ha : Id.aluOp inst = true := by
    by_contra ha
    rw [Bool.not_eq_true] at ha
    simp [dataOp, addOp, subOp, sllOp, srlOp, sraOp, sltOp, sltuOp, xorOp, orOp, andOp, ha] at h
  obtain ⟨-, -, -, -, -, -, -, -, -, -, w11, w12, -, -⟩ := alu_wires ha
  rw [w11, w12, Id.op2Imm, Id.op1Pc]
  cases hu : Id.decAuipc inst with
  | true => simp
  | false =>
    cases hi : Id.decRi inst with
    | true => simp
    | false =>
      cases hw : Id.decRiw inst with
      | true => simp
      | false =>
        rw [dataOp_eq_false ha hr hrw hi hw hu] at h
        cases h

/-- The wires that put the first operand on the CSR write are those of the register forms, and one
of them rises for `ecall` too. -/
theorem csr_register_wires
    (h : (csrrw (Id.info inst) || csrrs (Id.info inst) || csrrc (Id.info inst)) = true) :
    useRs1 inst = true ∨ Id.ecall inst = true := by
  have hc : Id.csrOp inst = true := by
    by_contra hc
    rw [Bool.not_eq_true] at hc
    simp [csrrw, csrrs, csrrc, hc] at h
  have ho := Id.csrOp_opcode hc
  cases hs : Id.sysOp inst with
  | false =>
    left
    obtain ⟨w1, w2, w3, -⟩ := csr_wires hc hs
    have hd : Id.decCsr inst = true := hc
    simp only [w1, w2, w3, Id.csrrw, Id.csrrs, Id.csrrc, Id.csr, hd, Bool.true_and] at h
    rw [useRs1, Bool.and_assoc, DependencyObserver.csr_register_codes]
    simp only [ho, beq_self_eq_true, Bool.true_and]
    rw [Bool.or_eq_true]
    exact .inr h
  | true =>
    simp only [Id.sysOp, Id.fence, Id.fencei, Id.ecall, Id.ebreak, Id.mret, Bool.or_eq_true,
      Bool.and_eq_true, beq_iff_eq] at hs
    rcases hs with (((⟨hf, -⟩ | rfl) | rfl) | rfl) | rfl
    · rw [hf] at ho
      cases ho
    · exact absurd ho (by decide)
    · exact .inr rfl
    · exact absurd h (by decide)
    · exact absurd h (by decide)

theorem jalr_opcode (h : jalr (Id.info inst) = true) : Id.opcode inst = 0b1100111#7 := by
  obtain ⟨-, -, -, -, -, -, -, hj⟩ := bjp_info inst
  rw [hj, Id.jalr, Id.decJalr, Bool.and_eq_true, beq_iff_eq] at h
  exact h.1

theorem agree_rs1 (h : useRs1 inst = false) (pc a a' b : BitVec 64) :
    Agree inst pc a b a' b := by
  have hu := h
  simp only [useRs1, Bool.or_eq_false_iff, beq_eq_false_iff_ne, ne_eq] at h
  obtain ⟨⟨⟨⟨⟨⟨⟨⟨h1, h2⟩, h3⟩, h4⟩, h5⟩, h6⟩, h7⟩, h8⟩, -⟩ := h
  have hd (hop : dataOp (Id.info inst) = true) : op1Pc (Id.info inst) = true :=
    (dataOp_operands (by simp [Id.decR, h1]) (by simp [Id.decRw, h2]) hop).2
      (by simp [Id.decRi, h6]) (by simp [Id.decRiw, h7])
  refine ⟨by simp [Id.decBranch, h4], by simp [Id.muldivOp, Id.decMd, Id.decMdw, h1, h2],
    fun hop => ?_, fun _ => rfl, fun hj => ?_, fun hc => ?_, fun hm => ?_, fun _ => rfl⟩
  · rw [aluOp1, aluOp1, Id.decode_info, Id.decode_info, if_pos (hd hop), if_pos (hd hop)]
    rfl
  · exact absurd (jalr_opcode hj) h8
  · rcases csr_register_wires hc with hr | he
    · rw [hu] at hr
      cases hr
    · exact .inr he
  · simp [Id.memOp, Id.decLd, Id.decSt, h3, h5] at hm

theorem agree_rs2 (h : useRs2 inst = false) (pc a b b' : BitVec 64) :
    Agree inst pc a b a b' := by
  simp only [useRs2, Bool.or_eq_false_iff, beq_eq_false_iff_ne, ne_eq] at h
  obtain ⟨⟨⟨h1, h2⟩, h3⟩, h4⟩ := h
  refine ⟨by simp [Id.decBranch, h4], by simp [Id.muldivOp, Id.decMd, Id.decMdw, h1, h2],
    fun _ => rfl, fun hop => ?_, fun _ => rfl, fun _ => .inl rfl, fun _ => rfl, fun hs => ?_⟩
  · have hi := (dataOp_operands (by simp [Id.decR, h1]) (by simp [Id.decRw, h2]) hop).1
    rw [aluOp2, aluOp2, Id.decode_info, Id.decode_info, if_pos hi, if_pos hi]
    rfl
  · simp [Id.decSt, h3] at hs

end Alu

/-- Register files that differ in register `r` alone give the word different effects. -/
def DependsOn (inst : BitVec 32) (r : BitVec 5) : Prop :=
  ∃ (e : Env) (div : BitVec 64 → BitVec 64 → Div.State) (pc : BitVec 64)
    (regs regs' : BitVec 5 → BitVec 64), (∀ k, k ≠ r → regs k = regs' k) ∧
      e.execute div inst pc (regs (Id.rs1 inst)) (regs (Id.rs2 inst)) ≠
        e.execute div inst pc (regs' (Id.rs1 inst)) (regs' (Id.rs2 inst))

section Tables
variable {inst : BitVec 32}

theorem Env.execute_rs1 (h : Regfile.useRs1 inst = false) (e : Env)
    (div : BitVec 64 → BitVec 64 → Div.State) (pc a a' b : BitVec 64) :
    e.execute div inst pc a b = e.execute div inst pc a' b :=
  effects_of_agree (Alu.agree_rs1 h pc a a' b) e _ _

theorem Env.execute_rs2 (h : Regfile.useRs2 inst = false) (e : Env)
    (div : BitVec 64 → BitVec 64 → Div.State) (pc a b b' : BitVec 64) :
    e.execute div inst pc a b = e.execute div inst pc a b' :=
  effects_of_agree (Alu.agree_rs2 h pc a b b') e _ _

theorem DependsOn.operand (h : DependsOn inst r) :
    Regfile.useRs1 inst = true ∧ Id.rs1 inst = r ∨
      Regfile.useRs2 inst = true ∧ Id.rs2 inst = r := by
  obtain ⟨e, div, pc, regs, regs', hr, hne⟩ := h
  by_contra hn
  rw [not_or, not_and, not_and] at hn
  apply hne
  have h1 : e.execute div inst pc (regs (Id.rs1 inst)) (regs (Id.rs2 inst)) =
      e.execute div inst pc (regs' (Id.rs1 inst)) (regs (Id.rs2 inst)) := by
    cases hu : Regfile.useRs1 inst with
    | false => exact e.execute_rs1 hu div pc _ _ _
    | true => rw [hr _ (hn.1 hu)]
  rw [h1]
  cases hu : Regfile.useRs2 inst with
  | false => exact e.execute_rs2 hu div pc _ _ _
  | true => rw [hr _ (hn.2 hu)]

theorem DependsOn.interlock (h : DependsOn inst r) (h0 : r ≠ 0) :
    Regfile.idFlushEx inst true true r = true := by
  have hne : (r != 0) = true := bne_iff_ne.mpr h0
  rw [Regfile.idFlushEx, hne]
  rcases h.operand with ⟨hu, rfl⟩ | ⟨hu, rfl⟩ <;> simp [hu]

theorem Core.loadUseHazard_of_dependsOn {s : State} {e : Early}
    (hl : Alu.iduLoad s.exu.idAlu = true)
    (hw : Alu.rdWen s.exu.idAlu (Div.ack s.exu.div) (aluIntr s e) = true)
    (h0 : Alu.rdIndex s.exu.idAlu (Div.ack s.exu.div) (aluIntr s e) ≠ 0)
    (h : DependsOn s.idu.ifId.inst
      (Alu.rdIndex s.exu.idAlu (Div.ack s.exu.div) (aluIntr s e))) :
    loadUseHazard s e = true := by
  rw [loadUseHazard, hl, hw]
  exact h.interlock h0

end Tables

/-- An operand that the tables leave out has no effect, whatever the word; the three tables are the
same; and the interlock holds back every word that depends on the register that EX loads. -/
theorem operand_use_sound (inst : BitVec 32) :
    (Regfile.useRs1 inst = false → ∀ (e : Env) (div : BitVec 64 → BitVec 64 → Div.State)
      (pc a a' b : BitVec 64), e.execute div inst pc a b = e.execute div inst pc a' b) ∧
    (Regfile.useRs2 inst = false → ∀ (e : Env) (div : BitVec 64 → BitVec 64 → Div.State)
      (pc a b b' : BitVec 64), e.execute div inst pc a b = e.execute div inst pc a b') ∧
    (Core.bypassUseRs1 inst = Regfile.useRs1 inst ∧
      Core.bypassUseRs2 inst = Regfile.useRs2 inst) ∧
    DependencyObserver.operandUse inst = (Regfile.useRs1 inst, Regfile.useRs2 inst) ∧
    ∀ r, r ≠ 0 → DependsOn inst r → Regfile.idFlushEx inst true true r = true :=
  ⟨fun h e => e.execute_rs1 h, fun h e => e.execute_rs2 h,
    ⟨Core.bypassUseRs1_eq inst, Core.bypassUseRs2_eq inst⟩,
    DependencyObserver.operandUse_eq inst, fun _ h0 h => h.interlock h0⟩

/-- The core out of reset. -/
def Env.reset : Env :=
  { csr := CsrReg.resetState, intr := 0, predictPt := false, iduPc := 0 }

/-- `lui x5, 0x12345` has no first operand, and `add x3, x1, x2` depends on `x1`. -/
theorem operand_use_sound_lui_add :
    Env.reset.execute (fun _ _ => default) 0x123452b7 0 1 0 =
      Env.reset.execute (fun _ _ => default) 0x123452b7 0 2 0 ∧
    Regfile.idFlushEx 0x002081b3 true true 1 = true := by
  refine ⟨(operand_use_sound 0x123452b7).1 (by decide) _ _ _ _ _ _,
    (operand_use_sound 0x002081b3).2.2.2.2 1 (by decide) ?_⟩
  refine ⟨Env.reset, fun _ _ => default, 0, fun _ => 0, fun k => if k = 1 then 1 else 0,
    fun k hk => (if_neg hk).symm, fun h => ?_⟩
  have hd := congrArg (fun f => f.rd.data) h
  revert hd
  decide

end Rv64imCore
