import Mathlib.Data.Bool.Basic
import Rv64imCore.Branch
import Rv64imCore.Rv64i

/-! The decoder and the ALU against the integer computations of RV64I. -/

namespace Rv64imCore
set_option autoImplicit true

namespace Id
variable {inst : BitVec 32}

theorem opCode_eq : opCode inst = (fun7 inst).extractLsb' 5 2 ++ fun3 inst := by
  have h : inst.extractLsb' 30 2 = (fun7 inst).extractLsb' 5 2 := by
    apply BitVec.eq_of_getLsbD_eq
    intro k hk
    have h7 : 5 + k < 7 := by omega
    simp only [fun7, BitVec.getLsbD_extractLsb', hk, h7, decide_true, Bool.true_and,
      ← Nat.add_assoc]
  rw [opCode, h]

theorem opCode_beq (c : BitVec 5) : (opCode inst == c) =
    ((fun7 inst).extractLsb' 5 2 == c.extractLsb' 3 2 && fun3 inst == c.extractLsb' 0 3) := by
  have h : ∀ (a : BitVec 2) (b : BitVec 3) (c : BitVec 5),
      (a ++ b == c) = (a == c.extractLsb' 3 2 && b == c.extractLsb' 0 3) := by decide +kernel
  rw [opCode_eq]
  exact h _ _ _

theorem opCode_low : (opCode inst).extractLsb' 0 3 = fun3 inst := by
  have h : ∀ (a : BitVec 2) (b : BitVec 3), (a ++ b).extractLsb' 0 3 = b := by decide
  rw [opCode_eq]
  exact h _ _

end Id

namespace Alu
open Rv64i (Op Instr)

section Decode
variable {inst : BitVec 32}

theorem classes_of_aluOp (h : Id.aluOp inst = true) : Id.memOp inst = false ∧
    Id.bjpOp inst = false ∧ Id.muldivOp inst = false ∧ Id.sysOp inst = false ∧
    Id.csrOp inst = false := by
  have hc := classes_info inst
  have ha : aluReq (Id.info inst) = true := by rw [aluReq_info, h]
  have hn {b : Bool} (hb : b = true → aluReq (Id.info inst) = false) : b = false := by
    rw [Bool.eq_false_iff]
    intro h'
    rw [hb h'] at ha
    cases ha
  refine ⟨hn fun h' => (hc.mem ?_).1, hn fun h' => (hc.bjp ?_).1, hn fun h' => (hc.muldiv ?_).1,
    hn fun h' => (hc.sys ?_).1, hn fun h' => (hc.csr ?_).1⟩ <;> simpa using h'

theorem alu_wires (h : Id.aluOp inst = true) :
    addOp (Id.info inst) = Id.addOp inst ∧ subOp (Id.info inst) = Id.subOp inst ∧
    sllOp (Id.info inst) = Id.sllOp inst ∧ srlOp (Id.info inst) = Id.srlOp inst ∧
    sraOp (Id.info inst) = Id.sraOp inst ∧ sltOp (Id.info inst) = Id.sltOp inst ∧
    sltuOp (Id.info inst) = Id.sltuOp inst ∧ xorOp (Id.info inst) = Id.xorOp inst ∧
    orOp (Id.info inst) = Id.orOp inst ∧ andOp (Id.info inst) = Id.andOp inst ∧
    op2Imm (Id.info inst) = Id.op2Imm inst ∧ op1Pc (Id.info inst) = Id.op1Pc inst ∧
    resImm (Id.info inst) = Id.resImm inst ∧ aluSextW (Id.info inst) = Id.aluSextW inst := by
  obtain ⟨h1, h2, h3, h4, h5⟩ := classes_of_aluOp h
  have ho : (Id.info inst).opInfo = Id.aluInfo inst := by simp [Id.info, h, h1, h2, h3, h4, h5]
  simp only [addOp, subOp, sllOp, srlOp, sraOp, sltOp, sltuOp, xorOp, orOp, andOp, op2Imm, op1Pc,
    resImm, aluSextW, aluReq_info, h, ho, Bool.true_and, Id.aluInfo, BitVec.getLsbD_ofBoolListBE]
  exact ⟨rfl, rfl, rfl, rfl, rfl, rfl, rfl, rfl, rfl, rfl, rfl, rfl, rfl, rfl⟩

/-- Some operation of the data path takes the two operands. -/
def dataOp (n : Info) : Bool :=
  addOp n || subOp n || sllOp n || srlOp n || sraOp n || sltOp n || sltuOp n || xorOp n || orOp n
    || andOp n

theorem ops_of_dataOp {n : Info} (h : dataOp n = false) : addOp n = false ∧ subOp n = false ∧
    sllOp n = false ∧ srlOp n = false ∧ sraOp n = false ∧ sltOp n = false ∧ sltuOp n = false ∧
    xorOp n = false ∧ orOp n = false ∧ andOp n = false := by
  simp only [dataOp, Bool.or_eq_false_iff] at h
  obtain ⟨⟨⟨⟨⟨⟨⟨⟨⟨h1, h2⟩, h3⟩, h4⟩, h5⟩, h6⟩, h7⟩, h8⟩, h9⟩, h10⟩ := h
  exact ⟨h1, h2, h3, h4, h5, h6, h7, h8, h9, h10⟩

theorem dataOp_eq_false (h : Id.aluOp inst = true) (hr : Id.decR inst = false)
    (hrw : Id.decRw inst = false) (hri : Id.decRi inst = false) (hriw : Id.decRiw inst = false)
    (hu : Id.decAuipc inst = false) : dataOp (Id.info inst) = false := by
  obtain ⟨w1, w2, w3, w4, w5, w6, w7, w8, w9, w10, -⟩ := alu_wires h
  simp [dataOp, w1, w2, w3, w4, w5, w6, w7, w8, w9, w10, Id.addOp, Id.subOp, Id.sllOp, Id.srlOp,
    Id.sraOp, Id.sltOp, Id.sltuOp, Id.xorOp, Id.orOp, Id.andOp, Id.shiftOp, Id.logicOp, hr, hrw,
    hri, hriw, hu]

end Decode

/-- The control words select one operation, its width and its operands. -/
structure Selects (n : Info) (o : Op) (word imm pc : Bool) : Prop where
  req : aluReq n = true
  bjp : bjpReq n = false
  add : addOp n = (o == .add)
  sub : subOp n = (o == .sub)
  sll : sllOp n = (o == .sll)
  srl : srlOp n = (o == .srl)
  sra : sraOp n = (o == .sra)
  slt : sltOp n = (o == .slt)
  sltu : sltuOp n = (o == .sltu)
  xor : xorOp n = (o == .xor)
  or : orOp n = (o == .or)
  and : andOp n = (o == .and)
  op2Imm : op2Imm n = imm
  op1Pc : op1Pc n = pc
  resImm : resImm n = false
  sextW : aluSextW n = word

/-- The decoder's ten operation wires name `o`. -/
structure Names (inst : BitVec 32) (o : Op) : Prop where
  add : Id.addOp inst = (o == .add)
  sub : Id.subOp inst = (o == .sub)
  sll : Id.sllOp inst = (o == .sll)
  srl : Id.srlOp inst = (o == .srl)
  sra : Id.sraOp inst = (o == .sra)
  slt : Id.sltOp inst = (o == .slt)
  sltu : Id.sltuOp inst = (o == .sltu)
  xor : Id.xorOp inst = (o == .xor)
  or : Id.orOp inst = (o == .or)
  and : Id.andOp inst = (o == .and)

section Encoded
variable {inst : BitVec 32}

theorem selects_of_names (hn : Names inst o) (ha : Id.aluOp inst = true)
    (hl : Id.decLui inst = false) :
    Selects (Id.info inst) o (Id.aluSextW inst) (Id.op2Imm inst) (Id.op1Pc inst) := by
  obtain ⟨w1, w2, w3, w4, w5, w6, w7, w8, w9, w10, w11, w12, w13, w14⟩ := alu_wires ha
  have hb : bjpReq (Id.info inst) = false := by
    rw [bjpReq_info]
    exact (classes_of_aluOp ha).2.1
  exact ⟨by rw [aluReq_info, ha], hb, w1.trans hn.add, w2.trans hn.sub, w3.trans hn.sll,
    w4.trans hn.srl, w5.trans hn.sra, w6.trans hn.slt, w7.trans hn.sltu, w8.trans hn.xor,
    w9.trans hn.or, w10.trans hn.and, w11, w12, w13.trans hl, w14⟩

/-- Bits 31 and 30 tell only register forms and shifts apart; bit 25 belongs to the amount of a
64-bit shift immediate. -/
theorem names_of_fields (reg word : Bool) (hr : Id.decR inst = (reg && !word))
    (hrw : Id.decRw inst = (reg && word)) (hri : Id.decRi inst = (!reg && !word))
    (hriw : Id.decRiw inst = (!reg && word)) (hu : Id.decAuipc inst = false)
    (h3 : Id.fun3 inst = o.funct3) (hw : word = true → o.hasWord = true)
    (hsub : reg = false → o ≠ .sub)
    (h7 : reg = true ∨ o.isShift = true →
      (Id.fun7 inst).extractLsb' 5 2 = o.funct7.extractLsb' 5 2)
    (h4 : o.isShift = true → (Id.fun7 inst).extractLsb' 1 4 = 0)
    (h0 : o.isShift = true → reg = true ∨ word = true → (Id.fun7 inst).getLsbD 0 = false) :
    Names inst o := by
  cases reg <;> cases word <;> cases o <;>
    simp [Op.funct3, Op.funct7, Op.isShift, Op.hasWord] at hr hrw hri hriw h3 hw hsub h7 h4 h0 <;>
    constructor <;>
    simp [Id.addOp, Id.subOp, Id.sllOp, Id.srlOp, Id.sraOp, Id.shiftOp, Id.sltOp, Id.sltuOp,
      Id.xorOp, Id.orOp, Id.andOp, Id.logicOp, hr, hrw, hri, hriw, hu, h3, h7, h4, h0,
      Id.opCode_beq, Id.opCode_low]

/-- The opcode fixes the class wires of the ALU, but for the `funct7` of the register forms. -/
theorem dec_of_opcode {c : BitVec 7} (ho : Id.opcode inst = c) :
    (c ≠ 0b0110011#7 → Id.decR inst = false) ∧ (c ≠ 0b0111011#7 → Id.decRw inst = false) ∧
      Id.decRi inst = (c == 0b0010011#7) ∧ Id.decRiw inst = (c == 0b0011011#7) ∧
      Id.decAuipc inst = (c == 0b0010111#7) ∧ Id.decLui inst = (c == 0b0110111#7) := by
  subst ho
  refine ⟨fun h => ?_, fun h => ?_, rfl, rfl, rfl, rfl⟩
  · rw [Id.decR, beq_false_of_ne h, Bool.false_and]
  · rw [Id.decRw, beq_false_of_ne h, Bool.false_and]

theorem selects_op (h : (Instr.op o).encodes inst = true) :
    Selects (Id.info inst) o false false false := by
  simp only [Instr.encodes, Bool.and_eq_true, beq_iff_eq] at h
  obtain ⟨⟨ho, h3⟩, h7⟩ := h
  have ho : Id.opcode inst = 0b0110011 := ho
  have h7 : Id.fun7 inst = o.funct7 := h7
  have hr : Id.decR inst = true := by
    rw [Id.decR, ho, h7]
    cases o <;> rfl
  obtain ⟨-, hrw, (hri : _ = false), (hriw : _ = false), (hu : _ = false), (hl : _ = false)⟩ :=
    dec_of_opcode ho
  have hrw := hrw (by decide)
  have hn : Names inst o := names_of_fields true false hr hrw hri hriw hu h3
    (fun h => by cases h) (fun h => by cases h) (fun _ => by rw [h7])
    (fun hs => by rw [h7]; revert hs; cases o <;> decide)
    (fun hs _ => by rw [h7]; revert hs; cases o <;> decide)
  have hs := selects_of_names hn (by simp [Id.aluOp, hr]) hl
  rwa [Id.aluSextW, Id.op2Imm, Id.op1Pc, hrw, hri, hriw, hu] at hs

theorem selects_op32 (h : (Instr.op32 o).encodes inst = true) :
    Selects (Id.info inst) o true false false ∧ o.hasWord = true := by
  simp only [Instr.encodes, Bool.and_eq_true, beq_iff_eq] at h
  obtain ⟨⟨⟨hw, ho⟩, h3⟩, h7⟩ := h
  have ho : Id.opcode inst = 0b0111011 := ho
  have h7 : Id.fun7 inst = o.funct7 := h7
  have hrw : Id.decRw inst = true := by
    rw [Id.decRw, ho, h7]
    cases o <;> rfl
  obtain ⟨hr, -, (hri : _ = false), (hriw : _ = false), (hu : _ = false), (hl : _ = false)⟩ :=
    dec_of_opcode ho
  have hr := hr (by decide)
  have hn : Names inst o := names_of_fields true true hr hrw hri hriw hu h3
    (fun _ => hw) (fun h => by cases h) (fun _ => by rw [h7])
    (fun hs => by rw [h7]; revert hs; cases o <;> decide)
    (fun hs _ => by rw [h7]; revert hs; cases o <;> decide)
  have hs := selects_of_names hn (by simp [Id.aluOp, hrw]) hl
  rw [Id.aluSextW, Id.op2Imm, Id.op1Pc, hrw, hri, hriw, hu] at hs
  exact ⟨hs, hw⟩

theorem selects_opImm (h : (Instr.opImm o).encodes inst = true) :
    Selects (Id.info inst) o false true false := by
  simp only [Instr.encodes, Bool.and_eq_true, beq_iff_eq, bne_iff_ne, Bool.or_eq_true,
    Bool.not_eq_true'] at h
  obtain ⟨⟨⟨hne, ho⟩, h3⟩, h7⟩ := h
  have ho : Id.opcode inst = 0b0010011 := ho
  obtain ⟨hr, hrw, (hri : _ = true), (hriw : _ = false), (hu : _ = false), (hl : _ = false)⟩ :=
    dec_of_opcode ho
  have hr := hr (by decide)
  have hrw := hrw (by decide)
  -- the upper six bits of a shift immediate
  have hfield : o.isShift = true → (Id.fun7 inst).extractLsb' 1 6 = o.funct7.extractLsb' 1 6 := by
    intro hs
    rcases h7 with h7 | h7
    · rw [hs] at h7
      cases h7
    · exact h7
  have hcut (f : BitVec 7) : f.extractLsb' 5 2 = (f.extractLsb' 1 6).extractLsb' 4 2 ∧
      f.extractLsb' 1 4 = (f.extractLsb' 1 6).extractLsb' 0 4 := by
    revert f
    decide
  have hn : Names inst o := names_of_fields false false hr hrw hri hriw hu h3
    (fun h => by cases h) (fun _ => hne)
    (fun hs => by
      rcases hs with hs | hs
      · cases hs
      · rw [(hcut _).1, hfield hs, ← (hcut _).1])
    (fun hs => by
      rw [(hcut _).2, hfield hs]
      revert hs
      cases o <;> decide)
    (fun _ hw => by rcases hw with hw | hw <;> cases hw)
  have hs := selects_of_names hn (by simp [Id.aluOp, hri]) hl
  rwa [Id.aluSextW, Id.op2Imm, Id.op1Pc, hrw, hri, hriw, hu] at hs

theorem selects_opImm32 (h : (Instr.opImm32 o).encodes inst = true) :
    Selects (Id.info inst) o true true false ∧ o.hasWord = true := by
  simp only [Instr.encodes, Bool.and_eq_true, beq_iff_eq, bne_iff_ne, Bool.or_eq_true,
    Bool.not_eq_true'] at h
  obtain ⟨⟨⟨⟨hw, hne⟩, ho⟩, h3⟩, h7⟩ := h
  have ho : Id.opcode inst = 0b0011011 := ho
  obtain ⟨hr, hrw, (hri : _ = false), (hriw : _ = true), (hu : _ = false), (hl : _ = false)⟩ :=
    dec_of_opcode ho
  have hr := hr (by decide)
  have hrw := hrw (by decide)
  have hfield : o.isShift = true → Id.fun7 inst = o.funct7 := by
    intro hs
    rcases h7 with h7 | h7
    · rw [hs] at h7
      cases h7
    · exact h7
  have hn : Names inst o := names_of_fields false true hr hrw hri hriw hu h3
    (fun _ => hw) (fun _ => hne)
    (fun hs => by
      rcases hs with hs | hs
      · cases hs
      · rw [hfield hs])
    (fun hs => by rw [hfield hs]; revert hs; cases o <;> decide)
    (fun hs _ => by rw [hfield hs]; revert hs; cases o <;> decide)
  have hs := selects_of_names hn (by simp [Id.aluOp, hriw]) hl
  rw [Id.aluSextW, Id.op2Imm, Id.op1Pc, hrw, hri, hriw, hu] at hs
  exact ⟨hs, hw⟩

theorem selects_auipc (h : Instr.auipc.encodes inst = true) :
    Selects (Id.info inst) .add false true true := by
  simp only [Instr.encodes, beq_iff_eq] at h
  have ho : Id.opcode inst = 0b0010111 := h
  obtain ⟨hr, hrw, (hri : _ = false), (hriw : _ = false), (hu : _ = true), (hl : _ = false)⟩ :=
    dec_of_opcode ho
  have hr := hr (by decide)
  have hrw := hrw (by decide)
  have hn : Names inst .add := by
    constructor <;> simp [Id.addOp, Id.subOp, Id.sllOp, Id.srlOp, Id.sraOp, Id.shiftOp, Id.sltOp,
      Id.sltuOp, Id.xorOp, Id.orOp, Id.andOp, Id.logicOp, hr, hrw, hri, hriw, hu]
  have hs := selects_of_names hn (by simp [Id.aluOp, hu]) hl
  rwa [Id.aluSextW, Id.op2Imm, Id.op1Pc, hrw, hri, hriw, hu] at hs

end Encoded

section Units
variable {i : IdAlu}

theorem addsubRes_eq (hr : resImm i.info = false) (hn : (addOp i.info && subOp i.info) = false) :
    addsubRes i = if addOp i.info then aluOp1 i + aluOp2 i
      else if subOp i.info then aluOp1 i - aluOp2 i else 0 := by
  rw [addsubRes, addsubOp1, addsubOp2, hr]
  cases ha : addOp i.info with
  | true =>
    rw [ha, Bool.true_and] at hn
    simp [hn]
  | false =>
    cases subOp i.info with
    | true =>
      have hneg : ~~~(aluOp2 i) + 1#64 = -aluOp2 i := (BitVec.neg_eq_not_add (aluOp2 i)).symm
      simp [hneg, BitVec.sub_eq_add_neg]
    | false => simp

theorem andRes_eq : andRes i = if andOp i.info then aluOp1 i &&& aluOp2 i else 0 := by
  cases hx : andOp i.info <;> simp [andRes, hx]

theorem orRes_eq : orRes i = if orOp i.info then aluOp1 i ||| aluOp2 i else 0 := by
  cases hx : orOp i.info <;> simp [orRes, hx]

theorem xorRes_eq (hb : bjpReq i.info = false) :
    xorRes i = if xorOp i.info then aluOp1 i ^^^ aluOp2 i else 0 := by
  cases hx : xorOp i.info <;> simp [xorRes, xorOp1, xorOp2, beq, bne, hb, hx]

theorem sltRes_eq (hb : bjpReq i.info = false) : sltRes i =
    if sltOp i.info then (if (aluOp1 i).slt (aluOp2 i) then 1 else 0) else 0 := by
  cases hx : sltOp i.info with
  | false => simp [sltRes, sltCmpRes, sltOp1, sltOp2, blt, bge, hb, hx]
  | true =>
    have h1 : sltOp1 i = aluOp1 i := by simp [sltOp1, blt, bge, hb, hx]
    have h2 : sltOp2 i = aluOp2 i := by simp [sltOp2, blt, bge, hb, hx]
    rw [sltRes, sltCmpRes, h1, h2, sltCmp_eq_slt]
    cases (aluOp1 i).slt (aluOp2 i) <;> rfl

theorem sltuRes_eq (hb : bjpReq i.info = false) : sltuRes i =
    if sltuOp i.info then (if (aluOp1 i).ult (aluOp2 i) then 1 else 0) else 0 := by
  cases hx : sltuOp i.info with
  | false => simp [sltuRes, sltuOp1, sltuOp2, bltu, bgeu, hb, hx]
  | true =>
    have h1 : sltuOp1 i = aluOp1 i := by simp [sltuOp1, bltu, bgeu, hb, hx]
    have h2 : sltuOp2 i = aluOp2 i := by simp [sltuOp2, bltu, bgeu, hb, hx]
    rw [sltuRes, h1, h2]
    cases (aluOp1 i).ult (aluOp2 i) <;> rfl

theorem shiftAmt_toNat : (shiftAmt i true).toNat =
    (aluOp2 i).toNat % (if aluSextW i.info then 32 else 64) := by
  rw [shiftAmt, mask_true, BitVec.toNat_and, BitVec.extractLsb'_toNat, Nat.shiftRight_zero]
  cases aluSextW i.info with
  | true =>
    change (aluOp2 i).toNat % 64 &&& (2 ^ 5 - 1) = _
    rw [Nat.and_two_pow_sub_one_eq_mod]
    simp
  | false =>
    change (aluOp2 i).toNat % 64 &&& (2 ^ 6 - 1) = _
    rw [Nat.and_two_pow_sub_one_eq_mod]
    simp

theorem sllRes_eq : sllRes i = if sllOp i.info then
    aluOp1 i <<< ((aluOp2 i).toNat % (if aluSextW i.info then 32 else 64)) else 0 := by
  rw [sllRes]
  cases sllOp i.info with
  | true => rw [mask_true, BitVec.shiftLeft_eq', shiftAmt_toNat]; rfl
  | false => simp

theorem srlRes_eq : srlRes i = if srlOp i.info then
    (if aluSextW i.info then ((aluOp1 i).setWidth 32).setWidth 64 else aluOp1 i)
      >>> ((aluOp2 i).toNat % (if aluSextW i.info then 32 else 64)) else 0 := by
  have hz : 0#32 ++ (aluOp1 i).extractLsb' 0 32 = ((aluOp1 i).setWidth 32).setWidth 64 := by
    apply BitVec.eq_of_getLsbD_eq
    intro k hk
    simp only [BitVec.getLsbD_append, BitVec.getLsbD_extractLsb', BitVec.getLsbD_setWidth]
    by_cases h32 : k < 32
    · simp [h32, hk]
    · simp [h32]
  rw [srlRes, srlOp1, hz]
  cases srlOp i.info with
  | true => rw [mask_true, BitVec.ushiftRight_eq', shiftAmt_toNat]; rfl
  | false => simp

theorem sraRes_eq : sraRes i = if sraOp i.info then
    (if aluSextW i.info then ((aluOp1 i).setWidth 32).signExtend 64 else aluOp1 i).sshiftRight
      ((aluOp2 i).toNat % (if aluSextW i.info then 32 else 64)) else 0 := by
  have hs : BitVec.fill 32 ((aluOp1 i).getLsbD 31) ++ (aluOp1 i).extractLsb' 0 32
      = ((aluOp1 i).setWidth 32).signExtend 64 := by
    rw [Bits.fill_append_low, BitVec.setWidth_eq_extractLsb' (by decide)]
  rw [sraRes, sraOp1, hs]
  cases sraOp i.info with
  | true =>
    rw [mask_true, ← shiftAmt_toNat, ← Rv64i.sshiftRight_eq_fill]
    cases hx : (if aluSextW i.info then ((aluOp1 i).setWidth 32).signExtend 64
      else aluOp1 i).getLsbD 63 <;> simp
  | false => simp

theorem aluRes_of_selects (h : Selects i.info o word imm pc) : aluRes i =
    match o with
    | .add => aluOp1 i + aluOp2 i
    | .sub => aluOp1 i - aluOp2 i
    | .sll => aluOp1 i <<< ((aluOp2 i).toNat % (if word then 32 else 64))
    | .slt => if (aluOp1 i).slt (aluOp2 i) then 1 else 0
    | .sltu => if (aluOp1 i).ult (aluOp2 i) then 1 else 0
    | .xor => aluOp1 i ^^^ aluOp2 i
    | .srl => (if word then ((aluOp1 i).setWidth 32).setWidth 64 else aluOp1 i)
        >>> ((aluOp2 i).toNat % (if word then 32 else 64))
    | .sra => (if word then ((aluOp1 i).setWidth 32).signExtend 64
        else aluOp1 i).sshiftRight ((aluOp2 i).toNat % (if word then 32 else 64))
    | .or => aluOp1 i ||| aluOp2 i
    | .and => aluOp1 i &&& aluOp2 i := by
  have hn : (addOp i.info && subOp i.info) = false := by
    rw [h.add, h.sub]
    cases o <;> rfl
  rw [aluRes, addsubRes_eq h.resImm hn, xorRes_eq h.bjp, sltRes_eq h.bjp, sltuRes_eq h.bjp,
    sllRes_eq, srlRes_eq, sraRes_eq, andRes_eq, orRes_eq, h.add, h.sub, h.sll, h.srl, h.sra, h.slt,
    h.sltu, h.xor, h.or, h.and, h.sextW]
  cases o <;> simp

theorem sextW_eq (w : Bool) (x : BitVec 64) :
    sextW w x = if w then (x.setWidth 32).signExtend 64 else x := by
  rw [sextW, Bits.fill_append_low, BitVec.setWidth_eq_extractLsb' (by decide)]

theorem aluToRdData_of_selects (h : Selects i.info o word imm pc)
    (hw : word = true → o.hasWord = true) : aluToRdData i =
      if word then o.evalWord (aluOp1 i) (aluOp2 i) else o.eval (aluOp1 i) (aluOp2 i) := by
  rw [aluToRdData, sextW_eq, h.sextW, aluRes_of_selects h]
  cases word with
  | false => cases o <;> simp only [Op.eval, Bool.false_eq_true, if_false]
  | true =>
    have hm : (aluOp2 i).toNat % 32 = ((aluOp2 i).setWidth 32).toNat % 32 := by
      rw [BitVec.toNat_setWidth]
      omega
    have hlt : ((aluOp2 i).setWidth 32).toNat % 32 < 32 := Nat.mod_lt _ (by decide)
    simp only [if_true, Op.evalWord]
    congr 1
    have hw := hw rfl
    cases o with
    | add => exact BitVec.setWidth_add _ _ (by decide)
    | sub => exact Rv64i.word_sub _ _
    | sll =>
      simp only [Op.eval, hm]
      exact Rv64i.word_shiftLeft _ _
    | srl =>
      simp only [Op.eval, hm]
      exact Rv64i.word_ushiftRight _ _
    | sra =>
      simp only [Op.eval, hm]
      exact Rv64i.word_sshiftRight _ hlt
    | slt => cases hw
    | sltu => cases hw
    | xor => cases hw
    | or => cases hw
    | and => cases hw

theorem aluToRdData_of_resImm (hb : bjpReq i.info = false) (hi : resImm i.info = true)
    (hd : dataOp i.info = false) (hw : aluSextW i.info = false) :
    aluToRdData i = i.immData := by
  obtain ⟨hadd, hsub, hsll, hsrl, hsra, hslt, hsltu, hxor, hor, hand⟩ := ops_of_dataOp hd
  have hsum : addsubRes i = i.immData := by
    simp [addsubRes, addsubOp1, addsubOp2, hadd, hsub, hi]
  rw [aluToRdData, aluRes, hsum, xorRes_eq hb, sltRes_eq hb, sltuRes_eq hb, sllRes_eq, srlRes_eq,
    sraRes_eq, andRes_eq, orRes_eq]
  simp [sextW_eq, hsll, hsrl, hsra, hslt, hsltu, hxor, hor, hand, hw]

end Units

end Alu

namespace Id
variable {inst : BitVec 32}

theorem immI_eq : immI inst = Rv64i.immI inst := by
  have hs : inst.getLsbD 31 = (inst.extractLsb' 20 12).msb := by
    simp [BitVec.msb_eq_getLsbD_last]
  rw [immI, hs, Bits.fill_append]
  rfl

theorem immU_eq : immU inst = Rv64i.immU inst := by
  have hs : inst.getLsbD 31 = (inst.extractLsb' 12 20 ++ 0#12).msb := by
    rw [BitVec.msb_eq_getLsbD_last, BitVec.getLsbD_append]
    simp
  rw [immU, hs, BitVec.append_assoc, Bits.fill_append]
  rfl

theorem immS_eq : immS inst = Rv64i.immS inst := by
  apply BitVec.eq_of_getLsbD_eq
  intro k hk
  rw [Rv64i.immS, BitVec.getLsbD_signExtend, BitVec.msb_eq_getLsbD_last]
  simp only [immS, BitVec.getLsbD_append, BitVec.getLsbD_extractLsb', BitVec.getLsbD_fill]
  grind

theorem immB_eq : immB inst = Rv64i.immB inst := by
  apply BitVec.eq_of_getLsbD_eq
  intro k hk
  rw [Rv64i.immB, BitVec.getLsbD_signExtend, BitVec.msb_eq_getLsbD_last]
  simp only [immB, BitVec.getLsbD_append, BitVec.getLsbD_extractLsb', BitVec.getLsbD_fill]
  grind

theorem immJ_eq : immJ inst = Rv64i.immJ inst := by
  apply BitVec.eq_of_getLsbD_eq
  intro k hk
  rw [Rv64i.immJ, BitVec.getLsbD_signExtend, BitVec.msb_eq_getLsbD_last]
  simp only [immJ, BitVec.getLsbD_append, BitVec.getLsbD_extractLsb', BitVec.getLsbD_fill]
  grind

theorem immData_opImm (h : decRi inst = true ∨ decRiw inst = true) :
    immData inst = Rv64i.immI inst := by
  have ho : opcode inst = 0b0010011 ∨ opcode inst = 0b0011011 := by
    simpa [decRi, decRiw] using h
  rw [← immI_eq]
  rcases ho with ho | ho
  · exact (immData_of_opcode ho).1 (.inr (.inl rfl))
  · exact (immData_of_opcode ho).1 (.inr (.inr (.inl rfl)))

theorem immData_upper (h : decAuipc inst = true ∨ decLui inst = true) :
    immData inst = Rv64i.immU inst := by
  have ho : opcode inst = 0b0010111 ∨ opcode inst = 0b0110111 := by
    simpa [decAuipc, decLui] using h
  rw [← immU_eq]
  rcases ho with ho | ho
  · exact (immData_of_opcode ho).2.1 (.inl rfl)
  · exact (immData_of_opcode ho).2.1 (.inr rfl)

/-- `rv64im_core_id` in front of the ALU: what the ALU reads of a word, its pc and its operands. -/
def decode (inst : BitVec 32) (pc rs1 rs2 : BitVec 64) : IdAlu :=
  { inst := inst, pc := pc, rs1Data := rs1, rs2Data := rs2, immData := immData inst
    rdIndex := rd inst, info := info inst }

@[simp] theorem decode_info (pc rs1 rs2 : BitVec 64) : (decode inst pc rs1 rs2).info = info inst :=
  rfl

end Id

namespace Alu
open Rv64i (Op Instr)

section Result
variable {inst : BitVec 32} (pc a b : BitVec 64)

theorem aluToRdData_lui (h : Instr.lui.encodes inst = true) :
    Id.aluOp inst = true ∧ aluToRdData (Id.decode inst pc a b) = Rv64i.immU inst := by
  simp only [Instr.encodes, beq_iff_eq] at h
  have ho : Id.opcode inst = 0b0110111 := h
  obtain ⟨hr, hrw, (hri : _ = false), (hriw : _ = false), (hu : _ = false), (hl : _ = true)⟩ :=
    dec_of_opcode ho
  have hr := hr (by decide)
  have hrw := hrw (by decide)
  have ha : Id.aluOp inst = true := by simp [Id.aluOp, hl]
  refine ⟨ha, ?_⟩
  obtain ⟨-, -, -, -, -, -, -, -, -, -, -, -, w13, w14⟩ := alu_wires ha
  have hb : bjpReq (Id.info inst) = false := by
    rw [bjpReq_info]
    exact (classes_of_aluOp ha).2.1
  have hw : aluSextW (Id.info inst) = false := by
    rw [w14, Id.aluSextW, hrw, hriw]
    rfl
  rw [← Id.immData_upper (.inr hl)]
  exact @aluToRdData_of_resImm (Id.decode inst pc a b) hb (w13.trans hl)
    (dataOp_eq_false ha hr hrw hri hriw hu) hw

/-- Every form of instruction leaves its result at the end of the ALU. -/
theorem aluToRdData_of_encodes (n : Instr) (h : n.encodes inst = true) :
    Id.aluOp inst = true ∧
      aluToRdData (Id.decode inst pc a b) = n.result inst pc a b := by
  -- a selected operation is an ALU operation on the operands it selects
  have hall {o word imm p} (hs : Selects (Id.info inst) o word imm p)
      (hw : word = true → o.hasWord = true) : Id.aluOp inst = true ∧
        aluToRdData (Id.decode inst pc a b) =
          if word then o.evalWord (if p then pc else a) (if imm then Id.immData inst else b)
          else o.eval (if p then pc else a) (if imm then Id.immData inst else b) := by
    have h1 : aluOp1 (Id.decode inst pc a b) = if p then pc else a := by
      rw [← hs.op1Pc]
      rfl
    have h2 : aluOp2 (Id.decode inst pc a b) = if imm then Id.immData inst else b := by
      rw [← hs.op2Imm]
      rfl
    rw [← aluReq_info, ← h1, ← h2]
    exact ⟨hs.req, aluToRdData_of_selects (i := Id.decode inst pc a b) hs hw⟩
  cases n with
  | op o => exact hall (selects_op h) (fun hw => by cases hw)
  | op32 o =>
    obtain ⟨hs, hw⟩ := selects_op32 h
    exact hall hs (fun _ => hw)
  | opImm o =>
    have hi : Id.immData inst = Rv64i.immI inst := by
      simp only [Instr.encodes, Bool.and_eq_true] at h
      exact Id.immData_opImm (.inl h.1.1.2)
    have hx := hall (selects_opImm h) (fun hw => by cases hw)
    rw [hi] at hx
    exact hx
  | opImm32 o =>
    obtain ⟨hs, hw⟩ := selects_opImm32 h
    have hi : Id.immData inst = Rv64i.immI inst := by
      simp only [Instr.encodes, Bool.and_eq_true] at h
      exact Id.immData_opImm (.inr h.1.1.2)
    have hx := hall hs (fun _ => hw)
    rw [hi] at hx
    exact hx
  | lui => exact aluToRdData_lui pc a b h
  | auipc =>
    have hx := hall (selects_auipc h) (fun hw => by cases hw)
    rw [Id.immData_upper (.inl h)] at hx
    exact hx

/-- An ALU word drives the rd port and nothing else. -/
structure AluOnly (x : IdAlu) (d : Div.State) (csrRdata : BitVec 64) : Prop where
  wen : rdWen x (Div.ack d) false = true
  index : rdIndex x (Div.ack d) false = x.rdIndex
  data : rdWdata x d csrRdata = aluToRdData x
  mem : memReqOut x false = false
  csr : csrReq x.info = false
  sys : sysReq x.info = false
  noFlush : ∀ predictPt iduPc, flush x predictPt iduPc = false

theorem aluOnly (h : Id.aluOp inst = true) (d : Div.State) (csrRdata : BitVec 64) :
    AluOnly (Id.decode inst pc a b) d csrRdata := by
  obtain ⟨hm, hb, hmd, hs, hc⟩ := classes_of_aluOp h
  rw [← aluReq_info] at h
  rw [← memReq_info] at hm
  rw [← bjpReq_info] at hb
  rw [← muldivReq_info] at hmd
  rw [← sysReq_info] at hs
  rw [← csrReq_info] at hc
  have hw : bjpToRdWe (Id.decode inst pc a b) = false := by
    simp only [bjpToRdWe, jal, jalr, Id.decode_info, hb, Bool.false_and, Bool.or_self]
  have hmdw : muldivToRdWe (Id.decode inst pc a b) (Div.ack d) = false := by
    simp only [muldivToRdWe, divOp, mulOp, div, divu, rem, remu, mul, mulh, mulhsu, mulhu,
      Id.decode_info, hmd, Bool.false_and, Bool.or_self]
  have hwen : rdWen (Id.decode inst pc a b) (Div.ack d) false = true := by
    simp only [rdWen, Id.decode_info, h, Bool.true_or, Bool.not_false, Bool.and_self]
  refine ⟨hwen, if_pos hwen, ?_, ?_, hc, hs, ?_⟩
  · simp only [rdWdata, Id.decode_info, h, hw, hmdw, hc, mask_true, mask_false, BitVec.or_zero]
  · simp only [memReqOut, Id.decode_info, hm, Bool.false_and]
  · intro predictPt iduPc
    simp only [flush, condErr, bxIfCond, beq, bne, blt, bge, bltu, bgeu, jalr, Id.decode_info, hb,
      Bool.false_and, Bool.or_self]

/-- A word of `n` writes the result of `n` to its rd, and does nothing else. -/
theorem integer_result (n : Instr) (h : n.encodes inst = true) (d : Div.State)
    (csrRdata : BitVec 64) :
    rdWen (Id.decode inst pc a b) (Div.ack d) false = true ∧
    rdIndex (Id.decode inst pc a b) (Div.ack d) false = Rv64i.rd inst ∧
    rdWdata (Id.decode inst pc a b) d csrRdata = n.result inst pc a b ∧
    memReqOut (Id.decode inst pc a b) false = false ∧
    csrReq (Id.decode inst pc a b).info = false ∧
    sysReq (Id.decode inst pc a b).info = false ∧
    ∀ predictPt iduPc, flush (Id.decode inst pc a b) predictPt iduPc = false := by
  obtain ⟨ha, hr⟩ := aluToRdData_of_encodes pc a b n h
  obtain ⟨hw, hx, hd, hm, hc, hs, hf⟩ := aluOnly pc a b ha d csrRdata
  exact ⟨hw, hx, hd.trans hr, hm, hc, hs, hf⟩

end Result

/-- `sraiw x5, x6, 31`. -/
theorem integer_result_sraiw :
    rdWdata (Id.decode 0x41f3529b 0 0x80000000 0) default 0 = 0xffffffffffffffff := by
  have h := (@integer_result 0x41f3529b 0 0x80000000 0 (.opImm32 .sra) (by decide)
    default 0).2.2.1
  rw [h]
  decide

end Alu

end Rv64imCore
