import Rv64imCore.Alu

/-! Which control words can stand in the EX register, and which classes exclude each other. -/

namespace Rv64imCore
set_option autoImplicit true

/-- The EX register holds a decoded instruction word, or the bubble a flush leaves. -/
def IdAlu.Decoded (x : IdAlu) : Prop :=
  (x.info = Id.info x.inst ∧ x.immData = Id.immData x.inst ∧ x.rdIndex = Id.rd x.inst) ∨
    x = IdAlu.bubble

namespace Id
variable {inst : BitVec 32}

theorem memOp_opcode (h : memOp inst = true) :
    opcode inst = 0b0000011#7 ∨ opcode inst = 0b0100011#7 := by
  simpa [memOp, decLd, decSt] using h

theorem bjpOp_opcode (h : bjpOp inst = true) :
    opcode inst = 0b1100011#7 ∨ opcode inst = 0b1100111#7 ∨ opcode inst = 0b1101111#7 := by
  simp [bjpOp, decBranch, decJalr, decJal] at h
  grind

theorem muldivOp_opcode (h : muldivOp inst = true) :
    (opcode inst = 0b0110011#7 ∨ opcode inst = 0b0111011#7) ∧ fun7 inst = 0b0000001#7 := by
  simp [muldivOp, decMd, decMdw] at h
  grind

theorem csrOp_opcode (h : csrOp inst = true) : opcode inst = 0b1110011#7 := by
  simpa [csrOp, decCsr] using h

theorem sysOp_opcode (h : sysOp inst = true) :
    opcode inst = 0b0001111#7 ∨ opcode inst = 0b1110011#7 ∧ fun3 inst = 0 := by
  simp only [sysOp, fence, fencei, ecall, ebreak, mret, Bool.or_eq_true, Bool.and_eq_true,
    beq_iff_eq] at h
  rcases h with (((⟨h, -⟩ | rfl) | rfl) | rfl) | rfl
  · exact .inl h
  · exact .inl (by decide)
  · exact .inr (by decide)
  · exact .inr (by decide)
  · exact .inr (by decide)

theorem aluOp_opcode (h : aluOp inst = true) :
    (opcode inst = 0b0110011#7 ∨ opcode inst = 0b0111011#7) ∧ (fun7 inst).extractLsb' 0 5 = 0#5 ∨
      opcode inst = 0b0010011#7 ∨ opcode inst = 0b0011011#7 ∨ opcode inst = 0b0110111#7 ∨
      opcode inst = 0b0010111#7 := by
  simp [aluOp, decR, decRi, decAuipc, decLui, decRw, decRiw] at h
  grind

/-- A `funct7` of one is never that of an ALU operation. -/
theorem aluOp_muldivOp (ha : aluOp inst = true) (hm : muldivOp inst = true) : False := by
  obtain ⟨ho, hf⟩ := muldivOp_opcode hm
  rcases aluOp_opcode ha with ⟨-, h⟩ | h | h | h | h
  · rw [hf] at h; exact absurd h (by decide)
  all_goals rcases ho with ho | ho <;> rw [ho] at h <;> exact absurd h (by decide)

theorem immData_of_opcode (h : opcode inst = c) :
    (c = 0x03 ∨ c = 0x13 ∨ c = 0x1b ∨ c = 0x67 ∧ fun3 inst = 0 → immData inst = immI inst) ∧
      (c = 0x17 ∨ c = 0x37 → immData inst = immU inst) ∧
      (c = 0x23 → immData inst = immS inst) ∧ (c = 0x63 → immData inst = immB inst) ∧
      (c = 0x6f → immData inst = immJ inst) := by
  have hI : typeI inst =
      (c == 0x03 || (c == 0x67 && fun3 inst == 0) || c == 0x13 || c == 0x1b) := by
    subst h; rfl
  have hU : typeU inst = (c == 0x17 || c == 0x37) := by subst h; rfl
  have hS : typeS inst = (c == 0x23) := by subst h; rfl
  have hB : typeB inst = (c == 0x63) := by subst h; rfl
  have hJ : typeJ inst = (c == 0x6f) := by subst h; rfl
  simp only [immData, hI, hU, hS, hB, hJ]
  refine ⟨?_, ?_, ?_, ?_, ?_⟩
  · rintro (rfl | rfl | rfl | ⟨rfl, h3⟩) <;> simp [*]
  · rintro (rfl | rfl) <;> simp
  · rintro rfl; simp
  · rintro rfl; simp
  · rintro rfl; simp

end Id

namespace Alu

section Word
variable (inst : BitVec 32)

@[simp] theorem aluReq_info : aluReq (Id.info inst) = Id.aluOp inst := by
  simp only [aluReq, Id.info, BitVec.getLsbD_ofBoolListBE]
  rfl
@[simp] theorem memReq_info : memReq (Id.info inst) = Id.memOp inst := by
  simp only [memReq, Id.info, BitVec.getLsbD_ofBoolListBE]
  rfl
@[simp] theorem bjpReq_info : bjpReq (Id.info inst) = Id.bjpOp inst := by
  simp only [bjpReq, Id.info, BitVec.getLsbD_ofBoolListBE]
  rfl
@[simp] theorem muldivReq_info : muldivReq (Id.info inst) = Id.muldivOp inst := by
  simp only [muldivReq, Id.info, BitVec.getLsbD_ofBoolListBE]
  rfl
@[simp] theorem sysReq_info : sysReq (Id.info inst) = Id.sysOp inst := by
  simp only [sysReq, Id.info, BitVec.getLsbD_ofBoolListBE]
  rfl
@[simp] theorem csrReq_info : csrReq (Id.info inst) = Id.csrOp inst := by
  simp only [csrReq, Id.info, BitVec.getLsbD_ofBoolListBE]
  rfl

end Word

/-- The classes of a decoded word: at most one of them, but for the SYSTEM words that are both a
system and a CSR operation. -/
structure Classes (n : Info) : Prop where
  mem : memReq n = true → aluReq n = false ∧ bjpReq n = false ∧ muldivReq n = false ∧
    sysReq n = false ∧ csrReq n = false
  bjp : bjpReq n = true → aluReq n = false ∧ memReq n = false ∧ muldivReq n = false ∧
    sysReq n = false ∧ csrReq n = false
  muldiv : muldivReq n = true → aluReq n = false ∧ memReq n = false ∧ bjpReq n = false ∧
    sysReq n = false ∧ csrReq n = false
  csr : csrReq n = true → aluReq n = false ∧ memReq n = false ∧ bjpReq n = false ∧
    muldivReq n = false
  sys : sysReq n = true → aluReq n = false ∧ memReq n = false ∧ bjpReq n = false ∧
    muldivReq n = false

theorem classes_info (inst : BitVec 32) : Classes (Id.info inst) := by
  constructor
  all_goals
    intro h
    simp only [memReq_info, bjpReq_info, muldivReq_info, csrReq_info, sysReq_info,
      aluReq_info] at h ⊢
  · have ho := Id.memOp_opcode h
    refine ⟨?_, ?_, ?_, ?_, ?_⟩ <;> apply Bool.eq_false_iff.mpr <;> intro h'
    · have := Id.aluOp_opcode h'; grind
    · have := Id.bjpOp_opcode h'; grind
    · have := Id.muldivOp_opcode h'; grind
    · have := Id.sysOp_opcode h'; grind
    · have := Id.csrOp_opcode h'; grind
  · have ho := Id.bjpOp_opcode h
    refine ⟨?_, ?_, ?_, ?_, ?_⟩ <;> apply Bool.eq_false_iff.mpr <;> intro h'
    · have := Id.aluOp_opcode h'; grind
    · have := Id.memOp_opcode h'; grind
    · have := Id.muldivOp_opcode h'; grind
    · have := Id.sysOp_opcode h'; grind
    · have := Id.csrOp_opcode h'; grind
  · have ho := Id.muldivOp_opcode h
    refine ⟨?_, ?_, ?_, ?_, ?_⟩ <;> apply Bool.eq_false_iff.mpr <;> intro h'
    · exact Id.aluOp_muldivOp h' h
    · have := Id.memOp_opcode h'; grind
    · have := Id.bjpOp_opcode h'; grind
    · have := Id.sysOp_opcode h'; grind
    · have := Id.csrOp_opcode h'; grind
  · have ho := Id.csrOp_opcode h
    refine ⟨?_, ?_, ?_, ?_⟩ <;> apply Bool.eq_false_iff.mpr <;> intro h'
    · have := Id.aluOp_opcode h'; grind
    · have := Id.memOp_opcode h'; grind
    · have := Id.bjpOp_opcode h'; grind
    · have := Id.muldivOp_opcode h'; grind
  · have ho := Id.sysOp_opcode h
    refine ⟨?_, ?_, ?_, ?_⟩ <;> apply Bool.eq_false_iff.mpr <;> intro h'
    · have := Id.aluOp_opcode h'; grind
    · have := Id.memOp_opcode h'; grind
    · have := Id.bjpOp_opcode h'; grind
    · have := Id.muldivOp_opcode h'; grind

theorem opInfo_muldiv {inst : BitVec 32} (h : Id.muldivOp inst = true) :
    (Id.info inst).opInfo = Id.muldivInfo inst := by
  have hc := (classes_info inst).muldiv (by rw [muldivReq_info, h])
  simp only [aluReq_info, memReq_info, bjpReq_info, sysReq_info, csrReq_info] at hc
  simp [Id.info, h, hc]

theorem opInfo_bjp {inst : BitVec 32} (h : Id.bjpOp inst = true) :
    (Id.info inst).opInfo = Id.bjpInfo inst := by
  have hc := (classes_info inst).bjp (by rw [bjpReq_info, h])
  simp only [aluReq_info, memReq_info, muldivReq_info, sysReq_info, csrReq_info] at hc
  simp [Id.info, h, hc]

theorem classes_none : Classes ⟨0, 0⟩ := by
  constructor <;> intro h <;> exact absurd h (by decide)

end Alu

theorem IdAlu.Decoded.classes {x : IdAlu} (h : x.Decoded) : Alu.Classes x.info := by
  rcases h with ⟨h, -⟩ | rfl
  · rw [h]; exact Alu.classes_info _
  · exact Alu.classes_none

namespace Alu

theorem divOp_muldivReq (h : divOp n = true) : muldivReq n = true := by
  cases hm : muldivReq n <;> simp_all [divOp, div, divu, rem, remu]
theorem mulOp_muldivReq (h : mulOp n = true) : muldivReq n = true := by
  cases hm : muldivReq n <;> simp_all [mulOp, mul, mulh, mulhsu, mulhu]
theorem memRwCtrl_memReq (h : memRwCtrl n = true) : memReq n = true := by
  cases hm : memReq n <;> simp_all [memRwCtrl]

theorem mulOp_fun3 {inst : BitVec 32} (h : mulOp (Id.info inst) = true) :
    (Id.fun3 inst).getLsbD 2 = false := by
  have hm : Id.muldivOp inst = true := by rw [← muldivReq_info, mulOp_muldivReq h]
  simp only [mulOp, mul, mulh, mulhsu, mulhu, opInfo_muldiv hm, Id.muldivInfo, muldivReq_info, hm,
    Bool.true_and, BitVec.getLsbD_ofBoolListBE] at h
  simp [Id.mul, Id.mulh, Id.mulhsu, Id.mulhu] at h
  rcases h with ((h | h) | h) | h <;> rw [h.2] <;> decide

theorem divOp_fun3 {inst : BitVec 32} (h : divOp (Id.info inst) = true) :
    (Id.fun3 inst).getLsbD 2 = true := by
  have hm : Id.muldivOp inst = true := by rw [← muldivReq_info, divOp_muldivReq h]
  simp only [divOp, div, divu, rem, remu, opInfo_muldiv hm, Id.muldivInfo, muldivReq_info, hm,
    Bool.true_and, BitVec.getLsbD_ofBoolListBE] at h
  simp [Id.div, Id.divu, Id.rem, Id.remu] at h
  rcases h with ((h | h) | h) | h <;> rw [h.2] <;> decide

theorem divOp_of_mulOp {x : IdAlu} (hd : x.Decoded) (h : mulOp x.info = true) :
    divOp x.info = false := by
  rcases hd with ⟨hi, -⟩ | rfl
  · rw [hi] at h ⊢
    rw [Bool.eq_false_iff]
    intro h'
    exact absurd ((mulOp_fun3 h).symm.trans (divOp_fun3 h')) (by decide)
  · rfl

theorem divOp_eq_false (h : muldivReq n = false) : divOp n = false := by
  simp [divOp, div, divu, rem, remu, h]
theorem mulOp_eq_false (h : muldivReq n = false) : mulOp n = false := by
  simp [mulOp, mul, mulh, mulhsu, mulhu, h]
theorem memRwCtrl_eq_false (h : memReq n = false) : memRwCtrl n = false := by
  simp [memRwCtrl, h]

theorem muldiv_bit (inst : BitVec 32) (k : Nat) : (muldivReq (Id.info inst) &&
    (Id.info inst).opInfo.getLsbD k) = (Id.muldivOp inst && (Id.muldivInfo inst).getLsbD k) := by
  rw [muldivReq_info]
  cases h : Id.muldivOp inst with
  | false => rw [Bool.false_and, Bool.false_and]
  | true => rw [opInfo_muldiv h]

theorem muldiv_wires (inst : BitVec 32) (h : Id.muldivOp inst = true) :
    mul (Id.info inst) = Id.mul inst ∧ mulh (Id.info inst) = Id.mulh inst ∧
      mulhsu (Id.info inst) = Id.mulhsu inst ∧ mulhu (Id.info inst) = Id.mulhu inst ∧
      div (Id.info inst) = Id.div inst ∧ divu (Id.info inst) = Id.divu inst ∧
      rem (Id.info inst) = Id.rem inst ∧ remu (Id.info inst) = Id.remu inst ∧
      mdSextW (Id.info inst) = Id.mdSextW inst := by
  simp only [mul, mulh, mulhsu, mulhu, div, divu, rem, remu, mdSextW, muldiv_bit, h,
    Bool.true_and, Id.muldivInfo, BitVec.getLsbD_ofBoolListBE]
  exact ⟨rfl, rfl, rfl, rfl, rfl, rfl, rfl, rfl, rfl⟩

theorem bubble_wires : aluReq IdAlu.bubble.info = false ∧ memReq IdAlu.bubble.info = false ∧
    bjpReq IdAlu.bubble.info = false ∧ csrReq IdAlu.bubble.info = false ∧
    divOp IdAlu.bubble.info = false ∧ mulOp IdAlu.bubble.info = false ∧
    memRwCtrl IdAlu.bubble.info = false := by
  decide

theorem flush_eq_false {i : IdAlu} (h : bjpReq i.info = false) (p : Bool) (pc : BitVec 64) :
    flush i p pc = false := by
  simp [flush, condErr, bxIfCond, beq, bne, blt, bge, bltu, bgeu, jalr, h]

end Alu

end Rv64imCore
