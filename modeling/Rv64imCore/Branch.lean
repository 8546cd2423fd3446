import Rv64imCore.DecodeFacts
import Rv64imCore.Ifu

/-! What the branch unit of EX computes: the comparison, the target and the redirect. -/

namespace Rv64imCore
set_option autoImplicit true

namespace Alu

section Word
variable (inst : BitVec 32)

theorem bjpInfo_of_not_bjpOp (h : Id.bjpOp inst = false) :
    Id.beq inst = false ∧ Id.bne inst = false ∧ Id.blt inst = false ∧ Id.bge inst = false ∧
      Id.bltu inst = false ∧ Id.bgeu inst = false ∧ Id.jal inst = false ∧ Id.jalr inst = false := by
  simp only [Id.bjpOp, Bool.or_eq_false_iff] at h
  simp [Id.beq, Id.bne, Id.blt, Id.bge, Id.bltu, Id.bgeu, Id.jal, Id.jalr, Id.branch, h]

theorem bjp_info : beq (Id.info inst) = Id.beq inst ∧ bne (Id.info inst) = Id.bne inst ∧
    blt (Id.info inst) = Id.blt inst ∧ bge (Id.info inst) = Id.bge inst ∧
    bltu (Id.info inst) = Id.bltu inst ∧ bgeu (Id.info inst) = Id.bgeu inst ∧
    jal (Id.info inst) = Id.jal inst ∧ jalr (Id.info inst) = Id.jalr inst := by
  simp only [beq, bne, blt, bge, bltu, bgeu, jal, jalr, bjpReq_info]
  cases h : Id.bjpOp inst with
  | false => simp [bjpInfo_of_not_bjpOp inst h]
  | true =>
    simp only [opInfo_bjp h, Id.bjpInfo, BitVec.getLsbD_ofBoolListBE, Bool.true_and]
    refine ⟨rfl, rfl, rfl, rfl, rfl, rfl, rfl, rfl⟩

end Word

theorem sltCmp_eq_slt (a b : BitVec 64) :
    ((a.getLsbD 63 && !b.getLsbD 63) || (a.getLsbD 63 == b.getLsbD 63
      && (a.extractLsb' 0 63).ult (b.extractLsb' 0 63))) = a.slt b := by
  have hm : ∀ x : BitVec 64, x.msb = x.getLsbD 63 := fun x => by simp [BitVec.msb_eq_getLsbD_last]
  have hn : ∀ x : BitVec 64,
      x.toNat = (x.extractLsb' 0 63).toNat + (x.getLsbD 63).toNat * 2 ^ 63 := by
    intro x
    have hx := x.isLt
    simp only [BitVec.extractLsb'_toNat, Nat.shiftRight_zero, BitVec.getLsbD,
      Nat.testBit_eq_decide_div_mod_eq]
    by_cases h : x.toNat / 2 ^ 63 % 2 = 1
    · simp only [h, decide_true, Bool.toNat_true]; omega
    · simp only [h, decide_false, Bool.toNat_false]; omega
  rw [BitVec.slt_eq_ult, hm, hm]
  simp only [BitVec.ult, hn a, hn b]
  have ha := (a.extractLsb' 0 63).isLt
  have hb := (b.extractLsb' 0 63).isLt
  cases a.getLsbD 63 <;> cases b.getLsbD 63 <;> simp <;> omega

/-- The comparison that the `funct3` of a branch names. -/
def taken (f : BitVec 3) (a b : BitVec 64) : Bool :=
  if f = 0b000#3 then a == b
  else if f = 0b001#3 then !(a == b)
  else if f = 0b100#3 then a.slt b
  else if f = 0b101#3 then !a.slt b
  else if f = 0b110#3 then a.ult b
  else !a.ult b

section Resolve
variable {i : IdAlu}

theorem condBxx_cases {inst : BitVec 32} (h : Ifu.condBxx inst = true) :
    Id.decBranch inst = true ∧ (Id.fun3 inst = 0b000#3 ∨ Id.fun3 inst = 0b001#3 ∨
      Id.fun3 inst = 0b100#3 ∨ Id.fun3 inst = 0b101#3 ∨ Id.fun3 inst = 0b110#3 ∨
      Id.fun3 inst = 0b111#3) := by
  simp only [Ifu.condBxx, Bool.and_eq_true, bne_iff_ne, ne_eq] at h
  refine ⟨h.1.1, ?_⟩
  have h2 := h.1.2
  have h3 := h.2
  revert h2 h3
  generalize Id.fun3 inst = f
  revert f
  decide

theorem bjpReq_of_condBxx (hi : i.info = Id.info i.inst) (h : Ifu.condBxx i.inst = true) :
    bjpReq i.info = true := by
  rw [hi, bjpReq_info, Id.bjpOp, (condBxx_cases h).1]; rfl

theorem getLsbD_flag (b : Bool) : (0#63 ++ BitVec.ofBool b).getLsbD 0 = b := by
  revert b; decide

theorem xorRes_branch (ha : aluReq i.info = false) (h : (beq i.info || bne i.info) = true) :
    (xorRes i == 0) = (i.rs1Data == i.rs2Data) := by
  have h₁ : xorOp1 i = i.rs1Data := by simp [xorOp1, xorOp, ha, h]
  have h₂ : xorOp2 i = i.rs2Data := by simp [xorOp2, xorOp, ha, h]
  rw [xorRes, h₁, h₂]
  by_cases he : i.rs1Data = i.rs2Data
  · simp [he]
  · simp [he, BitVec.xor_eq_zero_iff]

theorem sltRes_branch (ha : aluReq i.info = false) (h : (blt i.info || bge i.info) = true) :
    (sltRes i).getLsbD 0 = i.rs1Data.slt i.rs2Data := by
  have h₁ : sltOp1 i = i.rs1Data := by simp [sltOp1, sltOp, ha, h]
  have h₂ : sltOp2 i = i.rs2Data := by simp [sltOp2, sltOp, ha, h]
  rw [sltRes, getLsbD_flag, sltCmpRes, h₁, h₂, sltCmp_eq_slt]

theorem sltuRes_branch (ha : aluReq i.info = false) (h : (bltu i.info || bgeu i.info) = true) :
    (sltuRes i).getLsbD 0 = i.rs1Data.ult i.rs2Data := by
  have h₁ : sltuOp1 i = i.rs1Data := by simp [sltuOp1, sltuOp, ha, h]
  have h₂ : sltuOp2 i = i.rs2Data := by simp [sltuOp2, sltuOp, ha, h]
  rw [sltuRes, getLsbD_flag, h₁, h₂]

theorem jumpRes_eq_taken (hi : i.info = Id.info i.inst) (h : Ifu.condBxx i.inst = true) :
    jumpRes i = taken (Id.fun3 i.inst) i.rs1Data i.rs2Data := by
  obtain ⟨hb, hf⟩ := condBxx_cases h
  have ha : aluReq i.info = false :=
    hi ▸ ((classes_info i.inst).bjp (hi ▸ bjpReq_of_condBxx hi h)).1
  have hbits := bjp_info i.inst
  rw [← hi] at hbits
  obtain ⟨h1, h2, h3, h4, h5, h6, -, -⟩ := hbits
  have hx := fun h => xorRes_branch (i := i) ha h
  have hs := fun h => sltRes_branch (i := i) ha h
  have hu := fun h => sltuRes_branch (i := i) ha h
  simp only [h1, h2, h3, h4, h5, h6, Id.beq, Id.bne, Id.blt, Id.bge, Id.bltu, Id.bgeu, Id.branch,
    hb, Bool.true_and] at hx hs hu
  have hne : (xorRes i != 0) = !(xorRes i == 0) := rfl
  simp only [jumpRes, h1, h2, h3, h4, h5, h6, Id.beq, Id.bne, Id.blt, Id.bge, Id.bltu, Id.bgeu,
    Id.branch, hb, Bool.true_and, hne]
  rcases hf with hf | hf | hf | hf | hf | hf <;> rw [hf] at hx hs hu ⊢
  · rw [hx (by decide)]; simp [taken]
  · rw [hx (by decide)]; simp [taken]
  · rw [hs (by decide)]; simp [taken]
  · rw [hs (by decide)]; simp [taken]
  · rw [hu (by decide)]; simp [taken]
  · rw [hu (by decide)]; simp [taken]

end Resolve

/-- A conditional branch, `jal` or `jalr`. -/
def transfers (inst : BitVec 32) : Bool :=
  Ifu.condBxx inst || Id.decJal inst || Id.decJalr inst

/-- The pc after a branch or jump, from its pc, its operands and its immediate. -/
def successor (i : IdAlu) : BitVec 64 :=
  if Id.decJalr i.inst then (i.rs1Data + Id.immI i.inst) &&& ~~~1#64
  else if Id.decJal i.inst then i.pc + Id.immJ i.inst
  else if taken (Id.fun3 i.inst) i.rs1Data i.rs2Data then i.pc + Id.immB i.inst
  else i.pc + 4

section Successor
variable {inst : BitVec 32}

theorem transfers_cases (h : transfers inst = true) :
    (Id.decJalr inst = true ∧ Id.decJal inst = false ∧ Ifu.condBxx inst = false) ∨
    (Id.decJalr inst = false ∧ Id.decJal inst = true ∧ Ifu.condBxx inst = false) ∨
    (Id.decJalr inst = false ∧ Id.decJal inst = false ∧ Ifu.condBxx inst = true) := by
  simp only [transfers, Ifu.condBxx, Id.decJal, Id.decJalr] at h ⊢
  by_cases h1 : Id.opcode inst = 0b1100111#7
  · simp only [h1] at h ⊢; simp at h; simp [h]
  · by_cases h2 : Id.opcode inst = 0b1101111#7
    · simp [h2]
    · simp [h1, h2] at h
      simp [h]

theorem immData_jalr (h : Id.decJalr inst = true) : Id.immData inst = Id.immI inst := by
  simp only [Id.decJalr, Bool.and_eq_true, beq_iff_eq] at h
  exact (Id.immData_of_opcode h.1).1 (.inr (.inr (.inr ⟨rfl, h.2⟩)))

theorem immData_branch (h : Id.decBranch inst = true) : Id.immData inst = Id.immB inst := by
  have ho : Id.opcode inst = 0b1100011#7 := by simpa [Id.decBranch] using h
  exact (Id.immData_of_opcode ho).2.2.2.1 rfl

/-- The fetch unit's own decoder agrees on the offsets. -/
theorem pcOffset_jal (h : Id.decJal inst = true) : Ifu.pcOffset inst = Id.immJ inst := by
  rw [Ifu.pcOffset, show Ifu.uncondJump inst = true from h]
  rfl

theorem pcOffset_branch (h : Id.decBranch inst = true) : Ifu.pcOffset inst = Id.immB inst := by
  have hu : Ifu.uncondJump inst = false := by
    have ho : Id.opcode inst = 0b1100011#7 := by simpa [Id.decBranch] using h
    simp [Ifu.uncondJump, ho]
  rw [Ifu.pcOffset, hu, if_neg (by decide), Id.immB]
  apply BitVec.eq_of_getLsbD_eq
  intro k hk
  simp only [BitVec.getLsbD_append, BitVec.getLsbD_extractLsb', BitVec.getLsbD_fill]
  grind

theorem clear_low (x : BitVec 64) : x.extractLsb' 1 63 ++ 0#1 = x &&& ~~~1#64 :=
  Bits.clear_low (n := 63) (j := 1) x

end Successor

section Redirect
variable {i : IdAlu}

theorem bxIfCond_eq (hi : i.info = Id.info i.inst) : bxIfCond i = Ifu.condBxx i.inst := by
  obtain ⟨h1, h2, h3, h4, h5, h6, -, -⟩ := bjp_info i.inst
  simp only [bxIfCond, hi, h1, h2, h3, h4, h5, h6, Id.beq, Id.bne, Id.blt, Id.bge, Id.bltu,
    Id.bgeu, Id.branch, Ifu.condBxx, Id.decBranch]
  generalize (Id.opcode i.inst == 0b1100011#7) = o
  generalize Id.fun3 i.inst = f
  revert o f
  decide

variable (hd : i.Decoded) (ht : transfers i.inst = true)
include hd ht

theorem decoded_of_transfers : i.info = Id.info i.inst ∧ i.immData = Id.immData i.inst := by
  rcases hd with ⟨h₁, h₂, -⟩ | rfl
  · exact ⟨h₁, h₂⟩
  · exact absurd ht (by decide)

theorem jalr_eq : jalr i.info = Id.decJalr i.inst := by
  rw [(decoded_of_transfers hd ht).1, (bjp_info _).2.2.2.2.2.2.2]
  rfl

theorem jalrTgt_eq (hj : Id.decJalr i.inst = true) : jalrTgt i = successor i := by
  rw [jalrTgt, bxTgt, bjpOp1, jalr_eq hd ht, hj, if_pos rfl, (decoded_of_transfers hd ht).2,
    immData_jalr hj, clear_low, successor, if_pos hj]

theorem jumpAddr_of_flush (hf : flush i p pc = true) : jumpAddr i p = successor i := by
  obtain ⟨hi, him⟩ := decoded_of_transfers hd ht
  have hj := jalr_eq hd ht
  have hc := bxIfCond_eq hi
  simp only [flush, hj, condErr, hc] at hf
  simp only [jumpAddr, hj, condErr, hc]
  rcases transfers_cases ht with ⟨h1, h2, h3⟩ | ⟨h1, h2, h3⟩ | ⟨h1, h2, h3⟩
  · simp [h1, h3, jalrTgt_eq hd ht h1]
  · simp [h1, h3] at hf
  · have hx : bxTgt i = i.pc + Id.immB i.inst := by
      rw [bxTgt, bjpOp1, hj, h1, if_neg (by decide), him, immData_branch (condBxx_cases h3).1]
    rw [h1, h3, jumpRes_eq_taken hi h3] at hf ⊢
    rw [successor, h1, h2, if_neg (by decide), if_neg (by decide)]
    revert hf
    cases taken (Id.fun3 i.inst) i.rs1Data i.rs2Data <;> cases p <;> simp [hx, pcInc4]

/-- Without a redirect, a `jalr` finds its successor in ID, and a branch or `jal` was fetched past
as its prediction says. -/
theorem successor_of_not_flush (hf : flush i p pc = false) :
    (Id.decJalr i.inst = true ∧ pc = successor i) ∨
    (Id.decJalr i.inst = false ∧ ((Ifu.uncondJump i.inst = true → p = true) →
      successor i = if p then i.pc + Ifu.pcOffset i.inst else i.pc + 4)) := by
  obtain ⟨hi, -⟩ := decoded_of_transfers hd ht
  have hj := jalr_eq hd ht
  simp only [flush, hj, condErr, bxIfCond_eq hi, jalrErr] at hf
  rcases transfers_cases ht with ⟨h1, h2, h3⟩ | ⟨h1, h2, h3⟩ | ⟨h1, h2, h3⟩
  · refine .inl ⟨h1, ?_⟩
    rw [h1, h3, jalrTgt_eq hd ht h1] at hf
    exact Eq.symm (by simpa using hf)
  · refine .inr ⟨h1, fun hp => ?_⟩
    rw [hp h2, if_pos rfl, pcOffset_jal h2, successor, h1, h2]
    rfl
  · refine .inr ⟨h1, fun _ => ?_⟩
    rw [h1, h3, jumpRes_eq_taken hi h3] at hf
    rw [successor, h1, h2, if_neg (by decide), if_neg (by decide),
      pcOffset_branch (condBxx_cases h3).1]
    revert hf
    cases taken (Id.fun3 i.inst) i.rs1Data i.rs2Data <;> cases p <;> simp

end Redirect

end Alu

end Rv64imCore
