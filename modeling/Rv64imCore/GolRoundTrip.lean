import Rv64imCore.Branch
import Rv64imCore.GolExec

/-! What the encoders write, the decoder and the fetch unit read back; what `li` loads. -/

namespace Rv64imCore.Gol
set_option autoImplicit true
open Rv64i (Hart)

/-- The indices, the immediate and the offset that the core reads from the words of the
encoders. -/
structure EncodersAgree : Prop where
  rtype (f7 f3 op : Nat) (rs2 rs1 rd : BitVec 5) : f7 < 128 → f3 < 8 → op < 128 →
    let w := BitVec.ofNat 32 (rtype f7 rs2.toNat rs1.toNat f3 rd.toNat op)
    Id.rs2 w = rs2 ∧ Id.rs1 w = rs1 ∧ Id.rd w = rd
  itype (imm : Int) (f3 op : Nat) (rs1 rd : BitVec 5) : -2048 ≤ imm → imm < 2048 → f3 < 8 →
    (op = 0x03 ∨ op = 0x13 ∨ op = 0x1b ∨ op = 0x67 ∧ f3 = 0) →
    let w := BitVec.ofNat 32 (itype imm rs1.toNat f3 rd.toNat op)
    Id.rs1 w = rs1 ∧ Id.rd w = rd ∧ Id.immData w = BitVec.ofInt 64 imm
  stype (imm : Int) (f3 : Nat) (rs2 rs1 : BitVec 5) : -2048 ≤ imm → imm < 2048 → f3 < 8 →
    let w := BitVec.ofNat 32 (stype imm rs2.toNat rs1.toNat f3)
    Id.rs2 w = rs2 ∧ Id.rs1 w = rs1 ∧ Id.immData w = BitVec.ofInt 64 imm
  btype (imm : Int) (f3 : Nat) (rs2 rs1 : BitVec 5) :
    -4096 ≤ imm → imm < 4096 → imm % 2 = 0 → f3 < 8 →
    let w := BitVec.ofNat 32 (btype imm rs2.toNat rs1.toNat f3)
    Id.rs2 w = rs2 ∧ Id.rs1 w = rs1 ∧ Id.immData w = BitVec.ofInt 64 imm ∧
      Ifu.pcOffset w = Id.immData w
  utype (imm20 : Int) (op : Nat) (rd : BitVec 5) : op = 0x17 ∨ op = 0x37 →
    let w := BitVec.ofNat 32 (utype imm20 rd.toNat op)
    Id.rd w = rd ∧ Id.immData w = (BitVec.ofInt 20 imm20).signExtend 64 <<< 12
  jtype (imm : Int) (rd : BitVec 5) : -1048576 ≤ imm → imm < 1048576 → imm % 2 = 0 →
    let w := BitVec.ofNat 32 (jtype imm rd.toNat)
    Id.rd w = rd ∧ Id.immData w = BitVec.ofInt 64 imm ∧ Ifu.pcOffset w = Id.immData w

theorem signExtend_upper (x : BitVec 20) :
    (x ++ 0#12).signExtend 64 = x.signExtend 64 <<< 12 := by
  rw [BitVec.signExtend, BitVec.toInt_append, BitVec.shiftLeft_eq_mul_twoPow, BitVec.signExtend]
  have h : BitVec.twoPow 64 12 = BitVec.ofInt 64 4096 := rfl
  rw [h, ← BitVec.ofInt_mul, Int.mul_comm]
  simp

theorem encodersAgree : EncodersAgree where
  rtype f7 f3 op rs2 rs1 rd h7 h3 ho := by
    obtain ⟨-, hrd, -, hr1, hr2, -⟩ := @rtype_fields f7 op rs2 rs1 rd f3 h7 h3 ho
    exact ⟨hr2, hr1, hrd⟩
  itype imm f3 op rs1 rd hl hu h3 hc := by
    intro w
    obtain ⟨ho, hrd, hf, hr1, hi⟩ := @itype_fields op imm rs1 rd f3 h3 (by omega) hl hu
    refine ⟨hr1, hrd, ((Id.immData_of_opcode ho).1 ?_).trans (Id.immI_eq.trans hi)⟩
    rcases hc with rfl | rfl | rfl | ⟨rfl, rfl⟩
    · exact .inl rfl
    · exact .inr (.inl rfl)
    · exact .inr (.inr (.inl rfl))
    · exact .inr (.inr (.inr ⟨rfl, hf⟩))
  stype imm f3 rs2 rs1 hl hu h3 := by
    intro w
    obtain ⟨ho, -, hr1, hr2, hi⟩ := @stype_fields imm rs2 rs1 f3 h3 hl hu
    exact ⟨hr2, hr1, ((Id.immData_of_opcode ho).2.2.1 rfl).trans (Id.immS_eq.trans hi)⟩
  btype imm f3 rs2 rs1 hl hu he h3 := by
    intro w
    obtain ⟨ho, -, hr1, hr2, hi⟩ := @btype_fields imm rs2 rs1 f3 h3 hl hu he
    have hd : Id.immData w = Id.immB w := (Id.immData_of_opcode ho).2.2.2.1 rfl
    have hp : Ifu.pcOffset w = Id.immB w := Alu.pcOffset_branch (beq_iff_eq.mpr ho)
    exact ⟨hr2, hr1, hd.trans (Id.immB_eq.trans hi), hp.trans hd.symm⟩
  utype imm20 op rd hc := by
    intro w
    obtain ⟨ho, hrd, hi⟩ := @utype_fields op imm20 rd (by omega)
    have hd : Id.immData w = Id.immU w := by
      refine (Id.immData_of_opcode ho).2.1 ?_
      rcases hc with rfl | rfl
      · exact .inl rfl
      · exact .inr rfl
    exact ⟨hrd, hd.trans (Id.immU_eq.trans (hi.trans (signExtend_upper _)))⟩
  jtype imm rd hl hu he := by
    intro w
    obtain ⟨ho, hrd, hi⟩ := @jtype_fields imm rd hl hu he
    have hd : Id.immData w = Id.immJ w := (Id.immData_of_opcode ho).2.2.2.2 rfl
    have hp : Ifu.pcOffset w = Id.immJ w := Alu.pcOffset_jal (beq_iff_eq.mpr ho)
    exact ⟨hrd, hd.trans (Id.immJ_eq.trans hi), hp.trans hd.symm⟩

/-- The one or two words of `li` leave the 32-bit value, sign-extended. -/
def LiLoads (rd : Reg) (val : Int) : Prop :=
  ∀ (L : Type) (s : Asm L), ∃ ws, (s.li rd val).words = s.words ++ ws ∧
    (ws.length = 1 ∨ ws.length = 2) ∧ ∀ (h : Hart) (cycle : BitVec 64), ∃ h',
      executeAll ws cycle h = some h' ∧ h'.reg (REG rd) = (BitVec.ofInt 32 val).signExtend 64

theorem signExtend_eq_signed (val : Int) :
    (BitVec.ofInt 32 val).signExtend 64 = BitVec.ofInt 64 (signed val) := by
  have h : (BitVec.ofInt 32 val).toInt = signed val := by
    rw [BitVec.toInt_ofInt, Int.bmod_def, signed, low]
    split <;> split <;> omega
  rw [BitVec.signExtend, h]

theorem liValue_eq_iff (val : Int) :
    BitVec.ofInt 64 (liValue val) = BitVec.ofInt 64 (signed val) ↔
      ¬(0x7ffff800 ≤ low 32 val ∧ low 32 val < 0x80000000) := by
  have hlow := low_lt 32 val
  constructor
  · rintro h ⟨h1, h2⟩
    have hx := congrArg BitVec.toInt h
    rw [liValue, signed, if_neg (by omega), if_pos h2, BitVec.toInt_ofInt, BitVec.toInt_ofInt,
      Int.bmod_def, Int.bmod_def] at hx
    split at hx <;> split at hx <;> omega
  · intro h
    congr 1
    rw [liValue, signed]
    split <;> split <;> omega

theorem liLoads_iff (rd : Reg) (val : Int) : LiLoads rd val ↔
    BitVec.ofInt 64 (signed val) =
      if REG rd = 0 then 0 else BitVec.ofInt 64 (liValue val) := by
  constructor
  · intro h
    obtain ⟨ws, hw, -, hx⟩ := h Unit Asm.init
    obtain rfl : ws = (liWords rd val).map (· &&& 0xffffffff) := by
      rw [li_eq, emits_words] at hw
      exact (List.append_cancel_left hw).symm
    obtain ⟨h', hr, hv⟩ := hx { pc := 0, x := fun _ => 0, mem := fun _ => 0 } 0
    rw [executeAll_masked, execute_li] at hr
    cases hr
    rw [← signExtend_eq_signed, ← hv, jump_reg, reg_write_self]
  · intro h L s
    refine ⟨(liWords rd val).map (· &&& 0xffffffff), ?_, ?_, fun t cycle => ?_⟩
    · rw [li_eq, emits_words]
    · rw [List.length_map]
      exact liWords_length rd val
    · refine ⟨_, (executeAll_masked _ cycle t).trans (execute_li rd val t cycle), ?_⟩
      rw [jump_reg, reg_write_self, signExtend_eq_signed, h]

theorem signed_eq_zero (val : Int) : (0 : BitVec 64) = BitVec.ofInt 64 (signed val) ↔
    low 32 val = 0 := by
  have hlow := low_lt 32 val
  constructor
  · intro h
    have hx := congrArg BitVec.toInt h
    rw [signed, BitVec.toInt_ofInt, Int.bmod_def, show (0 : BitVec 64).toInt = 0 from rfl] at hx
    split at hx <;> split at hx <;> omega
  · intro h
    rw [signed, h]
    rfl

/-- On RV64 a positive value whose `lui` part is 2 ^ 31 comes out negative. -/
theorem encoders_and_li (rd : Reg) (val : Int) :
    EncodersAgree ∧ LiLoads rd val ↔
      (rd = .zero → low 32 val = 0) ∧ ¬(0x7ffff800 ≤ low 32 val ∧ low 32 val < 0x80000000) := by
  rw [and_iff_right encodersAgree, liLoads_iff]
  by_cases h : rd = .zero
  · rw [if_pos ((REG_eq_zero rd).mpr h), eq_comm, signed_eq_zero, and_iff_left_of_imp]
    · exact ⟨fun h _ => h, fun hx => hx h⟩
    · intro hx
      have h0 := hx h
      omega
  · rw [if_neg (mt (REG_eq_zero rd).mp h), eq_comm, liValue_eq_iff]
    exact ⟨fun hx => ⟨fun h' => absurd h' h, hx⟩, fun hx => hx.2⟩

/-- `li("a0", 0x7fffffff)`. -/
theorem li_misses : ¬LiLoads .a0 0x7fffffff := by
  rw [liLoads_iff]
  decide

end Rv64imCore.Gol
