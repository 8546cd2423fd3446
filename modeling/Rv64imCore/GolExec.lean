import Rv64imCore.GolDecode
import Rv64imCore.Hart

/-! RV64I runs the words of the assembler. -/

namespace Rv64imCore.Gol
set_option autoImplicit true
open Rv64i

section Execute
variable {s : Hart} {cycle : BitVec 64} {imm : Int} {rd rs1 rs2 : BitVec 5}

theorem execute_opImm (o : Op) (hs : o ≠ .sub) (hi : o.isShift = false) (hl : -2048 ≤ imm)
    (hu : imm < 2048) :
    s.execute (BitVec.ofNat 32 (itype imm rs1.toNat o.funct3.toNat rd.toNat 0x13)) cycle =
      some ((s.write rd (o.eval (s.reg rs1) (BitVec.ofInt 64 imm))).jump (s.pc + 4)) := by
  obtain ⟨ho, hrd, h3, hrs, him⟩ :=
    @itype_fields 0x13 imm rs1 rd _ o.funct3.isLt (by decide) hl hu
  have he : (Instr.opImm o).encodes
      (BitVec.ofNat 32 (itype imm rs1.toNat o.funct3.toNat rd.toNat 0x13)) = true := by
    simp [Instr.encodes, ho, h3, hs, hi]
  rw [Hart.execute_int he, Instr.result, hrd, hrs, him]

theorem execute_op (o : Op) :
    s.execute (BitVec.ofNat 32
        (rtype o.funct7.toNat rs2.toNat rs1.toNat o.funct3.toNat rd.toNat 0x33)) cycle =
      some ((s.write rd (o.eval (s.reg rs1) (s.reg rs2))).jump (s.pc + 4)) := by
  obtain ⟨ho, hrd, h3, hr1, hr2, h7⟩ :=
    @rtype_fields _ 0x33 rs2 rs1 rd _ o.funct7.isLt o.funct3.isLt (by decide)
  have he : (Instr.op o).encodes (BitVec.ofNat 32
      (rtype o.funct7.toNat rs2.toNat rs1.toNat o.funct3.toNat rd.toNat 0x33)) = true := by
    simp [Instr.encodes, ho, h3, h7]
  rw [Hart.execute_int he, Instr.result, hrd, hr1, hr2]

theorem execute_lui :
    s.execute (BitVec.ofNat 32 (utype imm rd.toNat 0x37)) cycle =
      some ((s.write rd ((BitVec.ofInt 20 imm ++ 0#12).signExtend 64)).jump (s.pc + 4)) := by
  obtain ⟨ho, hrd, hi⟩ := @utype_fields 0x37 imm rd (by decide)
  have he : Instr.lui.encodes (BitVec.ofNat 32 (utype imm rd.toNat 0x37)) = true := by
    simp [Instr.encodes, ho]
  rw [Hart.execute_int he, Instr.result, hrd, hi]

theorem execute_lbu (hl : -2048 ≤ imm) (hu : imm < 2048) :
    s.execute (BitVec.ofNat 32 (itype imm rs1.toNat 4 rd.toNat 0x03)) cycle =
      some ((s.write rd ((s.mem ((s.reg rs1 + BitVec.ofInt 64 imm).setWidth 32)).setWidth 64)).jump
        (s.pc + 4)) := by
  obtain ⟨ho, hrd, h3, hrs, him⟩ :=
    @itype_fields 0x03 imm rs1 rd 4 (by decide) (by decide) hl hu
  have hi : isLoad (BitVec.ofNat 32 (itype imm rs1.toNat 4 rd.toNat 0x03)) = true := by
    simp [isLoad, ho, h3]
  have hv (a : BitVec 64) : loadValue 4 0 (s.read a) = (s.mem (a.setWidth 32)).setWidth 64 := by
    have hb := Bytes.byte_ofBytes (j := 0) (fun j => s.mem (a.setWidth 32 + BitVec.ofNat 32 j))
      (by decide)
    rw [BitVec.add_zero] at hb
    rw [← hb]
    rfl
  rw [Hart.execute_load hi, hrd, h3, hrs, him]
  exact congrArg _ (congrArg (Hart.jump · _) (congrArg _ (hv _)))

theorem store_word (f3 : Nat) (h3 : f3 < 4) (hl : -2048 ≤ imm) (hu : imm < 2048) :
    let w := BitVec.ofNat 32 (stype imm rs2.toNat rs1.toNat f3)
    isStore w = true ∧ accessBytes (funct3 w) = 2 ^ f3 ∧ Rv64i.rs1 w = rs1 ∧
      Rv64i.rs2 w = rs2 ∧ immS w = BitVec.ofInt 64 imm := by
  intro w
  obtain ⟨ho, hf, hr1, hr2, him⟩ := @stype_fields imm rs2 rs1 f3 (by omega) hl hu
  have hc : f3 = 0 ∨ f3 = 1 ∨ f3 = 2 ∨ f3 = 3 := by omega
  refine ⟨?_, ?_, hr1, hr2, him⟩
  · rw [isStore, ho, hf]
    rcases hc with rfl | rfl | rfl | rfl <;> rfl
  · rw [hf]
    rcases hc with rfl | rfl | rfl | rfl <;> rfl

theorem execute_store (f3 : Nat) (h3 : f3 < 4) (hl : -2048 ≤ imm) (hu : imm < 2048) :
    s.execute (BitVec.ofNat 32 (stype imm rs2.toNat rs1.toNat f3)) cycle =
      some ((s.store (s.reg rs1 + BitVec.ofInt 64 imm) (2 ^ f3) (s.reg rs2)).jump (s.pc + 4)) := by
  obtain ⟨hs, hb, hr1, hr2, him⟩ := @store_word imm rs1 rs2 f3 h3 hl hu
  rw [Hart.execute_store hs, hr1, hr2, him, hb]

theorem stores_store (f3 : Nat) (h3 : f3 < 4) (hl : -2048 ≤ imm) (hu : imm < 2048) :
    s.stores (BitVec.ofNat 32 (stype imm rs2.toNat rs1.toNat f3)) =
      [{ addr := (s.reg rs1 + BitVec.ofInt 64 imm).setWidth 32, bytes := 2 ^ f3
         data := s.reg rs2 }] := by
  obtain ⟨hs, hb, hr1, hr2, him⟩ := @store_word imm rs1 rs2 f3 h3 hl hu
  rw [Hart.stores, if_pos hs, hr1, hr2, him, hb]

theorem execute_branch (kind : Kind) (t : Bool)
    (hk : taken (BitVec.ofNat 3 kind.f3) (s.reg rs1) (s.reg rs2) = some t)
    (hl : -4096 ≤ imm) (hu : imm < 4096) (he : imm % 2 = 0) :
    s.execute (BitVec.ofNat 32 (btype imm rs2.toNat rs1.toNat kind.f3)) cycle =
      some (s.jump (if t then s.pc + BitVec.ofInt 64 imm else s.pc + 4)) := by
  have h3 : kind.f3 < 8 := by cases kind <;> decide
  obtain ⟨ho, hf, hr1, hr2, him⟩ := @btype_fields imm rs2 rs1 _ h3 hl hu he
  rw [Hart.execute_branch (t := t) ho (by rw [hf, hr1, hr2, hk]), him]

theorem execute_jal (hl : -1048576 ≤ imm) (hu : imm < 1048576) (he : imm % 2 = 0) :
    s.execute (BitVec.ofNat 32 (jtype imm rd.toNat)) cycle =
      some ((s.write rd (s.pc + 4)).jump (s.pc + BitVec.ofInt 64 imm)) := by
  obtain ⟨ho, hrd, him⟩ := @jtype_fields imm rd hl hu he
  rw [Hart.execute_jal ho, hrd, him]

theorem execute_ret :
    s.execute (BitVec.ofNat 32 (itype 0 rs1.toNat 0 rd.toNat 0x67)) cycle =
      some ((s.write rd (s.pc + 4)).jump (s.reg rs1 &&& ~~~1)) := by
  obtain ⟨ho, hrd, h3, hrs, him⟩ :=
    @itype_fields 0x67 0 rs1 rd 0 (by decide) (by decide) (by decide) (by decide)
  rw [Hart.execute_jalr ho h3, hrd, hrs, him]
  simp

theorem execute_csrr :
    s.execute (BitVec.ofNat 32
        (0xc00 <<< 20 ||| 0 <<< 15 ||| 2 <<< 12 ||| rd.toNat <<< 7 ||| 0x73)) cycle =
      some ((s.write rd cycle).jump (s.pc + 4)) := by
  have hw : (0xc00 <<< 20 ||| 0 <<< 15 ||| 2 <<< 12 ||| rd.toNat <<< 7 ||| 0x73)
      = itype (-0x400) (0 : BitVec 5).toNat 2 rd.toNat 0x73 := rfl
  obtain ⟨ho, hrd, h3, hrs, -⟩ :=
    @itype_fields 0x73 (-0x400) 0 rd 2 (by decide) (by decide) (by decide) (by decide)
  have hc : (BitVec.ofNat 32 (itype (-0x400) (0 : BitVec 5).toNat 2 rd.toNat 0x73)).extractLsb'
      20 12 = 0xc00 := by
    rw [itype_word (by decide) (by decide)]
    simp (disch := decide) only [BitVec.extractLsb'_append_eq_of_le,
      BitVec.extractLsb'_eq_self, Nat.reduceSub]
    rfl
  rw [hw, Hart.execute_cycle ho h3 hrs hc, hrd]

end Execute

theorem word_emit (w : Nat) : BitVec.ofNat 32 (w &&& 0xffffffff) = BitVec.ofNat 32 w := by
  apply BitVec.eq_of_toNat_eq
  have h : w &&& 0xffffffff = w % 2 ^ 32 := Nat.and_two_pow_sub_one_eq_mod w 32
  rw [BitVec.toNat_ofNat, BitVec.toNat_ofNat, h, Nat.mod_mod]

/-- The words executed one after the other. -/
def executeAll (ws : List Nat) (cycle : BitVec 64) (s : Hart) : Option Hart :=
  ws.foldlM (fun s w => s.execute (BitVec.ofNat 32 w) cycle) s

theorem executeAll_masked (ws : List Nat) (cycle : BitVec 64) (s : Hart) :
    executeAll (ws.map (· &&& 0xffffffff)) cycle s = executeAll ws cycle s := by
  simp only [executeAll, List.foldlM_map, word_emit]

/-- What `li` leaves in its register. -/
def liValue (val : Int) : Int :=
  if low 32 val < 0x7ffff800 then low 32 val else low 32 val - 0x100000000

@[simp] theorem write_write (s : Hart) (r : BitVec 5) (v v' : BitVec 64) :
    (s.write r v).write r v' = s.write r v' := by
  by_cases h : r = 0
  · simp only [Hart.write, if_pos h]
  · simp only [Hart.write, if_neg h, Function.update_idem]

theorem reg_write_self (s : Hart) (r : BitVec 5) (v : BitVec 64) :
    (s.write r v).reg r = if r = 0 then 0 else v := by
  by_cases h : r = 0
  · simp only [Hart.reg, if_pos h]
  · simp only [Hart.write, Hart.reg, if_neg h, Function.update_self]

@[simp] theorem jump_reg (s : Hart) (pc : BitVec 64) : (s.jump pc).reg = s.reg := rfl
@[simp] theorem jump_pc (s : Hart) (pc : BitVec 64) : (s.jump pc).pc = pc := rfl
theorem jump_jump (s : Hart) (pc pc' : BitVec 64) : (s.jump pc).jump pc' = s.jump pc' := rfl
theorem write_jump (s : Hart) (r : BitVec 5) (v pc : BitVec 64) :
    (s.jump pc).write r v = (s.write r v).jump pc := rfl

theorem REG_eq_zero (rd : Reg) : REG rd = 0 ↔ rd = .zero := by
  cases rd <;> decide

theorem low_lt (k : Nat) (x : Int) : low k x < 2 ^ k := by
  rw [low_eq]
  exact (BitVec.ofInt k x).isLt

theorem liValue_small {val : Int} (hl : 0 ≤ val) (hu : val < 0x7ffff800) : liValue val = val := by
  rw [liValue, low]
  split <;> omega

theorem liValue_address {val : Int} (hl : 0x7ffff800 ≤ val) (hu : val < 0x100000000) :
    liValue val = val - 0x100000000 := by
  rw [liValue, low]
  split <;> omega

/-- What `lui` leaves in a register. -/
def upper (hi : Nat) : Int := if hi < 0x80000 then hi * 4096 else hi * 4096 - 0x100000000

theorem upper_eq (hi : Nat) (h : hi < 2 ^ 20) :
    (BitVec.ofInt 20 hi ++ 0#12).signExtend 64 = BitVec.ofInt 64 (upper hi) := by
  have hx : (BitVec.ofInt 20 hi).toInt = if hi < 0x80000 then (hi : Int) else hi - 0x100000 := by
    rw [BitVec.toInt_ofInt, Int.bmod_def]
    split <;> split <;> omega
  rw [BitVec.signExtend, BitVec.toInt_append, hx, upper]
  congr 1
  simp
  split <;> omega

/-- The 32-bit value that `li` is asked for. -/
def signed (val : Int) : Int :=
  if low 32 val < 0x80000000 then low 32 val else low 32 val - 0x100000000

/-- The words of a `li`. -/
def liWords (rd : Reg) (val : Int) : List Nat :=
  let hi := (low 32 val + 0x800) >>> 12
  if -2048 ≤ signed val ∧ signed val ≤ 2047 then
    [itype (signed val) (REG .zero).toNat 0 (REG rd).toNat 0x13]
  else [utype hi (REG rd).toNat 0x37,
    itype (low 32 val - ↑(hi <<< 12)) (REG rd).toNat 0 (REG rd).toNat 0x13]

theorem li_eq (s : Asm L) (rd : Reg) (val : Int) :
    s.li rd val = (liWords rd val).foldl Asm.emit s := by
  have h : s.li rd val =
      if -2048 ≤ signed val ∧ signed val ≤ 2047 then s.addi rd .zero (signed val)
      else (s.emit (utype ((low 32 val + 0x800) >>> 12 : Nat) (REG rd).toNat 0x37)).addi rd rd
        (low 32 val - ↑((low 32 val + 0x800) >>> 12 <<< 12)) := rfl
  rw [h, liWords]
  split
  · rfl
  · rfl

theorem emits_words (ws : List Nat) (s : Asm L) :
    (ws.foldl Asm.emit s).words = s.words ++ ws.map (· &&& 0xffffffff) := by
  induction ws generalizing s with
  | nil => exact (List.append_nil _).symm
  | cons w ws ih =>
    rw [List.foldl_cons, ih, Asm.emit, List.append_assoc]
    rfl

theorem liWords_length (rd : Reg) (val : Int) :
    (liWords rd val).length = 1 ∨ (liWords rd val).length = 2 := by
  rw [liWords]
  split
  · exact .inl rfl
  · exact .inr rfl

theorem execute_addi {s : Hart} {cycle : BitVec 64} {imm : Int} {rd rs1 : BitVec 5}
    (hl : -2048 ≤ imm) (hu : imm < 2048) :
    s.execute (BitVec.ofNat 32 (itype imm rs1.toNat 0 rd.toNat 0x13)) cycle =
      some ((s.write rd (s.reg rs1 + BitVec.ofInt 64 imm)).jump (s.pc + 4)) :=
  execute_opImm .add (by decide) rfl hl hu

theorem execute_pair {s : Hart} {hi : Nat} {lo : Int} {rd : BitVec 5} (hh : hi < 2 ^ 20)
    (hl : -2048 ≤ lo) (hu : lo < 2048) (cycle cycle' : BitVec 64) :
    s.execute (BitVec.ofNat 32 (utype hi rd.toNat 0x37)) cycle =
        some ((s.write rd (BitVec.ofInt 64 (upper hi))).jump (s.pc + 4)) ∧
      ((s.write rd (BitVec.ofInt 64 (upper hi))).jump (s.pc + 4)).execute
          (BitVec.ofNat 32 (itype lo rd.toNat 0 rd.toNat 0x13)) cycle' =
        some ((s.write rd (BitVec.ofInt 64 (upper hi + lo))).jump (s.pc + 8)) := by
  constructor
  · rw [execute_lui, upper_eq hi hh]
  · rw [execute_addi hl hu, write_jump, jump_reg, jump_pc, jump_jump, write_write,
      BitVec.add_assoc, reg_write_self]
    by_cases h0 : rd = 0
    · subst h0
      rfl
    · rw [if_neg h0, ← BitVec.ofInt_add]
      rfl

theorem liWords_cases (rd : Reg) (val : Int) :
    (liWords rd val = [itype (liValue val) (REG .zero).toNat 0 (REG rd).toNat 0x13] ∧
        -2048 ≤ liValue val ∧ liValue val < 2048) ∨
      ∃ (hi : Nat) (lo : Int), liWords rd val = [utype hi (REG rd).toNat 0x37,
          itype lo (REG rd).toNat 0 (REG rd).toNat 0x13] ∧
        hi < 2 ^ 20 ∧ -2048 ≤ lo ∧ lo < 2048 ∧ upper hi + lo = liValue val := by
  have hlow := low_lt 32 val
  by_cases hs : -2048 ≤ signed val ∧ signed val ≤ 2047
  · have hv : liValue val = signed val := by
      rw [signed] at hs
      rw [signed, liValue]
      split at hs <;> split <;> omega
    refine .inl ⟨?_, ?_, ?_⟩
    · rw [liWords, if_pos hs, hv]
    · rw [hv]
      exact hs.1
    · rw [hv]
      exact Int.lt_add_one_of_le hs.2
  · generalize hh : (low 32 val + 0x800) >>> 12 = hi
    have hhi : hi = (low 32 val + 0x800) / 4096 := by rw [← hh, Nat.shiftRight_eq_div_pow]
    have hlo : hi <<< 12 = hi * 4096 := Nat.shiftLeft_eq hi 12
    refine .inr ⟨hi, low 32 val - ↑(hi <<< 12), ?_, ?_, by omega, by omega, ?_⟩
    · rw [liWords, if_neg hs]
      simp only [hh]
    · rw [signed] at hs
      split at hs <;> omega
    · rw [upper, liValue, hlo]
      split <;> split <;> omega

theorem execute_li (rd : Reg) (val : Int) (h : Hart) (cycle : BitVec 64) :
    executeAll (liWords rd val) cycle h =
      some ((h.write (REG rd) (BitVec.ofInt 64 (liValue val))).jump
        (h.pc + BitVec.ofNat 64 (4 * (liWords rd val).length))) := by
  obtain ⟨hw, hl, hu⟩ | ⟨hi, lo, hw, hh, hl, hu, hv⟩ := liWords_cases rd val
  · have hx := @execute_addi h cycle (liValue val) (REG rd) (REG .zero) hl hu
    rw [show h.reg (REG .zero) = 0#64 from rfl, BitVec.zero_add] at hx
    rw [hw]
    exact congrArg (·.bind some) hx
  · obtain ⟨h1, h2⟩ := @execute_pair h hi lo (REG rd) hh hl hu cycle cycle
    rw [hw, ← hv]
    simp only [executeAll, List.foldlM_cons, List.foldlM_nil, Option.bind_eq_bind, h1,
      Option.bind_some, h2]
    rfl

end Rv64imCore.Gol
