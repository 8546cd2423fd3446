import Rv64imCore.Issue

/-! A trap and the older instructions: what MEM and WB hold when `o_intr_flush_en` rises. -/

namespace Rv64imCore
set_option autoImplicit true

namespace Core
variable {s : State} {i : In}

theorem stallExu_of_idle (hs : memStall s i.toEarly = false)
    (hm : Alu.memReq s.exu.idAlu.info = false) (hd : Alu.divOp s.exu.idAlu.info = false) :
    stallExu s i = false := by
  rw [stallExu_eq, exuStall_eq_false hm hd, hs]; rfl

theorem memStall_of_req (h : s.lsu.mem.req = false) : memStall s e = false := by
  simp [memStall, Lsu.dataStall, h]

theorem intrFlush_of_bubble (h : s.exu.idAlu = IdAlu.bubble) : intrFlush s e = false :=
  intrFlush_of_pc_zero (by rw [h]; rfl) (by rw [h]; rfl)

theorem memNs_of_bubble (h : s.exu.idAlu = IdAlu.bubble) :
    (memNs s i).req = false ∧ (memNs s i).rdWen = false := by
  obtain ⟨ha, hr, hb, hc, hd, hm, hl⟩ := Alu.bubble_wires
  constructor
  · simp [memNs, exuMemReq, Alu.memReqOut, h, hr]
  · simp [memNs, exuRdWen, Alu.rdWen, Alu.bjpToRdWe, Alu.jal, Alu.jalr, Alu.muldivToRdWe, h, ha, hb,
      hc, hd, hm, hl]

/-- A trap resets the divider within its own cycle, so a division in EX never acknowledges then. -/
theorem stallExu_of_trap (h : Inv s) (ht : intrFlush s i.toEarly = true) :
    stallExu s i = (Alu.divOp s.exu.idAlu.info || memStall s i.toEarly) := by
  have hf : flushExu s i = true := by rw [flushExu_eq, ht]; rfl
  have ha : Div.ack (divNow s i) = false := by rw [divNow, hf]; rfl
  have hq : addrStall s i = false := by
    rw [addrStall_eq, lsuReqVld_eq, exuMemReq_of_intrFlush h.decoded ht]; rfl
  rw [stallExu_eq, exuStall, Alu.stall, ha, hq]
  simp

end Core

namespace Sys

/-- The register-file write of a cycle. -/
def regWrite (s : State) (i : In) : Option (BitVec 5 × BitVec 64) :=
  if s.core.wbu.wen && !stallExu s i && s.core.wbu.index != 0 then
    some (s.core.wbu.index, s.core.wbu.data)
  else none

/-- The registers after a write. -/
def afterWrite (regs : BitVec 5 → BitVec 64) (r : BitVec 5) :
    Option (BitVec 5 × BitVec 64) → BitVec 64
  | some (x, d) => if x = r then d else regs r
  | none => regs r

/-- `regWrite` is all that happens to the registers. -/
theorem next_regs (s : State) (i : In) (r : BitVec 5) (hr : r ≠ 0) :
    (next s i).core.idu.regs r = afterWrite s.core.idu.regs r (regWrite s i) := by
  have h : (next s i).core.idu.regs r =
      if s.core.wbu.wen && !stallExu s i && s.core.wbu.index == r then s.core.wbu.data
      else s.core.idu.regs r := Core.next_regs hr
  rw [h, regWrite]
  by_cases hx : s.core.wbu.index = r
  · have h0 : (r != 0#5) = true := by simpa using hr
    rw [hx]
    cases s.core.wbu.wen <;> cases stallExu s i <;> simp [h0, afterWrite]
  · have hx' : (s.core.wbu.index == r) = false := by simpa using hx
    cases s.core.wbu.wen <;> cases stallExu s i <;> cases h0 : s.core.wbu.index != 0#5 <;>
      simp [hx, hx', afterWrite]

/-- The word of the last data response. -/
def lastAnswer (s : State) (i : Nat → In) (n : Nat) : BitVec 64 :=
  machine.history 0 (fun w s a => if dataShake s a then (rsp s a).rdata else w) s i n

theorem rdataR_eq_lastAnswer (s₀ : State) (i : Nat → In) (n : Nat) :
    (machine.run s₀.reset i n).core.lsu.rdataR = lastAnswer s₀.reset i n :=
  machine.history_induction _ _ (P := fun s w => s.core.lsu.rdataR = w) (C := fun _ _ => True)
    rfl (fun s w a _ h => by rw [← h]; exact Core.next_rdataR) (fun _ _ => trivial)

/-- The result of the instruction in MEM, given the word its access was answered with. -/
def memResult (m : Lsu.State) (answer : BitVec 64) : BitVec 64 :=
  if m.mem.req then Ls.format m.mem.addr m.mem.rwLen answer else Lsu.alutordData m

/-- What an instruction writes, given its enable, register and result. -/
def writeOf (wen : Bool) (index : BitVec 5) (data : BitVec 64) : Option (BitVec 5 × BitVec 64) :=
  if wen && index != 0 then some (index, data) else none

/-- The cycle makes this write, and the registers take it. -/
structure Writes (s : State) (i : In) (w : Option (BitVec 5 × BitVec 64)) : Prop where
  port : regWrite s i = w
  regs : ∀ r, r ≠ 0 → (next s i).core.idu.regs r = afterWrite s.core.idu.regs r w

theorem writes_of_regWrite (h : regWrite s i = w) : Writes s i w :=
  ⟨h, fun r hr => by rw [next_regs s i r hr, h]⟩

/-- The instruction in WB waits there and is then written once. -/
def WbCompletes (s : State) (i : Nat → In) (t : Nat) : Prop :=
  let S := machine.run s i
  ∃ u, t ≤ u ∧
    (∀ j, t ≤ j → j < u →
      (S (j + 1)).core.wbu = (S j).core.wbu ∧ Writes (S j) (i j) none) ∧
    stallExu (S u) (i u) = false ∧
    Writes (S u) (i u) (writeOf (S t).core.wbu.wen (S t).core.wbu.index (S t).core.wbu.data)

/-- The instruction in MEM waits there until it moves to WB, is written in the next cycle with its
result, and leaves WB to a bubble. -/
def MemCompletes (s : State) (i : Nat → In) (t : Nat) : Prop :=
  let S := machine.run s i
  ∃ u, t ≤ u ∧
    (∀ j, t ≤ j → j < u →
      (S (j + 1)).core.lsu.mem = (S j).core.lsu.mem ∧ stallExu (S j) (i j) = true) ∧
    stallExu (S u) (i u) = false ∧
    Writes (S (u + 1)) (i (u + 1))
      (some ((S t).core.lsu.mem.rdIndex, memResult (S t).core.lsu (lastAnswer s i (u + 1)))) ∧
    (S (u + 2)).core.wbu.wen = false

/-- MEM holds an instruction that writes a register. -/
def memWrites (s : State) : Bool := Core.memWrites s.core

/-- A trap meets a division in EX that alone holds the pipeline, and clears MEM. -/
def trapOverDivision (s : State) (i : In) : Bool := Core.trapOverDivision s.core (coreIn s i)

theorem trapOverDivision_eq (s : State) (i : In) : trapOverDivision s i =
    (intrFlush s i && Alu.divOp s.core.exu.idAlu.info && !memStall s i && memWrites s) := rfl

section Step
variable {s : State} {i : In}

theorem regWrite_of_stall (h : stallExu s i = true) : regWrite s i = none := by
  simp [regWrite, h]

theorem regWrite_of_free (h : stallExu s i = false) :
    regWrite s i = writeOf s.core.wbu.wen s.core.wbu.index s.core.wbu.data := by
  simp [regWrite, writeOf, h]

theorem next_wbu : (next s i).core.wbu = if stallExu s i then s.core.wbu else
    { wen := Lsu.rdWen s.core.lsu, index := s.core.lsu.mem.rdIndex
      data := Lsu.iduData s.core.lsu (rsp s i) } := Core.next_wbu

theorem held (hs : Sys.memStall s i = true) :
    (Sys.next s i).core.lsu.mem = s.core.lsu.mem ∧ (Sys.next s i).core.wbu = s.core.wbu := by
  change Core.memStall s.core (coreIn s i).toEarly = true at hs
  have hst : stallExu s i = true := Core.stallExu_of_memStall hs
  refine ⟨?_, by rw [next_wbu, if_pos hst]⟩
  have hm : (Sys.next s i).core.lsu.mem = reg (Core.flushMem s.core (coreIn s i))
    Lsu.MemReg.bubble (!stallExu s i) (Core.memNs s.core (coreIn s i)) s.core.lsu.mem :=
    Core.next_mem
  rw [hm, hst, Core.flushMem_of_memStall hs]
  rfl

theorem Inv.iduData (h : Inv s) (hs : Sys.memStall s i = false) :
    Lsu.iduData s.core.lsu (rsp s i) =
      memResult s.core.lsu (Sys.next s i).core.lsu.rdataR := by
  have hr : (Sys.next s i).core.lsu.rdataR =
    if dataShake s i then (rsp s i).rdata else s.core.lsu.rdataR := Core.next_rdataR
  cases hq : s.core.lsu.mem.req with
  | false => simp [Lsu.iduData, memResult, hq]
  | true =>
    have hw : Lsu.memRdata s.core.lsu (rsp s i) = (Sys.next s i).core.lsu.rdataR := by
      rw [hr, Lsu.memRdata, dataShake, Lsu.dataShake]
      cases hy : s.core.lsu.rspRdy with
      | false => simp [h.core.answered hq hy]
      | true =>
        rw [h.memStall, hy, Bool.true_and, Bool.not_eq_false'] at hs
        simp [h.core.unanswered hy, hs]
    rw [Lsu.iduData, memResult, if_pos hq, if_pos hq, Lsu.memtordData, h.core.addrFf hq, hw]

theorem Inv.stallExu_of_trap (h : Inv s) (ht : intrFlush s i = true) :
    stallExu s i = (Alu.divOp s.core.exu.idAlu.info || Sys.memStall s i) :=
  Core.stallExu_of_trap (i := coreIn s i) h.core ht

/-- EX and ID after a trap: nothing that can hold the pipeline or be trapped again. -/
structure Drained (s : State) : Prop where
  ex : s.core.exu.idAlu = IdAlu.bubble
  id : s.core.idu.ifId = Idu.IfId.bubble

theorem drained_of_trap (h : intrFlush s i = true) : Drained (Sys.next s i) := by
  change Core.intrFlush s.core (coreIn s i).toEarly = true at h
  constructor
  · exact Core.next_idAlu.trans (by rw [Core.flushExu_eq, h]; rfl)
  · exact Core.next_ifId.trans (by rw [Core.flushIdu_eq, h]; rfl)

theorem Drained.held (h : Drained s) (hs : Sys.memStall s i = true) : Drained (Sys.next s i) := by
  change Core.memStall s.core (coreIn s i).toEarly = true at hs
  constructor
  · refine Core.next_idAlu.trans ?_
    rw [Core.stallExu_of_memStall hs, h.ex]
    cases Core.flushExu s.core (coreIn s i) <;> rfl
  · refine Core.next_ifId.trans ?_
    rw [Core.stallIdu_eq, hs, h.id]
    cases Core.flushIdu s.core (coreIn s i) <;> simp

/-- MEM holds nothing and EX nothing that stalls. -/
structure Clear (s : State) : Prop where
  req : s.core.lsu.mem.req = false
  wen : s.core.lsu.mem.rdWen = false
  mem : Alu.memReq s.core.exu.idAlu.info = false
  div : Alu.divOp s.core.exu.idAlu.info = false

theorem Clear.stallExu (h : Clear s) : stallExu s i = false :=
  Core.stallExu_of_idle (Core.memStall_of_req h.req) h.mem h.div

theorem Clear.rdWen (h : Clear s) : Lsu.rdWen s.core.lsu = false := by
  simp [Lsu.rdWen, h.req, h.wen]

theorem Drained.stallExu (h : Drained s) (hs : Sys.memStall s i = false) :
    Sys.stallExu s i = false :=
  Core.stallExu_of_idle hs (by rw [h.ex]; decide) (by rw [h.ex]; decide)

theorem Drained.clear (h : Drained s) (hs : Sys.memStall s i = false) :
    Clear (Sys.next s i) := by
  have hst : Core.stallExu s.core (coreIn s i) = false := h.stallExu hs
  have hf : Core.flushMem s.core (coreIn s i) = false := by
    rw [Core.flushMem_eq, Core.intrFlush_of_bubble h.ex]; rfl
  have hm : (Sys.next s i).core.lsu.mem = Core.memNs s.core (coreIn s i) :=
    Core.next_mem.trans (by rw [hf, hst]; rfl)
  have hx : (Sys.next s i).core.exu.idAlu.info = Id.info instNop ∨
      (Sys.next s i).core.exu.idAlu = IdAlu.bubble := by
    have hn : (Sys.next s i).core.exu.idAlu = reg (Core.flushExu s.core (coreIn s i)) IdAlu.bubble
      (!Core.stallExu s.core (coreIn s i)) (Core.idAluNs s.core (coreIn s i))
      s.core.exu.idAlu := Core.next_idAlu
    cases hfx : Core.flushExu s.core (coreIn s i) with
    | true => exact .inr (by rw [hn, hfx]; rfl)
    | false =>
      refine .inl ?_
      rw [hn, hfx, hst]
      simp only [Bool.not_false, reg_load, Core.idAluNs, h.id]
      rfl
  obtain ⟨hr, hw⟩ := Core.memNs_of_bubble (i := coreIn s i) h.ex
  refine ⟨by rw [hm]; exact hr, by rw [hm]; exact hw, ?_, ?_⟩
  all_goals
    rcases hx with hx | hx <;> rw [hx] <;> decide

end Step

theorem written_after_move {S : Nat → State} {i : Nat → In}
    (hS : ∀ n, S (n + 1) = next (S n) (i n))
    (hi : Inv (S u)) (hm : memStall (S u) (i u) = false) (hs : stallExu (S u) (i u) = false)
    (hc : Clear (S (u + 1))) :
    regWrite (S (u + 1)) (i (u + 1)) =
      writeOf (Lsu.rdWen (S u).core.lsu) (S u).core.lsu.mem.rdIndex
        (memResult (S u).core.lsu (S (u + 1)).core.lsu.rdataR) ∧
    (S (u + 2)).core.wbu.wen = false := by
  have hw : (S (u + 1)).core.wbu =
      { wen := Lsu.rdWen (S u).core.lsu
        index := (S u).core.lsu.mem.rdIndex
        data := memResult (S u).core.lsu (S (u + 1)).core.lsu.rdataR } := by
    rw [hS u, next_wbu, hs, ← hi.iduData hm]; rfl
  constructor
  · rw [regWrite_of_free hc.stallExu, hw]
  · rw [hS (u + 1), next_wbu, hc.stallExu, hc.rdWen]; rfl

theorem writeOf_memWrites {s : State} (h : memWrites s = true) (d : BitVec 64) :
    writeOf (Lsu.rdWen s.core.lsu) s.core.lsu.mem.rdIndex d =
      some (s.core.lsu.mem.rdIndex, d) := by
  rw [writeOf, show (Lsu.rdWen s.core.lsu && s.core.lsu.mem.rdIndex != 0) = true from h]
  rfl

section Trap
variable {s₀ : State} {i : Nat → In} {t : Nat}

/-- A trap under a data stall: the response is awaited with EX and ID empty. -/
theorem complete_of_data_stall (hbus : Clocked.Often fun n => (i n).busReady = true)
    (ht : intrFlush (machine.run s₀.reset i t) (i t) = true)
    (hm : memStall (machine.run s₀.reset i t) (i t) = true) :
    WbCompletes s₀.reset i t ∧
      (memWrites (machine.run s₀.reset i t) = true → MemCompletes s₀.reset i t) := by
  let S := machine.run s₀.reset i
  have hS : ∀ n, S (n + 1) = next (S n) (i n) := fun _ => rfl
  obtain ⟨u, hu, hfree, hwait⟩ := memStall_ends (Inv.reset s₀) hbus t
  have htu : t < u := by
    rcases Nat.lt_or_eq_of_le hu with h | h
    · exact h
    · rw [← h, hm] at hfree; cases hfree
  have hstall : ∀ j, t ≤ j → j < u → stallExu (S j) (i j) = true :=
    fun j h1 h2 => Core.stallExu_of_memStall (hwait j h1 h2)
  have hold : ∀ j, t ≤ j → j < u → (S (j + 1)).core.lsu.mem = (S j).core.lsu.mem ∧
      (S (j + 1)).core.wbu = (S j).core.wbu := fun j h1 h2 => held (hwait j h1 h2)
  have hmem : (S u).core.lsu.mem = (S t).core.lsu.mem :=
    Clocked.kept (P := fun k => (S k).core.lsu.mem = (S t).core.lsu.mem) hu rfl
      fun k h1 h2 h => (hold k h1 h2).1.trans h
  have hwb : (S u).core.wbu = (S t).core.wbu :=
    Clocked.kept (P := fun k => (S k).core.wbu = (S t).core.wbu) hu rfl
      fun k h1 h2 h => (hold k h1 h2).2.trans h
  have hdr : Drained (S u) :=
    Clocked.kept (P := fun k => Drained (S k)) htu (drained_of_trap ht)
      fun k h1 h2 h => h.held (hwait k (Nat.le_of_succ_le h1) h2)
  have hfree' := hdr.stallExu hfree
  constructor
  · refine ⟨u, hu, fun j hj hju => ⟨(hold j hj hju).2,
      writes_of_regWrite (regWrite_of_stall (hstall j hj hju))⟩, hfree', writes_of_regWrite ?_⟩
    rw [regWrite_of_free hfree']
    exact congrArg (fun w : RdPort => writeOf w.wen w.index w.data) hwb
  · intro hw
    obtain ⟨h1, h2⟩ := written_after_move hS (run_inv s₀ i u) hfree hfree' (hdr.clear hfree)
    refine ⟨u, hu, fun j hj hju => ⟨(hold j hj hju).1, hstall j hj hju⟩, hfree',
      writes_of_regWrite ?_, h2⟩
    rw [← writeOf_memWrites hw, ← rdataR_eq_lastAnswer]
    simpa only [Lsu.rdWen, memResult, Lsu.alutordData, hmem] using h1

theorem mem_cleared (ht : intrFlush (machine.run s₀.reset i t) (i t) = true)
    (hm : memStall (machine.run s₀.reset i t) (i t) = false) :
    (machine.run s₀.reset i (t + 1)).core.lsu.mem = Lsu.MemReg.bubble := by
  refine Core.next_mem.trans ?_
  have hf : Core.flushMem (machine.run s₀.reset i t).core
      (coreIn (machine.run s₀.reset i t) (i t)) = true := by
    rw [Core.flushMem_eq]
    change (intrFlush _ _ && !memStall _ _) = true
    rw [ht, hm]; rfl
  rw [hf]; rfl

/-- A trap lets the older instructions complete, unless it meets a division in EX that alone holds
the pipeline while MEM has a register to write. -/
theorem trap_older_complete_iff (hbus : Clocked.Often fun n => (i n).busReady = true)
    (ht : intrFlush (machine.run s₀.reset i t) (i t) = true) :
    (WbCompletes s₀.reset i t ∧
      (memWrites (machine.run s₀.reset i t) = true → MemCompletes s₀.reset i t)) ↔
    trapOverDivision (machine.run s₀.reset i t) (i t) = false := by
  let S := machine.run s₀.reset i
  have hS : ∀ n, S (n + 1) = next (S n) (i n) := fun _ => rfl
  cases hm : memStall (S t) (i t) with
  | true =>
    refine iff_of_true (complete_of_data_stall hbus ht hm) ?_
    change trapOverDivision (S t) (i t) = false
    simp [trapOverDivision_eq, hm]
  | false =>
    have hstall : stallExu (S t) (i t) = Alu.divOp (S t).core.exu.idAlu.info := by
      rw [(run_inv s₀ i t).stallExu_of_trap ht, hm, Bool.or_false]
    have hmem : (S (t + 1)).core.lsu.mem = Lsu.MemReg.bubble := mem_cleared ht hm
    have hdr : Drained (S (t + 1)) := drained_of_trap ht
    have hc : Clear (S (t + 1)) := by
      refine ⟨by rw [hmem]; rfl, by rw [hmem]; rfl, ?_, ?_⟩ <;> rw [hdr.ex] <;> decide
    cases hd : Alu.divOp (S t).core.exu.idAlu.info with
    | false =>
      rw [hd] at hstall
      have hl : trapOverDivision (S t) (i t) = false := by simp [trapOverDivision_eq, hd]
      refine iff_of_true ⟨?_, fun hw => ?_⟩ hl
      · exact ⟨t, Nat.le_refl t, fun j h1 h2 => absurd h1 (by omega), hstall,
          writes_of_regWrite (regWrite_of_free hstall)⟩
      · obtain ⟨h1, h2⟩ := written_after_move hS (run_inv s₀ i t) hm hstall hc
        refine ⟨t, Nat.le_refl t, fun j h3 h4 => absurd h3 (by omega), hstall,
          writes_of_regWrite ?_, h2⟩
        rw [← writeOf_memWrites hw, ← rdataR_eq_lastAnswer]
        exact h1
    | true =>
      rw [hd] at hstall
      -- WB stands still and MEM is cleared under it
      have hwb : (S (t + 1)).core.wbu = (S t).core.wbu := by rw [hS, next_wbu, hstall]; rfl
      have hW : WbCompletes s₀.reset i t := by
        refine ⟨t + 1, Nat.le_succ t, fun j h1 h2 => ?_, hc.stallExu, writes_of_regWrite ?_⟩
        · obtain rfl : j = t := by omega
          exact ⟨hwb, writes_of_regWrite (regWrite_of_stall hstall)⟩
        · rw [regWrite_of_free hc.stallExu]
          exact congrArg (fun w : RdPort => writeOf w.wen w.index w.data) hwb
      have hl : trapOverDivision (S t) (i t) = memWrites (S t) := by
        rw [trapOverDivision_eq, hd, hm, show intrFlush (S t) (i t) = true from ht]; rfl
      change (WbCompletes s₀.reset i t ∧ (memWrites (S t) = true → _)) ↔
        trapOverDivision (S t) (i t) = false
      rw [hl]
      constructor
      · rintro ⟨-, h⟩
        rw [Bool.eq_false_iff]
        intro hw
        obtain ⟨u, hu, hj, hs, -⟩ := h hw
        rcases Nat.lt_or_eq_of_le hu with htu | htu
        · have hsame := (hj t (Nat.le_refl t) htu).1
          rw [hmem] at hsame
          simp only [memWrites, Core.memWrites, Lsu.rdWen, S, ← hsame] at hw
          exact absurd hw (by decide)
        · rw [← htu, hstall] at hs; cases hs
      · exact fun h => ⟨hW, fun hw => by rw [h] at hw; cases hw⟩

end Trap

/-- `lui x1, 0x20004; addi x2, x0, 9; sd x2, 0(x1); csrrsi x0, mstatus, 8; addi x5, x0, 7;
div x6, x2, x2`: the timer interrupt rises in the second cycle of the division. -/
def timerOverDivision (n : Nat) : In :=
  { ifuReqRdy := true, ifuRspVld := true
    ifuRdata := ([0, 0x00900113200040b7, 0x00900113200040b7, 0x300460730020b023,
      0x300460730020b023, 0x0221433300700293, 0x0221433300700293] : List (BitVec 64)).getD n
        0x0000001300000013
    busRdata := 0, busReady := true }

/-- The `addi` in MEM is cleared while WB does not take it over. -/
theorem trap_loses_mem :
    (Clocked.Often fun n => (timerOverDivision n).busReady = true) ∧
    intrFlush (machine.run (default : State).reset timerOverDivision 9) (timerOverDivision 9) =
      true ∧
    ¬(WbCompletes (default : State).reset timerOverDivision 9 ∧
      (memWrites (machine.run (default : State).reset timerOverDivision 9) = true →
        MemCompletes (default : State).reset timerOverDivision 9)) := by
  refine ⟨fun n => ⟨n, Nat.le_refl n, rfl⟩, by decide +kernel, ?_⟩
  rintro ⟨-, h⟩
  obtain ⟨u, hu, hj, hs, -⟩ := h (by decide +kernel)
  by_cases h9 : u = 9
  · subst h9
    exact absurd hs (by decide +kernel)
  · have hm := (hj 9 (Nat.le_refl 9) (by omega)).1
    exact absurd (congrArg Lsu.MemReg.rdIndex hm) (by decide +kernel)

/-- `addi x5, x0, 7; ecall`. -/
def ecallAfterAddi (n : Nat) : In :=
  { ifuReqRdy := true, ifuRspVld := decide (n ≤ 2), ifuRdata := 0x0000007300700293
    busRdata := 0, busReady := true }

theorem trap_older_complete_ecall :
    intrFlush (machine.run (default : State).reset ecallAfterAddi 4) (ecallAfterAddi 4) = true ∧
    memWrites (machine.run (default : State).reset ecallAfterAddi 4) = true ∧
    MemCompletes (default : State).reset ecallAfterAddi 4 := by
  have ht : intrFlush (machine.run (default : State).reset ecallAfterAddi 4) (ecallAfterAddi 4) =
    true := by decide +kernel
  have hw : memWrites (machine.run (default : State).reset ecallAfterAddi 4) = true := by
    decide +kernel
  exact ⟨ht, hw, ((trap_older_complete_iff (fun n => ⟨n, Nat.le_refl n, rfl⟩) ht).mpr
    (by decide +kernel)).2 hw⟩

end Sys

end Rv64imCore
