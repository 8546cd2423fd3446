import Rv64imCore.Core
import Rv64imCore.DecodeFacts

/-! The stall and flush of each stage, and what one clock edge does to EX, MEM and the load/store
unit. -/

namespace Rv64imCore.Core
set_option autoImplicit true

section Wires
variable {s : State} {i : In}

theorem flushIfu_eq :
    flushIfu s i = (intrFlush s i.toEarly || (exuFlush s i.toEarly && !memStall s i.toEarly)) :=
  PipeCtrl.flush_ifu ..
theorem flushIdu_eq :
    flushIdu s i = (intrFlush s i.toEarly || (exuFlush s i.toEarly && !memStall s i.toEarly)) :=
  PipeCtrl.flush_idu ..
theorem flushExu_eq :
    flushExu s i = (intrFlush s i.toEarly || (exuFlush s i.toEarly && !memStall s i.toEarly)
      || (iduPipeStall s i && !memStall s i.toEarly)) := PipeCtrl.flush_exu ..
theorem flushMem_eq : flushMem s i = (intrFlush s i.toEarly && !memStall s i.toEarly) :=
  PipeCtrl.flush_mem ..
theorem flushWbu_eq : flushWbu s i = false := PipeCtrl.flush_wbu ..

theorem stallIfu_eq :
    stallIfu s i = (exuStall s i || memStall s i.toEarly || iduPipeStall s i) :=
  PipeCtrl.stall_ifu ..
theorem stallIdu_eq :
    stallIdu s i = (exuStall s i || memStall s i.toEarly || iduPipeStall s i) :=
  PipeCtrl.stall_idu ..
theorem stallExu_eq : stallExu s i = (exuStall s i || memStall s i.toEarly) :=
  PipeCtrl.stall_exu ..
theorem stallMem_eq : stallMem s i = stallExu s i := by
  rw [stallExu_eq]; exact PipeCtrl.stall_mem ..
theorem stallWbu_eq : stallWbu s i = stallExu s i := by
  rw [stallExu_eq]; exact PipeCtrl.stall_wbu ..

/-- The request of EX is taken: `addr_shake`. -/
def addrShake (s : State) (i : In) : Bool := i.lsuReqRdy && lsuReqVld s i

theorem addrStall_eq : addrStall s i = (lsuReqVld s i && !i.lsuReqRdy) := by
  simp only [addrStall, lsuReqVld, Lsu.addrStall, Lsu.reqVld]
  cases exuMemReq s i <;> simp

theorem lsuReqVld_eq :
    lsuReqVld s i = (exuMemReq s i && !memStall s i.toEarly && !flushMem s i) := rfl

theorem exuMemReq_memReq (h : exuMemReq s i = true) : Alu.memReq s.exu.idAlu.info = true := by
  simp only [exuMemReq, Alu.memReqOut, Bool.and_eq_true] at h
  exact h.1

/-- A trap in EX is never a memory request: an interrupt withdraws it, and `ecall` and `mret` are
none. -/
theorem exuMemReq_of_intrFlush (hd : s.exu.idAlu.Decoded) (h : intrFlush s i.toEarly = true) :
    exuMemReq s i = false := by
  cases hm : Alu.memReq s.exu.idAlu.info with
  | false => simp [exuMemReq, Alu.memReqOut, hm]
  | true =>
    have hs := (hd.classes.mem hm).2.2.2.1
    simp only [intrFlush, IntrCtrl.flushEn, IntrCtrl.intrReq, IntrCtrl.intrExit,
      IntrCtrl.syncIntr, IntrCtrl.mretIntr, intrIn, Alu.ecall, Alu.mret, hs, Bool.false_and,
      Bool.or_false, Bool.false_or] at h
    simp [exuMemReq, Alu.memReqOut, aluIntr, intrIn, Alu.ecall, Alu.mret, hs, h]

theorem aluIntr_intrFlush (h : aluIntr s e = true) : intrFlush s e = true := by
  simp only [aluIntr] at h
  simp [intrFlush, IntrCtrl.flushEn, IntrCtrl.intrReq, h]

theorem exuFlush_of_memReq (hd : s.exu.idAlu.Decoded)
    (hm : Alu.memReq s.exu.idAlu.info = true) : exuFlush s i.toEarly = false :=
  Alu.flush_eq_false (i := aluIn s i.toEarly) (hd.classes.mem hm).2.1 _ _

theorem exuStall_of_memReq (hd : s.exu.idAlu.Decoded)
    (hm : Alu.memReq s.exu.idAlu.info = true) : exuStall s i = addrStall s i := by
  simp [exuStall, Alu.stall, Alu.divOp_eq_false (hd.classes.mem hm).2.2.1]

theorem memStall_of_stallExu (h : stallExu s i = false) : memStall s i.toEarly = false := by
  rw [stallExu_eq, Bool.or_eq_false_iff] at h
  exact h.2

theorem exuStall_eq_false (hm : Alu.memReq s.exu.idAlu.info = false)
    (hd : Alu.divOp s.exu.idAlu.info = false) : exuStall s i = false := by
  simp [exuStall, Alu.stall, hd, addrStall_eq, lsuReqVld_eq, exuMemReq, Alu.memReqOut, hm]

theorem iduPipeStall_eq_false (hm : Alu.memReq s.exu.idAlu.info = false)
    (hmd : Alu.muldivReq s.exu.idAlu.info = false) : iduPipeStall s i = false := by
  simp [iduPipeStall, loadUseHazard, Regfile.idFlushEx, Alu.iduLoad, Alu.memRwCtrl_eq_false hm,
    Alu.mulOp_eq_false hmd]

theorem intrFlush_of_pc_zero (hp : s.exu.idAlu.pc = 0) (hs : Alu.sysReq s.exu.idAlu.info = false) :
    intrFlush s e = false := by
  simp [intrFlush, IntrCtrl.flushEn, IntrCtrl.intrReq, IntrCtrl.intrExit, IntrCtrl.syncIntr,
    IntrCtrl.mretIntr, IntrCtrl.asyncIntr, intrIn, hp, Alu.ecall, Alu.mret, hs]

theorem lsuReqVld_cases (hd : s.exu.idAlu.Decoded) (h : lsuReqVld s i = true) :
    Alu.memReq s.exu.idAlu.info = true ∧ exuMemReq s i = true ∧
      memStall s i.toEarly = false ∧ intrFlush s i.toEarly = false := by
  simp only [lsuReqVld_eq, Bool.and_eq_true, Bool.not_eq_true'] at h
  refine ⟨exuMemReq_memReq h.1.1, h.1.1, h.1.2, ?_⟩
  rw [Bool.eq_false_iff]
  intro hi
  have := exuMemReq_of_intrFlush hd hi
  rw [this] at h
  exact absurd h.1.1 (by decide)

/-- A taken request moves on to MEM in the same cycle. -/
theorem addrShake_cases (hd : s.exu.idAlu.Decoded) (h : addrShake s i = true) :
    stallExu s i = false ∧ flushMem s i = false := by
  simp only [addrShake, Bool.and_eq_true] at h
  obtain ⟨hm, -, hs, hf⟩ := lsuReqVld_cases hd h.2
  constructor
  · rw [stallExu_eq, exuStall_of_memReq hd hm, addrStall_eq, h.1, hs]; simp
  · rw [flushMem_eq, hf]; rfl

theorem addrShake_of_advance (hr : exuMemReq s i = true) (hs : stallExu s i = false)
    (hf : flushMem s i = false) : addrShake s i = true := by
  rw [stallExu_eq, exuStall, Alu.stall, addrStall_eq] at hs
  simp only [Bool.or_eq_false_iff] at hs
  have hv : lsuReqVld s i = true := by simp [lsuReqVld_eq, hr, hs.2, hf]
  have hy : i.lsuReqRdy = true := by simpa [hv] using hs.1.2
  rw [addrShake, hv, hy]; rfl

end Wires

section Next
variable {s : State} {i : In}

theorem next_idAlu : (next s i).exu.idAlu =
    reg (flushExu s i) IdAlu.bubble (!stallExu s i) (idAluNs s i) s.exu.idAlu := rfl

theorem next_mem : (next s i).lsu.mem =
    reg (flushMem s i) Lsu.MemReg.bubble (!stallExu s i) (memNs s i) s.lsu.mem := by
  rw [← stallMem_eq]; rfl

theorem next_wbu : (next s i).wbu = if stallExu s i then s.wbu else wbNs s i := by
  simp only [next, Wbu.next, flushWbu_eq, stallWbu_eq]
  cases stallExu s i <;> rfl

theorem next_rspRdy : (next s i).lsu.rspRdy =
    (addrShake s i || (s.lsu.rspRdy && !i.rsp.vld)) := by
  have h : (next s i).lsu.rspRdy = if addrShake s i then true
      else if Lsu.dataShake s.lsu i.rsp then false else s.lsu.rspRdy := rfl
  rw [h, Lsu.dataShake]
  cases addrShake s i <;> cases s.lsu.rspRdy <;> cases i.rsp.vld <;> rfl

theorem next_dataShakeDone : (next s i).lsu.dataShakeDone =
    ((Lsu.dataShake s.lsu i.rsp || s.lsu.dataShakeDone) && stallExu s i) := by
  rw [← stallMem_eq]
  simp only [next, Lsu.next]
  cases Lsu.dataShake s.lsu i.rsp <;> cases s.lsu.dataShakeDone <;> simp

theorem next_rdataR : (next s i).lsu.rdataR =
    if Lsu.dataShake s.lsu i.rsp then i.rsp.rdata else s.lsu.rdataR := by
  simp only [next, Lsu.next]
  cases Lsu.dataShake s.lsu i.rsp <;> rfl

theorem next_addrFf : (next s i).lsu.addrFf =
    if addrShake s i then Alu.memAddr (aluIn s i.toEarly) else s.lsu.addrFf := by
  have h : (next s i).lsu.addrFf =
      reg false 0 (addrShake s i) (Alu.memAddr (aluIn s i.toEarly)) s.lsu.addrFf := rfl
  rw [h]
  cases addrShake s i <;> rfl

theorem next_regs (hr : r ≠ 0) : (next s i).idu.regs r =
    if s.wbu.wen && !stallExu s i && s.wbu.index == r then s.wbu.data else s.idu.regs r := by
  have h : (next s i).idu.regs r = if r = 0 then 0 else
      reg false 0 (s.wbu.wen && !stallExu s i && s.wbu.index == r) s.wbu.data (s.idu.regs r) := by
    rw [← stallWbu_eq]; rfl
  rw [h, if_neg hr]; rfl

theorem next_ifId : (next s i).idu.ifId = reg (flushIdu s i) Idu.IfId.bubble (!stallIdu s i)
    (Idu.ifIdNs (Ifu.fetched s.ifu (ifuIn s i))) s.idu.ifId := rfl

end Next

/-- What EX and the load/store unit keep, whatever answers them. -/
structure Inv (s : State) : Prop where
  decoded : s.exu.idAlu.Decoded
  /-- The instruction of an outstanding access waits in MEM. -/
  outstanding : s.lsu.rspRdy = true → s.lsu.mem.req = true
  answered : s.lsu.mem.req = true → s.lsu.rspRdy = false → s.lsu.dataShakeDone = true
  unanswered : s.lsu.rspRdy = true → s.lsu.dataShakeDone = false
  addrFf : s.lsu.mem.req = true → s.lsu.addrFf = s.lsu.mem.addr

theorem Inv.reset (s : State) : Inv s.reset where
  decoded := .inr rfl
  outstanding := fun h => h
  answered := fun h => Bool.noConfusion h
  unanswered := fun _ => rfl
  addrFf := fun _ => rfl

theorem decoded_idAluNs (s : State) (i : In) : (idAluNs s i).Decoded := .inl ⟨rfl, rfl, rfl⟩

section Step
variable {s : State} {i : In}

theorem Inv.memStall (h : Inv s) : memStall s i.toEarly = (s.lsu.rspRdy && !i.rsp.vld) := by
  cases hr : s.lsu.rspRdy with
  | false => simp [Core.memStall, Lsu.dataStall, hr]
  | true => simp [Core.memStall, Lsu.dataStall, hr, h.outstanding hr]

theorem Inv.next_decoded (h : Inv s) : (next s i).exu.idAlu.Decoded := by
  rw [next_idAlu]
  cases flushExu s i with
  | true => exact .inr rfl
  | false =>
    cases stallExu s i with
    | true => exact h.decoded
    | false => exact decoded_idAluNs s i

/-- MEM after the edge: cleared, held, or taken over from EX with its request. -/
theorem next_mem_cases (s : State) (i : In) :
    (flushMem s i = true ∧ (next s i).lsu.mem = Lsu.MemReg.bubble) ∨
    (flushMem s i = false ∧ stallExu s i = true ∧ (next s i).lsu.mem = s.lsu.mem) ∨
    (flushMem s i = false ∧ stallExu s i = false ∧ (next s i).lsu.mem = memNs s i) := by
  rw [next_mem]
  cases flushMem s i <;> cases stallExu s i <;> simp

theorem stallExu_of_memStall (h : Core.memStall s i.toEarly = true) : stallExu s i = true := by
  rw [stallExu_eq, h, Bool.or_true]

theorem flushMem_of_memStall (h : Core.memStall s i.toEarly = true) : flushMem s i = false := by
  rw [flushMem_eq, h, Bool.not_true, Bool.and_false]

theorem Inv.next_mem_of_waiting (h : Inv s) (hr : s.lsu.rspRdy = true) (hv : i.rsp.vld = false) :
    (Core.next s i).lsu.mem = s.lsu.mem := by
  have hm : Core.memStall s i.toEarly = true := by rw [h.memStall, hr, hv]; rfl
  rw [next_mem, flushMem_of_memStall hm, stallExu_of_memStall hm]; rfl

theorem Inv.next_mem_of_addrShake (h : Inv s) (ha : addrShake s i = true) :
    (Core.next s i).lsu.mem = memNs s i := by
  obtain ⟨hs, hf⟩ := addrShake_cases h.decoded ha
  rw [next_mem, hs, hf]; rfl

theorem memNs_req_of_addrShake (h : addrShake s i = true) : (memNs s i).req = true := by
  simp only [addrShake, lsuReqVld_eq, Bool.and_eq_true] at h
  exact h.2.1.1

theorem Inv.next (h : Inv s) (i : In) : Inv (Core.next s i) := by
  refine ⟨h.next_decoded, ?_, ?_, ?_, ?_⟩
  · intro hr
    rw [next_rspRdy, Bool.or_eq_true] at hr
    rcases hr with ha | hw
    · rw [h.next_mem_of_addrShake ha, memNs_req_of_addrShake ha]
    · simp only [Bool.and_eq_true, Bool.not_eq_true'] at hw
      rw [h.next_mem_of_waiting hw.1 hw.2, h.outstanding hw.1]
  · intro hq hr
    rw [next_rspRdy, Bool.or_eq_false_iff] at hr
    rw [next_dataShakeDone]
    rcases next_mem_cases s i with ⟨-, hb⟩ | ⟨-, hs, hh⟩ | ⟨hf, hs, hn⟩
    · rw [hb] at hq; cases hq
    · rw [hh] at hq
      rw [hs, Bool.and_true, Lsu.dataShake]
      cases hy : s.lsu.rspRdy with
      | false => simp [h.answered hq hy]
      | true =>
        have hv : i.rsp.vld = true := by simpa [hy] using hr.2
        rw [hv]; rfl
    · rw [hn] at hq
      rw [addrShake_of_advance hq hs hf] at hr
      exact absurd hr.1 (by decide)
  · intro hr
    rw [next_rspRdy, Bool.or_eq_true] at hr
    rw [next_dataShakeDone]
    rcases hr with ha | hw
    · rw [(addrShake_cases h.decoded ha).1, Bool.and_false]
    · simp only [Bool.and_eq_true, Bool.not_eq_true'] at hw
      simp [Lsu.dataShake, hw.2, h.unanswered hw.1]
  · intro hq
    rw [next_addrFf]
    rcases next_mem_cases s i with ⟨-, hb⟩ | ⟨hf, hs, hh⟩ | ⟨hf, hs, hn⟩
    · rw [hb] at hq; cases hq
    · have ha : addrShake s i = false := by
        rw [Bool.eq_false_iff]
        intro ha
        rw [(addrShake_cases h.decoded ha).1] at hs
        cases hs
      rw [hh] at hq ⊢
      simp [ha, h.addrFf hq]
    · rw [hn] at hq ⊢
      simp [addrShake_of_advance hq hs hf, memNs]

end Step

/-! Three cycles that go wrong: a value is not waited for, a request is lost, a result is lost. -/

/-- The hazard of a multiply is waived, as if it were a load that hits, and its consumer moves to
EX. -/
def mulWaived (s : State) (i : In) : Bool :=
  Alu.mulOp s.exu.idAlu.info && loadUseHazard s i.toEarly && i.lsuReqHit && !stallExu s i
    && !flushExu s i

/-- A refused request is cleared from EX by a hazard. -/
def refusedUnderHazard (s : State) (i : In) : Bool := addrStall s i && iduPipeStall s i

/-- MEM holds an instruction that writes a register. -/
def memWrites (s : State) : Bool := Lsu.rdWen s.lsu && s.lsu.mem.rdIndex != 0

/-- A trap meets a division in EX that alone holds the pipeline, and clears MEM. -/
def trapOverDivision (s : State) (i : In) : Bool :=
  intrFlush s i.toEarly && Alu.divOp s.exu.idAlu.info && !memStall s i.toEarly && memWrites s

/-- The fetch unit holds nothing, ID holds a bubble, and EX at most an ALU instruction. -/
structure Quiet (s : State) : Prop where
  parked : s.ifu.dataStallVld = false
  id : s.idu.ifId = Idu.IfId.bubble
  mem : Alu.memReq s.exu.idAlu.info = false
  bjp : Alu.bjpReq s.exu.idAlu.info = false
  muldiv : Alu.muldivReq s.exu.idAlu.info = false
  sys : Alu.sysReq s.exu.idAlu.info = false
  csr : Alu.csrReq s.exu.idAlu.info = false

theorem Quiet.next {s : State} (h : Quiet s) {i : In} (hv : i.ifuRspVld = false) :
    Quiet (Core.next s i) := by
  have hs : Ifu.dataShake s.ifu (ifuIn s i) = false := by
    rw [Ifu.dataShake, show (ifuIn s i).rspVld = false from hv, Bool.and_false]
  have hk : Ifu.instOk s.ifu (ifuIn s i) = false := by
    simp [Ifu.instOk, hs, h.parked]
  have hf : Idu.ifIdNs (Ifu.fetched s.ifu (ifuIn s i)) = Idu.IfId.bubble := by
    simp only [Idu.ifIdNs, Ifu.fetched, hk, Ifu.inst]
    rfl
  have hx : (Core.next s i).exu.idAlu = IdAlu.bubble ∨
      (Core.next s i).exu.idAlu = s.exu.idAlu ∨
      (Core.next s i).exu.idAlu.info = Id.info instNop := by
    rw [next_idAlu]
    cases flushExu s i with
    | true => exact .inl rfl
    | false =>
      cases stallExu s i with
      | true => exact .inr (.inl rfl)
      | false =>
        refine .inr (.inr ?_)
        simp only [Bool.not_false, reg_load, idAluNs, h.id]
        rfl
  refine ⟨?_, ?_, ?_, ?_, ?_, ?_, ?_⟩
  · simp only [Core.next, Ifu.next, hs, h.parked]; rfl
  · rw [next_ifId, hf, h.id]
    cases flushIdu s i <;> cases stallIdu s i <;> rfl
  · rcases hx with hx | hx | hx <;> rw [hx]
    exacts [rfl, h.mem, by decide]
  · rcases hx with hx | hx | hx <;> rw [hx]
    exacts [rfl, h.bjp, by decide]
  · rcases hx with hx | hx | hx <;> rw [hx]
    exacts [rfl, h.muldiv, by decide]
  · rcases hx with hx | hx | hx <;> rw [hx]
    exacts [rfl, h.sys, by decide]
  · rcases hx with hx | hx | hx <;> rw [hx]
    exacts [rfl, h.csr, by decide]

end Rv64imCore.Core
