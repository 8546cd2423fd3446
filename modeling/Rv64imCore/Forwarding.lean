import Rv64imCore.ResultLog

/-! What one clock edge does to the operands: the forwarding paths keep up with the log of results,
but for three faults. -/

namespace Rv64imCore.Core
set_option autoImplicit true

section Step
variable {s : State} {g : Log} {i : In}

/-- Only a refusal under a hazard clears EX while it is stalled. -/
theorem refused_of_flush_stall (hd : s.exu.idAlu.Decoded) (hi : intrFlush s i.toEarly = false)
    (hf : flushExu s i = true) (hs : stallExu s i = true) : refusedUnderHazard s i = true := by
  rw [flushExu_eq, hi, Bool.false_or, Bool.or_eq_true, Bool.and_eq_true, Bool.and_eq_true] at hf
  have hm : memStall s i.toEarly = false := by
    rcases hf with hf | hf <;> simpa using hf.2
  rw [stallExu_eq, hm, Bool.or_false, exuStall, Alu.stall] at hs
  rcases hf with ⟨hf, -⟩ | ⟨hf, -⟩
  · -- a redirect is a branch or jump, which holds nothing
    have hb : Alu.bjpReq s.exu.idAlu.info = true := by
      by_contra h
      have hb : Alu.bjpReq s.exu.idAlu.info = false := by simpa using h
      rw [exuFlush, Alu.flush_eq_false (i := aluIn s i.toEarly) hb] at hf
      cases hf
    have hc := hd.classes.bjp hb
    simp [Alu.divOp_eq_false hc.2.2.1, addrStall_eq, lsuReqVld_eq, exuMemReq, Alu.memReqOut,
      hc.2.1] at hs
  · cases ha : addrStall s i with
    | true => rw [refusedUnderHazard, ha, hf]; rfl
    | false =>
      rw [ha, Bool.or_false, Bool.and_eq_true] at hs
      simp only [iduPipeStall, loadUseHazard, Regfile.idFlushEx, Bool.and_eq_true] at hf
      have hl : Alu.iduLoad s.exu.idAlu = true := hf.1.1.1.2
      rw [Alu.iduLoad, Bool.or_eq_true] at hl
      rcases hl with hl | hl
      · have := Alu.divOp_eq_false (hd.classes.mem (Alu.memRwCtrl_memReq hl)).2.2.1
        rw [this] at hs
        exact absurd hs.1 (by decide)
      · rw [Alu.divOp_of_mulOp hd hl] at hs
        exact absurd hs.1 (by decide)

theorem stallExu_of_leaves (hd : s.exu.idAlu.Decoded) (hc : refusedUnderHazard s i = false)
    (h : leaves s i = true) : stallExu s i = false ∧ intrFlush s i.toEarly = false := by
  simp only [leaves, Bool.and_eq_true, Bool.not_eq_true', Bool.or_eq_true] at h
  refine ⟨?_, h.1⟩
  rcases h.2 with hs | hf
  · exact hs
  · rw [Bool.eq_false_iff]
    intro hs
    rw [refused_of_flush_stall hd h.1 hf hs] at hc
    cases hc

theorem leaves_of_advance (hs : stallExu s i = false) (hi : intrFlush s i.toEarly = false) :
    leaves s i = true := by
  rw [leaves, hs, hi]; rfl

theorem aluIntr_of_intrFlush (h : intrFlush s e = false) : aluIntr s e = false := by
  rw [Bool.eq_false_iff]
  intro ha
  rw [aluIntr_intrFlush ha] at h
  cases h

/-- An instruction that moves on raises its write enable; a division has been acknowledged. -/
theorem exuRdWen_of_advance (hs : stallExu s i = false) (hi : intrFlush s i.toEarly = false) :
    exuRdWen s i = writesRd s.exu.idAlu.info := by
  rw [stallExu_eq, Bool.or_eq_false_iff, exuStall, Alu.stall, Bool.or_eq_false_iff] at hs
  have hd : (Alu.divOp s.exu.idAlu.info && Div.ack (divNow s i)) = Alu.divOp s.exu.idAlu.info := by
    have := hs.1.1
    cases h : Alu.divOp s.exu.idAlu.info <;> simp_all
  simp only [exuRdWen, Alu.rdWen, aluIntr_of_intrFlush hi, Alu.muldivToRdWe, hd, Alu.bjpToRdWe,
    writesRd]
  simp only [Bool.not_false, Bool.and_true, Bool.or_assoc]

theorem exuRdIndex_of_advance (hs : stallExu s i = false) (hi : intrFlush s i.toEarly = false) :
    exuRdIndex s i = if writesRd s.exu.idAlu.info then s.exu.idAlu.rdIndex else 0 := by
  rw [← exuRdWen_of_advance hs hi]; rfl

theorem memNs_wen (hd : s.exu.idAlu.Decoded) (h : (memNs s i).req = true) :
    (memNs s i).rdWen = (memNs s i).rwCtrl := by
  have hr : Alu.memReq s.exu.idAlu.info = true := exuMemReq_memReq (i := i) h
  have hi : aluIntr s i.toEarly = false := by
    simpa [memNs, exuMemReq, Alu.memReqOut, hr] using h
  obtain ⟨ha, hb, hm, -, hc⟩ := hd.classes.mem hr
  simp [memNs, exuRdWen, Alu.rdWen, ha, hc, hi, Alu.bjpToRdWe, Alu.jal, Alu.jalr, hb,
    Alu.muldivToRdWe, Alu.divOp_eq_false hm, Alu.mulOp_eq_false hm]

theorem Delivers.memWen_next (h : Delivers s g) : (Core.next s i).lsu.mem.req = true →
    (Core.next s i).lsu.mem.rdWen = (Core.next s i).lsu.mem.rwCtrl := by
  rcases next_mem_cases s i with ⟨-, hb⟩ | ⟨-, -, hh⟩ | ⟨-, -, hn⟩
  · rw [hb]; exact fun hr => Bool.noConfusion hr
  · rw [hh]; exact h.memWen
  · rw [hn]; exact memNs_wen h.inv.decoded

theorem Delivers.count_next (h : Delivers s g) : (g.update s i).accesses =
    (g.update s i).answers.length + (Core.next s i).lsu.rspRdy.toNat := by
  have hv : addrShake s i = true → s.lsu.rspRdy = true → i.rsp.vld = true := by
    intro ha hr
    simp only [addrShake, lsuReqVld_eq, h.memStall_eq, hr, Bool.and_eq_true] at ha
    simpa using ha.2.1.2
  have hl : (g.update s i).answers.length =
      g.answers.length + (s.lsu.rspRdy && i.rsp.vld).toNat := g.answer_length s i.toEarly
  rw [hl, next_rspRdy, Log.update, h.count]
  cases ha : addrShake s i <;> cases hr : s.lsu.rspRdy <;> cases hw : i.rsp.vld <;>
    simp_all

theorem addrShake_of_load (hd : s.exu.idAlu.Decoded) (hc : refusedUnderHazard s i = false)
    (hl : leaves s i = true) (hr : Alu.memRwCtrl s.exu.idAlu.info = true) :
    addrShake s i = true := by
  obtain ⟨hs, hi⟩ := stallExu_of_leaves hd hc hl
  apply addrShake_of_advance _ hs (by rw [flushMem_eq, hi]; rfl)
  rw [exuMemReq, Alu.memReqOut, Alu.memRwCtrl_memReq hr, aluIntr_of_intrFlush hi]
  rfl

theorem exResult_load (h : exResult s i n = .load a l k) :
    Alu.memRwCtrl s.exu.idAlu.info = true ∧ a = Alu.memAddr (aluIn s i.toEarly) ∧
      l = Alu.memRwLen s.exu.idAlu.info ∧ k = n := by
  simp only [exResult] at h
  split at h
  · rename_i hr
    cases h
    exact ⟨hr, rfl, rfl, rfl⟩
  · split at h <;> cases h

theorem mem_update {e : Entry} (h : e ∈ (g.update s i).entries) :
    e ∈ g.entries ∨ (leaves s i = true ∧ writesRd s.exu.idAlu.info = true ∧
      e = ⟨s.exu.idAlu.rdIndex, exResult s i g.accesses⟩) := by
  simp only [Log.update] at h
  split at h
  · rename_i hl
    simp only [Bool.and_eq_true] at hl
    rcases List.mem_cons.mp h with he | he
    · exact .inr ⟨hl.1, hl.2, he⟩
    · exact .inl he
  · exact .inl h

theorem Delivers.made_next (h : Delivers s g) (hc : refusedUnderHazard s i = false) :
    ∀ e ∈ (g.update s i).entries, ∀ a l k, e.result = .load a l k →
      k < (g.update s i).accesses := by
  intro e he a l k hr
  simp only [Log.update]
  rcases mem_update he with he | ⟨hl, -, rfl⟩
  · exact Nat.lt_add_right _ (h.made e he a l k hr)
  · obtain ⟨hld, -, -, rfl⟩ := exResult_load hr
    rw [addrShake_of_load h.inv.decoded hc hl hld]
    exact Nat.lt_succ_self _

theorem Delivers.open_next (h : Delivers s g) (hc : refusedUnderHazard s i = false) :
    ∀ e ∈ (g.update s i).entries, ∀ a l, e.result = .load a l (g.update s i).answers.length →
      a = (Core.next s i).lsu.mem.addr ∧ l = (Core.next s i).lsu.mem.rwLen := by
  intro e he a l hr
  rcases mem_update he with he | ⟨hl, -, rfl⟩
  · have hk := h.made e he a l _ hr
    have hn := h.count
    simp only [Log.update, Log.answer] at hk hr
    cases hv : Lsu.dataShake s.lsu i.rsp with
    | true =>
      simp only [Lsu.dataShake, Bool.and_eq_true] at hv
      simp [Lsu.dataShake, hv.1, hv.2, hn] at hk
    | false =>
      rw [hv] at hk hr
      have hy : s.lsu.rspRdy = true := by
        cases hy : s.lsu.rspRdy with
        | true => rfl
        | false => simp [hn, hy] at hk
      have hw : i.rsp.vld = false := by simpa [Lsu.dataShake, hy] using hv
      rw [h.inv.next_mem_of_waiting hy hw]
      exact h.open_ e he a l hr
  · obtain ⟨hld, rfl, rfl, -⟩ := exResult_load hr
    rw [h.inv.next_mem_of_addrShake (addrShake_of_load h.inv.decoded hc hl hld)]
    exact ⟨rfl, rfl⟩

theorem youngest_update (g : Log) (s : State) (i : In) (r : BitVec 5) :
    (g.update s i).youngest r =
      if leaves s i && writesRd s.exu.idAlu.info && s.exu.idAlu.rdIndex == r then
        (exResult s i g.accesses).eval (g.answer s i.toEarly).answers
      else (g.answer s i.toEarly).youngest r := by
  cases hl : leaves s i && writesRd s.exu.idAlu.info with
  | false => simp only [Log.youngest, Log.update, hl]; rfl
  | true =>
    simp only [Log.youngest, Log.update, hl, if_true, List.find?_cons, Bool.true_and]
    cases s.exu.idAlu.rdIndex == r <;> rfl

theorem Delivers.heldNow_of_advance (h : Delivers s g) (hs : stallExu s i = false) (hr : r ≠ 0) :
    (if (Core.next s i).wbu.wen && (Core.next s i).wbu.index == r then
        some (Core.next s i).wbu.data else some ((Core.next s i).idu.regs r)) =
      heldNow s i.toEarly r := by
  have hm := memStall_of_stallExu hs
  have hw : Lsu.rdWen s.lsu = s.lsu.mem.rdWen := by
    rw [Lsu.rdWen]
    cases hq : s.lsu.mem.req with
    | false => rfl
    | true => exact (h.memWen hq).symm
  rw [next_wbu, next_regs hr, hs, heldNow, hm]
  simp only [wbNs, hw, Bool.not_false, Bool.and_true, Bool.false_eq_true, if_false]
  split
  · rfl
  · split <;> rfl

theorem Delivers.held_of_leaves (h : Delivers s g) (hc : refusedUnderHazard s i = false)
    (hl : leaves s i = true) (hr : r ≠ 0) :
    (g.update s i).youngest r = Core.held (Core.next s i) r := by
  obtain ⟨hs, hi⟩ := stallExu_of_leaves h.inv.decoded hc hl
  have hf : flushMem s i = false := by rw [flushMem_eq, hi]; rfl
  have hmem : (Core.next s i).lsu.mem = memNs s i := by rw [next_mem, hf, hs]; rfl
  have hwen : (memNs s i).rdWen = writesRd s.exu.idAlu.info := exuRdWen_of_advance hs hi
  have hidx : (memNs s i).rdIndex = if writesRd s.exu.idAlu.info then s.exu.idAlu.rdIndex else 0 :=
    exuRdIndex_of_advance hs hi
  rw [youngest_update, hl, Bool.true_and, Core.held, h.heldNow_of_advance hs hr, hmem, hwen, hidx,
    ← h.youngest_now i.toEarly hr]
  cases hw : writesRd s.exu.idAlu.info with
  | false => rfl
  | true =>
    simp only [Bool.true_and, if_true]
    split
    · cases hld : Alu.memRwCtrl s.exu.idAlu.info with
      | true =>
        have ha := addrShake_of_load h.inv.decoded hc hl hld
        rw [memNs_req_of_addrShake ha, next_rspRdy, ha, exResult, hld]
        have hle : (g.answer s i.toEarly).answers.length ≤ g.accesses := by
          rw [Log.answer_length, h.count]
          cases s.lsu.rspRdy <;> cases i.rsp.vld <;> simp
        simp [Result.eval, hle]
      | false =>
        have hreq : (memNs s i).req = false := by
          rw [Bool.eq_false_iff]
          intro hq
          have hn := memNs_wen h.inv.decoded hq
          rw [hwen, hw] at hn
          exact absurd (hn.trans hld) (by decide)
        rw [hreq, exResult, hld]
        simp only [Lsu.alutordData, hmem, Bool.false_eq_true, if_false]
        cases hmul : Alu.mulOp s.exu.idAlu.info <;> simp [memNs, hmul, Result.eval]
    · rfl

theorem Delivers.heldNow_of_stall (h : Delivers s g) (hf : flushMem s i = false)
    (hs : stallExu s i = true) (hr : r ≠ 0) :
    heldNow s i.toEarly r = Core.held (Core.next s i) r := by
  have hmem : (Core.next s i).lsu.mem = s.lsu.mem := by rw [next_mem, hf, hs]; rfl
  have ha : addrShake s i = false := by
    rw [Bool.eq_false_iff]
    intro ha
    rw [(addrShake_cases h.inv.decoded ha).1] at hs
    cases hs
  rw [Core.heldNow, Core.held, hmem, next_wbu, next_regs hr, hs, next_rspRdy, ha, next_rdataR]
  simp only [Bool.not_true, Bool.and_false, Bool.false_and, if_true, Bool.false_or,
    Bool.false_eq_true, if_false]
  split
  · cases hq : s.lsu.mem.req with
    | false =>
      simp [memStall, Lsu.dataStall, Lsu.iduData, hq, Lsu.alutordData, hmem]
    | true =>
      rw [h.memStall_eq, h.iduData hq]
      cases hy : s.lsu.rspRdy <;> cases hv : i.rsp.vld <;> simp [Lsu.dataShake, hy, hv]
  · rfl

theorem Delivers.heldNow_of_flush (h : Delivers s g) (hc : trapOverDivision s i = false)
    (hf : flushMem s i = true) (hr : r ≠ 0) :
    heldNow s i.toEarly r = Core.held (Core.next s i) r := by
  have hmem : (Core.next s i).lsu.mem = Lsu.MemReg.bubble := by rw [next_mem, hf]; rfl
  rw [flushMem_eq, Bool.and_eq_true, Bool.not_eq_true'] at hf
  have hb : (Lsu.MemReg.bubble.rdWen && Lsu.MemReg.bubble.rdIndex == r) = false := rfl
  rw [Core.held, hmem, hb]
  cases hs : stallExu s i with
  | false => rw [← h.heldNow_of_advance hs hr]; rfl
  | true =>
    -- only a division stalls here, and then MEM has nothing to write
    have hd : Alu.divOp s.exu.idAlu.info = true := by
      rw [stallExu_eq, hf.2, Bool.or_false, exuStall, Alu.stall, addrStall_eq, lsuReqVld_eq,
        exuMemReq_of_intrFlush h.inv.decoded hf.1] at hs
      simp only [Bool.false_and, Bool.or_false, Bool.and_eq_true] at hs
      exact hs.1
    have hw : (s.lsu.mem.rdWen && s.lsu.mem.rdIndex == r) = false := by
      have hn : memWrites s = false := by
        simpa [trapOverDivision, hf.1, hf.2, hd] using hc
      have hrw : Lsu.rdWen s.lsu = s.lsu.mem.rdWen := by
        rw [Lsu.rdWen]
        cases hq : s.lsu.mem.req with
        | false => rfl
        | true => exact (h.memWen hq).symm
      rw [memWrites, hrw] at hn
      cases hx : s.lsu.mem.rdWen with
      | false => rfl
      | true =>
        rw [hx, Bool.true_and] at hn
        have : s.lsu.mem.rdIndex = 0 := by simpa using hn
        rw [this]
        simpa using fun h => hr h.symm
    rw [Core.heldNow, hw, next_wbu, next_regs hr, hs]
    simp

theorem Delivers.held_next (h : Delivers s g) (hc : refusedUnderHazard s i = false)
    (ht : trapOverDivision s i = false) (hr : r ≠ 0) :
    (g.update s i).youngest r = Core.held (Core.next s i) r := by
  cases hl : leaves s i with
  | true => exact h.held_of_leaves hc hl hr
  | false =>
    rw [youngest_update, hl, Bool.false_and, Bool.false_and, if_neg (by decide),
      h.youngest_now i.toEarly hr]
    cases hf : flushMem s i with
    | true => exact h.heldNow_of_flush ht hf hr
    | false =>
      cases hs : stallExu s i with
      | true => exact h.heldNow_of_stall hf hs hr
      | false =>
        have hm := memStall_of_stallExu hs
        have hi : intrFlush s i.toEarly = false := by simpa [flushMem_eq, hm] using hf
        rw [leaves_of_advance hs hi] at hl
        cases hl

theorem rsData_of_not_exu (regs : BitVec 5 → BitVec 64) (exuLoad : Bool) (exu mem wbu : RdPort)
    (h0 : r ≠ 0) (hx : (r == exu.index && exu.wen && !exuLoad) = false) :
    some (Regfile.rsData regs r exuLoad exu mem wbu) =
      if mem.wen && mem.index == r then some mem.data
      else if wbu.wen && wbu.index == r then some wbu.data
      else some (regs r) := by
  have hr0 : (r == 0) = false := by simpa using h0
  rw [Regfile.rsData, hr0, hx, Bool.and_comm mem.wen, Bool.and_comm wbu.wen,
    BEq.comm (a := mem.index), BEq.comm (a := wbu.index)]
  cases r == mem.index && mem.wen <;> cases r == wbu.index && wbu.wen <;> rfl

/-- What ID reads is the youngest result, unless EX holds a load or multiply to the register. -/
theorem Delivers.iduRsData (h : Delivers s g) (hc : refusedUnderHazard s i = false)
    (hl : leaves s i = true) (hr : r ≠ 0) :
    (writesRd s.exu.idAlu.info = true ∧ s.exu.idAlu.rdIndex = r ∧
      Alu.iduLoad s.exu.idAlu = true) ∨
    (g.update s i).youngest r = some (Core.iduRsData s i r) := by
  obtain ⟨hs, hi⟩ := stallExu_of_leaves h.inv.decoded hc hl
  have hm := memStall_of_stallExu hs
  have hwen : (exuPort s i).wen = writesRd s.exu.idAlu.info := exuRdWen_of_advance hs hi
  have hidx : (exuPort s i).index = if writesRd s.exu.idAlu.info then s.exu.idAlu.rdIndex else 0 :=
    exuRdIndex_of_advance hs hi
  rw [youngest_update, hl, Bool.true_and, Core.iduRsData]
  by_cases hw : writesRd s.exu.idAlu.info = true ∧ s.exu.idAlu.rdIndex = r
  · cases hld : Alu.iduLoad s.exu.idAlu with
    | true => exact .inl ⟨hw.1, hw.2, rfl⟩
    | false =>
      refine .inr ?_
      rw [Alu.iduLoad, Bool.or_eq_false_iff] at hld
      have hw' : (exuPort s i).wen = true := hwen.trans hw.1
      have hr' : (exuPort s i).index = r := hidx.trans (by rw [if_pos hw.1, hw.2])
      have hr0 : r ≠ 0#5 := hr
      simp only [Regfile.rsData, hw.1, hw.2, exResult, hld.1, hld.2, Result.eval, hw', hr']
      simp [hr0]
      rfl
  · refine .inr ?_
    have hx : (writesRd s.exu.idAlu.info && s.exu.idAlu.rdIndex == r) = false := by
      simpa using hw
    have hy : (r == (if writesRd s.exu.idAlu.info then s.exu.idAlu.rdIndex else 0) &&
        writesRd s.exu.idAlu.info) = false := by
      cases hwr : writesRd s.exu.idAlu.info with
      | false => simp
      | true =>
        rw [hwr, Bool.true_and] at hx
        rw [if_pos rfl, Bool.and_true, BEq.comm, hx]
    rw [hx, if_neg (by decide), h.youngest_now i.toEarly hr, Core.heldNow, hm]
    exact (rsData_of_not_exu _ _ _ (Lsu.iduPort s.lsu i.rsp) _ hr
      (by rw [hwen, hidx, hy]; rfl)).symm

theorem hazard_of_use (hi : intrFlush s i.toEarly = false)
    (hl : Alu.iduLoad s.exu.idAlu = true) (h0 : s.exu.idAlu.rdIndex ≠ 0)
    (hu : (Regfile.useRs1 s.idu.ifId.inst && Id.rs1 s.idu.ifId.inst == s.exu.idAlu.rdIndex ||
      Regfile.useRs2 s.idu.ifId.inst && Id.rs2 s.idu.ifId.inst == s.exu.idAlu.rdIndex) = true) :
    loadUseHazard s i.toEarly = true := by
  have hw : Alu.rdWen s.exu.idAlu (Div.ack s.exu.div) (aluIntr s i.toEarly) = true := by
    rw [Alu.iduLoad, Bool.or_eq_true] at hl
    rw [Alu.rdWen, aluIntr_of_intrFlush hi, Alu.muldivToRdWe]
    rcases hl with hl | hl <;> simp [hl]
  have hb : (s.exu.idAlu.rdIndex != 0) = true := by simpa using h0
  rw [loadUseHazard, Regfile.idFlushEx, Alu.rdIndex, hw, hl, if_pos rfl, hb, hu]
  rfl

/-- One source of EX keeps its operand over an edge; `data` reads the stored operand. -/
theorem Delivers.operand_next (h : Delivers s g) (hc : refusedUnderHazard s i = false)
    (hm : mulWaived s i = false) (use : BitVec 32 → Bool) (idx : BitVec 32 → BitVec 5)
    (data : IdAlu → BitVec 64) (hnop : use instNop = true → idx instNop = 0)
    (hdata : data (idAluNs s i) = Core.iduRsData s i (idx s.idu.ifId.inst))
    (huse : use s.idu.ifId.inst = true → idx s.idu.ifId.inst = s.exu.idAlu.rdIndex →
      (Regfile.useRs1 s.idu.ifId.inst && Id.rs1 s.idu.ifId.inst == s.exu.idAlu.rdIndex ||
        Regfile.useRs2 s.idu.ifId.inst && Id.rs2 s.idu.ifId.inst == s.exu.idAlu.rdIndex) = true)
    (hold : OperandOk s g (use s.exu.idAlu.inst) (idx s.exu.idAlu.inst) (data s.exu.idAlu)) :
    OperandOk (Core.next s i) (g.update s i) (use (Core.next s i).exu.idAlu.inst)
      (idx (Core.next s i).exu.idAlu.inst) (data (Core.next s i).exu.idAlu) := by
  rw [next_idAlu]
  cases hf : flushExu s i with
  | true => exact fun hu hr => absurd (hnop hu) hr
  | false =>
    have hi : intrFlush s i.toEarly = false := by
      rw [flushExu_eq] at hf
      simp only [Bool.or_eq_false_iff] at hf
      exact hf.1.1
    have hfm : flushMem s i = false := by rw [flushMem_eq, hi]; rfl
    cases hs : stallExu s i with
    | true =>
      have hl : leaves s i = false := by rw [leaves, hs, hf, hi]; rfl
      have hmem : (Core.next s i).lsu.mem = s.lsu.mem := by rw [next_mem, hfm, hs]; rfl
      intro hu hr
      have hkeep : loadInMem s (idx s.exu.idAlu.inst) →
          loadInMem (Core.next s i) (idx s.exu.idAlu.inst) := by
        rw [loadInMem, loadInMem, hmem]; exact fun h => h
      by_cases hlm : loadInMem s (idx s.exu.idAlu.inst)
      · exact .inl (hkeep hlm)
      · refine .inr ?_
        rw [youngest_update, hl, Bool.false_and, Bool.false_and, if_neg (by decide)]
        exact (h.answer_of_not_load hr hlm).trans ((hold hu hr).resolve_left hlm)
    | false =>
      have hl := leaves_of_advance hs hi
      intro hu hr
      change idx s.idu.ifId.inst ≠ 0 at hr
      change use s.idu.ifId.inst = true at hu
      rcases h.iduRsData hc hl hr with ⟨hw, hrd, hld⟩ | hy
      · -- the hazard was waived: a multiply is excluded, a load is now in MEM
        have hz := hazard_of_use hi hld (by rw [hrd]; exact hr) (huse hu hrd.symm)
        have hms := memStall_of_stallExu hs
        have hhit : i.lsuReqHit = true := by
          rw [flushExu_eq, hms] at hf
          simp only [Bool.or_eq_false_iff, Bool.not_false, Bool.and_true, iduPipeStall, hz,
            Bool.true_and, Bool.not_eq_false'] at hf
          exact hf.2
        have hmul : Alu.mulOp s.exu.idAlu.info = false := by
          simpa [mulWaived, hz, hhit, hs, hf] using hm
        have hrw : Alu.memRwCtrl s.exu.idAlu.info = true := by
          simpa [Alu.iduLoad, hmul] using hld
        have ha := addrShake_of_load h.inv.decoded hc hl hrw
        refine .inl ?_
        rw [loadInMem, h.inv.next_mem_of_addrShake ha]
        refine ⟨memNs_req_of_addrShake ha, hrw, ?_⟩
        exact (exuRdIndex_of_advance hs hi).trans (by rw [hw, if_pos rfl, hrd]; rfl)
      · exact .inr (hy.trans (by rw [Bool.not_false, reg_load, hdata]))

theorem Delivers.operand (h : Delivers s g) (hms : Core.memStall s i.toEarly = false)
    {use : Bool} {r : BitVec 5} (hold : OperandOk s g use r data) (hu : use = true) (hr : r ≠ 0) :
    (g.answer s i.toEarly).youngest r =
      some (if bypass s i.toEarly use r then Lsu.iduData s.lsu i.rsp else data) := by
  by_cases hl : loadInMem s r
  · obtain ⟨hq, hw, hrd⟩ := hl
    have hv : Lsu.loadBypassVld s.lsu i.rsp = true := by
      rw [Lsu.loadBypassVld, hq, hw]
      cases hy : s.lsu.rspRdy with
      | false => simp [h.inv.answered hq hy]
      | true =>
        rw [h.memStall_eq, hy, Bool.true_and, Bool.not_eq_false'] at hms
        simp [hms]
    have h0 : (s.lsu.mem.rdIndex != 0) = true := by simpa [hrd] using hr
    have hb : bypass s i.toEarly use r = true := by
      rw [bypass, hv, h0, hu, hrd]; simp
    rw [h.youngest_now i.toEarly hr, heldNow, h.memWen hq, hw, hrd, hms, hb]
    simp
  · have hb : bypass s i.toEarly use r = false := by
      rw [Bool.eq_false_iff]
      intro hb
      simp only [bypass, Lsu.loadBypassVld, Bool.and_eq_true, beq_iff_eq] at hb
      exact hl ⟨hb.1.1.1.1.1, hb.1.1.1.1.2, hb.2.symm⟩
    rw [h.answer_of_not_load hr hl, hb]
    exact (hold hu hr).resolve_left hl

/-- None of the three faults happens in the cycle. -/
structure Faultless (s : State) (i : In) : Prop where
  mul : mulWaived s i = false
  refused : refusedUnderHazard s i = false
  trap : trapOverDivision s i = false

theorem Delivers.next (h : Delivers s g) (hf : Faultless s i) :
    Delivers (Core.next s i) (g.update s i) where
  inv := h.inv.next i
  memWen := h.memWen_next
  count := h.count_next
  made := h.made_next hf.refused
  open_ := h.open_next hf.refused
  agrees := fun _ hr => h.held_next hf.refused hf.trap hr
  rs1 := h.operand_next hf.refused hf.mul Regfile.useRs1 Id.rs1 IdAlu.rs1Data
    (fun _ => by decide) rfl (fun hu hr => by rw [hu, hr]; simp) h.rs1
  rs2 := h.operand_next hf.refused hf.mul Regfile.useRs2 Id.rs2 IdAlu.rs2Data
    (fun _ => by decide) rfl (fun hu hr => by rw [hu, hr]; simp) h.rs2

theorem Delivers.reset (s : State) : Delivers s.reset Log.empty where
  inv := Inv.reset s
  memWen := fun h => Bool.noConfusion h
  count := rfl
  made := fun _ he => absurd he List.not_mem_nil
  open_ := fun _ he => absurd he List.not_mem_nil
  agrees := fun _ _ => rfl
  rs1 := fun _ hr => absurd (show Id.rs1 instNop = 0 by decide) hr
  rs2 := fun hu => Bool.noConfusion hu

end Step

end Rv64imCore.Core
