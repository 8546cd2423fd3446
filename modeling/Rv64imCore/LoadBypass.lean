import Rv64imCore.Forwarding
import Rv64imCore.Trap

/-! The load-hit-use fast path, from the hit signal to the operand of the consumer in EX. -/

namespace Rv64imCore
set_option autoImplicit true

namespace Sys

/-- MEM holds a load to `rd` whose formatted result is `w`: the D-cache is answering it, or its
answer has been kept. -/
structure Bypassing (s : State) (rd : BitVec 5) (w : BitVec 64) : Prop where
  req : s.core.lsu.mem.req = true
  load : s.core.lsu.mem.rwCtrl = true
  rdIndex : s.core.lsu.mem.rdIndex = rd
  word : (s.core.lsu.rspRdy = true ∧ s.csFf = (fun j => j == 0) ∧ s.dcache.vldC1 = true ∧
      w = Ls.format s.core.lsu.mem.addr s.core.lsu.mem.rwLen (Dcache.memRdata s.dcache)) ∨
    (s.core.lsu.rspRdy = false ∧
      w = Ls.format s.core.lsu.mem.addr s.core.lsu.mem.rwLen s.core.lsu.rdataR)

section Bypassing
variable {s : State} {i : In} {rd : BitVec 5} {w : BitVec 64}

theorem rsp_of_dcache (h : s.csFf = fun j => j == 0) :
    rsp s i = { vld := s.dcache.vldC1, rdata := Dcache.memRdata s.dcache } :=
  rsp_of_select (k := 0) h

theorem Bypassing.memStall (h : Bypassing s rd w) (hi : Core.Inv s.core) :
    Sys.memStall s i = false := by
  refine (hi.memStall (i := coreIn s i)).trans ?_
  change (s.core.lsu.rspRdy && !(rsp s i).vld) = false
  rcases h.word with ⟨-, hc, hv, -⟩ | ⟨hr, -⟩
  · rw [rsp_of_dcache hc, hv]; simp
  · rw [hr]; rfl

theorem Bypassing.iduData (h : Bypassing s rd w) (hi : Core.Inv s.core) :
    Lsu.iduData s.core.lsu (rsp s i) = w := by
  rw [Lsu.iduData, if_pos h.req, Lsu.memtordData, hi.addrFf h.req, Lsu.memRdata]
  rcases h.word with ⟨hr, hc, -, hw⟩ | ⟨hr, hw⟩
  · rw [hi.unanswered hr, rsp_of_dcache hc, hw]; rfl
  · rw [hi.answered h.req hr, hw]; rfl

theorem Bypassing.loadBypassVld (h : Bypassing s rd w) (hi : Core.Inv s.core) :
    Lsu.loadBypassVld s.core.lsu (rsp s i) = true := by
  rw [Lsu.loadBypassVld, h.req, h.load]
  rcases h.word with ⟨-, hc, hv, -⟩ | ⟨hr, -⟩
  · rw [rsp_of_dcache hc, hv]; rfl
  · rw [hi.answered h.req hr]; simp

theorem Bypassing.operand (h : Bypassing s rd w) (hi : Core.Inv s.core) (h0 : rd ≠ 0) {use : Bool}
    {r : BitVec 5} (hu : use = true) (hr : r = rd) (d : BitVec 64) :
    (if Core.bypass s.core (early s i) use r then Lsu.iduData s.core.lsu (rsp s i) else d) = w := by
  have hb : Core.bypass s.core (early s i) use r = true := by
    have hv : Lsu.loadBypassVld s.core.lsu (early s i).rsp = true := h.loadBypassVld hi
    have h0' : (s.core.lsu.mem.rdIndex != 0) = true := by rw [h.rdIndex]; simpa using h0
    rw [Core.bypass, hv, h0', hu, hr, h.rdIndex]
    simp
  rw [hb, if_pos rfl, h.iduData hi]

theorem Bypassing.next (h : Bypassing s rd w) (hi : Core.Inv s.core) (hs : stallExu s i = true)
    (hf : flushExu s i = false) : Bypassing (Sys.next s i) rd w := by
  have hfm : Core.flushMem s.core (coreIn s i) = false := by
    have hf' : Core.flushExu s.core (coreIn s i) = false := hf
    rw [Core.flushExu_eq] at hf'
    simp only [Bool.or_eq_false_iff] at hf'
    rw [Core.flushMem_eq, hf'.1.1]; rfl
  have hst : Core.stallExu s.core (coreIn s i) = true := hs
  have hmem : (Sys.next s i).core.lsu.mem = s.core.lsu.mem :=
    Core.next_mem.trans (by rw [hfm, hst]; rfl)
  have ha : addrShake s i = false := by
    rw [Bool.eq_false_iff]
    intro ha
    rw [(Core.addrShake_cases hi.decoded ha).1] at hst
    cases hst
  have hrd : (Sys.next s i).core.lsu.rdataR =
    if dataShake s i then (rsp s i).rdata else s.core.lsu.rdataR := Core.next_rdataR
  have hm := h.memStall hi (i := i)
  refine ⟨by rw [hmem]; exact h.req, by rw [hmem]; exact h.load, by rw [hmem]; exact h.rdIndex,
    .inr ⟨?_, ?_⟩⟩
  · rw [next_rspRdy, ha, Bool.false_or]
    exact (hi.memStall (i := coreIn s i)).symm.trans hm
  · rw [hmem, hrd, dataShake, Lsu.dataShake]
    rcases h.word with ⟨hr, hc, hv, hw⟩ | ⟨hr, hw⟩
    · rw [hr, rsp_of_dcache hc, hv, hw]; rfl
    · rw [hr, hw]; rfl

end Bypassing

/-- What the core sees when the hit signal is held low. -/
def lowHit (s : State) (i : In) : Core.In := { coreIn s i with lsuReqHit := false }

/-- The cycle with the hit signal held low: the hazard then inserts its bubble. -/
def bubbled (s : State) (i : In) : State :=
  { next s i with core := Core.next s.core (lowHit s i) }

/-- A hazard raised by a load in EX is waived by a hit, and the pipeline advances. -/
structure HitWaives (s : State) (i : In) : Prop where
  load : Alu.memRwCtrl s.core.exu.idAlu.info = true
  hazard : Core.loadUseHazard s.core (early s i) = true
  hit : lsuReqHit s i = true
  advances : stallExu s i = false
  alive : flushExu s i = false

/-- The result of the load in EX, given the word that the D-cache answers. -/
def loadResult (s : State) (i : In) (word : BitVec 64) : BitVec 64 :=
  Ls.format (Alu.memAddr (exInst s i)) (Alu.memRwLen s.core.exu.idAlu.info) word

section Waive
variable {s : State} {i : In}

theorem HitWaives.select (h : HitWaives s i) : cs s i = fun j => j == 0 := by
  have hc : cs s i 0 = true := by
    have := h.hit
    rw [lsuReqHit, Bool.and_eq_true] at this
    exact this.1
  obtain ⟨k, hk⟩ := OneToN.cs_onehot (lsuAddr s i)
  change cs s i = _ at hk
  rw [hk] at hc
  have : (0 : Fin 3) = k := by simpa using hc
  rw [hk, this]

theorem HitWaives.intrFlush (h : HitWaives s i) : intrFlush s i = false := by
  have hf : Core.flushExu s.core (coreIn s i) = false := h.alive
  rw [Core.flushExu_eq] at hf
  simp only [Bool.or_eq_false_iff] at hf
  exact hf.1.1

theorem HitWaives.memStall (h : HitWaives s i) : memStall s i = false :=
  Core.memStall_of_stallExu (i := coreIn s i) h.advances

theorem HitWaives.exuMemReq (h : HitWaives s i) (c : Core.In) (hc : c.toEarly = early s i) :
    Core.exuMemReq s.core c = true := by
  rw [Core.exuMemReq, Alu.memReqOut, Alu.memRwCtrl_memReq h.load, hc,
    Core.aluIntr_of_intrFlush h.intrFlush]
  rfl

theorem HitWaives.addrShake (h : HitWaives s i) : addrShake s i = true := by
  apply Core.addrShake_of_advance (h.exuMemReq _ rfl) h.advances
  rw [Core.flushMem_eq, show Core.intrFlush s.core (coreIn s i).toEarly = false from h.intrFlush]
  rfl

theorem HitWaives.rd_ne (h : HitWaives s i) : s.core.exu.idAlu.rdIndex ≠ 0 := by
  have hz := h.hazard
  simp only [Core.loadUseHazard, Regfile.idFlushEx, Bool.and_eq_true, Alu.rdIndex] at hz
  rw [hz.1.1.1, if_pos rfl] at hz
  simpa using hz.1.2

theorem HitWaives.memNs (h : HitWaives s i) (c : Core.In) (hc : c.toEarly = early s i) :
    (Core.memNs s.core c).req = true ∧ (Core.memNs s.core c).rwCtrl = true ∧
    (Core.memNs s.core c).rdWen = true ∧
    (Core.memNs s.core c).rdIndex = s.core.exu.idAlu.rdIndex ∧
    (Core.memNs s.core c).addr = Alu.memAddr (exInst s i) ∧
    (Core.memNs s.core c).rwLen = Alu.memRwLen s.core.exu.idAlu.info := by
  have hw : Core.exuRdWen s.core c = true := by
    simp [Core.exuRdWen, Alu.rdWen, h.load, hc, Core.aluIntr_of_intrFlush h.intrFlush]
  refine ⟨h.exuMemReq c hc, h.load, hw, ?_, ?_, rfl⟩
  · change Core.exuRdIndex s.core c = _
    rw [Core.exuRdIndex, Alu.rdIndex]
    exact if_pos hw
  · change Alu.memAddr (Core.aluIn s.core c.toEarly) = _
    rw [hc]; rfl

theorem HitWaives.vldC1 (h : HitWaives s i) (hi : Inv s) : (next s i).dcache.vldC1 = true := by
  have hh := h.hit
  rw [lsuReqHit, Bool.and_eq_true, Dcache.memReqHit, Bool.and_eq_true] at hh
  have hq : lsuReqVld s i = true := by
    have := h.addrShake
    rw [addrShake_eq, Bool.and_eq_true] at this
    exact this.2
  refine hi.dcache.vldC1_of_hit (i := dcacheIn s i) ?_ hh.2.2
  rw [Dcache.reqVld]
  change ((cs s i 0 && lsuReqVld s i) && Dcache.memReqRdy s.dcache (sRspRdy s 0)) = true
  rw [h.select, hq, hh.2.1]; rfl

/-- In the next cycle the D-cache answers the load, which is in MEM. -/
theorem HitWaives.bypassing (h : HitWaives s i) (hi : Inv s) :
    Bypassing (next s i) s.core.exu.idAlu.rdIndex
      (loadResult s i (Dcache.memRdata (next s i).dcache)) := by
  have hmem := hi.core.next_mem_of_addrShake h.addrShake
  change (next s i).core.lsu.mem = _ at hmem
  obtain ⟨h1, h2, -, h4, h5, h6⟩ := h.memNs (coreIn s i) rfl
  refine ⟨by rw [hmem, h1], by rw [hmem, h2], by rw [hmem, h4], .inl ⟨?_, ?_, h.vldC1 hi, ?_⟩⟩
  · rw [next_rspRdy, h.addrShake]; rfl
  · have hq : lsuReqVld s i = true := by
      have := h.addrShake
      rw [addrShake_eq, Bool.and_eq_true] at this
      exact this.2
    rw [next_csFf, hq, if_pos rfl, h.select]
  · rw [hmem, h5, h6]; rfl

theorem HitWaives.bubble_inserted (h : HitWaives s i) (hi : Inv s) :
    Core.stallExu s.core (lowHit s i) = false ∧ Core.flushMem s.core (lowHit s i) = false ∧
    Core.flushExu s.core (lowHit s i) = true ∧ Core.flushIdu s.core (lowHit s i) = false ∧
    Core.stallIdu s.core (lowHit s i) = true := by
  have hn : Core.intrFlush s.core (lowHit s i).toEarly = false := h.intrFlush
  have hm : Core.memStall s.core (lowHit s i).toEarly = false := h.memStall
  have hz : Core.loadUseHazard s.core (lowHit s i).toEarly = true := h.hazard
  have hr := Alu.memRwCtrl_memReq h.load
  have hx : Core.exuFlush s.core (lowHit s i).toEarly = false :=
    Core.exuFlush_of_memReq hi.core.decoded hr
  have hy : (lowHit s i).lsuReqRdy = true := by
    have := h.addrShake
    rw [addrShake_eq, Bool.and_eq_true] at this
    exact this.1
  refine ⟨?_, ?_, ?_, ?_, ?_⟩
  · rw [Core.stallExu_eq, Core.exuStall_of_memReq hi.core.decoded hr, Core.addrStall_eq, hy, hm]
    simp
  · rw [Core.flushMem_eq, hn]; rfl
  · rw [Core.flushExu_eq, Core.iduPipeStall, hz, hm]; simp [lowHit]
  · rw [Core.flushIdu_eq, hn, hx]; rfl
  · rw [Core.stallIdu_eq, Core.iduPipeStall, hz]; simp [lowHit]

theorem HitWaives.bubbled_ex (h : HitWaives s i) (hi : Inv s) :
    (bubbled s i).core.exu.idAlu = IdAlu.bubble :=
  Core.next_idAlu.trans (by rw [(h.bubble_inserted hi).2.2.1]; rfl)

theorem HitWaives.bubbled_id (h : HitWaives s i) (hi : Inv s) :
    (bubbled s i).core.idu.ifId = s.core.idu.ifId := by
  obtain ⟨-, -, -, h4, h5⟩ := h.bubble_inserted hi
  exact Core.next_ifId.trans (by rw [h4, h5]; rfl)

theorem HitWaives.bubbled_bypassing (h : HitWaives s i) (hi : Inv s) :
    Bypassing (bubbled s i) s.core.exu.idAlu.rdIndex
        (loadResult s i (Dcache.memRdata (next s i).dcache)) ∧
      (bubbled s i).core.lsu.mem.rdWen = true ∧ Core.Inv (bubbled s i).core := by
  obtain ⟨h1, h2, -⟩ := h.bubble_inserted hi
  have hmem : (bubbled s i).core.lsu.mem = Core.memNs s.core (lowHit s i) :=
    Core.next_mem.trans (by rw [h2, h1]; rfl)
  have hb := h.bypassing hi
  have hr : (bubbled s i).core.lsu.rspRdy = (next s i).core.lsu.rspRdy := by
    have ha : Core.addrShake s.core (lowHit s i) = true :=
      Core.addrShake_of_advance (h.exuMemReq _ rfl) h1 h2
    have h3 : (bubbled s i).core.lsu.rspRdy = (Core.addrShake s.core (lowHit s i) ||
      (s.core.lsu.rspRdy && !(rsp s i).vld)) := Core.next_rspRdy
    rw [h3, ha, next_rspRdy, h.addrShake]
  obtain ⟨g1, g2, g3, g4, g5, g6⟩ := h.memNs (lowHit s i) rfl
  refine ⟨⟨by rw [hmem, g1], by rw [hmem, g2], by rw [hmem, g4], .inl ⟨?_, ?_, h.vldC1 hi, ?_⟩⟩,
    by rw [hmem, g3], hi.core.next (lowHit s i)⟩
  · rw [hr, next_rspRdy, h.addrShake]; rfl
  · have hq : lsuReqVld s i = true := by
      have := h.addrShake
      rw [addrShake_eq, Bool.and_eq_true] at this
      exact this.2
    change (next s i).csFf = _
    rw [next_csFf, hq, if_pos rfl, h.select]
  · rw [hmem, g5, g6]; rfl

/-- After the bubble the consumer enters EX with what MEM forwards to ID. -/
theorem HitWaives.forwarded (h : HitWaives s i) (hi : Inv s) (a : In) :
    (next (bubbled s i) a).core.exu.idAlu =
      Core.idAluNs (bubbled s i).core (coreIn (bubbled s i) a) ∧
    ∀ r, r = s.core.exu.idAlu.rdIndex →
      Core.iduRsData (bubbled s i).core (coreIn (bubbled s i) a) r =
        loadResult s i (Dcache.memRdata (next s i).dcache) := by
  obtain ⟨hb, hw, hinv⟩ := h.bubbled_bypassing hi
  have hx := h.bubbled_ex hi
  have hm : Core.memStall (bubbled s i).core (coreIn (bubbled s i) a).toEarly = false :=
    hb.memStall hinv
  constructor
  · refine Core.next_idAlu.trans ?_
    have hs : Core.stallExu (bubbled s i).core (coreIn (bubbled s i) a) = false :=
      Core.stallExu_of_idle hm (by rw [hx]; decide) (by rw [hx]; decide)
    have hf : Core.flushExu (bubbled s i).core (coreIn (bubbled s i) a) = false := by
      obtain ⟨-, -, hbjp, -, -, hmul, hload⟩ := Alu.bubble_wires
      have hn : Core.exuFlush (bubbled s i).core (coreIn (bubbled s i) a).toEarly = false := by
        apply Alu.flush_eq_false
        change Alu.bjpReq (bubbled s i).core.exu.idAlu.info = false
        rw [hx, hbjp]
      rw [Core.flushExu_eq, Core.intrFlush_of_bubble hx, hn, Core.iduPipeStall, Core.loadUseHazard,
        Regfile.idFlushEx, hx]
      simp [Alu.iduLoad, hload, hmul]
    rw [hs, hf]; rfl
  · rintro r rfl
    have hwen : (Core.exuPort (bubbled s i).core (coreIn (bubbled s i) a)).wen = false :=
      (Core.memNs_of_bubble (i := coreIn (bubbled s i) a) hx).2
    have hd := Core.rsData_of_not_exu (bubbled s i).core.idu.regs
      (Alu.iduLoad (bubbled s i).core.exu.idAlu)
      (Core.exuPort (bubbled s i).core (coreIn (bubbled s i) a))
      (Lsu.iduPort (bubbled s i).core.lsu (rsp (bubbled s i) a)) (bubbled s i).core.wbu
      h.rd_ne (by rw [hwen]; simp)
    have hp : ((Lsu.iduPort (bubbled s i).core.lsu (rsp (bubbled s i) a)).wen &&
        (Lsu.iduPort (bubbled s i).core.lsu (rsp (bubbled s i) a)).index ==
          s.core.exu.idAlu.rdIndex) = true := by
      change ((bubbled s i).core.lsu.mem.rdWen && (bubbled s i).core.lsu.mem.rdIndex == _) = true
      rw [hw, hb.rdIndex]; simp
    rw [if_pos hp] at hd
    exact (Option.some.inj hd).trans (hb.iduData hinv)

end Waive

/-- After a hit has waived the hazard of a load, the consumer sees the load's formatted result in
every cycle it spends in EX, and that is what MEM would have forwarded to ID behind a bubble. -/
theorem load_hit_use_agrees (s₀ : State) (i : Nat → In) (t : Nat)
    (h : HitWaives (machine.run s₀.reset i t) (i t)) :
    let S := machine.run s₀.reset i
    let consumer := (S t).core.idu.ifId.inst
    let rd := (S t).core.exu.idAlu.rdIndex
    let w := loadResult (S t) (i t) (Dcache.memRdata (S (t + 1)).dcache)
    let forwarded := (next (bubbled (S t) (i t)) (i (t + 1))).core.exu.idAlu
    (∀ u, t < u →
      (∀ j, t < j → j < u → stallExu (S j) (i j) = true ∧ flushExu (S j) (i j) = false) →
      (S u).core.exu.idAlu.inst = consumer ∧
      (Regfile.useRs1 consumer = true → Id.rs1 consumer = rd →
        Core.aluRs1Data (S u).core (early (S u) (i u)) = w) ∧
      (Regfile.useRs2 consumer = true → Id.rs2 consumer = rd →
        Core.aluRs2Data (S u).core (early (S u) (i u)) = w)) ∧
    (bubbled (S t) (i t)).core.exu.idAlu = IdAlu.bubble ∧ forwarded.inst = consumer ∧
      (Id.rs1 consumer = rd → forwarded.rs1Data = w) ∧
      (Id.rs2 consumer = rd → forwarded.rs2Data = w) := by
  intro S consumer rd w forwarded
  have hinv : ∀ n, Inv (S n) := run_inv s₀ i
  constructor
  · -- the producer waits in MEM for as long as the consumer is in EX
    have henter : (S (t + 1)).core.exu.idAlu.inst = consumer := by
      have hx : (S (t + 1)).core.exu.idAlu = Core.idAluNs (S t).core (coreIn (S t) (i t)) :=
        Core.next_idAlu.trans (by
          rw [show Core.flushExu _ _ = false from h.alive,
            show Core.stallExu _ _ = false from h.advances]; rfl)
      rw [hx]; rfl
    intro u hu hj
    obtain ⟨hc, hb⟩ : (S u).core.exu.idAlu.inst = consumer ∧ Bypassing (S u) rd w := by
      refine Clocked.kept
        (P := fun k => (S k).core.exu.idAlu.inst = consumer ∧ Bypassing (S k) rd w)
        hu ⟨henter, h.bypassing (hinv t)⟩ ?_
      rintro k htk hku ⟨hc, hb⟩
      obtain ⟨hs, hf⟩ := hj k htk hku
      refine ⟨?_, hb.next (hinv k).core hs hf⟩
      have hx : (S (k + 1)).core.exu.idAlu = (S k).core.exu.idAlu :=
        Core.next_idAlu.trans (by
          rw [show Core.flushExu _ _ = false from hf, show Core.stallExu _ _ = true from hs]; rfl)
      rw [hx, hc]
    refine ⟨hc, fun hu1 hr1 => ?_, fun hu2 hr2 => ?_⟩
    · rw [Core.aluRs1Data_eq]
      exact hb.operand (hinv u).core h.rd_ne (by rw [hc]; exact hu1) (by rw [hc]; exact hr1) _
    · rw [Core.aluRs2Data_eq]
      exact hb.operand (hinv u).core h.rd_ne (by rw [hc]; exact hu2) (by rw [hc]; exact hr2) _
  · obtain ⟨hx, hd⟩ := h.forwarded (hinv t) (i (t + 1))
    have hid := h.bubbled_id (hinv t)
    refine ⟨h.bubbled_ex (hinv t), ?_, fun hr => ?_, fun hr => ?_⟩
    · exact (congrArg IdAlu.inst hx).trans (congrArg Idu.IfId.inst hid)
    · exact (congrArg IdAlu.rs1Data hx).trans (hd _ (by rw [hid]; exact hr))
    · exact (congrArg IdAlu.rs2Data hx).trans (hd _ (by rw [hid]; exact hr))

/-- `lui x1, 0x80000; ld x2, 0(x1); ld x3, 0(x1); add x4, x3, x3`: the second load hits. -/
def hitUse (n : Nat) : In :=
  { ifuReqRdy := true, ifuRspVld := true
    ifuRdata := ([0, 0x0000b103800000b7, 0x0000b103800000b7, 0x003182330000b183,
      0x003182330000b183] : List (BitVec 64)).getD n 0x0000001300000013
    busRdata := 0x1122334455667788, busReady := true }

theorem load_hit_use_agrees_add :
    HitWaives (machine.run (default : State).reset hitUse 9) (hitUse 9) ∧
    Core.aluRs1Data (machine.run (default : State).reset hitUse 10).core
        (early (machine.run (default : State).reset hitUse 10) (hitUse 10)) =
      loadResult (machine.run (default : State).reset hitUse 9) (hitUse 9)
        (Dcache.memRdata (machine.run (default : State).reset hitUse 10).dcache) := by
  have h : HitWaives (machine.run (default : State).reset hitUse 9) (hitUse 9) := by
    constructor <;> decide +kernel
  refine ⟨h, ((load_hit_use_agrees default hitUse 9 h).1 10 (by omega)
    (fun j h1 h2 => by omega)).2.1 ?_ ?_⟩ <;> decide +kernel

end Sys

end Rv64imCore
