import Rv64imCore.Execute

/-! The core beside a hart: as long as the hart can follow the events of the core, both hold the
same pc, the same registers and the same memory. -/

namespace Rv64imCore.Core
set_option autoImplicit true
open Rv64i (Hart)
open Rv64im (Event Platform)

/-- What the accesses that the core makes leave of a byte memory. -/
def stored (P : Platform) (m : Bytes.Mem 29) (s : State) (i : In) : Bytes.Mem 29 :=
  if addrShake s i && lsuWen s && P.ram (Alu.memAddr (aluIn s i.toEarly)) then
    m.store (Ls.wordOf (lsuAddr s i.toEarly)) (lsuWmask s i.toEarly) (lsuWdata s i.toEarly)
  else m

/-- What a run has shown: where its instructions are, the results and the memory they have made, and
the events. -/
structure Shown where
  flow : Flow
  log : Log
  mem : Bytes.Mem 29
  events : List Event

def Shown.start (m : Bytes.Mem 29) : Shown :=
  { flow := Flow.start, log := Log.empty, mem := m, events := [] }

def Shown.update (P : Platform) (g : Shown) (s : State) (i : In) : Shown :=
  { flow := g.flow.update s i
    log := g.log.update s i
    mem := stored P g.mem s i
    events := g.events ++ g.flow.event (P.device g.log.accesses) s i }

/-- The two ports of the core serve it: the instruction port is ready when it has to be and
delivers the program text, a load gets its word of the memory or of the device, and what the data
port announces as a hit is there when a division needs it. -/
structure Serves (P : Platform) (g : Shown) (s : State) (i : In) : Prop where
  ready : Ifu.Ready s.ifu (ifuIn s i)
  text : FetchesText P s i
  load : Lsu.dataShake s.lsu i.rsp = true → s.lsu.mem.rwCtrl = true →
    i.rsp.rdata = wordFor P g.mem (P.device g.log.answers.length) s.lsu.mem.addr
  hit : Alu.divOp s.exu.idAlu.info = true → memStall s i.toEarly = true →
    ∀ r, r ≠ 0 → r = Id.rs1 s.exu.idAlu.inst ∨ r = Id.rs2 s.exu.idAlu.inst → ¬loadInMem s r

instance : Decidable (Serves P g s i) :=
  have (r : BitVec 5) : Decidable (loadInMem s r) := inferInstanceAs (Decidable (_ ∧ _))
  have : Decidable (Ifu.Ready s.ifu (ifuIn s i)) := inferInstanceAs (Decidable (_ ∨ _ → _))
  decidable_of_iff (Ifu.Ready s.ifu (ifuIn s i) ∧ FetchesText P s i ∧
    (Lsu.dataShake s.lsu i.rsp = true → s.lsu.mem.rwCtrl = true →
      i.rsp.rdata = wordFor P g.mem (P.device g.log.answers.length) s.lsu.mem.addr) ∧
    (Alu.divOp s.exu.idAlu.info = true → memStall s i.toEarly = true →
      ∀ r, r ≠ 0 → r = Id.rs1 s.exu.idAlu.inst ∨ r = Id.rs2 s.exu.idAlu.inst → ¬loadInMem s r))
    ⟨fun ⟨h₁, h₂, h₃, h₄⟩ => ⟨h₁, h₂, h₃, h₄⟩, fun ⟨h₁, h₂, h₃, h₄⟩ => ⟨h₁, h₂, h₃, h₄⟩⟩

/-- None of the known faults happens in the cycle: a value is lost or not waited for, a `jalr` to
zero falls through, or a word division needs the truncation that is missing. -/
structure Sound (g : Flow) (s : State) (i : In) : Prop where
  faultless : Faultless s i
  jalr : g.retires s i = true → g.zeroJalr s i = false
  fits : g.retires s i = true → WordFits s i.toEarly

instance : Decidable (Sound g s i) :=
  decidable_of_iff ((mulWaived s i = false ∧ refusedUnderHazard s i = false ∧
      trapOverDivision s i = false) ∧ (g.retires s i = true → g.zeroJalr s i = false) ∧
      (g.retires s i = true → WordFits s i.toEarly))
    ⟨fun ⟨⟨h₁, h₂, h₃⟩, h₄, h₅⟩ => ⟨⟨h₁, h₂, h₃⟩, h₄, h₅⟩,
      fun ⟨⟨h₁, h₂, h₃⟩, h₄, h₅⟩ => ⟨⟨h₁, h₂, h₃⟩, h₄, h₅⟩⟩

/-- The value of a register once a load that MEM waits for is answered from the memory `m`, or by
the device. The load is the last access. -/
def expected (P : Platform) (s : State) (g : Log) (m : Bytes.Mem 29) (r : BitVec 5) : BitVec 64 :=
  (held s r).getD (Ls.format s.lsu.mem.addr s.lsu.mem.rwLen
    (wordFor P m (P.device (g.accesses - 1)) s.lsu.mem.addr))

/-- The divider rests, or works on the division in EX with the operands of the hart. -/
def Dividing (s : State) (h : Hart) : Prop :=
  Div.Idle s.exu.div ∨ ∃ j, ((∃ k, Div.Working j k s.exu.div) ∨ Div.Answered j s.exu.div) ∧
    Alu.divOp s.exu.idAlu.info = true ∧
    j.rs1 = h.reg (Id.rs1 s.exu.idAlu.inst) ∧ j.rs2 = h.reg (Id.rs2 s.exu.idAlu.inst) ∧
    j.isSigned = (Alu.div s.exu.idAlu.info || Alu.rem s.exu.idAlu.info)

/-- The core and the hart agree. -/
structure Lockstep (P : Platform) (s : State) (g : Shown) (h : Hart) : Prop where
  delivers : Delivers s g.log
  flow : g.flow.Holds s
  text : OnText P s g.flow
  pc : g.flow.pc s = h.pc
  mem : g.mem = h.mem
  regs : ∀ r, r ≠ 0 → expected P s g.log h.mem r = h.reg r
  div : Dividing s h

theorem Lockstep.reset (P : Platform) (s : State) {h : Hart} (hpc : h.pc = Ifu.pcResetAddr + 4)
    (hx : ∀ r, h.x r = 0) : Lockstep P s.reset (Shown.start h.mem) h where
  delivers := Delivers.reset s
  flow := Flow.Holds.reset s
  text := OnText.reset P s
  pc := hpc.symm
  mem := rfl
  regs := fun r hr => by
    rw [Hart.reg, if_neg hr, hx]
    rfl
  div := .inl (Div.idle_reset _)

section Operands
variable {P : Platform} {s : State} {g : Shown} {h : Hart} {i : In}

theorem Lockstep.now (hl : Lockstep P s g h) (hs : Serves P g s i) (hr : r ≠ 0)
    (hv : heldNow s i.toEarly r = some v) : v = h.reg r := by
  rw [← hl.regs r hr, expected, ← hl.mem]
  rw [heldNow] at hv
  rw [held]
  split at hv
  · rename_i hw
    split at hv
    · cases hv
    · rename_i hm
      rw [Bool.not_eq_true] at hm
      cases hv
      rw [if_pos hw]
      cases hq : s.lsu.mem.req with
      | false => simp [Lsu.iduData, hq]
      | true =>
        rw [hl.delivers.iduData hq]
        cases hy : s.lsu.rspRdy with
        | false => rfl
        | true =>
          rw [hl.delivers.memStall_eq, hy, Bool.true_and, Bool.not_eq_false'] at hm
          rw [Bool.and_eq_true, hl.delivers.memWen hq] at hw
          have hk : g.log.accesses - 1 = g.log.answers.length := by
            rw [hl.delivers.count, hy]; rfl
          rw [if_pos rfl, hs.load (by rw [Lsu.dataShake, hy, hm]; rfl) hw.1, hk]
          rfl
  · rename_i hw
    rw [if_neg hw]
    split at hv
    · rename_i hb; cases hv; rw [if_pos hb]; rfl
    · rename_i hb; cases hv; rw [if_neg hb]; rfl

theorem Lockstep.operand (hl : Lockstep P s g h) (hs : Serves P g s i) {use : Bool}
    {r : BitVec 5} {data : BitVec 64} (hold : OperandOk s g.log use r data) (hu : use = true)
    (hz : r = 0 → data = 0) (hw : memStall s i.toEarly = false ∨ (r ≠ 0 → ¬loadInMem s r)) :
    (if bypass s i.toEarly use r then Lsu.iduData s.lsu i.rsp else data) = h.reg r := by
  by_cases h0 : r = 0
  · have hb : bypass s i.toEarly use r = false := by
      rw [Bool.eq_false_iff]
      intro hb
      simp only [bypass, Bool.and_eq_true, bne_iff_ne, beq_iff_eq] at hb
      exact hb.1.1.2 (hb.2.symm.trans h0)
    rw [hb, if_neg (by decide), hz h0, h0]
    rfl
  · by_cases hlm : loadInMem s r
    · have hm : memStall s i.toEarly = false := hw.resolve_right fun h' => h' h0 hlm
      have ho := hl.delivers.operand hm hold hu h0
      rw [hl.delivers.youngest_now i.toEarly h0] at ho
      exact hl.now hs h0 ho
    · have hb : bypass s i.toEarly use r = false := by
        rw [Bool.eq_false_iff]
        intro hb
        simp only [bypass, Lsu.loadBypassVld, Bool.and_eq_true, beq_iff_eq] at hb
        exact hlm ⟨hb.1.1.1.1.1, hb.1.1.1.1.2, hb.2.symm⟩
      have hy := (hl.delivers.answer_of_not_load (e := i.toEarly) h0 hlm).trans
        ((hold hu h0).resolve_left hlm)
      rw [hl.delivers.youngest_now i.toEarly h0] at hy
      rw [hb]
      exact hl.now hs h0 hy

theorem Lockstep.rs1 (hl : Lockstep P s g h) (hs : Serves P g s i)
    (hu : Regfile.useRs1 s.exu.idAlu.inst = true)
    (hw : memStall s i.toEarly = false ∨
      (Id.rs1 s.exu.idAlu.inst ≠ 0 → ¬loadInMem s (Id.rs1 s.exu.idAlu.inst))) :
    aluRs1Data s i.toEarly = h.reg (Id.rs1 s.exu.idAlu.inst) := by
  rw [aluRs1Data_eq]
  exact hl.operand hs hl.delivers.rs1 hu hl.text.rs1Zero hw

theorem Lockstep.rs2 (hl : Lockstep P s g h) (hs : Serves P g s i)
    (hu : Regfile.useRs2 s.exu.idAlu.inst = true)
    (hw : memStall s i.toEarly = false ∨
      (Id.rs2 s.exu.idAlu.inst ≠ 0 → ¬loadInMem s (Id.rs2 s.exu.idAlu.inst))) :
    aluRs2Data s i.toEarly = h.reg (Id.rs2 s.exu.idAlu.inst) := by
  rw [aluRs2Data_eq]
  exact hl.operand hs hl.delivers.rs2 hu hl.text.rs2Zero hw

end Operands

section Retire
variable {P : Platform} {s : State} {g : Shown} {h : Hart} {i : In}

theorem Flow.retires_cases {g : Flow} (hr : g.retires s i = true) :
    g.exVld = true ∧ Core.leaves s i = true := by
  rw [retires, Bool.and_eq_true] at hr
  exact hr

/-- A division stalls EX for nothing but its answer. -/
theorem flushExu_of_divOp (hd : s.exu.idAlu.Decoded) (h : Alu.divOp s.exu.idAlu.info = true)
    (hi : intrFlush s i.toEarly = false) : flushExu s i = false := by
  obtain ⟨-, hm, hb, -⟩ := hd.classes.muldiv (Alu.divOp_muldivReq h)
  have hmul : Alu.mulOp s.exu.idAlu.info = false := by
    rw [Bool.eq_false_iff]
    intro hmul
    rw [Alu.divOp_of_mulOp hd hmul] at h
    cases h
  have hz : iduPipeStall s i = false := by
    simp [iduPipeStall, loadUseHazard, Regfile.idFlushEx, Alu.iduLoad, hmul,
      Alu.memRwCtrl_eq_false hm]
  have hf : exuFlush s i.toEarly = false :=
    Alu.flush_eq_false (i := aluIn s i.toEarly) hb _ _
  rw [flushExu_eq, hi, hf, hz]
  rfl

theorem ack_of_stallExu (hd : Alu.divOp s.exu.idAlu.info = true) (hs : stallExu s i = false) :
    Div.ack (divNow s i) = true := by
  rw [stallExu_eq, Bool.or_eq_false_iff, exuStall, Alu.stall, Bool.or_eq_false_iff, hd] at hs
  simpa using hs.1.1

theorem divNow_of_not_flush (hf : flushExu s i = false) : divNow s i = s.exu.div := by
  rw [divNow, hf]
  rfl

theorem Lockstep.divided (hl : Lockstep P s g h) (hs : Serves P g s i)
    (hd : Alu.divOp s.exu.idAlu.info = true)
    (hi : s.exu.idAlu.info = Id.info s.exu.idAlu.inst) (hst : stallExu s i = false)
    (hf : intrFlush s i.toEarly = false) : Divided s i := by
  have hm := memStall_of_stallExu hst
  have hu : Regfile.useRs1 s.exu.idAlu.inst = true ∧ Regfile.useRs2 s.exu.idAlu.inst = true :=
    use_of_muldivOp (by rw [← Alu.muldivReq_info, ← hi, Alu.divOp_muldivReq hd])
  have hn := divNow_of_not_flush (flushExu_of_divOp hl.delivers.inv.decoded hd hf)
  have hack := ack_of_stallExu hd hst
  rw [hn] at hack
  rcases hl.div with hidle | ⟨j, ⟨k, hwork⟩ | hans, -, h1, h2, h3⟩
  · rw [Div.ack, hidle.ready] at hack; cases hack
  · rw [Div.ack, hwork.ready] at hack; cases hack
  · refine ⟨j, by rw [hn]; exact hans, ?_, ?_, h3⟩
    · rw [h1, hl.rs1 hs hu.1 (.inl hm)]
    · rw [h2, hl.rs2 hs hu.2 (.inl hm)]

theorem Lockstep.presents (hl : Lockstep P s g h) (hs : Serves P g s i)
    (hc : Sound g.flow s i) (hr : g.flow.retires s i = true) : Presents s i h := by
  obtain ⟨hv, hlv⟩ := Flow.retires_cases hr
  obtain ⟨hst, hi⟩ := stallExu_of_leaves hl.delivers.inv.decoded hc.faultless.refused hlv
  have hm := memStall_of_stallExu hst
  obtain ⟨h1, h2, h3⟩ := hl.text.exDecoded hv
  exact ⟨h1, h2, h3, by rw [← hl.pc, pc_of_exVld hv], fun hu => hl.rs1 hs hu (.inl hm),
    fun hu => hl.rs2 hs hu (.inl hm), fun hd => hl.divided hs hd h1 hst hi, hc.fits hr⟩

/-- Where the hart can take its step, the instruction in EX is the one at its pc and does the same.
-/
theorem Lockstep.retire_matches (hl : Lockstep P s g h) (hs : Serves P g s i)
    (hc : Sound g.flow s i) (hr : g.flow.retires s i = true)
    (hn : P.retire (CsrReg.rdata s.exu.csr) word h = some h') : Matches P word s i h h' := by
  have hp := hl.presents hs hc hr
  rw [Platform.retire, Option.bind_eq_some_iff] at hn
  obtain ⟨w, hw, hn⟩ := hn
  rw [← hp.pc] at hw
  obtain rfl := hl.text.exWord (Flow.retires_cases hr).1 w hw
  split at hn
  · rename_i hpm
    exact hp.matches_retire hpm hn
  · cases hn

end Retire

section Cycle
variable {P : Platform} {s : State} {g : Shown} {h : Hart} {i : In}

theorem stored_of_not_addrShake (m : Bytes.Mem 29) (ha : addrShake s i = false) :
    stored P m s i = m := by rw [stored, ha]; rfl

theorem addrShake_of_leaves (hd : s.exu.idAlu.Decoded) (hc : refusedUnderHazard s i = false)
    (hl : leaves s i = true) : addrShake s i = Alu.memReq s.exu.idAlu.info := by
  obtain ⟨hs, hi⟩ := stallExu_of_leaves hd hc hl
  cases hm : Alu.memReq s.exu.idAlu.info with
  | false => simp [addrShake, lsuReqVld_eq, exuMemReq, Alu.memReqOut, hm]
  | true =>
    refine addrShake_of_advance ?_ hs (by rw [flushMem_eq, hi]; rfl)
    rw [exuMemReq, Alu.memReqOut, hm, aluIntr_of_intrFlush hi]
    rfl

theorem addrShake_of_not_leaves (hd : s.exu.idAlu.Decoded) (hl : leaves s i = false) :
    addrShake s i = false := by
  rw [Bool.eq_false_iff]
  intro ha
  have hv : lsuReqVld s i = true := by
    rw [addrShake, Bool.and_eq_true] at ha
    exact ha.2
  rw [leaves_of_advance (addrShake_cases hd ha).1 (lsuReqVld_cases hd hv).2.2.2] at hl
  cases hl

theorem Flow.Holds.bubble_frame {f : Flow} (hf : f.Holds s) (hv : f.exVld = false) :
    Alu.memReq s.exu.idAlu.info = false ∧ s.exu.idAlu.rdIndex = 0 := by
  obtain ⟨hn, -⟩ := hf.exBubble hv
  rcases hf.core.decoded with ⟨hi, -, hr⟩ | hb
  · rw [hi, hr, hn]; decide
  · rw [hb]; decide

theorem Lockstep.expected_kept (hl : Lockstep P s g h) (hs : Serves P g s i)
    (hc : Faultless s i) (hr : r ≠ 0)
    (hn : (leaves s i && writesRd s.exu.idAlu.info && s.exu.idAlu.rdIndex == r) = false)
    (m : Bytes.Mem 29) (hm : leaves s i = false → m = h.mem) :
    expected P (Core.next s i) (g.log.update s i) m r = h.reg r := by
  have hy := (hl.delivers.next hc).agrees r hr
  rw [youngest_update, hn, if_neg (by decide), hl.delivers.youngest_now i.toEarly hr] at hy
  cases hv : heldNow s i.toEarly r with
  | some v =>
    rw [expected, ← hy, hv]
    exact hl.now hs hr hv
  | none =>
    -- the load in MEM is still not answered
    have hk := hv
    rw [heldNow] at hk
    split at hk
    · rename_i hw
      split at hk
      · rename_i hst
        have hlv : leaves s i = false := by
          rw [Bool.eq_false_iff]
          intro hlv
          rw [memStall_of_stallExu (stallExu_of_leaves hl.delivers.inv.decoded hc.refused
            hlv).1] at hst
          cases hst
        have hsx : stallExu s i = true := by rw [stallExu_eq, hst, Bool.or_true]
        have hfm : flushMem s i = false := by rw [flushMem_eq, hst]; simp
        have hmem : (Core.next s i).lsu.mem = s.lsu.mem := by rw [next_mem, hfm, hsx]; rfl
        have hy' : held s r = none := by
          have hrq := hst
          rw [hl.delivers.memStall_eq, Bool.and_eq_true] at hrq
          rw [held, if_pos hw, hl.delivers.inv.outstanding hrq.1, hrq.1]
          rfl
        have hk : (g.log.update s i).accesses = g.log.accesses := by
          rw [Log.update, addrShake_of_not_leaves hl.delivers.inv.decoded hlv]
          rfl
        rw [← hl.regs r hr, expected, expected, ← hy, hv, hy', hmem, hk, hm hlv]
      · cases hk
    · split at hk <;> cases hk

theorem Lockstep.quiet (hl : Lockstep P s g h) (hs : Serves P g s i)
    (hc : Faultless s i) (hr : g.flow.retires s i = false) :
    stored P g.mem s i = h.mem ∧
      ∀ r, r ≠ 0 → expected P (Core.next s i) (g.log.update s i) h.mem r = h.reg r := by
  have hd := hl.delivers.inv.decoded
  cases hv : g.flow.exVld with
  | true =>
    have hlv : leaves s i = false := by simpa [Flow.retires, hv] using hr
    refine ⟨?_, fun r h0 => hl.expected_kept hs hc h0 (by rw [hlv]; rfl) _ fun _ => rfl⟩
    rw [stored_of_not_addrShake _ (addrShake_of_not_leaves hd hlv), hl.mem]
  | false =>
    obtain ⟨hm, hrd⟩ := hl.flow.bubble_frame hv
    refine ⟨?_, fun r h0 => hl.expected_kept hs hc h0 ?_ _ fun _ => rfl⟩
    · rw [stored_of_not_addrShake, hl.mem]
      simp [addrShake, lsuReqVld_eq, exuMemReq, Alu.memReqOut, hm]
    · rw [hrd, beq_eq_false_iff_ne.mpr (Ne.symm h0), Bool.and_false]

theorem Lockstep.retired (hl : Lockstep P s g h) (hs : Serves P g s i)
    (hc : Faultless s i) (hr : g.flow.retires s i = true)
    (hm : Matches P (P.device g.log.accesses) s i h h') :
    stored P g.mem s i = h'.mem ∧
      ∀ r, r ≠ 0 → expected P (Core.next s i) (g.log.update s i) h'.mem r = h'.reg r := by
  obtain ⟨-, hlv⟩ := Flow.retires_cases hr
  have hd := hl.delivers.inv.decoded
  have ha := addrShake_of_leaves hd hc.refused hlv
  refine ⟨by rw [stored, ha, hl.mem, hm.mem], fun r h0 => ?_⟩
  rw [hm.regs r h0 g.log.accesses]
  cases hw : writesRd s.exu.idAlu.info && s.exu.idAlu.rdIndex == r with
  | false =>
    rw [if_neg (by decide)]
    refine hl.expected_kept hs hc h0 (by rw [hlv, Bool.true_and, hw]) _ fun h' => ?_
    rw [hlv] at h'
    cases h'
  | true =>
    rw [if_pos rfl]
    have hy := (hl.delivers.next hc).agrees r h0
    rw [youngest_update, hlv, Bool.true_and, hw, if_pos rfl] at hy
    cases hx : exResult s i g.log.accesses with
    | value v =>
      rw [hx] at hy
      rw [expected, ← hy]
      rfl
    | load a l k =>
      -- the access has just been made, so that it is not answered yet
      obtain ⟨hld, rfl, rfl, rfl⟩ := exResult_load hx
      rw [Alu.memRwCtrl_memReq hld] at ha
      have hlen : (g.log.answer s i.toEarly).answers.length ≤ g.log.accesses := by
        rw [Log.answer_length, hl.delivers.count]
        cases s.lsu.rspRdy <;> cases i.rsp.vld <;> simp
      have hnone : (exResult s i g.log.accesses).eval
          (g.log.answer s i.toEarly).answers = none := by
        rw [hx, Result.eval, List.getElem?_eq_none hlen]
        rfl
      have hmem : h'.mem = h.mem := by
        rw [hm.mem, lsuWen, hld, Bool.not_true, Bool.and_false]
        rfl
      have hk : (g.log.update s i).accesses - 1 = g.log.accesses := by
        rw [Log.update, ha]; rfl
      rw [expected, ← hy, hnone, hl.delivers.inv.next_mem_of_addrShake ha, hmem, hk]
      rfl

end Cycle

section Step
variable {P : Platform} {s : State} {g : Shown} {h : Hart} {i : In}

theorem next_div : (Core.next s i).exu.div =
    Div.next (flushExu s i) s.exu.div (Alu.divIn (aluIn s i.toEarly) (stallExu s i)) := rfl

theorem stallExu_of_not_ack (hd : Alu.divOp s.exu.idAlu.info = true)
    (ha : Div.ack s.exu.div = false) (hf : flushExu s i = false) : stallExu s i = true := by
  rw [stallExu_eq, exuStall, Alu.stall, hd, divNow_of_not_flush hf, ha]
  rfl

theorem Lockstep.starts (hl : Lockstep P s g h) (hs : Serves P g s i)
    (hd : Alu.divOp s.exu.idAlu.info = true) :
    aluRs1Data s i.toEarly = h.reg (Id.rs1 s.exu.idAlu.inst) ∧
      aluRs2Data s i.toEarly = h.reg (Id.rs2 s.exu.idAlu.inst) := by
  have hi : s.exu.idAlu.info = Id.info s.exu.idAlu.inst := by
    rcases hl.delivers.inv.decoded with hi | hb
    · exact hi.1
    · rw [hb] at hd; cases hd
  have hu : Regfile.useRs1 s.exu.idAlu.inst = true ∧ Regfile.useRs2 s.exu.idAlu.inst = true :=
    use_of_muldivOp (by rw [← Alu.muldivReq_info, ← hi, Alu.divOp_muldivReq hd])
  have hw (r : BitVec 5) (hr : r = Id.rs1 s.exu.idAlu.inst ∨ r = Id.rs2 s.exu.idAlu.inst) :
      memStall s i.toEarly = false ∨ (r ≠ 0 → ¬loadInMem s r) := by
    cases hm : memStall s i.toEarly with
    | false => exact .inl rfl
    | true => exact .inr fun h0 => hs.hit hd hm r h0 hr
  exact ⟨hl.rs1 hs hu.1 (hw _ (.inl rfl)), hl.rs2 hs hu.2 (hw _ (.inr rfl))⟩

theorem Lockstep.dividing (hl : Lockstep P s g h) (hs : Serves P g s i)
    (hk : flushExu s i = false → stallExu s i = true → h'.reg = h.reg) :
    Dividing (Core.next s i) h' := by
  rw [Dividing, next_div]
  cases hf : flushExu s i with
  | true => exact .inl (Div.Idle.next_reset _ _)
  | false =>
    cases hst : stallExu s i with
    | true =>
      -- EX keeps its instruction, and the divider takes a step
      rw [(next_of_stay (g := g.flow) hf hst).1, hk hf hst]
      rcases hl.div with hidle | ⟨j, ⟨k, hwork⟩ | hans, hj⟩
      · cases hd : Alu.divOp s.exu.idAlu.info with
        | false => exact .inl (hidle.next_none hd)
        | true =>
          obtain ⟨h1, h2⟩ := hl.starts hs hd
          exact .inr ⟨_, .inl ⟨0, hidle.next_start hd⟩, rfl, h1, h2, rfl⟩
      · rcases Nat.lt_or_eq_of_le hwork.le with hlt | heq
        · exact .inr ⟨j, .inl ⟨k + 1, hwork.next_step hlt⟩, hj⟩
        · exact .inr ⟨j, .inr (hwork.next_done heq), hj⟩
      · exact .inr ⟨j, .inr (hans.next_stall rfl), hj⟩
    | false =>
      refine .inl ?_
      have hno (ha : Div.ack s.exu.div = false) : Alu.divOp s.exu.idAlu.info = false := by
        rw [Bool.eq_false_iff]
        intro hd
        rw [stallExu_of_not_ack hd ha hf] at hst
        cases hst
      rcases hl.div with hidle | ⟨j, ⟨k, hwork⟩ | hans, hd, -⟩
      · exact hidle.next_none (hno hidle.ready)
      · rw [hno hwork.ready] at hd; cases hd
      · exact hans.next_taken rfl

theorem Flow.Holds.not_intrFlush {f : Flow} (hf : f.Holds s) (hv : f.exVld = false) :
    intrFlush s i.toEarly = false :=
  (hf.quiet_ex hv).1

theorem Platform.follow_one (P : Platform) (h : Hart) (e : Event) :
    P.follow h [e] = P.step h e := by
  rw [← List.nil_append [e], P.follow_concat]
  rfl

theorem Lockstep.next_trap (hl : Lockstep P s g h) (hs : Serves P g s i) (hc : Faultless s i)
    (ht : intrFlush s i.toEarly = true) : Lockstep P (Core.next s i) (g.update P s i)
      (h.jump (IntrCtrl.flushAddr (intrIn s i.toEarly))) := by
  have hlv : leaves s i = false := by rw [leaves, ht]; rfl
  have hr : g.flow.retires s i = false := by rw [Flow.retires, hlv, Bool.and_false]
  obtain ⟨hm, hx⟩ := hl.quiet hs hc hr
  exact ⟨hl.delivers.next hc, hl.flow.next hs.ready, hl.text.next hs.text, pc_of_trap ht, hm, hx,
    hl.dividing hs fun _ _ => rfl⟩

theorem Lockstep.next_wait (hl : Lockstep P s g h) (hs : Serves P g s i) (hc : Faultless s i)
    (ht : intrFlush s i.toEarly = false) (hr : g.flow.retires s i = false) :
    Lockstep P (Core.next s i) (g.update P s i) h := by
  obtain ⟨hm, hx⟩ := hl.quiet hs hc hr
  exact ⟨hl.delivers.next hc, hl.flow.next hs.ready, hl.text.next hs.text,
    (hl.flow.pc_of_wait ht hr).trans hl.pc, hm, hx, hl.dividing hs fun _ _ => rfl⟩

theorem Lockstep.next_retire (hl : Lockstep P s g h) (hs : Serves P g s i)
    (hc : Sound g.flow s i) (hr : g.flow.retires s i = true)
    (hn : P.retire (CsrReg.rdata s.exu.csr) (P.device g.log.accesses) h = some h') :
    Lockstep P (Core.next s i) (g.update P s i) h' := by
  have hm := hl.retire_matches hs hc hr hn
  obtain ⟨hst, hx⟩ := hl.retired hs hc.faultless hr hm
  obtain ⟨hv, hlv⟩ := Flow.retires_cases hr
  obtain ⟨hsx, hi⟩ := stallExu_of_leaves hl.delivers.inv.decoded hc.faultless.refused hlv
  have hpc : (g.flow.update s i).pc (Core.next s i) = h'.pc := by
    rw [hm.pc, ← hl.pc, pc_of_exVld hv]
    cases ht : Alu.transfers s.exu.idAlu.inst with
    | true => exact hl.flow.pc_of_transfer hv ht hi hsx (hc.jalr hr)
    | false => exact hl.flow.pc_of_sequential hl.text hv ht hi hsx
  refine ⟨hl.delivers.next hc.faultless, hl.flow.next hs.ready, hl.text.next hs.text, hpc, hst, hx,
    hl.dividing hs fun _ h' => ?_⟩
  rw [hsx] at h'
  cases h'

/-- Where the hart follows the event of a cycle, it stays beside the core. -/
theorem Lockstep.next (hl : Lockstep P s g h) (hs : Serves P g s i) (hc : Sound g.flow s i)
    (hn : P.follow h (g.flow.event (P.device g.log.accesses) s i) = some h') :
    Lockstep P (Core.next s i) (g.update P s i) h' := by
  rw [Flow.event] at hn
  cases ht : intrFlush s i.toEarly with
  | true =>
    rw [ht, if_pos rfl, Platform.follow_one] at hn
    cases hn
    exact hl.next_trap hs hc.faultless ht
  | false =>
    rw [ht, if_neg (by decide)] at hn
    cases hr : g.flow.retires s i with
    | true =>
      rw [hr, if_pos rfl, Platform.follow_one] at hn
      exact hl.next_retire hs hc hr hn
    | false =>
      rw [hr, if_neg (by decide)] at hn
      cases hn
      exact hl.next_wait hs hc.faultless ht hr

end Step

end Rv64imCore.Core
