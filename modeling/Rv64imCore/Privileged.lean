import Rv64imCore.MachineMode
import Rv64imCore.Program

/-! The core beside a hart in machine mode, which takes its traps and returns by itself. -/

namespace Rv64imCore
set_option autoImplicit true
open Rv64i (Hart)
open Rv64im (Csrs Event MEvent MHart Platform isCsr)

namespace Csr
variable {s : CsrReg.State} {i : CsrReg.In}

theorem get_next_of_quiet (hi : i.intrWen = false) (hc : CsrReg.changes s i = false) (c : Csr) :
    c.get (CsrReg.next s i) = c.get s := by
  rw [(CsrReg.next_noWrite_iff s i).mpr hc]
  cases c <;>
    simp [CsrReg.next, CsrReg.trapWen, CsrReg.trapWdata, CsrReg.In.noWrite, get, hi]

theorem get_next_of_trap (hi : i.intrWen = true) (hc : CsrReg.changes s i = false) (c : Csr) :
    c.get (CsrReg.next s i) = match c with
      | .mstatus => i.intrMstatus
      | .mepc => i.intrMepc
      | .mcause => i.intrMcause
      | .mtval => i.intrMtval
      | .mie => s.mie
      | .mtvec => s.mtvec := by
  rw [(CsrReg.next_noWrite_iff s i).mpr hc]
  cases c <;>
    simp [CsrReg.next, CsrReg.trapWen, CsrReg.trapWdata, CsrReg.In.noWrite, get, hi, reg]

theorem get_next_of_other (hi : i.intrWen = false) (ha : ∀ c : Csr, i.addr ≠ c.addr) (c : Csr) :
    c.get (CsrReg.next s i) = c.get s := by
  have h (c : Csr) : (i.addr == c.addr) = false := beq_eq_false_iff_ne.mpr (ha c)
  refine get_next_of_quiet hi ?_ c
  rw [CsrReg.changes, show (i.addr == 0x305#12) = false from h .mtvec,
    show (i.addr == 0x304#12) = false from h .mie,
    show (i.addr == 0x300#12) = false from h .mstatus,
    show (i.addr == 0x341#12) = false from h .mepc,
    show (i.addr == 0x342#12) = false from h .mcause,
    show (i.addr == 0x343#12) = false from h .mtval]
  simp

end Csr

namespace Core

/-- What a cycle means to a hart in machine mode. -/
def Flow.mevent (g : Flow) (word : BitVec 64) (s : State) (i : In) : List MEvent :=
  if intrFlush s i.toEarly then
    if Alu.ecall s.exu.idAlu.info || Alu.mret s.exu.idAlu.info then
      [.exec (CsrReg.rdata s.exu.csr) word]
    else [.interrupt i.intr]
  else if g.retires s i then [.exec (CsrReg.rdata s.exu.csr) word]
  else []

/-- The instruction in EX changes a CSR in a cycle in which it does not retire. -/
def strayCsrWrite (g : Flow) (s : State) (i : In) : Bool :=
  CsrReg.changes s.exu.csr (csrIn s i) && !g.retires s i

/-- A `csrrc` names a bit to clear. -/
def csrClears (s : State) (i : In) : Bool :=
  isCsr s.exu.idAlu.inst && Zicsr.op s.exu.idAlu.inst == .rc
    && Zicsr.operand s.exu.idAlu.inst (aluRs1Data s i.toEarly) != 0

/-- An interrupt hits an `mret` or an `ebreak`. -/
def systemInterrupted (s : State) (i : In) : Bool :=
  aluIntr s i.toEarly && (Alu.mret s.exu.idAlu.info || Alu.ebreak s.exu.idAlu.info)

/-- None of the known faults happens in the cycle, those of the CSRs included. -/
structure MSound (g : Flow) (s : State) (i : In) : Prop where
  core : Sound g s i
  stray : strayCsrWrite g s i = false
  clears : g.retires s i = true → csrClears s i = false
  system : systemInterrupted s i = false

instance : Decidable (MSound g s i) :=
  decidable_of_iff (Sound g s i ∧ strayCsrWrite g s i = false ∧
      (g.retires s i = true → csrClears s i = false) ∧ systemInterrupted s i = false)
    ⟨fun ⟨h₁, h₂, h₃, h₄⟩ => ⟨h₁, h₂, h₃, h₄⟩, fun ⟨h₁, h₂, h₃, h₄⟩ => ⟨h₁, h₂, h₃, h₄⟩⟩

/-- The CSR file has the values that the hart counts on. -/
def CsrsAgree (c : Csrs) (s : CsrReg.State) : Prop := ∀ r v, c.get r = some v → r.get s = v

/-- The core and the hart in machine mode agree. -/
structure MLockstep (P : Platform) (s : State) (g : Shown) (m : MHart) : Prop where
  core : Lockstep P s g m.hart
  csrs : CsrsAgree m.csrs s.exu.csr

section Csrs
variable {c : Csrs} {s : State} {i : In}

theorem CsrsAgree.reset (s : State) : CsrsAgree Csrs.reset s.reset.exu.csr := by
  intro r v h
  cases r <;> exact Option.some.inj h

theorem CsrsAgree.mstatus (h : CsrsAgree c t) : t.mstatus = c.mstatus := h .mstatus _ rfl
theorem CsrsAgree.mie (h : CsrsAgree c t) : t.mie = c.mie := h .mie _ rfl
theorem CsrsAgree.mtvec (h : CsrsAgree c t) : t.mtvec = c.mtvec := h .mtvec _ rfl

theorem CsrsAgree.read (h : CsrsAgree c t) (hr : c.read (CsrReg.rdata t) a = some v) :
    CsrReg.rdata t a = v := by
  rw [Csrs.read] at hr
  cases ha : Csr.ofAddr a with
  | none =>
    rw [ha] at hr
    exact Option.some.inj hr
  | some r =>
    rw [ha] at hr
    rw [← Csr.addr_of_ofAddr ha, Csr.rdata_addr]
    exact h r v hr

theorem intrIn_req (s : State) (e : Early) :
    (intrIn s e).req.getLsbD 2 = (s.exu.csr.mie.getLsbD 11 && e.intr.getLsbD 2) ∧
      (intrIn s e).req.getLsbD 1 = (s.exu.csr.mie.getLsbD 3 && e.intr.getLsbD 1) ∧
      (intrIn s e).req.getLsbD 0 = (s.exu.csr.mie.getLsbD 7 && e.intr.getLsbD 0) := by
  simp only [intrIn, CsrReg.intrReq, BitVec.getLsbD_ofBoolListBE]
  exact ⟨rfl, rfl, rfl⟩

/-- An interrupt is taken where the hart takes one, once EX has a pc. -/
theorem CsrsAgree.aluIntr_eq (h : CsrsAgree c s.exu.csr) (e : Early) :
    aluIntr s e = ((c.taken e.intr).isSome && s.exu.idAlu.pc != 0) := by
  obtain ⟨h2, h1, h0⟩ := intrIn_req s e
  have hm : (intrIn s e).mstatus = c.mstatus := h.mstatus
  have hp : (intrIn s e).pc = s.exu.idAlu.pc := rfl
  rw [h.mie] at h2 h1 h0
  simp only [aluIntr, IntrCtrl.asyncIntr, IntrCtrl.externalIntrSel, IntrCtrl.softwareIntrSel,
    IntrCtrl.timeIntrSel, IntrCtrl.externalIntr, IntrCtrl.softwareIntr, IntrCtrl.timeIntr,
    IntrCtrl.globalIntrEn, h2, h1, h0, hm, hp, Csrs.taken]
  cases c.mstatus.getLsbD 3 <;> cases c.mie.getLsbD 11 && e.intr.getLsbD 2 <;>
    cases c.mie.getLsbD 3 && e.intr.getLsbD 1 <;>
    cases c.mie.getLsbD 7 && e.intr.getLsbD 0 <;> rfl

theorem CsrsAgree.wmcause (h : CsrsAgree c s.exu.csr) {e : Early}
    (hc : Alu.ecall s.exu.idAlu.info = false) (hb : Alu.ebreak s.exu.idAlu.info = false)
    (ht : c.taken e.intr = some cause) : IntrCtrl.wmcause (intrIn s e) = cause := by
  obtain ⟨h2, h1, h0⟩ := intrIn_req s e
  have hm : (intrIn s e).mstatus = c.mstatus := h.mstatus
  rw [h.mie] at h2 h1 h0
  have hc' : (intrIn s e).ecall = false := hc
  have hb' : (intrIn s e).ebreak = false := hb
  rw [Csrs.taken] at ht
  simp only [IntrCtrl.wmcause, hc', hb', IntrCtrl.externalIntrSel, IntrCtrl.softwareIntrSel,
    IntrCtrl.timeIntrSel, IntrCtrl.externalIntr, IntrCtrl.softwareIntr, IntrCtrl.timeIntr,
    IntrCtrl.globalIntrEn, h2, h1, h0, hm]
  revert ht
  cases c.mstatus.getLsbD 3 <;> cases c.mie.getLsbD 11 && e.intr.getLsbD 2 <;>
    cases c.mie.getLsbD 3 && e.intr.getLsbD 1 <;>
    cases c.mie.getLsbD 7 && e.intr.getLsbD 0 <;>
    intro ht <;> cases ht <;> rfl

theorem CsrsAgree.enter (h : CsrsAgree c s.exu.csr)
    (hc : CsrReg.changes s.exu.csr (csrIn s i) = false)
    (hr : IntrCtrl.intrReq (intrIn s i.toEarly) = true)
    (hx : IntrCtrl.intrExit (intrIn s i.toEarly) = false) :
    CsrsAgree (c.enter s.exu.idAlu.pc (IntrCtrl.wmcause (intrIn s i.toEarly))
      (IntrCtrl.wmtval (intrIn s i.toEarly))) (Core.next s i).exu.csr := by
  have hw : (csrIn s i).intrWen = true := by
    change IntrCtrl.csrWen (intrIn s i.toEarly) = true
    rw [IntrCtrl.csrWen, hr]
    rfl
  intro r v hv
  refine (Csr.get_next_of_trap hw hc r).trans ?_
  cases r with
  | mstatus =>
    refine Eq.trans ?_ (Option.some.inj hv)
    change IntrCtrl.wmstatus (intrIn s i.toEarly) = IntrCtrl.enterMstatus c.mstatus
    rw [IntrCtrl.wmstatus_eq, hr, hx, mask_true, mask_false, BitVec.or_zero, ← h.mstatus]
    rfl
  | mie => exact h .mie v hv
  | mtvec => exact h .mtvec v hv
  | mepc =>
    refine Eq.trans ?_ (Option.some.inj hv)
    change IntrCtrl.wmepc (intrIn s i.toEarly) = s.exu.idAlu.pc
    rw [IntrCtrl.wmepc, hr]
    rfl
  | mcause => exact Option.some.inj hv
  | mtval => exact Option.some.inj hv

/-- A return restores `mstatus`; the hart counts on nothing else of it. -/
theorem CsrsAgree.leave (h : CsrsAgree c s.exu.csr)
    (hc : CsrReg.changes s.exu.csr (csrIn s i) = false)
    (hr : IntrCtrl.intrReq (intrIn s i.toEarly) = false)
    (hx : IntrCtrl.intrExit (intrIn s i.toEarly) = true) :
    CsrsAgree c.leave (Core.next s i).exu.csr := by
  have hw : (csrIn s i).intrWen = true := by
    change IntrCtrl.csrWen (intrIn s i.toEarly) = true
    rw [IntrCtrl.csrWen, hx, Bool.or_true]
  intro r v hv
  refine (Csr.get_next_of_trap hw hc r).trans ?_
  cases r with
  | mstatus =>
    refine Eq.trans ?_ (Option.some.inj hv)
    change IntrCtrl.wmstatus (intrIn s i.toEarly) = IntrCtrl.returnMstatus c.mstatus
    rw [IntrCtrl.wmstatus_eq, hr, hx, mask_true, mask_false, BitVec.zero_or, ← h.mstatus]
    rfl
  | mie => exact h .mie v hv
  | mtvec => exact h .mtvec v hv
  | mepc => cases hv
  | mcause => cases hv
  | mtval => cases hv

theorem CsrsAgree.quiet (h : CsrsAgree c s.exu.csr) (hi : intrFlush s i.toEarly = false)
    (hc : CsrReg.changes s.exu.csr (csrIn s i) = false) :
    CsrsAgree c (Core.next s i).exu.csr := fun r v hv =>
  (Csr.get_next_of_quiet (i := csrIn s i) hi hc r).trans (h r v hv)

end Csrs

section Step
variable {P : Platform} {s : State} {g : Shown} {m m' : MHart} {i : In}

/-- A trap or return comes from a valid instruction that does not retire. -/
theorem Lockstep.trapped {h : Hart} (hl : Lockstep P s g h)
    (hc : strayCsrWrite g.flow s i = false) (ht : intrFlush s i.toEarly = true) :
    g.flow.exVld = true ∧ CsrReg.changes s.exu.csr (csrIn s i) = false := by
  have hr : g.flow.retires s i = false := by
    rw [Flow.retires, leaves, ht]
    simp
  constructor
  · cases hv : g.flow.exVld with
    | true => rfl
    | false =>
      rw [hl.flow.not_intrFlush hv] at ht
      cases ht
  · rw [strayCsrWrite, hr, Bool.not_false, Bool.and_true] at hc
    exact hc

theorem Lockstep.word {h : Hart} (hl : Lockstep P s g h) (hv : g.flow.exVld = true)
    (hw : P.code h.pc = some w) : s.exu.idAlu.inst = w :=
  hl.text.exWord hv w (by rw [← pc_of_exVld hv, hl.pc]; exact hw)

theorem MLockstep.next_enter (hl : MLockstep P s g m) (hs : Serves P g s i)
    (hc : MSound g.flow s i) (hr : IntrCtrl.intrReq (intrIn s i.toEarly) = true)
    (hx : IntrCtrl.intrExit (intrIn s i.toEarly) = false) :
    MLockstep P (Core.next s i) (g.update P s i)
      (m.trap (IntrCtrl.wmcause (intrIn s i.toEarly)) (IntrCtrl.wmtval (intrIn s i.toEarly))) := by
  have ht : intrFlush s i.toEarly = true := by rw [intrFlush, IntrCtrl.flushEn, hr]; rfl
  obtain ⟨hv, hch⟩ := hl.core.trapped hc.stray ht
  have hn := hl.core.next_trap hs hc.core.faultless ht
  rw [IntrCtrl.flushAddr_eq, hr, hx, mask_true, mask_false, BitVec.or_zero] at hn
  refine ⟨?_, ?_⟩
  · rw [MHart.trap, ← hl.csrs.mtvec]
    exact hn
  · rw [MHart.trap, ← hl.core.pc, pc_of_exVld hv]
    exact hl.csrs.enter hch hr hx

theorem ecall_word {h : Hart} (hl : Lockstep P s g h) (hv : g.flow.exVld = true) :
    Alu.ecall s.exu.idAlu.info = (s.exu.idAlu.inst == 0x00000073) ∧
      Alu.mret s.exu.idAlu.info = (s.exu.idAlu.inst == 0x30200073) := by
  rw [(hl.text.exDecoded hv).1, Alu.ecall_info, Alu.mret_info]
  exact ⟨rfl, rfl⟩

theorem MLockstep.next_ecall (hl : MLockstep P s g m) (hs : Serves P g s i)
    (hc : MSound g.flow s i) (he : Alu.ecall s.exu.idAlu.info = true)
    (hn : P.exec live word m = some m') :
    MLockstep P (Core.next s i) (g.update P s i) m' := by
  have hr : IntrCtrl.intrReq (intrIn s i.toEarly) = true := by
    change (Alu.ecall s.exu.idAlu.info || _) = true
    rw [he]
    rfl
  have ht : intrFlush s i.toEarly = true := by rw [intrFlush, IntrCtrl.flushEn, hr]; rfl
  have hx : IntrCtrl.intrExit (intrIn s i.toEarly) = false := by
    refine Bool.eq_false_iff.mpr fun hx => ?_
    rw [Alu.ecall_of_mret hl.core.delivers.inv.decoded hx] at he
    cases he
  obtain ⟨hv, -⟩ := hl.core.trapped hc.stray ht
  obtain ⟨w, hw, hn⟩ := Option.bind_eq_some_iff.mp hn
  obtain rfl := hl.core.word hv hw
  have hi : s.exu.idAlu.inst = 0x00000073 := by
    rw [(ecall_word hl.core hv).1] at he
    exact beq_iff_eq.mp he
  rw [if_pos hi] at hn
  have hcause : IntrCtrl.wmcause (intrIn s i.toEarly) = 11 := by
    change (if Alu.ecall s.exu.idAlu.info then (11 : BitVec 64) else _) = 11
    rw [he]
    rfl
  have htval : IntrCtrl.wmtval (intrIn s i.toEarly) = s.exu.idAlu.inst.setWidth 64 := by
    change (if Alu.ecall s.exu.idAlu.info then 0#32 ++ s.exu.idAlu.inst else 0) = _
    rw [he, if_pos rfl, hi]
    rfl
  have hm := hl.next_enter hs hc hr hx
  rw [hcause, htval, Option.some.inj hn] at hm
  exact hm

theorem MLockstep.next_mret (hl : MLockstep P s g m) (hs : Serves P g s i)
    (hc : MSound g.flow s i) (hx : Alu.mret s.exu.idAlu.info = true)
    (hn : P.exec live word m = some m') :
    MLockstep P (Core.next s i) (g.update P s i) m' := by
  have hr : IntrCtrl.intrReq (intrIn s i.toEarly) = false := by
    have ha : aluIntr s i.toEarly = false := by
      have h := hc.system
      rw [systemInterrupted, hx, Bool.true_or, Bool.and_true] at h
      exact h
    change (Alu.ecall s.exu.idAlu.info || aluIntr s i.toEarly) = false
    rw [Alu.ecall_of_mret hl.core.delivers.inv.decoded hx, ha]
    rfl
  have hx' : IntrCtrl.intrExit (intrIn s i.toEarly) = true := hx
  have ht : intrFlush s i.toEarly = true := by
    rw [intrFlush, IntrCtrl.flushEn, hx', Bool.or_true]
  obtain ⟨hv, hch⟩ := hl.core.trapped hc.stray ht
  obtain ⟨w, hw, hn⟩ := Option.bind_eq_some_iff.mp hn
  obtain rfl := hl.core.word hv hw
  have hi : s.exu.idAlu.inst = 0x30200073 := by
    rw [(ecall_word hl.core hv).2] at hx
    exact beq_iff_eq.mp hx
  rw [if_neg (by rw [hi]; decide), if_pos hi] at hn
  obtain ⟨a, ha, rfl⟩ := Option.map_eq_some_iff.mp hn
  have hj := hl.core.next_trap hs hc.core.faultless ht
  rw [IntrCtrl.flushAddr_eq, hr, hx', mask_true, mask_false, BitVec.zero_or] at hj
  have hmepc : s.exu.csr.mepc = a := hl.csrs .mepc a ha
  exact ⟨by rw [← hmepc]; exact hj, hl.csrs.leave hch hr hx'⟩

theorem MLockstep.next_interrupt (hl : MLockstep P s g m) (hs : Serves P g s i)
    (hc : MSound g.flow s i) (ht : intrFlush s i.toEarly = true)
    (he : Alu.ecall s.exu.idAlu.info = false) (hx : Alu.mret s.exu.idAlu.info = false) :
    MLockstep P (Core.next s i) (g.update P s i) (m.interrupt i.intr) := by
  have ha : aluIntr s i.toEarly = true := by
    change (Alu.ecall s.exu.idAlu.info || aluIntr s i.toEarly || Alu.mret s.exu.idAlu.info)
      = true at ht
    rwa [he, hx, Bool.false_or, Bool.or_false] at ht
  have hb : Alu.ebreak s.exu.idAlu.info = false := by
    have h := hc.system
    rw [systemInterrupted, ha, hx] at h
    exact h
  have hr : IntrCtrl.intrReq (intrIn s i.toEarly) = true := by
    change (Alu.ecall s.exu.idAlu.info || aluIntr s i.toEarly) = true
    rw [ha, Bool.or_true]
  have hm := hl.next_enter hs hc hr hx
  have htval : IntrCtrl.wmtval (intrIn s i.toEarly) = 0 := by
    change (if Alu.ecall s.exu.idAlu.info then _ else (0 : BitVec 64)) = 0
    rw [he]
    rfl
  have hk := (hl.csrs.aluIntr_eq i.toEarly).symm.trans ha
  rw [Bool.and_eq_true] at hk
  obtain ⟨cause, hk⟩ := Option.isSome_iff_exists.mp hk.1
  rw [hl.csrs.wmcause he hb hk, htval] at hm
  rw [MHart.interrupt, hk]
  exact hm

theorem retire_of_system {h : Hart} (hw : P.code h.pc = some inst)
    (ho : Rv64i.opcode inst = 0b1110011) (hc : isCsr inst = false)
    (csr : BitVec 12 → BitVec 64) (word : BitVec 64) : P.retire csr word h = none := by
  have hl : Rv64i.isLoad inst = false := by rw [Rv64i.isLoad, ho]; rfl
  have hs : Rv64i.isStore inst = false := by rw [Rv64i.isStore, ho]; rfl
  have hmd : Rv64im.MulDiv.decode inst = none := by
    cases hd : Rv64im.MulDiv.decode inst with
    | none => rfl
    | some n =>
      have hn := Rv64im.MulDiv.encodes_of_decode hd
      have hm : Id.muldivOp inst = true := by
        cases n with
        | mul op => exact MulOp.muldivOp_of_encodes hn
        | div op => exact (divOp_wires hn).1
        | divw op => exact WordDivOp.muldivOp_of_encodes hn
      have ho' : Id.opcode inst = 0b1110011 := ho
      rcases Id.muldivOp_opcode hm with h' | h' <;> rw [ho'] at h' <;> cases h'
  have hi : Rv64i.Instr.decode inst = none := by
    cases hd : Rv64i.Instr.decode inst with
    | none => rfl
    | some n =>
      have h' := Rv64i.Instr.opcode_of_encodes (List.find?_some hd)
      rw [ho] at h'
      cases n <;> cases h'
  have h2 : ¬Rv64i.funct3 inst = 2 := by
    intro hf
    rw [isCsr, ho, hf] at hc
    cases hc
  rw [Platform.retire, hw, Option.bind_some, Platform.permits, Platform.onDevice, hl, hs]
  simp [Rv64im.execute, hmd, hc, Hart.execute, ho, hl, hs, hi]
  exact fun hf => absurd hf h2

theorem zicsr_of_isCsr (h : isCsr inst = true) : Id.zicsr inst = true := by
  simp only [isCsr, Bool.and_eq_true, bne_iff_ne, beq_iff_eq] at h
  have ho : Id.opcode inst = 0b1110011#7 := h.1.1
  have hf : ∀ f : BitVec 3, f ≠ 0 → f ≠ 4 → f.extractLsb' 0 2 ≠ 0 := by decide
  rw [Id.zicsr, Id.csrOp, Id.decCsr, ho, Bool.and_eq_true, bne_iff_ne]
  exact ⟨rfl, hf _ h.1.2 h.2⟩

theorem operand_eq {h : Hart} (hp : Presents s i h) (hz : Id.zicsr s.exu.idAlu.inst = true) :
    Zicsr.operand s.exu.idAlu.inst (aluRs1Data s i.toEarly) =
      Zicsr.operand s.exu.idAlu.inst (h.reg (Rv64i.rs1 s.exu.idAlu.inst)) := by
  rw [Zicsr.operand, Zicsr.operand]
  cases hi : (Id.fun3 s.exu.idAlu.inst).getLsbD 2 with
  | true => rfl
  | false =>
    rw [if_neg Bool.false_ne_true, if_neg Bool.false_ne_true]
    refine hp.rs1 ?_
    have ho : Id.opcode s.exu.idAlu.inst = 0b1110011#7 := by
      rw [Id.zicsr, Bool.and_eq_true] at hz
      exact Id.csrOp_opcode hz.1
    rcases Alu.zicsr_fun3 hz with hf | hf | hf | hf | hf | hf <;> rw [hf] at hi
    · simp [Regfile.useRs1, ho, hf]
    · simp [Regfile.useRs1, ho, hf]
    · simp [Regfile.useRs1, ho, hf]
    · cases hi
    · cases hi
    · cases hi

theorem CsrsAgree.update {c : Csrs} {h : Hart} (ha : CsrsAgree c s.exu.csr) (hp : Presents s i h)
    (hd : s.exu.idAlu.Decoded) (hc : isCsr s.exu.idAlu.inst = true)
    (ht : intrFlush s i.toEarly = false) (hcl : csrClears s i = false)
    (ho : c.old (CsrReg.rdata s.exu.csr) s.exu.idAlu.inst = some old) :
    CsrsAgree (c.update s.exu.idAlu.inst old (h.reg (Rv64i.rs1 s.exu.idAlu.inst)))
      (Core.next s i).exu.csr := by
  have hz := zicsr_of_isCsr hc
  have hw : (csrIn s i).wen = true := (csrReq_of_zicsr hd hz).1
  intro r v hv
  rw [Csrs.update] at hv
  cases hr : Csr.ofAddr (Rv64im.csrAddr s.exu.idAlu.inst) with
  | none =>
    rw [hr] at hv
    exact (Csr.get_next_of_other (i := csrIn s i) ht (Csr.addr_ne_of_ofAddr hr) r).trans (ha r v hv)
  | some r' =>
    rw [hr] at hv
    have haddr : Alu.csrAddr s.exu.idAlu = r'.addr := (Csr.addr_of_ofAddr hr).symm
    refine (Csr.get_next (i := csrIn s i) hw ht haddr r).trans ?_
    rw [Csrs.get_set] at hv
    split
    · rename_i he
      rw [if_pos he] at hv
      rw [← Option.some.inj hv, csrIn_wdata_of_zicsr hd hz haddr, ← operand_eq (i := i) hp hz]
      have hclear : Zicsr.op s.exu.idAlu.inst = .rc →
          Zicsr.operand s.exu.idAlu.inst (aluRs1Data s i.toEarly) = 0 := by
        intro hrc
        rw [csrClears, hc, hrc] at hcl
        simpa using hcl
      rw [(Alu.zicsrWrite_eq_iff _ _ _).mpr hclear]
      rw [Csrs.old] at ho
      split at ho
      · rename_i hrw
        rw [hrw.1]
        rfl
      · rw [← ha.read ho, ← Csr.rdata_addr, ← haddr]
        rfl
    · rename_i he
      rw [if_neg he] at hv
      exact ha r v hv

theorem MLockstep.next_exec (hl : MLockstep P s g m) (hs : Serves P g s i)
    (hc : MSound g.flow s i) (hr : g.flow.retires s i = true)
    (hn : P.exec (CsrReg.rdata s.exu.csr) (P.device g.log.accesses) m = some m') :
    MLockstep P (Core.next s i) (g.update P s i) m' := by
  obtain ⟨hv, hlv⟩ := Flow.retires_cases hr
  have ht := (stallExu_of_leaves hl.core.delivers.inv.decoded hc.core.faultless.refused hlv).2
  obtain ⟨w, hw, hn⟩ := Option.bind_eq_some_iff.mp hn
  obtain rfl := hl.core.word hv hw
  obtain ⟨hecall, hmret⟩ := ecall_word hl.core hv
  have hsys : Alu.ecall s.exu.idAlu.info = false ∧ Alu.mret s.exu.idAlu.info = false := by
    change (Alu.ecall s.exu.idAlu.info || aluIntr s i.toEarly || Alu.mret s.exu.idAlu.info)
      = false at ht
    simp only [Bool.or_eq_false_iff] at ht
    exact ⟨ht.1.1, ht.2⟩
  rw [hsys.1] at hecall
  rw [hsys.2] at hmret
  rw [if_neg (beq_eq_false_iff_ne.mp hecall.symm), if_neg (beq_eq_false_iff_ne.mp hmret.symm)] at hn
  cases hcsr : isCsr s.exu.idAlu.inst with
  | true =>
    rw [hcsr, if_pos rfl] at hn
    obtain ⟨old, ho, hn⟩ := Option.bind_eq_some_iff.mp hn
    obtain ⟨h, hh, rfl⟩ := Option.map_eq_some_iff.mp hn
    have hp := hl.core.presents hs hc.core hr
    refine ⟨hl.core.next_retire hs hc.core hr ?_,
      hl.csrs.update hp hl.core.delivers.inv.decoded hcsr ht (hc.clears hr) ho⟩
    rw [← hh]
    refine Platform.retire_congr fun inst hi _ => ?_
    obtain rfl := Option.some.inj (hw.symm.trans hi)
    rw [Csrs.old] at ho
    split at ho
    · rename_i hrw
      exact .inl hrw.2
    · exact .inr (hl.csrs.read ho)
  | false =>
    rw [hcsr, if_neg Bool.false_ne_true] at hn
    obtain ⟨h, hh, rfl⟩ := Option.map_eq_some_iff.mp hn
    refine ⟨hl.core.next_retire hs hc.core hr hh, hl.csrs.quiet ht ?_⟩
    have hreq : Alu.csrReq s.exu.idAlu.info = false := by
      refine Bool.eq_false_iff.mpr fun hreq => ?_
      rw [(hl.core.text.exDecoded hv).1, Alu.csrReq_info] at hreq
      rw [retire_of_system hw (Id.csrOp_opcode hreq) hcsr] at hh
      cases hh
    change (Alu.csrReq s.exu.idAlu.info && _) = false
    rw [hreq]
    rfl

theorem MLockstep.next (hl : MLockstep P s g m) (hs : Serves P g s i) (hc : MSound g.flow s i)
    (hn : P.mfollow m (g.flow.mevent (P.device g.log.accesses) s i) = some m') :
    MLockstep P (Core.next s i) (g.update P s i) m' := by
  rw [Flow.mevent] at hn
  cases ht : intrFlush s i.toEarly with
  | true =>
    rw [ht, if_pos rfl] at hn
    cases he : Alu.ecall s.exu.idAlu.info with
    | true =>
      rw [he, Bool.true_or, if_pos rfl, Platform.mfollow_one] at hn
      exact hl.next_ecall hs hc he hn
    | false =>
      cases hx : Alu.mret s.exu.idAlu.info with
      | true =>
        rw [hx, Bool.or_true, if_pos rfl, Platform.mfollow_one] at hn
        exact hl.next_mret hs hc hx hn
      | false =>
        rw [he, hx, Bool.or_self, if_neg Bool.false_ne_true, Platform.mfollow_one] at hn
        cases hn
        exact hl.next_interrupt hs hc ht he hx
  | false =>
    rw [ht, if_neg Bool.false_ne_true] at hn
    cases hr : g.flow.retires s i with
    | true =>
      rw [hr, if_pos rfl, Platform.mfollow_one] at hn
      exact hl.next_exec hs hc hr hn
    | false =>
      rw [hr, if_neg Bool.false_ne_true] at hn
      cases hn
      refine ⟨hl.core.next_wait hs hc.core.faultless ht hr, hl.csrs.quiet ht ?_⟩
      have hst := hc.stray
      rw [strayCsrWrite, hr, Bool.not_false, Bool.and_true] at hst
      exact hst

end Step

section Run
variable (P : Platform)

/-- What a run has shown, with the events for a hart in machine mode. -/
structure MShown where
  core : Shown
  events : List MEvent

def MShown.start (m : Bytes.Mem 29) : MShown := { core := Shown.start m, events := [] }

def MShown.update (g : MShown) (s : State) (i : In) : MShown :=
  { core := g.core.update P s i
    events := g.events ++ g.core.flow.mevent (P.device g.core.log.accesses) s i }

def mshown (m : Bytes.Mem 29) (s : State) (i : Nat → In) (n : Nat) : MShown :=
  machine.history (MShown.start m) (MShown.update P) s i n

theorem mlockstep_run (s₀ : State) (i : Nat → In) {m₀ : MHart} (n : Nat)
    (hpc : m₀.hart.pc = Ifu.pcResetAddr + 4) (hx : ∀ r, m₀.hart.x r = 0)
    (hcsr : m₀.csrs = Csrs.reset)
    (hs : ∀ k, k < n →
      Serves P (mshown P m₀.hart.mem s₀.reset i k).core (machine.run s₀.reset i k) (i k))
    (hc : ∀ k, k < n →
      MSound (mshown P m₀.hart.mem s₀.reset i k).core.flow (machine.run s₀.reset i k) (i k)) :
    ∀ m, P.mfollow m₀ (mshown P m₀.hart.mem s₀.reset i n).events = some m →
      MLockstep P (machine.run s₀.reset i n) (mshown P m₀.hart.mem s₀.reset i n).core m := by
  refine machine.history_invariant _ _
    (P := fun s (g : MShown) => ∀ m, P.mfollow m₀ g.events = some m → MLockstep P s g.core m)
    (C := fun s (g : MShown) a => Serves P g.core s a ∧ MSound g.core.flow s a) ?_ ?_
    fun k hk => ⟨hs k hk, hc k hk⟩
  · intro m hf
    obtain rfl : m₀ = m := Option.some.inj hf
    exact ⟨Lockstep.reset P s₀ hpc hx, by rw [hcsr]; exact CsrsAgree.reset s₀⟩
  · intro s g a ⟨hs, hc⟩ ih m hf
    rw [MShown.update, P.mfollow_append] at hf
    obtain ⟨m', hf', he⟩ := Option.bind_eq_some_iff.mp hf
    exact (ih m' hf').next hs hc he

end Run

/-- What can be seen of the core is what a hart in machine mode has: the pc, the registers and the
memory, every CSR value that the hart counts on, and when and why it would be interrupted. -/
structure MShows (P : Platform) (s : State) (g : Shown) (m : MHart) : Prop where
  core : Shows P s g m.hart
  csrs : ∀ r v, m.csrs.get r = some v → r.get s.exu.csr = v
  interrupt : ∀ e : Early, aluIntr s e = ((m.csrs.taken e.intr).isSome && s.exu.idAlu.pc != 0)

/-- In a run without the known faults, over ports that serve the program text, a byte memory and
devices, the core does what an RV64IM hart with machine-mode traps does: that hart decides by its
own CSRs where a trap goes, what it saves, where `mret` returns to and which interrupt is taken. -/
theorem runs_as_machine_hart (P : Platform) (s₀ : State) (i : Nat → In) (m₀ m : MHart) (n : Nat)
    (hpc : m₀.hart.pc = Ifu.pcResetAddr + 4) (hx : ∀ r, m₀.hart.x r = 0)
    (hcsr : m₀.csrs = Csrs.reset)
    (hs : ∀ k, k < n →
      Serves P (mshown P m₀.hart.mem s₀.reset i k).core (machine.run s₀.reset i k) (i k))
    (hc : ∀ k, k < n →
      MSound (mshown P m₀.hart.mem s₀.reset i k).core.flow (machine.run s₀.reset i k) (i k))
    (hf : P.mfollow m₀ (mshown P m₀.hart.mem s₀.reset i n).events = some m) :
    MShows P (machine.run s₀.reset i n) (mshown P m₀.hart.mem s₀.reset i n).core m := by
  have hl := mlockstep_run P s₀ i n hpc hx hcsr hs hc m hf
  exact ⟨hl.core.shows, hl.csrs, hl.csrs.aluIntr_eq⟩

/-- `csrrwi x0, mtvec, 16; ecall`, and at 16 `csrrs x5, mcause, x0; csrrwi x0, mepc, 8; mret`. -/
def trapPlatform : Platform where
  code := fun a =>
    if a = 0x80000000 then some 0x30585073
    else if a = 0x80000004 then some 0x00000073
    else if a = 0x10 then some 0x342022f3
    else if a = 0x14 then some 0x34145073
    else if a = 0x18 then some 0x30200073
    else if a = 0x8 then some 0x00000013
    else none
  text := fun _ => false
  ram := fun _ => true
  device := fun _ => 0

def trapIn (n : Nat) : In :=
  { rsp := { vld := false, rdata := 0 }, intr := 0, lsuReqRdy := true, lsuReqHit := true
    ifuReqRdy := true, ifuRspVld := true
    ifuRdata := if n < 3 then 0x0000007330585073 else if n < 8 then 0x34145073342022f3
      else if n < 10 then 0x0000001330200073 else 0x0000001300000013 }

theorem runs_as_machine_hart_ecall :
    let m₀ : MHart :=
      { hart := { pc := Ifu.pcResetAddr + 4, x := fun _ => 0, mem := fun _ => 0 }
        csrs := Csrs.reset }
    let s := machine.run (default : State).reset trapIn 14
    let g := mshown trapPlatform m₀.hart.mem (default : State).reset trapIn 14
    ∃ m, trapPlatform.mfollow m₀ g.events = some m ∧ g.events.length = 5 ∧
      s.exu.idAlu.pc = 8 ∧ m.hart.pc = 8 ∧ m.hart.reg 5 = 11 := by
  intro m₀ s g
  have hf : (trapPlatform.mfollow m₀ g.events).isSome = true := by decide +kernel
  obtain ⟨m, hf⟩ := Option.isSome_iff_exists.mp hf
  have hr := runs_as_machine_hart trapPlatform default trapIn m₀ m 14 rfl (fun _ => rfl) rfl
    (by decide +kernel) (by decide +kernel) hf
  have hp : s.exu.idAlu.pc = 8 := by decide +kernel
  exact ⟨m, hf, by decide +kernel, hp, (hr.core.pc (by decide +kernel)).symm.trans hp,
    (hr.core.held 5 11 (by decide) (by decide +kernel)).symm⟩

end Core

end Rv64imCore
