import Rv64imCore.Exu
import Mathlib.Logic.Basic

/-! Trap entry and `mret` in EX: which of the two a cycle performs, and that the second undoes the
first. -/

namespace Rv64imCore
set_option autoImplicit true

namespace Alu

/-- A system word carries its own operation word: the CSR bits of `funct3` zero are all clear. -/
theorem opInfo_sys {inst : BitVec 32} (h : Id.sysOp inst = true) :
    (Id.info inst).opInfo = Id.sysInfo inst := by
  have hc := (classes_info inst).sys (by rw [sysReq_info, h])
  simp only [aluReq_info, memReq_info, bjpReq_info, muldivReq_info] at hc
  have hz : mask (Id.csrOp inst) (Id.csrInfo inst) = 0#14 := by
    rcases Id.sysOp_opcode h with ho | ⟨-, hf⟩
    · have hn : Id.csrOp inst = false := by simp [Id.csrOp, Id.decCsr, ho]
      rw [hn, mask_false]
    · have hn : ∀ f, f ≠ 0 → Id.csr inst f = false := by
        intro f h0
        rw [Id.csr, hf, beq_false_of_ne h0.symm, Bool.and_false]
      have hi : Id.csrInfo inst = 0#14 := by
        rw [Id.csrInfo, Id.csrrw, Id.csrrs, Id.csrrc, Id.csrrwi, Id.csrrsi, Id.csrrci,
          hn 1#3 (by decide), hn 2#3 (by decide), hn 3#3 (by decide), hn 5#3 (by decide),
          hn 6#3 (by decide), hn 7#3 (by decide)]
        rfl
      rw [hi]
      cases Id.csrOp inst <;> simp
  simp [Id.info, h, hc, hz]

@[simp] theorem ecall_info (inst : BitVec 32) : ecall (Id.info inst) = Id.ecall inst := by
  cases h : Id.sysOp inst with
  | true =>
    simp only [ecall, sysReq_info, h, opInfo_sys h, Id.sysInfo, BitVec.getLsbD_ofBoolListBE]
    rfl
  | false =>
    have : Id.ecall inst = false := by
      simp only [Id.sysOp, Bool.or_eq_false_iff] at h
      exact h.1.1.2
    simp [ecall, h, this]

@[simp] theorem mret_info (inst : BitVec 32) : mret (Id.info inst) = Id.mret inst := by
  cases h : Id.sysOp inst with
  | true =>
    simp only [mret, sysReq_info, h, opInfo_sys h, Id.sysInfo, BitVec.getLsbD_ofBoolListBE]
    rfl
  | false =>
    have : Id.mret inst = false := by
      simp only [Id.sysOp, Bool.or_eq_false_iff] at h
      exact h.2
    simp [mret, h, this]

theorem ecall_of_mret {x : IdAlu} (hd : x.Decoded) (h : mret x.info = true) :
    ecall x.info = false := by
  rcases hd with ⟨hi, -⟩ | rfl
  · rw [hi, mret_info] at h
    rw [hi, ecall_info]
    simp only [Id.mret, beq_iff_eq] at h
    rw [h]
    decide
  · rfl

end Alu

namespace IntrCtrl

/-- `mstatus` after a trap: MPIE takes MIE, MIE is cleared, the other bits stay. -/
def enterMstatus (m : BitVec 64) : BitVec 64 :=
  Bits.ofFn (fun k => if k = 7 then m.getLsbD 3 else if k = 3 then false else m.getLsbD k) 64

/-- `mstatus` after a return: MIE takes MPIE, MPIE is set, the other bits stay. -/
def returnMstatus (m : BitVec 64) : BitVec 64 :=
  Bits.ofFn (fun k => if k = 3 then m.getLsbD 7 else if k = 7 then true else m.getLsbD k) 64

/-- The trap vector: `mtvec` with its low two bits cleared. -/
def base (mtvec : BitVec 64) : BitVec 64 := mtvec &&& ~~~3#64

theorem fields_eq (m : BitVec 64) (b c : BitVec 1) :
    m.extractLsb' 8 56 ++ b ++ m.extractLsb' 4 3 ++ c ++ m.extractLsb' 0 3 =
      Bits.ofFn (fun k => if k = 7 then b.getLsbD 0 else if k = 3 then c.getLsbD 0
        else m.getLsbD k) 64 := by
  apply BitVec.eq_of_getLsbD_eq
  intro k hk
  simp only [BitVec.getLsbD_append, BitVec.getLsbD_extractLsb', Bits.getLsbD_ofFn]
  by_cases h3 : k < 3
  · simp [h3, show k < 64 by omega, show k ≠ 7 by omega, show k ≠ 3 by omega]
  · by_cases h4 : k = 3
    · subst h4; simp
    · by_cases h7 : k < 7
      · simp [h3, h4, show k < 64 by omega, show k ≠ 7 by omega, show ¬k - 3 < 1 by omega,
          show k - 3 - 1 < 3 by omega, show 4 + (k - 3 - 1) = k by omega]
      · by_cases h8 : k = 7
        · subst h8; simp
        · simp [h3, h4, h8, show k < 64 by omega, show ¬k - 3 < 1 by omega,
            show ¬k - 3 - 1 < 3 by omega, show ¬k - 3 - 1 - 3 < 1 by omega,
            show k - 3 - 1 - 3 - 1 < 56 by omega, show 8 + (k - 3 - 1 - 3 - 1) = k by omega]

theorem base_eq (v : BitVec 64) : v.extractLsb' 2 62 ++ 0#2 = base v :=
  Bits.clear_low (n := 62) (j := 2) v

theorem flushAddr_eq (i : In) :
    flushAddr i = mask (intrReq i) (base i.mtvec) ||| mask (intrExit i) i.mepc := by
  rw [flushAddr, base_eq]

theorem wmstatus_eq (i : In) :
    wmstatus i = mask (intrReq i) (enterMstatus i.mstatus) |||
      mask (intrExit i) (returnMstatus i.mstatus) := by
  rw [wmstatus, fields_eq, fields_eq]
  congr 2
  · refine congrArg (Bits.ofFn · 64) (funext fun k => ?_)
    simp
  · refine congrArg (Bits.ofFn · 64) (funext fun k => ?_)
    by_cases h7 : k = 7
    · subst h7; simp
    · simp [h7]

/-- A return already sets every bit of `mstatus` that a trap would. -/
theorem enter_or_return (m : BitVec 64) :
    enterMstatus m ||| returnMstatus m = returnMstatus m := by
  apply BitVec.eq_of_getLsbD_eq
  intro k hk
  simp only [enterMstatus, returnMstatus, BitVec.getLsbD_or, Bits.getLsbD_ofFn]
  by_cases h7 : k = 7
  · subst h7; simp
  · by_cases h3 : k = 3
    · subst h3; simp
    · simp [h3, h7]

theorem return_eq_enter_iff {m : BitVec 64} (h : m.getLsbD 3 = true) :
    returnMstatus m = enterMstatus m ↔ m.getLsbD 7 = false := by
  constructor
  · intro he
    have h3 : (returnMstatus m).getLsbD 3 = (enterMstatus m).getLsbD 3 := by rw [he]
    rw [returnMstatus, enterMstatus, Bits.getLsbD_ofFn, Bits.getLsbD_ofFn] at h3
    exact h3
  · intro h7
    apply BitVec.eq_of_getLsbD_eq
    intro k hk
    simp only [enterMstatus, returnMstatus, Bits.getLsbD_ofFn]
    by_cases hk7 : k = 7
    · subst hk7; simp [h]
    · by_cases hk3 : k = 3
      · subst hk3; rw [if_pos rfl, h7]; rfl
      · simp [hk3, hk7]

end IntrCtrl

namespace Exu

section Effects
variable (x : Core.Exu) (i : In)

def intrReq : Bool := IntrCtrl.intrReq (intrIn x i)
def intrExit : Bool := IntrCtrl.intrExit (intrIn x i)
def asyncIntr : Bool := IntrCtrl.asyncIntr (intrIn x i)
/-- `o_intr_flush_en` and `o_intr_flush_addr`. -/
def flushEn : Bool := IntrCtrl.flushEn (intrIn x i)
def flushAddr : BitVec 64 := IntrCtrl.flushAddr (intrIn x i)

/-- The cycle performs a trap: redirect to the vector, save the pc, stack the interrupt enable. -/
structure Enters : Prop where
  addr : flushAddr x i = IntrCtrl.base x.csr.mtvec
  mepc : (next x i).csr.mepc = x.idAlu.pc
  mstatus : (next x i).csr.mstatus = IntrCtrl.enterMstatus x.csr.mstatus

/-- The cycle performs a return: redirect to `mepc`, unstack the interrupt enable. -/
structure Returns : Prop where
  addr : flushAddr x i = x.csr.mepc
  mstatus : (next x i).csr.mstatus = IntrCtrl.returnMstatus x.csr.mstatus

/-- The cycle performs one of the two, for its own reason, and not the other. -/
def Exclusive : Prop :=
  Xor (intrReq x i = true ∧ Enters x i) (intrExit x i = true ∧ Returns x i)

/-- An `mret` meets an interrupt, and the or of the two redirects and of the two values of
`mstatus` is not just one of the pair. -/
def mixes : Bool :=
  intrExit x i && asyncIntr x i &&
    ((!x.csr.mstatus.getLsbD 7
        && (IntrCtrl.base x.csr.mtvec ||| x.csr.mepc) == IntrCtrl.base x.csr.mtvec)
      == ((IntrCtrl.base x.csr.mtvec ||| x.csr.mepc) == x.csr.mepc))

/-- The cycle writes the CSR at `addr`, for an instruction or for the trap logic. -/
def writes (addr : BitVec 12) : Bool := CsrReg.trapWen (csrIn x i) addr

end Effects

section Step
variable {x : Core.Exu} {i : In}

theorem flushAddr_eq : flushAddr x i =
    mask (intrReq x i) (IntrCtrl.base x.csr.mtvec) ||| mask (intrExit x i) x.csr.mepc :=
  IntrCtrl.flushAddr_eq _

theorem next_mstatus (h : flushEn x i = true) : (next x i).csr.mstatus =
    mask (intrReq x i) (IntrCtrl.enterMstatus x.csr.mstatus) |||
      mask (intrExit x i) (IntrCtrl.returnMstatus x.csr.mstatus) := by
  refine Eq.trans ?_ (IntrCtrl.wmstatus_eq (intrIn x i))
  change reg false 0 (CsrReg.trapWen (csrIn x i) 0x300) (CsrReg.trapWdata (csrIn x i) _) _ = _
  have hw : (csrIn x i).intrWen = true := h
  rw [CsrReg.trapWen, CsrReg.trapWdata, hw, Bool.or_true]
  rfl

theorem next_mepc (h : intrReq x i = true) : (next x i).csr.mepc = x.idAlu.pc := by
  change reg false 0 (CsrReg.trapWen (csrIn x i) 0x341) (CsrReg.trapWdata (csrIn x i) _) _ = _
  have hw : (csrIn x i).intrWen = true := by
    change (intrReq x i || intrExit x i) = true
    rw [h]; rfl
  rw [CsrReg.trapWen, CsrReg.trapWdata, hw, Bool.or_true]
  change (if intrReq x i then x.idAlu.pc else 0) = _
  rw [if_pos h]

theorem flushEn_of_req (h : intrReq x i = true) : flushEn x i = true := by
  change (intrReq x i || intrExit x i) = true
  rw [h]; rfl

theorem flushEn_of_exit (h : intrExit x i = true) : flushEn x i = true := by
  change (intrReq x i || intrExit x i) = true
  rw [h]; exact Bool.or_true _

theorem enters_of_req (hr : intrReq x i = true) (he : intrExit x i = false) : Enters x i where
  addr := by rw [flushAddr_eq, hr, he]; simp
  mepc := next_mepc hr
  mstatus := by rw [next_mstatus (flushEn_of_req hr), hr, he]; simp

theorem returns_of_exit (hr : intrReq x i = false) (he : intrExit x i = true) : Returns x i where
  addr := by rw [flushAddr_eq, hr, he]; simp
  mstatus := by rw [next_mstatus (flushEn_of_exit he), hr, he]; simp

theorem intrReq_of_exit (hd : x.idAlu.Decoded) (he : intrExit x i = true) :
    intrReq x i = asyncIntr x i := by
  have h : Alu.ecall x.idAlu.info = false := Alu.ecall_of_mret hd he
  change (Alu.ecall x.idAlu.info || asyncIntr x i) = _
  rw [h, Bool.false_or]

theorem mie_of_async (h : asyncIntr x i = true) : x.csr.mstatus.getLsbD 3 = true := by
  cases hm : x.csr.mstatus.getLsbD 3 with
  | true => rfl
  | false =>
    have hg : IntrCtrl.globalIntrEn (intrIn x i) = false := hm
    simp [asyncIntr, IntrCtrl.asyncIntr, IntrCtrl.externalIntrSel, IntrCtrl.externalIntr,
      IntrCtrl.softwareIntrSel, IntrCtrl.softwareIntr, IntrCtrl.timeIntrSel, IntrCtrl.timeIntr,
      hg] at h

theorem enters_both_iff (hr : intrReq x i = true) (he : intrExit x i = true)
    (ha : asyncIntr x i = true) : Enters x i ↔
    x.csr.mstatus.getLsbD 7 = false ∧
      IntrCtrl.base x.csr.mtvec ||| x.csr.mepc = IntrCtrl.base x.csr.mtvec := by
  have haddr : flushAddr x i = IntrCtrl.base x.csr.mtvec ||| x.csr.mepc := by
    rw [flushAddr_eq, hr, he]; simp
  have hst : (next x i).csr.mstatus = IntrCtrl.returnMstatus x.csr.mstatus := by
    rw [next_mstatus (flushEn_of_req hr), hr, he]
    simpa using IntrCtrl.enter_or_return x.csr.mstatus
  have h7 := IntrCtrl.return_eq_enter_iff (mie_of_async ha)
  constructor
  · intro h
    exact ⟨h7.mp (hst.symm.trans h.mstatus), haddr.symm.trans h.addr⟩
  · rintro ⟨hp, hb⟩
    exact ⟨haddr.trans hb, next_mepc hr, hst.trans (h7.mpr hp)⟩

theorem returns_both_iff (hr : intrReq x i = true) (he : intrExit x i = true) :
    Returns x i ↔ IntrCtrl.base x.csr.mtvec ||| x.csr.mepc = x.csr.mepc := by
  have haddr : flushAddr x i = IntrCtrl.base x.csr.mtvec ||| x.csr.mepc := by
    rw [flushAddr_eq, hr, he]; simp
  have hst : (next x i).csr.mstatus = IntrCtrl.returnMstatus x.csr.mstatus := by
    rw [next_mstatus (flushEn_of_req hr), hr, he]
    simpa using IntrCtrl.enter_or_return x.csr.mstatus
  exact ⟨fun h => haddr.symm.trans h.addr, fun h => ⟨haddr.trans h, hst⟩⟩

theorem exclusive_iff (hd : x.idAlu.Decoded) (h : flushEn x i = true) :
    Exclusive x i ↔ mixes x i = false := by
  cases he : intrExit x i with
  | false =>
    have hr : intrReq x i = true := by
      change (intrReq x i || intrExit x i) = true at h
      rwa [he, Bool.or_false] at h
    refine iff_of_true (.inl ⟨⟨hr, enters_of_req hr he⟩, ?_⟩) (by simp [mixes, he])
    rintro ⟨h', -⟩
    rw [he] at h'; cases h'
  | true =>
    have hra := intrReq_of_exit hd he
    cases ha : asyncIntr x i with
    | false =>
      rw [ha] at hra
      refine iff_of_true (.inr ⟨⟨he, returns_of_exit hra he⟩, ?_⟩) (by simp [mixes, ha])
      rintro ⟨h', -⟩
      rw [hra] at h'; cases h'
    | true =>
      rw [ha] at hra
      rw [Exclusive, enters_both_iff hra he ha, returns_both_iff hra he, mixes, hra, he, ha,
        Xor]
      generalize IntrCtrl.base x.csr.mtvec ||| x.csr.mepc = o
      cases x.csr.mstatus.getLsbD 7 <;> by_cases hb : o = IntrCtrl.base x.csr.mtvec <;>
        by_cases hm : o = x.csr.mepc <;> simp [hb, hm]

theorem next_mstatus_of_quiet (h : writes x i 0x300 = false) :
    (next x i).csr.mstatus = x.csr.mstatus := by
  change reg false 0 (writes x i 0x300) _ _ = _
  rw [h, reg_hold]

theorem next_mepc_of_quiet (h : writes x i 0x341 = false) : (next x i).csr.mepc = x.csr.mepc := by
  change reg false 0 (writes x i 0x341) _ _ = _
  rw [h, reg_hold]

/-- After a trap interrupts are off, so an `mret` is alone in its cycle. -/
theorem returns_of_entered (hd : x.idAlu.Decoded) {m : BitVec 64}
    (hm : x.csr.mstatus = IntrCtrl.enterMstatus m) (he : intrExit x i = true) : Returns x i := by
  refine returns_of_exit ?_ he
  rw [intrReq_of_exit hd he, Bool.eq_false_iff]
  intro ha
  have h3 := mie_of_async ha
  rw [hm, IntrCtrl.enterMstatus, Bits.getLsbD_ofFn] at h3
  cases h3

end Step

/-- Every trap or return is one of the two alone, exactly when the cycle does not mix them; and an
`mret` after a trap, with no write to `mstatus` or `mepc` between them, resumes at the interrupted
pc with the interrupt enable of before the trap. -/
theorem trap_return_exclusive_iff (x : Core.Exu) (hd : x.idAlu.Decoded) (i : Nat → In) :
    let S := machine.run x i
    (∀ n, flushEn (S n) (i n) = true →
      (Exclusive (S n) (i n) ↔ mixes (S n) (i n) = false)) ∧
    ∀ t u, t < u → intrReq (S t) (i t) = true → Enters (S t) (i t) →
      (∀ k, t < k → k < u →
        writes (S k) (i k) 0x300 = false ∧ writes (S k) (i k) 0x341 = false) →
      intrExit (S u) (i u) = true →
      Returns (S u) (i u) ∧ flushAddr (S u) (i u) = (S t).idAlu.pc ∧
        (S (u + 1)).csr.mstatus.getLsbD 3 = (S t).csr.mstatus.getLsbD 3 := by
  intro S
  have hdec : ∀ n, (S n).idAlu.Decoded := decoded_run hd i
  refine ⟨fun n => exclusive_iff (hdec n), fun t u htu _ hent hq he => ?_⟩
  obtain ⟨hst, hpc⟩ : (S u).csr.mstatus = IntrCtrl.enterMstatus (S t).csr.mstatus ∧
      (S u).csr.mepc = (S t).idAlu.pc := by
    refine Clocked.kept (P := fun k => (S k).csr.mstatus = IntrCtrl.enterMstatus (S t).csr.mstatus ∧
      (S k).csr.mepc = (S t).idAlu.pc) htu ⟨hent.mstatus, hent.mepc⟩ ?_
    rintro k htk hku ⟨h1, h2⟩
    obtain ⟨hq1, hq2⟩ := hq k htk hku
    exact ⟨(next_mstatus_of_quiet hq1).trans h1, (next_mepc_of_quiet hq2).trans h2⟩
  have hret := returns_of_entered (hdec u) hst he
  refine ⟨hret, hret.addr.trans hpc, ?_⟩
  have hs : (S (u + 1)).csr.mstatus = IntrCtrl.returnMstatus (S u).csr.mstatus := hret.mstatus
  rw [hs, hst, IntrCtrl.returnMstatus, Bits.getLsbD_ofFn, if_pos rfl, IntrCtrl.enterMstatus,
    Bits.getLsbD_ofFn]
  rfl

/-- Instructions without a stall: each enters EX in the cycle after it is offered. -/
def offer (prog : List (BitVec 32 × BitVec 64)) (intr : Nat → BitVec 3) (n : Nat) : In :=
  let p := prog.getD n (instNop, 0)
  { inst := p.1, pc := 0x80000000 + BitVec.ofNat 64 (4 * n), predictPt := false, rs1Data := p.2
    rs2Data := 0, loadBypassVld := false, loadBypassRd := 0, loadBypassData := 0, flush := false
    stall := false, intr := intr n }

/-- `csrrw mtvec; csrrw mepc; csrrsi mstatus, 8; mret`, with the timer pending at the `mret`. -/
def mretUnderTimer : Nat → In :=
  offer [(0x30509073, 0x80001000), (0x34109073, 0x80000204), (0x30046073, 0), (0x30200073, 0)]
    (fun n => if n = 4 then 1 else 0)

/-- The `mret` redirects to the or of the trap vector and `mepc`. -/
theorem mret_redirect_mixed :
    flushEn (machine.run (reset default) mretUnderTimer 4) (mretUnderTimer 4) = true ∧
    flushAddr (machine.run (reset default) mretUnderTimer 4) (mretUnderTimer 4) = 0x80001204 ∧
    ¬Exclusive (machine.run (reset default) mretUnderTimer 4) (mretUnderTimer 4) := by
  have hf : flushEn (machine.run (reset default) mretUnderTimer 4) (mretUnderTimer 4) = true := by
    decide +kernel
  refine ⟨hf, by decide +kernel, ?_⟩
  rw [exclusive_iff (decoded_run (.inr rfl) mretUnderTimer 4) hf]
  decide +kernel

/-- An `ecall`, a `nop` and an `mret`. -/
def ecallMret : Nat → In :=
  offer [(0x00000073, 0), (0x00000013, 0), (0x30200073, 0)] (fun _ => 0)

theorem trap_return_exclusive_ecall :
    flushEn (machine.run (reset default) ecallMret 1) (ecallMret 1) = true ∧
    Exclusive (machine.run (reset default) ecallMret 1) (ecallMret 1) ∧
    flushAddr (machine.run (reset default) ecallMret 3) (ecallMret 3) = 0x80000000 := by
  have h := trap_return_exclusive_iff (reset default) (.inr rfl) ecallMret
  have hf : flushEn (machine.run (reset default) ecallMret 1) (ecallMret 1) = true := by
    decide +kernel
  have hr : intrReq (machine.run (reset default) ecallMret 1) (ecallMret 1) = true := by
    decide +kernel
  have he : intrExit (machine.run (reset default) ecallMret 1) (ecallMret 1) = false := by
    decide +kernel
  refine ⟨hf, (h.1 1 hf).mpr (by decide +kernel), ?_⟩
  refine (h.2 1 3 (by decide) hr (enters_of_req hr he) (fun k h1 h2 => ?_)
    (by decide +kernel)).2.1.trans (by decide +kernel)
  obtain rfl : k = 2 := by omega
  exact ⟨by decide +kernel, by decide +kernel⟩

end Exu

end Rv64imCore
