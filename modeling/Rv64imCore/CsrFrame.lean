import Rv64imCore.CsrAtomic
import Rv64imCore.TrapReturn

/-! What may change each CSR in a cycle of the EXU, and the two kinds of instruction that change
more. -/

namespace Rv64imCore
set_option autoImplicit true

namespace Exu

section Frame
variable (x : Core.Exu) (i : In)

/-- A Zicsr instruction in EX addresses the CSR. -/
def addresses (addr : BitVec 12) : Bool := Id.zicsr x.idAlu.inst && Alu.csrAddr x.idAlu == addr

/-- Each CSR changes only for one of its own reasons. -/
structure Framed : Prop where
  mepc : (next x i).csr.mepc ≠ x.csr.mepc → intrReq x i = true ∨ addresses x 0x341 = true
  mcause : (next x i).csr.mcause ≠ x.csr.mcause → intrReq x i = true ∨ addresses x 0x342 = true
  mtval : (next x i).csr.mtval ≠ x.csr.mtval → intrReq x i = true ∨ addresses x 0x343 = true
  mstatus : (next x i).csr.mstatus ≠ x.csr.mstatus →
    intrReq x i = true ∨ intrExit x i = true ∨ addresses x 0x300 = true
  mtvec : (next x i).csr.mtvec ≠ x.csr.mtvec → addresses x 0x305 = true
  mie : (next x i).csr.mie ≠ x.csr.mie → addresses x 0x304 = true

/-- An `mret` without a trap loads the zero, or the idle cause, that the trap logic offers. -/
def mretClobbers : Bool :=
  intrExit x i && !intrReq x i &&
    (x.csr.mepc != 0 || x.csr.mcause != IntrCtrl.wmcause (intrIn x i) || x.csr.mtval != 0)

/-- A SYSTEM word that is no Zicsr instruction changes the CSR its upper bits name. -/
def strayWrite : Bool :=
  Alu.csrReq x.idAlu.info && !Id.zicsr x.idAlu.inst && CsrReg.changes x.csr (csrIn x i)

def offFrame : Bool := mretClobbers x i || strayWrite x i

end Frame

section Step
variable {x : Core.Exu} {i : In}

theorem reg_ne_iff (v r c : BitVec 64) (b : Bool) :
    reg false r b v c ≠ c ↔ b = true ∧ v ≠ c := by
  rw [ne_eq, CsrReg.reg_eq_iff]
  simp

theorem mtvec_changes_iff : (next x i).csr.mtvec ≠ x.csr.mtvec ↔
    (csrIn x i).wen = true ∧ (csrIn x i).addr = 0x305 ∧ (csrIn x i).wdata ≠ x.csr.mtvec := by
  refine (reg_ne_iff _ 0 _ _).trans ?_
  rw [Bool.and_eq_true, beq_iff_eq, and_assoc]
  exact Iff.rfl

theorem mie_changes_iff : (next x i).csr.mie ≠ x.csr.mie ↔
    (csrIn x i).wen = true ∧ (csrIn x i).addr = 0x304 ∧ (csrIn x i).wdata ≠ x.csr.mie := by
  refine (reg_ne_iff _ 0x888 _ _).trans ?_
  rw [Bool.and_eq_true, beq_iff_eq, and_assoc]
  exact Iff.rfl

theorem trap_changes_iff (h : (csrIn x i).intrWen = false) (a : BitVec 12) (d c : BitVec 64) :
    reg false 0 (CsrReg.trapWen (csrIn x i) a) (CsrReg.trapWdata (csrIn x i) d) c ≠ c ↔
      (csrIn x i).wen = true ∧ (csrIn x i).addr = a ∧ (csrIn x i).wdata ≠ c := by
  rw [reg_ne_iff, CsrReg.trapWen, CsrReg.trapWdata, h]
  simp [and_assoc]

theorem trap_loads (h : (csrIn x i).intrWen = true) (a : BitVec 12) (d c : BitVec 64) :
    reg false 0 (CsrReg.trapWen (csrIn x i) a) (CsrReg.trapWdata (csrIn x i) d) c = d := by
  rw [CsrReg.trapWen, CsrReg.trapWdata, h]
  simp

theorem intrWen_eq : (csrIn x i).intrWen = (intrReq x i || intrExit x i) := rfl

theorem changes_iff : CsrReg.changes x.csr (csrIn x i) = true ↔ (csrIn x i).wen = true ∧
    (((csrIn x i).addr = 0x305 ∧ (csrIn x i).wdata ≠ x.csr.mtvec) ∨
      ((csrIn x i).addr = 0x304 ∧ (csrIn x i).wdata ≠ x.csr.mie) ∨
      ((csrIn x i).intrWen = false ∧ (((csrIn x i).addr = 0x300 ∧ (csrIn x i).wdata ≠ x.csr.mstatus)
        ∨ ((csrIn x i).addr = 0x341 ∧ (csrIn x i).wdata ≠ x.csr.mepc)
        ∨ ((csrIn x i).addr = 0x342 ∧ (csrIn x i).wdata ≠ x.csr.mcause)
        ∨ ((csrIn x i).addr = 0x343 ∧ (csrIn x i).wdata ≠ x.csr.mtval)))) := by
  simp [CsrReg.changes, or_assoc]

theorem strayWrite_eq_false_iff : strayWrite x i = false ↔
    (CsrReg.changes x.csr (csrIn x i) = true → Id.zicsr x.idAlu.inst = true) := by
  have hw : CsrReg.changes x.csr (csrIn x i) = true → Alu.csrReq x.idAlu.info = true :=
    fun h => (changes_iff.mp h).1
  rw [strayWrite]
  cases Id.zicsr x.idAlu.inst with
  | true => simp
  | false =>
    cases hc : CsrReg.changes x.csr (csrIn x i) with
    | true => simp [hw hc]
    | false => simp

theorem addresses_iff {a : BitVec 12} : addresses x a = true ↔
    Id.zicsr x.idAlu.inst = true ∧ (csrIn x i).addr = a := by
  rw [addresses, Bool.and_eq_true, beq_iff_eq]
  rfl

/-- A change by the instruction's own write is justified exactly by a Zicsr instruction. -/
theorem addressed_iff {P : Prop} {a : BitVec 12} {c : BitVec 64}
    (h : P ↔ (csrIn x i).wen = true ∧ (csrIn x i).addr = a ∧ (csrIn x i).wdata ≠ c) :
    (P → addresses x a = true) ↔ ((csrIn x i).wen = true → (csrIn x i).addr = a →
      (csrIn x i).wdata ≠ c → Id.zicsr x.idAlu.inst = true) := by
  rw [h, addresses_iff (i := i)]
  exact ⟨fun h h1 h2 h3 => (h ⟨h1, h2, h3⟩).1, fun h ⟨h1, h2, h3⟩ => ⟨h h1 h2 h3, h2⟩⟩

theorem framed_iff_of_trap (hr : intrReq x i = true) :
    Framed x i ↔ strayWrite x i = false := by
  have hw : (csrIn x i).intrWen = true := by rw [intrWen_eq, hr]; rfl
  have hf : Framed x i ↔
      ((next x i).csr.mtvec ≠ x.csr.mtvec → addresses x 0x305 = true) ∧
      ((next x i).csr.mie ≠ x.csr.mie → addresses x 0x304 = true) :=
    ⟨fun h => ⟨h.mtvec, h.mie⟩, fun ⟨h1, h2⟩ => ⟨fun _ => .inl hr, fun _ => .inl hr,
      fun _ => .inl hr, fun _ => .inl hr, h1, h2⟩⟩
  rw [hf, addressed_iff mtvec_changes_iff, addressed_iff mie_changes_iff, strayWrite_eq_false_iff,
    changes_iff, hw]
  grind

theorem framed_iff_of_plain (hr : intrReq x i = false) (he : intrExit x i = false) :
    Framed x i ↔ strayWrite x i = false := by
  have hw : (csrIn x i).intrWen = false := by rw [intrWen_eq, hr, he]; rfl
  have hf : Framed x i ↔
      ((next x i).csr.mepc ≠ x.csr.mepc → addresses x 0x341 = true) ∧
      ((next x i).csr.mcause ≠ x.csr.mcause → addresses x 0x342 = true) ∧
      ((next x i).csr.mtval ≠ x.csr.mtval → addresses x 0x343 = true) ∧
      ((next x i).csr.mstatus ≠ x.csr.mstatus → addresses x 0x300 = true) ∧
      ((next x i).csr.mtvec ≠ x.csr.mtvec → addresses x 0x305 = true) ∧
      ((next x i).csr.mie ≠ x.csr.mie → addresses x 0x304 = true) := by
    have hn : ¬intrReq x i = true ∧ ¬intrExit x i = true := by simp [hr, he]
    constructor
    · intro h
      refine ⟨fun hc => ?_, fun hc => ?_, fun hc => ?_, fun hc => ?_, h.mtvec, h.mie⟩
      · exact (h.mepc hc).resolve_left hn.1
      · exact (h.mcause hc).resolve_left hn.1
      · exact (h.mtval hc).resolve_left hn.1
      · exact ((h.mstatus hc).resolve_left hn.1).resolve_left hn.2
    · rintro ⟨h1, h2, h3, h4, h5, h6⟩
      exact ⟨fun hc => .inr (h1 hc), fun hc => .inr (h2 hc), fun hc => .inr (h3 hc),
        fun hc => .inr (.inr (h4 hc)), h5, h6⟩
  have hmepc := trap_changes_iff hw 0x341 (csrIn x i).intrMepc x.csr.mepc
  have hmcause := trap_changes_iff hw 0x342 (csrIn x i).intrMcause x.csr.mcause
  have hmtval := trap_changes_iff hw 0x343 (csrIn x i).intrMtval x.csr.mtval
  have hmstatus := trap_changes_iff hw 0x300 (csrIn x i).intrMstatus x.csr.mstatus
  change (next x i).csr.mepc ≠ _ ↔ _ at hmepc
  change (next x i).csr.mcause ≠ _ ↔ _ at hmcause
  change (next x i).csr.mtval ≠ _ ↔ _ at hmtval
  change (next x i).csr.mstatus ≠ _ ↔ _ at hmstatus
  rw [hf, addressed_iff hmepc, addressed_iff hmcause, addressed_iff hmtval, addressed_iff hmstatus,
    addressed_iff mtvec_changes_iff, addressed_iff mie_changes_iff, strayWrite_eq_false_iff,
    changes_iff, hw]
  constructor
  · rintro ⟨h1, h2, h3, h4, h5, h6⟩
      ⟨he, ⟨ha, hd⟩ | ⟨ha, hd⟩ | ⟨-, ⟨ha, hd⟩ | ⟨ha, hd⟩ | ⟨ha, hd⟩ | ⟨ha, hd⟩⟩⟩
    exacts [h5 he ha hd, h6 he ha hd, h4 he ha hd, h1 he ha hd, h2 he ha hd, h3 he ha hd]
  · intro h
    exact ⟨fun he ha hd => h ⟨he, .inr (.inr ⟨rfl, .inr (.inl ⟨ha, hd⟩)⟩)⟩,
      fun he ha hd => h ⟨he, .inr (.inr ⟨rfl, .inr (.inr (.inl ⟨ha, hd⟩))⟩)⟩,
      fun he ha hd => h ⟨he, .inr (.inr ⟨rfl, .inr (.inr (.inr ⟨ha, hd⟩))⟩)⟩,
      fun he ha hd => h ⟨he, .inr (.inr ⟨rfl, .inl ⟨ha, hd⟩⟩)⟩,
      fun he ha hd => h ⟨he, .inl ⟨ha, hd⟩⟩, fun he ha hd => h ⟨he, .inr (.inl ⟨ha, hd⟩)⟩⟩

/-- The CSR field of `mret` names none of the registers. -/
theorem mret_word (hd : x.idAlu.Decoded) (he : intrExit x i = true) :
    x.idAlu.inst = 0x30200073#32 := by
  have hm : Alu.mret x.idAlu.info = true := he
  rcases hd with ⟨hi, -⟩ | hb
  · rw [hi, Alu.mret_info] at hm
    simpa [Id.mret] using hm
  · rw [hb] at hm
    cases hm

theorem framed_iff_of_mret (hd : x.idAlu.Decoded) (hr : intrReq x i = false)
    (he : intrExit x i = true) : Framed x i ↔ mretClobbers x i = false := by
  have hw : (csrIn x i).intrWen = true := by rw [intrWen_eq, he, Bool.or_true]
  have hinst := mret_word hd he
  have haddr : (csrIn x i).addr = 0x302#12 := by
    change x.idAlu.inst.extractLsb' 20 12 = _
    rw [hinst]; decide
  have hz : ∀ a, addresses x a = false := by
    intro a
    rw [addresses, hinst]
    rfl
  have hmepc : (next x i).csr.mepc = 0 := by
    refine (trap_loads hw 0x341 _ _).trans ?_
    change (if intrReq x i then x.idAlu.pc else 0) = _
    rw [hr]; rfl
  have hmcause : (next x i).csr.mcause = IntrCtrl.wmcause (intrIn x i) := trap_loads hw 0x342 _ _
  have hmtval : (next x i).csr.mtval = 0 := by
    refine (trap_loads hw 0x343 _ _).trans ?_
    change (if Alu.ecall x.idAlu.info then _ else 0) = _
    rw [Alu.ecall_of_mret hd he]; rfl
  have hmtvec : (next x i).csr.mtvec = x.csr.mtvec := by
    by_contra hc
    have := (mtvec_changes_iff.mp hc).2.1
    rw [haddr] at this
    exact absurd this (by decide)
  have hmie : (next x i).csr.mie = x.csr.mie := by
    by_contra hc
    have := (mie_changes_iff.mp hc).2.1
    rw [haddr] at this
    exact absurd this (by decide)
  have hn : ∀ a, ¬(intrReq x i = true ∨ addresses x a = true) := by simp [hr, hz]
  have hc : mretClobbers x i = false ↔
      x.csr.mepc = 0 ∧ x.csr.mcause = IntrCtrl.wmcause (intrIn x i) ∧ x.csr.mtval = 0 := by
    rw [mretClobbers, hr, he]
    simp only [Bool.not_false, Bool.true_and, Bool.or_eq_false_iff, bne_eq_false_iff_eq, and_assoc]
  rw [hc]
  constructor
  · intro h
    refine ⟨?_, ?_, ?_⟩
    · by_contra hne
      exact hn _ (h.mepc (by rw [hmepc]; exact Ne.symm hne))
    · by_contra hne
      exact hn _ (h.mcause (by rw [hmcause]; exact Ne.symm hne))
    · by_contra hne
      exact hn _ (h.mtval (by rw [hmtval]; exact Ne.symm hne))
  · rintro ⟨h1, h2, h3⟩
    exact ⟨fun h => absurd (hmepc.trans h1.symm) h, fun h => absurd (hmcause.trans h2.symm) h,
      fun h => absurd (hmtval.trans h3.symm) h, fun _ => .inr (.inl he),
      fun h => absurd hmtvec h, fun h => absurd hmie h⟩

theorem framed_iff (hd : x.idAlu.Decoded) : Framed x i ↔ offFrame x i = false := by
  rw [offFrame, Bool.or_eq_false_iff]
  cases hr : intrReq x i with
  | true =>
    rw [framed_iff_of_trap hr]
    exact ⟨fun h => ⟨by simp [mretClobbers, hr], h⟩, fun h => h.2⟩
  | false =>
    cases he : intrExit x i with
    | false =>
      rw [framed_iff_of_plain hr he]
      exact ⟨fun h => ⟨by simp [mretClobbers, he], h⟩, fun h => h.2⟩
    | true =>
      rw [framed_iff_of_mret hd hr he]
      refine ⟨fun h => ⟨h, ?_⟩, fun h => h.1⟩
      rw [strayWrite_eq_false_iff, changes_iff]
      have haddr : (csrIn x i).addr = 0x302#12 := by
        change x.idAlu.inst.extractLsb' 20 12 = _
        rw [mret_word hd he]; decide
      have hw : (csrIn x i).intrWen = true := by rw [intrWen_eq, he, Bool.or_true]
      rw [haddr, hw]
      rintro ⟨-, ⟨h', -⟩ | ⟨h', -⟩ | ⟨h', -⟩⟩
      · exact absurd h' (by decide)
      · exact absurd h' (by decide)
      · cases h'

end Step

/-- In every run of the EXU, every CSR changes only for its own reasons exactly when no `mret`
overwrites the trap registers and no SYSTEM word outside Zicsr changes a CSR. -/
theorem csr_frame_iff (x : Core.Exu) (i : Nat → In) :
    let S := machine.run (reset x) i
    (∀ n, Framed (S n) (i n)) ↔ ∀ n, offFrame (S n) (i n) = false := by
  intro S
  exact forall_congr' fun n => framed_iff (decoded_run (.inr rfl) i n)

/-- The `mret` of a trap handler clears `mepc`. -/
theorem mret_clears_mepc :
    (machine.run (reset default) ecallMret 3).csr.mepc = 0x80000000 ∧
    Id.mret (machine.run (reset default) ecallMret 3).idAlu.inst = true ∧
    (machine.run (reset default) ecallMret 4).csr.mepc = 0 ∧
    ¬Framed (machine.run (reset default) ecallMret 3) (ecallMret 3) := by
  refine ⟨by decide +kernel, by decide +kernel, by decide +kernel, fun h => ?_⟩
  rw [framed_iff (decoded_run (.inr rfl) ecallMret 3)] at h
  exact absurd h (by decide +kernel)

end Exu

end Rv64imCore
