import Rv64imCore.Zicsr

/-! A CSR instruction in EX as one atomic read-modify-write of the CSR file. -/

namespace Rv64imCore
set_option autoImplicit true

namespace Sys

def aluIntr (s : State) (i : In) : Bool := Core.aluIntr s.core (early s i)
def csrIn (s : State) (i : In) : CsrReg.In := Core.csrIn s.core (coreIn s i)

/-- The operand of the CSR instruction in EX, with rs1 as it is forwarded. -/
def csrOperand (s : State) (i : In) : BitVec 64 :=
  Zicsr.operand s.core.exu.idAlu.inst (Core.aluRs1Data s.core (early s i))

/-- The CSR instruction in EX leaves in this cycle with no trap beside it. The CSR it addresses
takes the new value, whatever else is in the file goes on as without it, and the old value is on its
way to MEM and on the forwarding path to ID. -/
structure CsrCommits (s : State) (i : In) : Prop where
  leaves : stallExu s i = false
  wen : (csrIn s i).wen = true
  noTrap : (csrIn s i).intrWen = false
  update : ∀ c : Csr, Alu.csrAddr s.core.exu.idAlu = c.addr →
    c.get (next s i).core.exu.csr =
      Alu.zicsrWrite (c.get s.core.exu.csr) (csrOperand s i) (Zicsr.op s.core.exu.idAlu.inst)
  -- `zicsrWrite` is the operation itself for all but a clear of a nonzero operand
  intended : ∀ c : Csr, Alu.csrAddr s.core.exu.idAlu = c.addr →
    (Zicsr.op s.core.exu.idAlu.inst = .rc → csrOperand s i = 0) →
    c.get (next s i).core.exu.csr =
      (Zicsr.op s.core.exu.idAlu.inst).write (c.get s.core.exu.csr) (csrOperand s i)
  others : ∀ d : Csr, Alu.csrAddr s.core.exu.idAlu ≠ d.addr →
    d.get (next s i).core.exu.csr = d.get (CsrReg.next s.core.exu.csr (csrIn s i).noWrite)
  mip : (next s i).core.exu.csr.mip = (CsrReg.next s.core.exu.csr (csrIn s i).noWrite).mip
  cycle : (next s i).core.exu.csr.cycle = (CsrReg.next s.core.exu.csr (csrIn s i).noWrite).cycle
  rdWen : (next s i).core.lsu.mem.rdWen = true
  rdIndex : (next s i).core.lsu.mem.rdIndex = Id.rd s.core.exu.idAlu.inst
  rdData : (next s i).core.lsu.mem.rdData =
    CsrReg.rdata s.core.exu.csr (Alu.csrAddr s.core.exu.idAlu)
  forwarded : Core.exuPort s.core (coreIn s i) =
    { wen := true, index := Id.rd s.core.exu.idAlu.inst
      data := CsrReg.rdata s.core.exu.csr (Alu.csrAddr s.core.exu.idAlu) }

/-- From cycle `a` on the CSR instruction in EX leaves no trace in the CSR file while it is held,
until an interrupt kills it, still without a trace, or it commits. -/
def CsrAtomic (s : State) (i : Nat → In) (a : Nat) : Prop :=
  let S := machine.run s i
  ∃ b, a ≤ b ∧
    (∀ j, a ≤ j → j < b → aluIntr (S j) (i j) = false ∧
      (S (j + 1)).core.exu.idAlu = (S j).core.exu.idAlu ∧
      (S (j + 1)).core.exu.csr = CsrReg.next (S j).core.exu.csr (csrIn (S j) (i j)).noWrite) ∧
    (aluIntr (S b) (i b) = true ∧
        (S (b + 1)).core.exu.csr = CsrReg.next (S b).core.exu.csr (csrIn (S b) (i b)).noWrite ∨
      aluIntr (S b) (i b) = false ∧ CsrCommits (S b) (i b))

/-- A CSR instruction changes a register in a cycle in which it is held or killed. -/
def earlyCsrWrite (s : State) (i : In) : Bool :=
  Id.zicsr s.core.exu.idAlu.inst && (memStall s i || aluIntr s i) &&
    CsrReg.changes s.core.exu.csr (csrIn s i)

section Step
variable {s : State} {i : In}

theorem next_csr : (next s i).core.exu.csr = CsrReg.next s.core.exu.csr (csrIn s i) := rfl

theorem next_csr_of_early (hz : Id.zicsr s.core.exu.idAlu.inst = true)
    (hm : memStall s i = true ∨ aluIntr s i = true) (hc : earlyCsrWrite s i = false) :
    (next s i).core.exu.csr = CsrReg.next s.core.exu.csr (csrIn s i).noWrite := by
  rw [next_csr, CsrReg.next_noWrite_iff]
  have hor : (memStall s i || aluIntr s i) = true := by simpa using hm
  simpa [earlyCsrWrite, hz, hor] using hc

theorem Inv.csr_held (h : Inv s) (hz : Id.zicsr s.core.exu.idAlu.inst = true)
    (hm : Sys.memStall s i = true) (ha : aluIntr s i = false) :
    (Sys.next s i).core.exu.idAlu = s.core.exu.idAlu := by
  obtain ⟨h1, h2, h3, h4⟩ := Core.zicsr_control (i := coreIn s i) h.core.decoded hz
  change _ = Sys.memStall s i at h1
  change _ = aluIntr s i at h2
  refine Core.next_idAlu.trans ?_
  rw [Core.flushExu_eq, h1, h2, h3, h4, hm, ha]
  rfl

theorem Inv.csr_commits (h : Inv s) (hz : Id.zicsr s.core.exu.idAlu.inst = true)
    (hm : Sys.memStall s i = false) (ha : aluIntr s i = false) : CsrCommits s i := by
  obtain ⟨h1, h2, -, -⟩ := Core.zicsr_control (i := coreIn s i) h.core.decoded hz
  change _ = Sys.memStall s i at h1
  change _ = aluIntr s i at h2
  rw [hm] at h1
  rw [ha] at h2
  have hw : (csrIn s i).wen = true := (Core.csrReq_of_zicsr h.core.decoded hz).1
  have hport := Core.exuPort_of_zicsr (i := coreIn s i) h.core.decoded hz h2
  have hmem : (Sys.next s i).core.lsu.mem = Core.memNs s.core (coreIn s i) :=
    Core.next_mem.trans (by rw [Core.flushMem_eq, h2, h1]; rfl)
  have hupdate (c : Csr) (hc : Alu.csrAddr s.core.exu.idAlu = c.addr) :
      c.get (Sys.next s i).core.exu.csr = Alu.zicsrWrite (c.get s.core.exu.csr)
        (csrOperand s i) (Zicsr.op s.core.exu.idAlu.inst) := by
    refine (Csr.get_next (i := csrIn s i) hw h2 hc c).trans ?_
    rw [if_pos rfl]
    exact Core.csrIn_wdata_of_zicsr h.core.decoded hz hc
  refine
    { leaves := h1
      wen := hw
      noTrap := h2
      update := hupdate
      intended := fun c hc hclear => ?_
      others := fun _ hd => Csr.get_next_of_addr_ne (i := csrIn s i) hd
      mip := rfl
      cycle := rfl
      rdWen := ?_
      rdIndex := ?_
      rdData := ?_
      forwarded := hport }
  · rw [hupdate c hc, (Alu.zicsrWrite_eq_iff _ _ _).mpr hclear]
  · rw [hmem]
    exact congrArg RdPort.wen hport
  · rw [hmem]
    exact congrArg RdPort.index hport
  · rw [hmem]
    exact congrArg RdPort.data hport

end Step

/-- In a run in which no CSR instruction writes while it is held or killed, and over a bus that is
ready again and again, every CSR instruction acts atomically and exactly once. -/
theorem csr_instruction_atomic (s₀ : State) (i : Nat → In)
    (hbus : Clocked.Often fun n => (i n).busReady = true)
    (hcond : ∀ n, earlyCsrWrite (machine.run s₀.reset i n) (i n) = false) (a : Nat)
    (hz : Id.zicsr (machine.run s₀.reset i a).core.exu.idAlu.inst = true) :
    CsrAtomic s₀.reset i a := by
  let S := machine.run s₀.reset i
  have hinv : ∀ n, Inv (S n) := run_inv s₀ i
  obtain ⟨m, hm, hfree, -⟩ := memStall_ends (Inv.reset s₀) hbus a
  obtain ⟨b, hb, hend, hwait⟩ := Clocked.exists_first (P := fun n =>
    aluIntr (S n) (i n) = true ∨ memStall (S n) (i n) = false) ⟨m, hm, .inr hfree⟩
  have hheld : ∀ j, a ≤ j → j < b → memStall (S j) (i j) = true ∧ aluIntr (S j) (i j) = false := by
    intro j h1 h2
    simpa [not_or, and_comm] using hwait j h1 h2
  -- the instruction stays in EX up to cycle `b`
  have hzj : ∀ j, a ≤ j → j ≤ b → Id.zicsr (S j).core.exu.idAlu.inst = true := by
    intro j haj hjb
    refine Clocked.kept (P := fun k => Id.zicsr (S k).core.exu.idAlu.inst = true) haj hz ?_
    intro k hak hkj hk
    obtain ⟨h1, h2⟩ := hheld k hak (by omega)
    have hx : (S (k + 1)).core.exu.idAlu = (S k).core.exu.idAlu := (hinv k).csr_held hk h1 h2
    rw [hx]
    exact hk
  refine ⟨b, hb, fun j h1 h2 => ?_, ?_⟩
  · obtain ⟨hs, ha⟩ := hheld j h1 h2
    have hj := hzj j h1 (Nat.le_of_lt h2)
    exact ⟨ha, (hinv j).csr_held hj hs ha, next_csr_of_early hj (.inl hs) (hcond j)⟩
  · have hj := hzj b hb (Nat.le_refl b)
    cases ha : aluIntr (S b) (i b) with
    | true => exact .inl ⟨rfl, next_csr_of_early hj (.inr ha) (hcond b)⟩
    | false =>
      rw [ha] at hend
      exact .inr ⟨rfl, (hinv b).csr_commits hj (by simpa using hend) ha⟩

/-- `lui x1, 0x80000; ld x2, 0(x1); csrrw x4, mtvec, x1`: the miss of the load holds the `csrrw`. -/
def csrBehindMiss (n : Nat) : In :=
  { ifuReqRdy := true, ifuRspVld := true
    ifuRdata := ([0, 0x0000b103800000b7, 0x0000b103800000b7, 0x0000001330509273,
      0x0000001330509273] : List (BitVec 64)).getD n 0x0000001300000013
    busRdata := 0, busReady := true }

/-- The held `csrrw` writes `mtvec` at once, and then reads its own write. -/
theorem held_csr_not_atomic :
    (Clocked.Often fun n => (csrBehindMiss n).busReady = true) ∧
    Id.zicsr (machine.run (default : State).reset csrBehindMiss 5).core.exu.idAlu.inst = true ∧
    ¬CsrAtomic (default : State).reset csrBehindMiss 5 := by
  refine ⟨fun n => ⟨n, Nat.le_refl n, rfl⟩, by decide +kernel, ?_⟩
  rintro ⟨b, hb, hheld, hend⟩
  by_cases h5 : b = 5
  · subst h5
    have ha : aluIntr (machine.run (default : State).reset csrBehindMiss 5) (csrBehindMiss 5) =
      false := by decide +kernel
    rw [ha] at hend
    rcases hend with ⟨h, -⟩ | ⟨-, h⟩
    · cases h
    · exact absurd h.leaves (by decide +kernel)
  · have hc := (hheld 5 (Nat.le_refl 5) (by omega)).2.2
    exact absurd (congrArg CsrReg.State.mtvec hc) (by decide +kernel)

/-- `lui x1, 0x80000; csrrw x3, mtvec, x1; ld x2, 0(x1); csrrs x4, mtvec, x0; lui x6, 0x20004;
sd x0, 0(x6); csrrwi x0, mstatus, 8; csrrw x5, mepc, x1`: the miss of the load holds the `csrrs`,
and the store to `mtimecmp` has the timer interrupt kill the last. -/
def csrSequence (n : Nat) : In :=
  { ifuReqRdy := true, ifuRspVld := decide (n ≤ 12)
    ifuRdata := ([0, 0x305091f3800000b7, 0x305091f3800000b7, 0x305022730000b103,
      0x305022730000b103, 0x0003302320004337, 0x0003302320004337] : List (BitVec 64)).getD n
        0x341092f330045073
    busRdata := 0, busReady := true }

theorem csr_instruction_atomic_held :
    let S := machine.run (default : State).reset csrSequence
    (∀ j, j < 10 → 6 ≤ j → memStall (S j) (csrSequence j) = true) ∧
    aluIntr (S 14) (csrSequence 14) = true ∧
    ((S 4).core.exu.csr.mtvec, (S 5).core.exu.csr.mtvec, (S 11).core.lsu.mem.rdData) =
      (0, 0xffffffff80000000, 0xffffffff80000000) ∧
    ∀ a ∈ [4, 6, 13, 14], Id.zicsr (S a).core.exu.idAlu.inst = true ∧
      CsrAtomic (default : State).reset csrSequence a := by
  intro S
  have hz : ∀ a ∈ [4, 6, 13, 14], Id.zicsr (S a).core.exu.idAlu.inst = true := by decide +kernel
  have hq : Core.Quiet (S 18).core := by constructor <;> decide +kernel
  have hc : ∀ n, earlyCsrWrite (S n) (csrSequence n) = false := by
    intro n
    by_cases hn : n < 18
    · revert n; decide +kernel
    · have hq' := quiet_run hq (fun n hn => by simp [csrSequence]; omega) n (by omega)
      have hd := (run_inv default csrSequence n).core.decoded
      rw [earlyCsrWrite, Bool.eq_false_iff]
      intro h
      simp only [Bool.and_eq_true] at h
      exact absurd ((Core.csrReq_of_zicsr hd h.1.1).1.symm.trans hq'.csr) (by decide)
  refine ⟨by decide +kernel, by decide +kernel, by decide +kernel, fun a ha => ⟨hz a ha, ?_⟩⟩
  exact csr_instruction_atomic default csrSequence (fun n => ⟨n, Nat.le_refl n, rfl⟩) hc a (hz a ha)

end Sys

end Rv64imCore
