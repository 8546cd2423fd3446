import Rv64imCore.LoadBypass
import Rv64imCore.Multiply

/-! Operand delivery for the core with its data side. -/

namespace Rv64imCore.Core
set_option autoImplicit true

theorem Log.youngest_answer {g : Log} (h : g.youngest r = some v) (s : State) (e : Early) :
    (g.answer s e).youngest r = some v := by
  rw [Log.youngest] at h ⊢
  rw [Log.answer]
  cases hf : g.entries.find? (·.rd == r) with
  | none =>
    rw [hf] at h
    exact h
  | some x =>
    rw [hf] at h
    cases Lsu.dataShake s.lsu e.rsp with
    | false => exact h
    | true => exact Result.eval_append h _

theorem exResult_multiply {s : State} {i : In} {op : MulOp}
    (hi : s.exu.idAlu.info = Id.info s.exu.idAlu.inst)
    (h : op.encodes s.exu.idAlu.inst = true) (n : Nat) : exResult s i n =
      .value (op.result (aluRs1Data s i.toEarly) (aluRs2Data s i.toEarly)) := by
  have hc := (Alu.classes_info s.exu.idAlu.inst).muldiv (by
    rw [Alu.muldivReq_info, MulOp.muldivOp_of_encodes h])
  have hl : Alu.memRwCtrl s.exu.idAlu.info = false := by
    rw [hi]
    exact Alu.memRwCtrl_eq_false hc.2.1
  have hm : Alu.mulOp s.exu.idAlu.info = true := by
    rw [hi]
    exact (MulOp.wires h).1
  rw [exResult, hl, hm]
  exact congrArg Result.value (Alu.mulSelect_result (x := aluIn s i.toEarly) hi h)

end Rv64imCore.Core

namespace Rv64imCore.Sys
set_option autoImplicit true

/-- The results of the instructions that left EX in the first `n` cycles. -/
def log (s : State) (i : Nat → In) (n : Nat) : Core.Log :=
  machine.history Core.Log.empty (fun g s a => g.update s.core (coreIn s a)) s i n

def Faultless (s : State) (i : In) : Prop := Core.Faultless s.core (coreIn s i)
def leaves (s : State) (i : In) : Bool := Core.leaves s.core (coreIn s i)

/-- The log as the instruction in EX at cycle `n` has to see it. -/
def logNow (s : State) (i : Nat → In) (n : Nat) : Core.Log :=
  (log s i n).answer (machine.run s i n).core (early (machine.run s i n) (i n))

/-- An operand of the instruction in EX is the youngest result for its register. -/
def Delivered (s : State) (i : Nat → In) (n : Nat) : Prop :=
  let S := machine.run s i n
  let inst := S.core.exu.idAlu.inst
  (Regfile.useRs1 inst = true → Id.rs1 inst ≠ 0 →
    (logNow s i n).youngest (Id.rs1 inst) = some (Core.aluRs1Data S.core (early S (i n)))) ∧
  (Regfile.useRs2 inst = true → Id.rs2 inst ≠ 0 →
    (logNow s i n).youngest (Id.rs2 inst) = some (Core.aluRs2Data S.core (early S (i n))))

theorem delivers_run (s₀ : State) (i : Nat → In) (n : Nat)
    (hf : ∀ k, k < n → Faultless (machine.run s₀.reset i k) (i k)) :
    Core.Delivers (machine.run s₀.reset i n).core (log s₀.reset i n) :=
  machine.history_induction _ _ (P := fun s g => Core.Delivers s.core g) (C := Faultless)
    (Core.Delivers.reset s₀.core) (fun s _ a hf h => h.next (i := coreIn s a) hf) hf

/-- A waived hazard of a load finds its value at hand one cycle later. -/
theorem available_of_waived {s : State} {i a : In} (h : Inv s) (hf : Faultless s i)
    (hz : Core.loadUseHazard s.core (early s i) = true) (hh : lsuReqHit s i = true)
    (hs : stallExu s i = false) (hx : flushExu s i = false) :
    Lsu.loadBypassVld (next s i).core.lsu (rsp (next s i) a) = true := by
  have hl : Alu.memRwCtrl s.core.exu.idAlu.info = true := by
    have hm : Core.mulWaived s.core (coreIn s i) = false := hf.mul
    have hmul : Alu.mulOp s.core.exu.idAlu.info = false := by
      rw [Core.mulWaived, show Core.loadUseHazard s.core (coreIn s i).toEarly = true from hz,
        show (coreIn s i).lsuReqHit = true from hh, show Core.stallExu _ _ = false from hs,
        show Core.flushExu _ _ = false from hx] at hm
      simpa using hm
    simp only [Core.loadUseHazard, Regfile.idFlushEx, Bool.and_eq_true] at hz
    have hi : Alu.iduLoad s.core.exu.idAlu = true := hz.1.1.2
    simpa [Alu.iduLoad, hmul] using hi
  have hw : HitWaives s i := ⟨hl, hz, hh, hs, hx⟩
  exact (hw.bypassing h).loadBypassVld (h.next i).core

/-- In a run without the three faults, every instruction that leaves EX alive has seen, for each
register it reads, the result of the youngest older instruction that writes it; and a hazard is
waived only when the value is available to the consumer in EX one cycle later. -/
theorem operand_delivery (s₀ : State) (i : Nat → In) (n : Nat)
    (hf : ∀ k, k ≤ n → Faultless (machine.run s₀.reset i k) (i k)) :
    let S := machine.run s₀.reset i
    (leaves (S n) (i n) = true → Delivered s₀.reset i n) ∧
    (Core.loadUseHazard (S n).core (early (S n) (i n)) = true → lsuReqHit (S n) (i n) = true →
      stallExu (S n) (i n) = false → flushExu (S n) (i n) = false →
      Lsu.loadBypassVld (S (n + 1)).core.lsu (rsp (S (n + 1)) (i (n + 1))) = true) := by
  intro S
  constructor
  · intro hl
    have hd := delivers_run s₀ i n fun k hk => hf k (Nat.le_of_lt hk)
    have hs := (Core.stallExu_of_leaves hd.inv.decoded (hf n (Nat.le_refl n)).refused hl).1
    have hm := Core.memStall_of_stallExu hs
    rw [Delivered, Core.aluRs1Data_eq, Core.aluRs2Data_eq]
    exact ⟨fun hu hr => hd.operand hm hd.rs1 hu hr, fun hu hr => hd.operand hm hd.rs2 hu hr⟩
  · exact fun hz hh hs hx =>
      available_of_waived (run_inv s₀ i n) (hf n (Nat.le_refl n)) hz hh hs hx

/-- `lui x1, 0x80000; ld x2, 0(x1); addi x3, x0, 5; mul x3, x1, x0; add x4, x3, x0`: the multiply
looks like a load that hits. -/
def mulLooksLikeHit (n : Nat) : In :=
  { ifuReqRdy := true, ifuRspVld := true
    ifuRdata := ([0, 0x0000b103800000b7, 0x0000b103800000b7, 0x020081b300500193,
      0x020081b300500193, 0x0000001300018233, 0x0000001300018233, 0x0000001300018233,
      0x0000001300018233, 0x0000001300018233] : List (BitVec 64)).getD n 0x0000001300000013
    busRdata := 0, busReady := true }

/-- The `add` takes the old value of `x3` past the multiply. -/
theorem multiply_not_delivered :
    leaves (machine.run (default : State).reset mulLooksLikeHit 11) (mulLooksLikeHit 11) = true ∧
    ¬Delivered (default : State).reset mulLooksLikeHit 11 := by
  refine ⟨by decide +kernel, fun h => ?_⟩
  have h5 := h.1 (by decide +kernel) (by decide +kernel)
  have hlog : (log (default : State).reset mulLooksLikeHit 11).youngest 3 = some 0 := by
    let s := machine.run (default : State).reset mulLooksLikeHit 10
    have hx := @Core.exResult_multiply s.core (coreIn s (mulLooksLikeHit 10)) .mul
      (by decide +kernel) (by decide +kernel)
      (log (default : State).reset mulLooksLikeHit 10).accesses
    have hu := Core.youngest_update (log (default : State).reset mulLooksLikeHit 10) s.core
      (coreIn s (mulLooksLikeHit 10)) 3
    rw [if_pos (by decide +kernel), hx] at hu
    exact hu.trans (by decide +kernel)
  have hr : Id.rs1 (machine.run (default : State).reset mulLooksLikeHit 11).core.exu.idAlu.inst =
      3 := by
    decide +kernel
  rw [hr, logNow, Core.Log.youngest_answer hlog] at h5
  revert h5
  decide +kernel

theorem operand_delivery_hit_use :
    leaves (machine.run (default : State).reset hitUse 10) (hitUse 10) = true ∧
    Delivered (default : State).reset hitUse 10 := by
  have hl : leaves (machine.run (default : State).reset hitUse 10) (hitUse 10) = true := by
    decide +kernel
  have hf : ∀ k, k ≤ 10 →
      Core.mulWaived (machine.run (default : State).reset hitUse k).core
        (coreIn (machine.run (default : State).reset hitUse k) (hitUse k)) = false ∧
      Core.refusedUnderHazard (machine.run (default : State).reset hitUse k).core
        (coreIn (machine.run (default : State).reset hitUse k) (hitUse k)) = false ∧
      Core.trapOverDivision (machine.run (default : State).reset hitUse k).core
        (coreIn (machine.run (default : State).reset hitUse k) (hitUse k)) = false := by
    decide +kernel
  exact ⟨hl, (operand_delivery default hitUse 10
    (fun k hk => ⟨(hf k hk).1, (hf k hk).2.1, (hf k hk).2.2⟩)).1 hl⟩

end Rv64imCore.Sys
