import Rv64imCore.Forwarding
import Rv64imCore.Redirect
import Rv64imCore.Rv64im

/-! The instructions that leave EX are those of the program text, in program order. -/

namespace Rv64imCore.Core
set_option autoImplicit true
open Rv64im (Event Platform)

/-- The pc of the oldest instruction that has not left EX. -/
def Flow.pc (g : Flow) (s : State) : BitVec 64 := if g.exVld then s.exu.idAlu.pc else g.due s

/-- The instruction in EX retires. -/
def Flow.retires (g : Flow) (s : State) (i : In) : Bool := g.exVld && Core.leaves s i

/-- What a cycle means to the architecture. The CSRs are those of the cycle that an instruction
leaves EX in, and a device would answer with `word`. -/
def Flow.event (g : Flow) (word : BitVec 64) (s : State) (i : In) : List Event :=
  if intrFlush s i.toEarly then [.trap (IntrCtrl.flushAddr (intrIn s i.toEarly))]
  else if g.retires s i then [.retire (CsrReg.rdata s.exu.csr) word]
  else []

/-- What the front end keeps of the program text. -/
structure OnText (P : Platform) (s : State) (g : Flow) : Prop where
  idWord : g.idVld = true → ∀ w, P.code s.idu.ifId.pc = some w → s.idu.ifId.inst = w
  exWord : g.exVld = true → ∀ w, P.code s.exu.idAlu.pc = some w → s.exu.idAlu.inst = w
  exDecoded : g.exVld = true → s.exu.idAlu.info = Id.info s.exu.idAlu.inst ∧
    s.exu.idAlu.immData = Id.immData s.exu.idAlu.inst ∧
    s.exu.idAlu.rdIndex = Id.rd s.exu.idAlu.inst
  /-- Only a branch or jump is predicted taken. -/
  idTaken : g.idVld = true → s.idu.ifId.predictPt = true →
    Alu.transfers s.idu.ifId.inst = true
  exTaken : g.exVld = true → s.exu.predictPt = true → Alu.transfers s.exu.idAlu.inst = true
  rs1Zero : Id.rs1 s.exu.idAlu.inst = 0 → s.exu.idAlu.rs1Data = 0
  rs2Zero : Id.rs2 s.exu.idAlu.inst = 0 → s.exu.idAlu.rs2Data = 0

theorem OnText.reset (P : Platform) (s : State) : OnText P s.reset Flow.start where
  idWord := fun h => Bool.noConfusion h
  exWord := fun h => Bool.noConfusion h
  exDecoded := fun h => Bool.noConfusion h
  idTaken := fun h => Bool.noConfusion h
  exTaken := fun h => Bool.noConfusion h
  rs1Zero := fun _ => rfl
  rs2Zero := fun _ => rfl

section Step
variable {P : Platform} {s : State} {i : In} {g : Flow}

theorem iduRsData_zero : iduRsData s i 0 = 0 := rfl

theorem transfers_of_dirbrnPt {f : Ifu.State} {inst : BitVec 32}
    (h : Ifu.dirbrnPt f inst = true) : Alu.transfers inst = true := by
  rw [Alu.transfers]
  cases hc : Ifu.condBxx inst with
  | true => rfl
  | false =>
    rw [Ifu.dirbrnPt, hc, if_neg (by decide)] at h
    rw [show Id.decJal inst = true from h]
    rfl

/-- The word that the fetch unit delivers is that of the program text. -/
def FetchesText (P : Platform) (s : State) (i : In) : Prop :=
  Ifu.instOk s.ifu (ifuIn s i) = true → ∀ w, P.code s.ifu.pc = some w →
    Ifu.inst s.ifu (ifuIn s i) = w

instance : Decidable (FetchesText P s i) :=
  decidable_of_iff (Ifu.instOk s.ifu (ifuIn s i) = true →
    (P.code s.ifu.pc).all (Ifu.inst s.ifu (ifuIn s i) == ·) = true) (by
      rw [FetchesText, Option.all_eq_true]
      simp only [beq_iff_eq])

theorem next_predictPt : (next s i).exu.predictPt =
    reg (flushExu s i) false (!stallExu s i) s.idu.ifId.predictPt s.exu.predictPt := rfl

theorem next_of_bubble (hx : flushExu s i = true) : (next s i).exu.idAlu = IdAlu.bubble ∧
    (g.update s i).exVld = false := by
  rw [next_idAlu, Flow.update, hx]
  exact ⟨rfl, rfl⟩

theorem next_of_stay (hx : flushExu s i = false) (hs : stallExu s i = true) :
    (next s i).exu.idAlu = s.exu.idAlu ∧ (next s i).exu.predictPt = s.exu.predictPt ∧
      (g.update s i).exVld = g.exVld := by
  rw [next_idAlu, next_predictPt, Flow.update, hx, hs]
  exact ⟨rfl, rfl, rfl⟩

theorem OnText.next (h : OnText P s g) (hf : FetchesText P s i) :
    OnText P (Core.next s i) (g.update s i) := by
  rcases front_cases s i with ⟨-, hd, hx⟩ | ⟨-, hd, -, hs, hx⟩ | ⟨-, hd, -, hs, hx, hx'⟩
  · obtain ⟨-, h2, h3, h4⟩ := next_of_flush (g := g) hd hx
    refine ⟨fun h' => ?_, fun h' => ?_, fun h' => ?_, fun h' => ?_, fun h' => ?_, fun _ => ?_,
      fun _ => ?_⟩
    · rw [h3] at h'; cases h'
    · rw [h4] at h'; cases h'
    · rw [h4] at h'; cases h'
    · rw [h3] at h'; cases h'
    · rw [h4] at h'; cases h'
    · rw [h2]; rfl
    · rw [h2]; rfl
  · obtain ⟨h1, h2⟩ := next_of_hold (g := g) hd hs
    have hi := h.idWord
    have ht := h.idTaken
    rw [← h1, ← h2] at hi ht
    rcases hx with hx | ⟨hx, hx'⟩
    · obtain ⟨h3, h4⟩ := next_of_bubble (g := g) hx
      refine ⟨hi, fun h' => ?_, fun h' => ?_, ht, fun h' => ?_, fun _ => ?_, fun _ => ?_⟩
      · rw [h4] at h'; cases h'
      · rw [h4] at h'; cases h'
      · rw [h4] at h'; cases h'
      · rw [h3]; rfl
      · rw [h3]; rfl
    · obtain ⟨h3, h4, h5⟩ := next_of_stay (g := g) hx hx'
      refine ⟨hi, ?_, ?_, ht, ?_, ?_, ?_⟩
      · rw [h3, h5]; exact h.exWord
      · rw [h3, h5]; exact h.exDecoded
      · rw [h3, h4, h5]; exact h.exTaken
      · rw [h3]; exact h.rs1Zero
      · rw [h3]; exact h.rs2Zero
  · obtain ⟨h1, h2, h3, h4, h5⟩ := next_of_move (g := g) hd hs hx hx'
    refine ⟨fun hv => ?_, ?_, fun _ => ?_, fun hv => ?_, ?_, ?_, ?_⟩
    · rw [h2] at hv
      rw [h1, ifIdNs_of_instOk hv]
      exact hf hv
    · rw [h3, h5]; exact h.idWord
    · rw [h3]; exact ⟨rfl, rfl, rfl⟩
    · rw [h2] at hv
      rw [h1, ifIdNs_of_instOk hv]
      exact transfers_of_dirbrnPt
    · rw [h3, h4, h5]; exact h.idTaken
    · intro hr
      rw [h3] at hr ⊢
      change iduRsData s i (Id.rs1 s.idu.ifId.inst) = 0
      rw [show Id.rs1 s.idu.ifId.inst = 0 from hr, iduRsData_zero]
    · intro hr
      rw [h3] at hr ⊢
      change iduRsData s i (Id.rs2 s.idu.ifId.inst) = 0
      rw [show Id.rs2 s.idu.ifId.inst = 0 from hr, iduRsData_zero]

theorem pc_of_exVld (h : g.exVld = true) : g.pc s = s.exu.idAlu.pc := if_pos h
theorem pc_of_bubble (h : g.exVld = false) : g.pc s = g.due s := by rw [Flow.pc, h]; rfl

theorem pc_of_trap (ht : intrFlush s i.toEarly = true) :
    (g.update s i).pc (Core.next s i) = IntrCtrl.flushAddr (intrIn s i.toEarly) := by
  have hf : flushIfu s i = true := by rw [flushIfu_eq, ht]; rfl
  have hd : flushIdu s i = true := by rw [flushIdu_eq, ht]; rfl
  have hx : flushExu s i = true := by rw [flushExu_eq, ht]; rfl
  obtain ⟨-, -, h3, h4⟩ := next_of_flush (g := g) hd hx
  have ha : (ifuIn s i).flushAddr = IntrCtrl.flushAddr (intrIn s i.toEarly) := by
    change PipeCtrl.flushAddr _ _ _ _ = _
    rw [PipeCtrl.flushAddr, ht, if_pos rfl]
  rw [pc_of_bubble h4, Flow.due, h3, if_neg (by decide), Flow.update, ← ha]
  exact if_pos hf

theorem Flow.Holds.pc_of_wait (h : g.Holds s) (ht : intrFlush s i.toEarly = false)
    (hr : g.retires s i = false) : (g.update s i).pc (Core.next s i) = g.pc s := by
  cases hv : g.exVld with
  | true =>
    have hl : Core.leaves s i = false := by simpa [Flow.retires, hv] using hr
    have hk : stallExu s i = true ∧ flushExu s i = false := by
      simpa [Core.leaves, ht] using hl
    obtain ⟨h3, -, h5⟩ := next_of_stay (g := g) hk.2 hk.1
    rw [pc_of_exVld (h5.trans hv), pc_of_exVld hv, h3]
  | false =>
    obtain ⟨-, he, -⟩ := h.quiet_ex (i := i) hv
    have hf : flushIfu s i = false := by rw [flushIfu_eq, ht, he]; rfl
    rw [pc_of_bubble hv]
    rcases front_cases s i with ⟨hf', -⟩ | ⟨-, hd, hs, hs', hx⟩ | ⟨-, hd, hs, hs', hx, hx'⟩
    · rw [hf] at hf'; cases hf'
    · obtain ⟨h1, h2⟩ := next_of_hold (g := g) hd hs'
      have hv' : (g.update s i).exVld = false := by
        rcases hx with hx | ⟨hx, hx'⟩
        · exact (next_of_bubble hx).2
        · exact (next_of_stay hx hx').2.2.trans hv
      rw [pc_of_bubble hv', Flow.due, Flow.due, h1, h2, target_of_stall hf hs]
    · obtain ⟨h1, h2, h3, h4, h5⟩ := next_of_move (g := g) hd hs' hx hx'
      cases hi : g.idVld with
      | true => rw [pc_of_exVld (h5.trans hi), h3, Flow.due, hi]; rfl
      | false =>
        rw [pc_of_bubble (h5.trans hi), h.due_of_move hf hd hs' hx hx', Flow.due, hi]
        rfl

theorem exuFlush_of_not_transfers (hd : s.exu.idAlu.info = Id.info s.exu.idAlu.inst)
    (ht : Alu.transfers s.exu.idAlu.inst = false) : exuFlush s i.toEarly = false := by
  simp only [Alu.transfers, Bool.or_eq_false_iff] at ht
  have hc : Alu.bxIfCond (aluIn s i.toEarly) = false := (Alu.bxIfCond_eq hd).trans ht.1.1
  have hj : Alu.jalr (aluIn s i.toEarly).info = false := by
    change Alu.jalr s.exu.idAlu.info = false
    rw [hd, (Alu.bjp_info _).2.2.2.2.2.2.2]
    exact ht.2
  rw [exuFlush, Alu.flush, Alu.condErr, hc, hj]
  rfl

theorem Flow.Holds.pc_of_sequential (h : g.Holds s) (ho : OnText P s g) (hv : g.exVld = true)
    (ht : Alu.transfers s.exu.idAlu.inst = false) (hi : intrFlush s i.toEarly = false)
    (hs : stallExu s i = false) :
    (g.update s i).pc (Core.next s i) = s.exu.idAlu.pc + 4 := by
  have hp : s.exu.predictPt = false := by
    rw [Bool.eq_false_iff]
    intro hp
    rw [ho.exTaken hv hp] at ht
    cases ht
  have hj : Alu.isReturn s.exu.idAlu.inst = false := by
    rw [Bool.eq_false_iff]
    intro hj
    rw [Alu.transfers, decJalr_of_isReturn hj, Bool.or_true] at ht
    cases ht
  have hdue : g.due s = s.exu.idAlu.pc + 4 := by
    rcases (h.ex hv).2 with hr | hn
    · rw [hj] at hr; cases hr
    · rw [hn, hp]; rfl
  have he := exuFlush_of_not_transfers (i := i) (ho.exDecoded hv).1 ht
  have hf : flushIfu s i = false := by rw [flushIfu_eq, hi, he]; rfl
  rw [← hdue]
  -- a hazard holds ID and leaves EX empty, else ID moves on
  rcases front_cases s i with ⟨hf', -⟩ | ⟨-, hd, hs', hs'', hx⟩ | ⟨-, hd, hs', hs'', hx, hx'⟩
  · rw [hf] at hf'; cases hf'
  · obtain ⟨h1, h2⟩ := next_of_hold (g := g) hd hs''
    have hx : flushExu s i = true := by
      rcases hx with hx | ⟨-, hx⟩
      · exact hx
      · rw [hs] at hx; cases hx
    rw [pc_of_bubble (next_of_bubble hx).2, Flow.due, Flow.due, h1, h2, target_of_stall hf hs']
  · obtain ⟨-, -, h3, -, h5⟩ := next_of_move (g := g) hd hs'' hx hx'
    cases hv' : g.idVld with
    | true => rw [pc_of_exVld (h5.trans hv'), h3, Flow.due, hv']; rfl
    | false =>
      rw [pc_of_bubble (h5.trans hv'), h.due_of_move hf hd hs'' hx hx', Flow.due, hv']
      rfl

/-- A branch or jump that retires is followed by the instruction at its successor. -/
theorem Flow.Holds.pc_of_transfer (h : g.Holds s) (hv : g.exVld = true)
    (ht : Alu.transfers s.exu.idAlu.inst = true) (hi : intrFlush s i.toEarly = false)
    (hs : stallExu s i = false) (hz : g.zeroJalr s i = false) :
    (g.update s i).pc (Core.next s i) = Alu.successor (aluIn s i.toEarly) := by
  have hl : g.leaves s i = true := by rw [Flow.leaves, hv, ht, hs, hi]; rfl
  have hr := (h.resolved_eq_iff hl).mpr hz
  have hn := h.leave hl
  rw [← hr]
  cases he : g.enters s i with
  | true =>
    rw [he, if_pos rfl] at hn
    simp only [Flow.enters, Bool.and_eq_true, Bool.not_eq_true'] at he
    have hx : (g.update s i).exVld = true ∧ (Core.next s i).exu.idAlu = idAluNs s i := by
      rw [next_idAlu, Flow.update, he.1.2, he.2]
      exact ⟨he.1.1, rfl⟩
    rw [pc_of_exVld hx.1, hx.2, ← hn]
    rfl
  | false =>
    rw [he, if_neg (by decide)] at hn
    rw [pc_of_bubble hn.ex, hn.due]

end Step

end Rv64imCore.Core
