import Rv64imCore.DataBus

/-! Every data-side access is answered, given a memory bus that is ready again and again. -/

namespace Rv64imCore
set_option autoImplicit true

namespace Dcache

/-- The bus beats that stand between a miss and its response. -/
def rank (s : State k) : Nat :=
  if stateIsWbus s then 8 - s.wcnt.toNat + s.wbusEnFf.toNat
  else if stateIsRbus s then 4 - s.rcnt.toNat
  else 0

section Rank
variable {s : State k} {i : In}

theorem Idle.rank (h : Idle s) : rank s = 0 := by simp [Dcache.rank, h.isWbus, h.isRbus]
theorem Refilling.rank (h : Refilling s) : rank s = 4 - s.rcnt.toNat := by
  simp [Dcache.rank, h.isWbus, h.isRbus]
theorem WritingBack.rank (h : WritingBack s) :
    rank s = 8 - s.wcnt.toNat + s.wbusEnFf.toNat := by
  simp [Dcache.rank, h.isWbus]

theorem toNat_succ {c : BitVec 2} (h : c ≠ 3) : (c + 1).toNat = c.toNat + 1 := by
  revert c; decide

theorem Control.rank_next (h : Control s) (hq : Dcache.reqVld s i = false) :
    Dcache.rank (Dcache.next s i) ≤ Dcache.rank s ∧
      (stateIsNorm s = false → (abrValid s = true → i.abrReady = true) →
        Dcache.rank (Dcache.next s i) < Dcache.rank s) := by
  rcases h with h | h | h
  · refine ⟨?_, fun hn => by rw [h.isNorm] at hn; cases hn⟩
    rw [h.rank, h.next_quiet hq]
    simp [Dcache.rank, stateIsWbus, stateIsRbus, h.state, norm, wbus, rbus]
  · rw [h.rank]
    rcases h.beat with hb | hb
    · have : Dcache.rank (Dcache.next s i) = 8 - s.wcnt.toNat := by
        rw [h.next_first hb.1]
        simp [Dcache.rank, stateIsWbus, h.state]
      rw [this, hb.1]
      exact ⟨Nat.le_add_right _ _, fun _ _ => Nat.lt_succ_self _⟩
    · cases hr : i.abrReady with
      | false =>
        have hv : abrValid s = true := by simp [abrValid, h.isWbus, hb.2.1]
        rw [h.next_wait hb.1 hr, h.rank]
        exact ⟨Nat.le_refl _, fun _ ha => absurd (ha hv) (by decide)⟩
      | true =>
        have hw := s.wcnt.isLt
        by_cases hc : s.wcnt = 3
        · have : Dcache.rank (Dcache.next s i) = 4 - s.rcnt.toNat := by
            rw [h.next_last hb.1 hr hc]
            simp [Dcache.rank, stateIsWbus, stateIsRbus, wbus, rbus]
          rw [this]
          constructor <;> omega
        · have : Dcache.rank (Dcache.next s i) = 8 - (s.wcnt + 1).toNat + s.wbusEnFf.toNat := by
            rw [h.next_beat hb.1 hr hc]
            simp [Dcache.rank, stateIsWbus, h.state]
          rw [this, toNat_succ hc]
          constructor <;> omega
  · rw [h.rank]
    cases hr : i.abrReady with
    | false =>
      have hv : abrValid s = true := by simp [abrValid, h.isWbus, h.rbusVld]
      rw [h.next_wait hr, h.rank]
      exact ⟨Nat.le_refl _, fun _ ha => absurd (ha hv) (by decide)⟩
    | true =>
      have hw := s.rcnt.isLt
      by_cases hc : s.rcnt = 3
      · have : Dcache.rank (Dcache.next s i) = 0 := by
          rw [h.next_last hr hc]
          simp [Dcache.rank, stateIsWbus, stateIsRbus, wbus, rbus, norm]
        rw [this]
        constructor <;> omega
      · have : Dcache.rank (Dcache.next s i) = 4 - (s.rcnt + 1).toNat := by
          rw [h.next_beat hr hc]
          simp [Dcache.rank, stateIsWbus, stateIsRbus, h.state, wbus, rbus]
        rw [this, toNat_succ hc]
        constructor <;> omega

end Rank

end Dcache

namespace Sys

def memStall (s : State) (i : In) : Bool := Core.memStall s.core (early s i)

/-- What stands between an outstanding access and its response. -/
def rank (s : State) : Nat := Dcache.rank s.dcache + s.atob.valid.toNat

section Rank
variable {s : State} {i : In}

theorem lsuReqVld_of_memStall (h : memStall s i = true) : lsuReqVld s i = false := by
  rw [lsuReqVld, Core.lsuReqVld_eq,
    show Core.memStall s.core (coreIn s i).toEarly = true from h]
  simp

theorem Inv.memStall (h : Inv s) : memStall s i = (s.core.lsu.rspRdy && !(rsp s i).vld) :=
  h.core.memStall (i := coreIn s i)

/-- The slave a data stall waits for. -/
theorem Inv.waiting (h : Inv s) (hm : Sys.memStall s i = true) :
    ∃ k, sBusy s k = true ∧ sRspVld s i k = false := by
  rw [h.memStall, Bool.and_eq_true, Bool.not_eq_true'] at hm
  obtain ⟨k, hk⟩ := h.select hm.1
  refine ⟨k, ?_, ?_⟩
  · rw [h.busy, sRspRdy, hk, hm.1]; simp
  · rw [rsp_of_select hk] at hm
    exact hm.2

theorem dcache_reqVld_of_memStall (h : Sys.memStall s i = true) :
    Dcache.reqVld s.dcache (dcacheIn s i) = false := by
  have hq : (dcacheIn s i).reqVld = false := by
    simp [dcacheIn, req, lsuReqVld_of_memStall h]
  rw [Dcache.reqVld, hq, Bool.false_and]

theorem next_atob_valid (h : Sys.memStall s i = true) :
    (next s i).atob.valid = (s.atob.valid && !i.busReady) := by
  have hq : (req s i 2).vld = false := by simp [req, lsuReqVld_of_memStall h]
  have hr : m2Rdy s i = (s.atob.valid && i.busReady) := by
    cases hv : s.atob.valid <;> simp [m2Rdy, TwoToOne.ready, m2, AtoB.abr, hv]
  simp only [next, AtoB.next, hq, hr]
  cases hv : s.atob.valid <;> cases hb : i.busReady <;> simp

theorem Inv.rank_next (h : Inv s) (hm : Sys.memStall s i = true) :
    rank (Sys.next s i) ≤ rank s ∧
      (i.busReady = true → rank (Sys.next s i) < rank s) := by
  have hd := h.dcache.rank_next (dcache_reqVld_of_memStall hm)
  have hv := next_atob_valid hm
  change Dcache.rank (Sys.next s i).dcache ≤ _ ∧ _ at hd
  have hle : (Sys.next s i).atob.valid.toNat ≤ s.atob.valid.toNat := by
    rw [hv]; cases s.atob.valid <;> cases i.busReady <;> decide
  refine ⟨Nat.add_le_add hd.1 hle, fun hb => ?_⟩
  obtain ⟨k, hk, hw⟩ := h.waiting hm
  rcases OneToN.slave_cases k with rfl | rfl | rfl
  · have hn : Dcache.stateIsNorm s.dcache = false := by
      simp only [sBusy, slaves, Dcache.busy, sRspVld, Dcache.memRspVld] at hk hw
      simpa [hw] using hk
    refine Nat.add_lt_add_of_lt_of_le (hd.2 hn fun ha => ?_) hle
    simp [dcacheIn, m1Rdy, TwoToOne.ready, m1, ha, hb]
  · exact absurd (hk.symm.trans hw) (by decide)
  · have hv' : s.atob.valid = true := by
      simp only [sBusy, slaves, sRspVld, AtoB.rspVld] at hk hw
      simp only [hk, Bool.true_and, Bool.or_eq_false_iff, Bool.not_eq_false'] at hw
      exact hw.2
    refine Nat.add_lt_add_of_le_of_lt hd.1 ?_
    rw [hv, hv', hb]; decide

end Rank

/-- Under a bus that is ready again and again, every data stall ends. -/
theorem memStall_ends {s : State} (h : Inv s) {i : Nat → In}
    (hf : Clocked.Often fun n => (i n).busReady = true) (n : Nat) :
    ∃ m, n ≤ m ∧ memStall (machine.run s i m) (i m) = false ∧
      ∀ j, n ≤ j → j < m → memStall (machine.run s i j) (i j) = true := by
  have hi : ∀ n, Inv (machine.run s i n) := machine.run_invariant h fun s a h => h.next a
  obtain ⟨m, hm, hp, hb⟩ := Clocked.exists_first (P := fun n =>
    ¬memStall (machine.run s i n) (i n) = true)
    (hf.ends (fun n => rank (machine.run s i n)) (fun n hw => ((hi n).rank_next hw).1)
      (fun n hw hg => ((hi n).rank_next hw).2 hg) n)
  exact ⟨m, hm, by simpa using hp, fun j hj hjm => by simpa using hb j hj hjm⟩

end Sys

end Rv64imCore
