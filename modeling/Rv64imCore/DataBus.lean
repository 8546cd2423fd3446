import Rv64imCore.DcacheControl
import Rv64imCore.Pipeline
import Rv64imCore.Top

/-! One data-side transaction at a time: what the decoder and its three slaves keep. -/

namespace Rv64imCore
set_option autoImplicit true

namespace OneToN

theorem slave_cases (k : Fin 3) : k = 0 ∨ k = 1 ∨ k = 2 := by
  revert k; decide

theorem cs_onehot (a : BitVec 64) : ∃ k, cs a = fun j => j == k := by
  by_cases h8 : a.extractLsb' 28 4 = 0x8#4
  · refine ⟨0, funext fun j => ?_⟩
    rcases slave_cases j with rfl | rfl | rfl <;> simp [cs, h8]
  · by_cases h2 : a.extractLsb' 28 4 = 0x2#4
    · refine ⟨1, funext fun j => ?_⟩
      rcases slave_cases j with rfl | rfl | rfl <;> simp [cs, h2]
    · refine ⟨2, funext fun j => ?_⟩
      rcases slave_cases j with rfl | rfl | rfl <;> simp [cs, h2, h8]

theorem anySel_onehot (k : Fin 3) (x : Fin 3 → Bool) : anySel (fun j => j == k) x = x k := by
  rcases slave_cases k with rfl | rfl | rfl <;> simp [anySel]

theorem rdata_onehot (k : Fin 3) (d : Fin 3 → BitVec 64) : rdata (fun j => j == k) d = d k := by
  rcases slave_cases k with rfl | rfl | rfl <;> simp [rdata]

end OneToN

namespace AtoB

theorem next_busy (s : State) (q : Req) (r a : Bool) (d : BitVec 64) :
    (!(next s q r a d).reqRdy) =
      ((q.vld && s.reqRdy) || (!s.reqRdy && !(rspVld s a && r))) := by
  obtain ⟨rdy, valid, _, _, _, _, _⟩ := s
  simp only [next, rspVld]
  cases q.vld <;> cases rdy <;> cases valid <;> cases a <;> cases r <;> rfl

theorem next_valid {s : State} (h : s.valid = true → s.reqRdy = false) (q : Req) (r a : Bool)
    (d : BitVec 64) : (next s q r a d).valid = true → (next s q r a d).reqRdy = false := by
  obtain ⟨rdy, valid, _, _, _, _, _⟩ := s
  simp only [next, rspVld]
  cases q.vld <;> cases rdy <;> cases valid <;> cases a <;> cases r <;> simp_all

end AtoB

namespace Sys

/-- The slaves that hold a request they have not answered. -/
def sBusy (s : State) : Fin 3 → Bool :=
  slaves (Dcache.busy s.dcache) s.clint.cnt (!s.atob.reqRdy)

/-- Slave `k` takes the request of this cycle. -/
def taken (s : State) (i : In) (k : Fin 3) : Bool := (req s i k).vld && sReqRdy s k

def addrShake (s : State) (i : In) : Bool := Core.addrShake s.core (coreIn s i)
def dataShake (s : State) (i : In) : Bool := Lsu.dataShake s.core.lsu (rsp s i)

section Slaves
variable {s : State} {i : In}

/-- A slave is busy from the request it takes to the response that is taken from it. -/
theorem sBusy_next (hd : Dcache.Control s.dcache) (k : Fin 3) :
    sBusy (next s i) k =
      (taken s i k || (sBusy s k && !(sRspVld s i k && sRspRdy s k))) := by
  rcases OneToN.slave_cases k with rfl | rfl | rfl
  · exact hd.busy_next (dcacheIn s i)
  · simp only [sBusy, slaves, next, Clint.next, taken, sReqRdy, sRspVld]
    cases (req s i 1).vld <;> cases Clint.reqRdy s.clint <;> cases hc : s.clint.cnt <;>
      cases sRspRdy s 1 <;> simp [Clint.rspVld, hc]
  · exact AtoB.next_busy ..

end Slaves

/-- What the core and its data side keep over every run. -/
structure Inv (s : State) : Prop where
  core : Core.Inv s.core
  dcache : Dcache.Control s.dcache
  bridge : s.atob.valid = true → s.atob.reqRdy = false
  select : s.core.lsu.rspRdy = true → ∃ k, s.csFf = fun j => j == k
  busy : ∀ k, sBusy s k = sRspRdy s k

theorem Inv.reset (s : State) : Inv s.reset where
  core := Core.Inv.reset s.core
  dcache := Dcache.control_reset s.dcache
  bridge := fun h => Bool.noConfusion h
  select := fun h => Bool.noConfusion h
  busy := fun k => by rcases OneToN.slave_cases k with rfl | rfl | rfl <;> rfl

section Step
variable {s : State} {i : In}

/-- While an access is outstanding, the response is that of the selected slave. -/
theorem rsp_of_select {k : Fin 3} (h : s.csFf = fun j => j == k) :
    rsp s i = { vld := sRspVld s i k, rdata := sRdata s i k } := by
  simp only [rsp, OneToN.rspVld, h, OneToN.anySel_onehot, OneToN.rdata_onehot]

theorem addrShake_eq_taken {k : Fin 3} (h : cs s i = fun j => j == k) :
    addrShake s i = taken s i k := by
  have hr : lsuReqRdy s i = sReqRdy s k := by
    rw [lsuReqRdy, OneToN.reqRdy, h, OneToN.anySel_onehot]
  have hv : (req s i k).vld = lsuReqVld s i := by simp [req, h]
  rw [taken, hv, ← hr, Bool.and_comm]
  rfl

theorem taken_of_ne {j k : Fin 3} (h : cs s i = fun j => j == k) (hj : j ≠ k) :
    taken s i j = false := by
  simp [taken, req, h, hj]

theorem taken_of_not_reqVld (h : lsuReqVld s i = false) (k : Fin 3) : taken s i k = false := by
  simp [taken, req, h]

theorem addrShake_of_not_reqVld (h : lsuReqVld s i = false) : addrShake s i = false := by
  rw [addrShake, Core.addrShake, show Core.lsuReqVld s.core (coreIn s i) = false from h,
    Bool.and_false]

theorem next_rspRdy : (next s i).core.lsu.rspRdy =
    (addrShake s i || (s.core.lsu.rspRdy && !(rsp s i).vld)) := Core.next_rspRdy

theorem next_csFf : (next s i).csFf = if lsuReqVld s i then cs s i else s.csFf := by
  simp only [next, OneToN.next]
  cases lsuReqVld s i <;> rfl

/-- A request is asserted only when no access is outstanding, or the last one is answered now. -/
theorem Inv.rsp_of_reqVld (h : Inv s) (hq : lsuReqVld s i = true)
    (hr : s.core.lsu.rspRdy = true) : (rsp s i).vld = true := by
  have hm := (Core.lsuReqVld_cases h.core.decoded hq).2.2.1
  rw [h.core.memStall, hr, Bool.true_and, Bool.not_eq_false'] at hm
  exact hm

theorem Inv.select_next (h : Inv s) (hr : (next s i).core.lsu.rspRdy = true) :
    ∃ k, (next s i).csFf = fun j => j == k := by
  rw [next_csFf]
  cases hq : lsuReqVld s i with
  | true => exact OneToN.cs_onehot _
  | false =>
    rw [next_rspRdy, addrShake_of_not_reqVld hq, Bool.false_or, Bool.and_eq_true] at hr
    exact h.select hr.1

theorem Inv.busy_next (h : Inv s) (k : Fin 3) : sBusy (next s i) k = sRspRdy (next s i) k := by
  have hn : sRspRdy (Sys.next s i) k =
      ((if lsuReqVld s i then cs s i else s.csFf) k &&
        (addrShake s i || (s.core.lsu.rspRdy && !(rsp s i).vld))) := by
    rw [sRspRdy, next_rspRdy, next_csFf]
  rw [sBusy_next h.dcache, hn, h.busy]
  -- an outstanding access that is answered now leaves its slave
  have hold : ∀ v, (rsp s i).vld = v →
      (sRspRdy s k && !(sRspVld s i k && sRspRdy s k)) = (sRspRdy s k && !v) := by
    intro v hv
    cases hb : sRspRdy s k with
    | false => rfl
    | true =>
      simp only [sRspRdy, Bool.and_eq_true] at hb
      obtain ⟨m, hm⟩ := h.select hb.2
      have hkm : k = m := by simpa [hm] using hb.1
      rw [rsp_of_select hm] at hv
      rw [hkm, ← hv]; simp
  rw [hold _ rfl]
  cases hq : lsuReqVld s i with
  | true =>
    have hv : (sRspRdy s k && !(rsp s i).vld) = false := by
      cases hr : s.core.lsu.rspRdy with
      | false => simp [sRspRdy, hr]
      | true => simp [h.rsp_of_reqVld hq hr]
    have hv' : (s.core.lsu.rspRdy && !(rsp s i).vld) = false := by
      cases hr : s.core.lsu.rspRdy with
      | false => rfl
      | true => simp [h.rsp_of_reqVld hq hr]
    obtain ⟨m, hm⟩ := OneToN.cs_onehot (lsuAddr s i)
    change cs s i = _ at hm
    rw [hv, hv', Bool.or_false, Bool.or_false, addrShake_eq_taken hm, if_pos rfl, hm]
    by_cases hk : k = m
    · subst hk; simp
    · simp [taken_of_ne hm hk, hk]
  | false =>
    rw [taken_of_not_reqVld hq, addrShake_of_not_reqVld hq]
    simp [sRspRdy, Bool.and_assoc]

theorem Inv.next (h : Inv s) (i : In) : Inv (Sys.next s i) where
  core := h.core.next (coreIn s i)
  dcache := h.dcache.next (dcacheIn s i)
  bridge := AtoB.next_valid h.bridge _ _ _ _
  select := h.select_next
  busy := h.busy_next

end Step

theorem run_inv (s₀ : State) (i : Nat → In) (n : Nat) : Inv (machine.run s₀.reset i n) :=
  machine.run_invariant (Inv.reset s₀) (fun _ a h => h.next a) n

theorem quiet_run {s : State} {i : Nat → In} (hq : Core.Quiet (machine.run s i N).core)
    (hi : ∀ n, N ≤ n → (i n).ifuRspVld = false) (n : Nat) (hn : N ≤ n) :
    Core.Quiet (machine.run s i n).core := by
  refine Clocked.kept (P := fun k => Core.Quiet (machine.run s i k).core) hn hq ?_
  intro k hk _ h
  exact h.next (i := coreIn (machine.run s i k) (i k)) (hi k hk)

/-- The two masters of `rv64im_core_2to1` never meet. -/
theorem Inv.not_m1_m2 (h : Inv s) : ¬((m1 s).valid = true ∧ (m2 s).valid = true) := by
  rintro ⟨h1, h2⟩
  have hb₀ : sBusy s 0 = true := (h.dcache.busy_of_abrValid h1).1
  have hb₂ : sBusy s 2 = true := by simp [sBusy, slaves, h.bridge h2]
  rw [h.busy, sRspRdy, Bool.and_eq_true] at hb₀ hb₂
  obtain ⟨k, hk⟩ := h.select hb₀.2
  rw [hk] at hb₀ hb₂
  have h0 : (0 : Fin 3) = k := by simpa using hb₀.1
  have h2 : (2 : Fin 3) = k := by simpa using hb₂.1
  exact absurd (h0.trans h2.symm) (by decide)

/-- The transactions of the load/store unit so far, and the slaves that took the last one. -/
structure Ledger where
  accepted : Nat
  answered : Nat
  owner : Fin 3 → Bool

def Ledger.empty : Ledger := { accepted := 0, answered := 0, owner := fun _ => false }

def Ledger.update (g : Ledger) (s : State) (i : In) : Ledger :=
  { accepted := g.accepted + (addrShake s i).toNat
    answered := g.answered + (dataShake s i).toNat
    owner := if addrShake s i then taken s i else g.owner }

/-- The books balance: one open transaction exactly while the unit waits for a response. -/
structure Ledger.Balanced (g : Ledger) (s : State) : Prop where
  inv : Inv s
  count : g.accepted = g.answered + s.core.lsu.rspRdy.toNat
  owner : s.core.lsu.rspRdy = true → g.owner = s.csFf

theorem Ledger.Balanced.next {g : Ledger} (h : g.Balanced s) (i : In) :
    (g.update s i).Balanced (Sys.next s i) := by
  refine ⟨h.inv.next i, ?_, ?_⟩
  · have hv : addrShake s i = true → s.core.lsu.rspRdy = true → (rsp s i).vld = true := by
      intro ha hr
      simp only [addrShake, Core.addrShake, Bool.and_eq_true] at ha
      exact h.inv.rsp_of_reqVld ha.2 hr
    simp only [update, next_rspRdy, dataShake, Lsu.dataShake, h.count]
    cases ha : addrShake s i <;> cases hr : s.core.lsu.rspRdy <;> cases hw : (rsp s i).vld <;>
      simp_all
  · intro hr
    simp only [update]
    rw [next_csFf]
    cases ha : addrShake s i with
    | true =>
      have hq : lsuReqVld s i = true := by
        simp only [addrShake, Core.addrShake, Bool.and_eq_true] at ha
        exact ha.2
      obtain ⟨m, hm⟩ := OneToN.cs_onehot (lsuAddr s i)
      change cs s i = _ at hm
      rw [hq, if_pos rfl, if_pos rfl, hm]
      funext j
      by_cases hj : j = m
      · subst hj; rw [← addrShake_eq_taken hm, ha]; simp
      · rw [taken_of_ne hm hj]; simp [hj]
    | false =>
      rw [next_rspRdy, ha, Bool.false_or, Bool.and_eq_true] at hr
      have hq : lsuReqVld s i = false := by
        rw [Bool.eq_false_iff]
        intro hq
        rw [h.inv.rsp_of_reqVld hq hr.1] at hr
        exact absurd hr.2 (by decide)
      rw [hq]
      exact h.owner hr.1

end Sys

namespace Top

/-- In every state of every run at most one access is open, the decoder still selects the one slave
that took it, and the two masters of the memory bus are never valid together. -/
theorem one_transaction_at_a_time (s₀ : State) (i : Nat → In) (n : Nat) :
    let s := machine.run s₀.reset i n
    let g := machine.history Sys.Ledger.empty (fun g s a => g.update s.sys (sysIn s a)) s₀.reset i n
    (g.accepted = g.answered ∨ g.accepted = g.answered + 1) ∧
    (g.accepted = g.answered + 1 → ∃ k, g.owner = (fun j => j == k) ∧ s.sys.csFf = g.owner ∧
      ∀ a, (Sys.rsp s.sys a).vld = Sys.sRspVld s.sys a k ∧
        (Sys.rsp s.sys a).rdata = Sys.sRdata s.sys a k) ∧
    ¬((Sys.m1 s.sys).valid = true ∧ (Sys.m2 s.sys).valid = true) := by
  intro s g
  have hb : g.Balanced s.sys :=
    machine.history_induction _ _ (P := fun s g => Sys.Ledger.Balanced g s.sys)
      (C := fun _ _ => True)
      ⟨Sys.Inv.reset _, rfl, fun h => Bool.noConfusion h⟩
      (fun s g a _ h => h.next (sysIn s a)) (fun _ _ => trivial)
  refine ⟨?_, ?_, hb.inv.not_m1_m2⟩
  · have := hb.count
    cases hr : s.sys.core.lsu.rspRdy <;> simp [hr] at this <;> omega
  · intro hc
    have hr : s.sys.core.lsu.rspRdy = true := by
      have := hb.count
      cases hr : s.sys.core.lsu.rspRdy with
      | true => rfl
      | false => rw [hr] at this; simp at this; omega
    obtain ⟨k, hk⟩ := hb.inv.select hr
    refine ⟨k, (hb.owner hr).trans hk, (hb.owner hr).symm, fun a => ?_⟩
    rw [Sys.rsp_of_select hk]
    exact ⟨rfl, rfl⟩

end Top

end Rv64imCore
