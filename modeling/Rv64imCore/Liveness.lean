import Rv64imCore.BusService
import Rv64imCore.BusTraffic
import Rv64imCore.System

/-! The whole top never stops: over a slave that takes and answers what it is offered, instructions
leave EX, or traps are taken, again and again. -/

namespace Rv64imCore
set_option autoImplicit true

namespace Div

theorem Working.answers {d : Nat → State} {e : Nat → In} (h : Working j k (d n))
    (hd : ∀ v, n ≤ v → d (v + 1) = next false (d v) (e v)) :
    ∃ m, n ≤ m ∧ ack (d m) = true := by
  induction hs : steps j - k generalizing n k with
  | zero =>
    have hk : k = steps j := by have := h.le; omega
    refine ⟨n + 1, by omega, ?_⟩
    rw [hd n (Nat.le_refl n)]
    exact (h.next_done hk).ready
  | succ r ih =>
    have hk : k < steps j := by omega
    have hw := h.next_step (i := e n) hk
    rw [← hd n (Nat.le_refl n)] at hw
    obtain ⟨m, hm, ha⟩ := ih hw (fun v hv => hd v (by omega)) (by omega)
    exact ⟨m, by omega, ha⟩

theorem Phase.answers {d : Nat → State} {e : Nat → In} (h : Phase (d n))
    (hd : ∀ v, n ≤ v → d (v + 1) = Div.next false (d v) (e v)) (hr : (e n).divReq = true) :
    ∃ m, n ≤ m ∧ ack (d m) = true := by
  rcases h with h | ⟨j, k, h⟩ | ⟨j, h⟩
  · have hw := h.next_start hr
    rw [← hd n (Nat.le_refl n)] at hw
    obtain ⟨m, hm, ha⟩ := hw.answers fun v hv => hd v (by omega)
    exact ⟨m, by omega, ha⟩
  · exact h.answers hd
  · exact ⟨n, Nat.le_refl n, h.ready⟩

end Div

namespace Core

/-- A trap is taken, or the instruction in EX moves on. -/
def Flow.progress (g : Flow) (s : State) (i : In) : Bool :=
  intrFlush s i.toEarly || (g.exVld && !stallExu s i)

section Step
variable {s : State} {i : In} {g : Flow}

theorem bubble_info (h : g.Holds s) (hx : g.exVld = false) :
    Alu.memReq s.exu.idAlu.info = false ∧ Alu.muldivReq s.exu.idAlu.info = false := by
  obtain ⟨hn, -⟩ := h.exBubble hx
  rcases h.core.decoded with ⟨hi, -⟩ | hb
  · rw [hi, hn]; decide
  · rw [hb]; decide

/-- An enabled interrupt is pending. -/
def pendingIntr (s : State) (e : Early) : Bool :=
  IntrCtrl.externalIntr (intrIn s e) || IntrCtrl.softwareIntr (intrIn s e)
    || IntrCtrl.timeIntr (intrIn s e)

theorem aluIntr_of_pendingIntr {e : Early} (hp : pendingIntr s e = true)
    (hz : s.exu.idAlu.pc ≠ 0) : aluIntr s e = true := by
  have hz' : ((intrIn s e).pc != 0) = true := bne_iff_ne.mpr hz
  rw [pendingIntr] at hp
  rw [aluIntr, IntrCtrl.asyncIntr, hz', Bool.and_true, IntrCtrl.externalIntrSel,
    IntrCtrl.softwareIntrSel, IntrCtrl.timeIntrSel]
  revert hp
  cases IntrCtrl.externalIntr (intrIn s e) <;> cases IntrCtrl.softwareIntr (intrIn s e) <;>
    cases IntrCtrl.timeIntr (intrIn s e) <;> decide

theorem Flow.Holds.exVld_of_progress (h : g.Holds s) (hp : g.progress s i = true) :
    g.exVld = true := by
  refine Bool.of_not_eq_false fun hx => ?_
  rw [Flow.progress, (h.quiet_ex hx).1, hx] at hp
  cases hp

theorem progress_of_addrShake (h : g.Holds s) (ha : addrShake s i = true) :
    g.progress s i = true := by
  have hq : lsuReqVld s i = true := (Bool.and_eq_true_iff.mp ha).2
  have hm := (lsuReqVld_cases h.core.decoded hq).1
  have hs := (addrShake_cases h.core.decoded ha).1
  have hv : g.exVld = true := by
    refine Bool.of_not_eq_false fun hx => ?_
    rw [(bubble_info h hx).1] at hm
    cases hm
  rw [Flow.progress, hv, hs]
  simp

theorem next_of_empty (h : g.Holds s) (hx : g.exVld = false)
    (hm : memStall s i.toEarly = false) :
    stallIfu s i = false ∧ flushIfu s i = false ∧
      (g.update s i).idVld = Ifu.instOk s.ifu (ifuIn s i) ∧ (g.update s i).exVld = g.idVld := by
  obtain ⟨hi, hf, hp⟩ := h.quiet_ex (i := i) hx
  obtain ⟨h1, h2⟩ := bubble_info h hx
  have hs : exuStall s i = false := exuStall_eq_false h1 (Alu.divOp_eq_false h2)
  have hd : flushIdu s i = false := by rw [flushIdu_eq, hi, hf]; rfl
  have hd' : stallIdu s i = false := by rw [stallIdu_eq, hs, hm, hp]; rfl
  have he : flushExu s i = false := by rw [flushExu_eq, hi, hf, hp]; rfl
  have he' : stallExu s i = false := by rw [stallExu_eq, hs, hm]; rfl
  obtain ⟨-, h3, -, -, h4⟩ := next_of_move (g := g) hd hd' he he'
  refine ⟨?_, ?_, h3, h4⟩
  · rw [stallIfu_eq, hs, hm, hp]; rfl
  · rw [flushIfu_eq, hi, hf]; rfl

/-- An instruction that does not move on, while memory is quiet, is a division at work. -/
theorem stuck_of_quiet (h : g.Holds s) (hx : g.exVld = true) (hp : g.progress s i = false)
    (hm : memStall s i.toEarly = false) (hr : i.lsuReqRdy = true) :
    Alu.divOp s.exu.idAlu.info = true ∧ stallExu s i = true ∧ flushExu s i = false ∧
      Div.ack s.exu.div = false := by
  simp only [Flow.progress, hx, Bool.true_and, Bool.or_eq_false_iff, Bool.not_eq_false'] at hp
  obtain ⟨hi, hs⟩ := hp
  have hst : exuStall s i = true := by rwa [stallExu_eq, hm, Bool.or_false] at hs
  have ha : addrStall s i = false := by rw [addrStall_eq, hr]; simp
  simp only [exuStall, Alu.stall, ha, Bool.or_false, Bool.and_eq_true, Bool.not_eq_true'] at hst
  obtain ⟨hd, hk⟩ := hst
  have hc := h.core.decoded.classes.muldiv (Alu.divOp_muldivReq hd)
  have hl : Alu.iduLoad s.exu.idAlu = false := by
    have hmul : Alu.mulOp s.exu.idAlu.info = false := by
      refine Bool.of_not_eq_true fun hmul => ?_
      rw [Alu.divOp_of_mulOp h.core.decoded hmul] at hd
      cases hd
    rw [Alu.iduLoad, Alu.memRwCtrl_eq_false hc.2.1, hmul]
    rfl
  have hz : iduPipeStall s i = false := by
    rw [iduPipeStall, loadUseHazard, Regfile.idFlushEx, hl]
    simp
  have he : exuFlush s i.toEarly = false :=
    Alu.flush_eq_false (i := aluIn s i.toEarly) hc.2.2.1 _ _
  have hf : flushExu s i = false := by rw [flushExu_eq, hi, he, hz]; rfl
  rw [divNow, hf] at hk
  exact ⟨hd, hs, hf, hk⟩

end Step

end Core

namespace Sys

section Quiet
variable {s : State} {i : In}

theorem Inv.silent (h : Inv s) (hr : s.core.lsu.rspRdy = false) : (m3 s).valid = false := by
  have hb : ∀ k, sBusy s k = false := fun k => by rw [h.busy, sRspRdy, hr, Bool.and_false]
  refine Bool.of_not_eq_true fun hv => ?_
  rcases h.m3_cases hv with ⟨h1, -⟩ | ⟨-, h2, -⟩
  · have h0 : Dcache.busy s.dcache = false := hb 0
    rw [(h.dcache.busy_of_abrValid h1).1] at h0
    cases h0
  · have h0 : (!s.atob.reqRdy) = false := hb 2
    rw [h.bridge h2] at h0
    cases h0

theorem Inv.memStall_of_free (h : Inv s) (hr : s.core.lsu.rspRdy = false) :
    Sys.memStall s i = false := by
  rw [h.memStall, hr, Bool.false_and]

/-- A data stall comes nearer to its end whenever the bus does not keep a request waiting. -/
theorem Inv.rank_falls (h : Inv s) (hm : Sys.memStall s i = true)
    (hb : (m3 s).valid = true → i.busReady = true) : rank (Sys.next s i) < rank s := by
  cases hv : (m3 s).valid with
  | true => exact (h.rank_next hm).2 (hb hv)
  | false =>
    have hv' : ((m2 s).valid || (m1 s).valid) = false := hv
    rw [Bool.or_eq_false_iff] at hv'
    have hd := h.dcache.rank_next (dcache_reqVld_of_memStall hm)
    have ha : s.atob.valid = false := hv'.1
    have ha' : (Sys.next s i).atob.valid = false := by rw [next_atob_valid hm, ha, Bool.false_and]
    obtain ⟨k, hk, hw⟩ := h.waiting hm
    rcases OneToN.slave_cases k with rfl | rfl | rfl
    · have hn : Dcache.stateIsNorm s.dcache = false := by
        simp only [sBusy, slaves, Dcache.busy, sRspVld, Dcache.memRspVld] at hk hw
        simpa [hw] using hk
      have hlt := hd.2 hn fun hq => by
        rw [show Dcache.abrValid s.dcache = false from hv'.2] at hq
        cases hq
      rw [rank, rank, ha, ha']
      exact Nat.add_lt_add_right hlt _
    · exact absurd (hk.symm.trans hw) (by decide)
    · simp only [sBusy, slaves, sRspVld, AtoB.rspVld] at hk hw
      simp [hk, ha] at hw

end Quiet

end Sys

namespace Top

/-- The wires of a run of the top, with the flow of its instructions. -/
structure Running (s : Nat → State) (g : Nat → Core.Flow) (i : Nat → In) : Prop where
  next : ∀ n, s (n + 1) = Top.next (s n) (i n)
  flow : ∀ n, g (n + 1) = (g n).update (s n).sys.core (coreIn (s n) (i n))
  fetch : ∀ n, FetchInv (s n)
  holds : ∀ n, (g n).Holds (s n).sys.core
  data : ∀ n, Sys.Inv (s n).sys
  clean : ∀ n, Dcache.Clean (s n).icache
  divider : ∀ n, Div.Phase (s n).sys.core.exu.div

theorem running (s₀ : State) (i : Nat → In) :
    Running (machine.run s₀.reset i) (flow s₀ i) i where
  next := fun _ => rfl
  flow := fun _ => rfl
  fetch := fun n => (flow_holds s₀ i n).1
  holds := fun n => (flow_holds s₀ i n).2
  data := machine.run_invariant (P := fun s => Sys.Inv s.sys) (Sys.Inv.reset s₀.sys)
    fun s a h => h.next (sysIn s a)
  clean := machine.run_invariant (P := fun s => Dcache.Clean s.icache)
    ⟨fun _ _ => rfl, rfl, rfl⟩ fun _ _ h => h.next fun _ => rfl
  divider := machine.run_invariant (P := fun s => Div.Phase s.sys.core.exu.div)
    (.inl (Div.idle_reset _)) fun _ _ h => h.next _ _

/-- The slave again and again takes and answers what it is offered. -/
def Fair (s : Nat → State) (i : Nat → In) : Prop :=
  Axi.Fair (fun n => (s n).axi) fun n => axiIn (s n) (i n)

section Run
variable {s : Nat → State} {g : Nat → Core.Flow} {i : Nat → In}

theorem Running.bus (h : Running s g i) (hf : Fair s i) :
    Clocked.Often fun n => (Sys.m3 (s n).sys).valid = true →
      (sysIn (s n) (i n)).busReady = true := by
  refine Axi.Fair.serves_m1 hf (fun n => by rw [h.next]; rfl) fun n hv hr => ?_
  change (Sys.m3 (s (n + 1)).sys).wen = (Sys.m3 (s n).sys).wen
  rw [h.next]
  exact congrArg Abr.wen ((h.data n).m3_stays (i := sysIn (s n) (i n)) hv hr)

theorem Running.memStall_ends (h : Running s g i) (hf : Fair s i) (n : Nat) :
    ∃ m, n ≤ m ∧ Sys.memStall (s m).sys (sysIn (s m) (i m)) = false := by
  have hn : ∀ k, (s (k + 1)).sys = Sys.next (s k).sys (sysIn (s k) (i k)) := fun k => by
    rw [h.next]
    rfl
  obtain ⟨m, hm, hw⟩ := (h.bus hf).ends
    (W := fun k => Sys.memStall (s k).sys (sysIn (s k) (i k)) = true)
    (fun k => Sys.rank (s k).sys)
    (fun k hw => by
      rw [hn]
      exact ((h.data k).rank_next hw).1)
    (fun k hw hg => by
      rw [hn]
      exact (h.data k).rank_falls hw hg) n
  exact ⟨m, hm, by simpa using hw⟩

/-- The request of the instruction in EX is the only one there is, and it would move on. -/
theorem Running.no_access (h : Running s g i) (hf : Fair s i)
    (hp : ∀ k, N ≤ k → (g k).progress (s k).sys.core (coreIn (s k) (i k)) = false) :
    ∃ M, N ≤ M ∧ ∀ k, M ≤ k → (s k).sys.core.lsu.rspRdy = false := by
  have hn : ∀ k, N ≤ k → (s (k + 1)).sys.core.lsu.rspRdy =
      ((s k).sys.core.lsu.rspRdy && !(Sys.rsp (s k).sys (sysIn (s k) (i k))).vld) := by
    intro k hk
    have ha : Sys.addrShake (s k).sys (sysIn (s k) (i k)) = false := by
      refine Bool.of_not_eq_true fun ha => ?_
      have hq := Core.progress_of_addrShake (h.holds k) ha
      exact Bool.false_ne_true ((hp k hk).symm.trans hq)
    rw [h.next]
    change (Sys.next (s k).sys (sysIn (s k) (i k))).core.lsu.rspRdy = _
    rw [Sys.next_rspRdy, ha, Bool.false_or]
  obtain ⟨m, hm, hs⟩ := h.memStall_ends hf N
  rw [(h.data m).memStall] at hs
  refine ⟨m + 1, by omega, fun k hk => ?_⟩
  refine Clocked.kept (P := fun k => (s k).sys.core.lsu.rspRdy = false) hk ?_ fun j hj _ hq => ?_
  · rw [hn m hm, hs]
  · rw [hn j (by omega), hq, Bool.false_and]

/-- With the data side at rest, an instruction in EX moves on. -/
theorem Running.ex_empty (h : Running s g i)
    (hp : ∀ k, N ≤ k → (g k).progress (s k).sys.core (coreIn (s k) (i k)) = false)
    (hr : ∀ k, N ≤ k → (s k).sys.core.lsu.rspRdy = false) (n : Nat) (hn : N ≤ n) :
    (g n).exVld = false := by
  refine Bool.of_not_eq_true fun hx => ?_
  have stuck : ∀ k, N ≤ k → (g k).exVld = true →
      Alu.divOp (s k).sys.core.exu.idAlu.info = true ∧
      Core.stallExu (s k).sys.core (coreIn (s k) (i k)) = true ∧
      Core.flushExu (s k).sys.core (coreIn (s k) (i k)) = false ∧
      Div.ack (s k).sys.core.exu.div = false := fun k hk hx =>
    Core.stuck_of_quiet (h.holds k) hx (hp k hk)
      ((h.data k).memStall_of_free (i := sysIn (s k) (i k)) (hr k hk))
      ((h.data k).rdy_of_free (hr k hk))
  -- the division stays, and so the divider is left to work
  have hv : ∀ k, n ≤ k → (g k).exVld = true := fun k hk =>
    Clocked.kept (P := fun k => (g k).exVld = true) hk hx fun j hj _ hv => by
      obtain ⟨-, hs, hf, -⟩ := stuck j (by omega) hv
      rw [h.flow, (Core.next_of_stay hf hs).2.2, hv]
  have hd : ∀ k, n ≤ k → (s (k + 1)).sys.core.exu.div =
      Div.next false (s k).sys.core.exu.div (Alu.divIn (Core.aluIn (s k).sys.core
        (coreIn (s k) (i k)).toEarly) (Core.stallExu (s k).sys.core (coreIn (s k) (i k)))) := by
    intro k hk
    rw [h.next]
    change Div.next (Core.flushExu (s k).sys.core (coreIn (s k) (i k))) _ _ = _
    rw [(stuck k (by omega) (hv k hk)).2.2.1]
    rfl
  obtain ⟨m, hm, ha⟩ := (h.divider n).answers (d := fun k => (s k).sys.core.exu.div) hd
    (stuck n hn hx).1
  rw [(stuck m (by omega) (hv m hm)).2.2.2] at ha
  cases ha

theorem Running.fetch_bus (h : Running s g i) (hf : Fair s i)
    (hr : ∀ k, N ≤ k → (s k).sys.core.lsu.rspRdy = false) :
    Clocked.Often fun n => (m0 (s n)).valid = true →
      Axi.m0Rdy (s n).axi (axiIn (s n) (i n)) = true := by
  intro n
  obtain ⟨m, hm, hs⟩ := Axi.Fair.serves_m0 (n := max n N) hf (fun k => by rw [h.next]; rfl)
    (fun k => (h.clean k).state) (fun k hk => (h.data k).silent (hr k hk)) (Nat.le_max_right n N)
  exact ⟨m, Nat.le_trans (Nat.le_max_left n N) hm, hs⟩

theorem Running.fetch_ends (h : Running s g i) (hf : Fair s i)
    (hr : ∀ k, N ≤ k → (s k).sys.core.lsu.rspRdy = false) (n : Nat) :
    ∃ m, n ≤ m ∧ ¬((s m).sys.core.ifu.rspRdy = true ∧ Dcache.memRspVld (s m).icache = false) := by
  have hw : ∀ k, (s k).sys.core.ifu.rspRdy = true ∧ Dcache.memRspVld (s k).icache = false →
      Dcache.stateIsNorm (s k).icache = false ∧
      Dcache.rank (s (k + 1)).icache = Dcache.rank (Dcache.next (s k).icache
        (icacheIn (s k) (i k))) ∧
      Dcache.reqVld (s k).icache (icacheIn (s k) (i k)) = false := by
    intro k ⟨h1, h2⟩
    refine ⟨?_, by rw [h.next]; rfl, ?_⟩
    · have hb := (h.fetch k).busy
      rw [h1, Dcache.busy, show (s k).icache.vldC1 = false from h2, Bool.or_false] at hb
      simpa using hb
    · have hq : Ifu.reqVld (s k).sys.core.ifu (ifuIn (s k) (i k)) = false := by
        rw [Ifu.reqVld, h1, show (ifuIn (s k) (i k)).rspVld = false from h2]
        rfl
      rw [icache_reqVld, Ifu.addrShake, hq, Bool.and_false]
  refine (h.fetch_bus hf hr).ends (fun k => Dcache.rank (s k).icache) (fun k hk => ?_)
    (fun k hk hg => ?_) n
  · rw [(hw k hk).2.1]
    exact ((h.fetch k).icache.rank_next (hw k hk).2.2).1
  · rw [(hw k hk).2.1]
    exact ((h.fetch k).icache.rank_next (hw k hk).2.2).2 (hw k hk).1 hg

theorem Running.delivers (h : Running s g i) (hf : Fair s i)
    (hr : ∀ k, N ≤ k → (s k).sys.core.lsu.rspRdy = false)
    (hs : ∀ k, N ≤ k → (ifuIn (s k) (i k)).stall = false)
    (hl : ∀ k, N ≤ k → (ifuIn (s k) (i k)).flush = false) :
    ∃ m, N ≤ m ∧ Ifu.instOk (s m).sys.core.ifu (ifuIn (s m) (i m)) = true := by
  by_contra hno
  have hok : ∀ k, N ≤ k → Ifu.instOk (s k).sys.core.ifu (ifuIn (s k) (i k)) = false :=
    fun k hk => Bool.of_not_eq_true fun hk' => hno ⟨k, hk, hk'⟩
  have hn : ∀ k, (s (k + 1)).sys.core.ifu = Ifu.next (s k).sys.core.ifu (ifuIn (s k) (i k)) :=
    fun k => by rw [h.next]; rfl
  -- a request is made, which forgets a flush
  obtain ⟨m, hm, hw⟩ := h.fetch_ends hf hr N
  have ha : Ifu.addrShake (s m).sys.core.ifu (ifuIn (s m) (i m)) = true := by
    have hq : ((s m).sys.core.ifu.rspRdy && !(ifuIn (s m) (i m)).rspVld) = false := by
      refine Bool.of_not_eq_true fun hq => hw ?_
      rw [Bool.and_eq_true, Bool.not_eq_true'] at hq
      exact hq
    rw [Ifu.addrShake, Ifu.reqVld, hq, hs m hm, hl m hm, Bool.or_false, Bool.not_false,
      Bool.true_and, Bool.and_true]
    refine (h.fetch m).ready ?_
    rw [Bool.and_eq_false_iff, Bool.not_eq_false'] at hq
    exact hq
  have hwait : ∀ k, m + 1 ≤ k → (s k).sys.core.ifu.flush = false ∧
      (s k).sys.core.ifu.rspRdy = true := fun k hk => by
    refine Clocked.kept (P := fun k => (s k).sys.core.ifu.flush = false ∧
      (s k).sys.core.ifu.rspRdy = true) hk ?_ fun j hj _ hq => ?_
    · rw [hn]
      simp only [Ifu.next, ha, hl m hm]
      simp
    · obtain ⟨h1, h2⟩ := hq
      have hd : Ifu.dataShake (s j).sys.core.ifu (ifuIn (s j) (i j)) = false := by
        have hi := hok j (by omega)
        simp only [Ifu.instOk, hs j (by omega), hl j (by omega), h1] at hi
        simp at hi
        exact hi.1
      rw [hn]
      simp only [Ifu.next, hl j (by omega), h1, h2, hd]
      simp
  -- and its answer is an instruction
  obtain ⟨j, hj, hw'⟩ := h.fetch_ends hf hr (m + 1)
  obtain ⟨h1, h2⟩ := hwait j hj
  have hi := hok j (by omega)
  simp only [Ifu.instOk, Ifu.dataShake, hs j (by omega), hl j (by omega), h1, h2] at hi
  simp at hi
  exact hw' ⟨h2, hi.1⟩

theorem Running.progresses (h : Running s g i) (hf : Fair s i) :
    Clocked.Often fun n => (g n).progress (s n).sys.core (coreIn (s n) (i n)) = true := by
  intro N
  by_contra hno
  have hp : ∀ k, N ≤ k → (g k).progress (s k).sys.core (coreIn (s k) (i k)) = false :=
    fun k hk => Bool.of_not_eq_true fun hk' => hno ⟨k, hk, hk'⟩
  obtain ⟨M, hM, hr⟩ := h.no_access hf hp
  have hx := h.ex_empty (fun k hk => hp k (by omega)) hr
  have he : ∀ k, M ≤ k → Core.stallIfu (s k).sys.core (coreIn (s k) (i k)) = false ∧
      Core.flushIfu (s k).sys.core (coreIn (s k) (i k)) = false ∧
      (g (k + 1)).idVld = Ifu.instOk (s k).sys.core.ifu (ifuIn (s k) (i k)) ∧
      (g (k + 1)).exVld = (g k).idVld := fun k hk => by
    rw [h.flow]
    exact Core.next_of_empty (h.holds k) (hx k hk)
      ((h.data k).memStall_of_free (i := sysIn (s k) (i k)) (hr k hk))
  obtain ⟨m, hm, hi⟩ := h.delivers hf hr (fun k hk => (he k hk).1) (fun k hk => (he k hk).2.1)
  -- what is delivered reaches EX two cycles later
  have h1 := (he m hm).2.2.1
  have h2 := (he (m + 1) (by omega)).2.2.2
  rw [h1, hi, hx (m + 2) (by omega)] at h2
  cases h2

end Run

/-- The system never stops: over an AXI slave that again and again takes and answers what it is
offered, in every run, whatever the program, the data and the interrupts, an instruction moves on
from EX or a trap is taken again and again. -/
theorem goes_on (s₀ : State) (i : Nat → In) (hf : Fair (machine.run s₀.reset i) i) :
    Clocked.Often fun n => (flow s₀ i n).progress (machine.run s₀.reset i n).sys.core
      (coreIn (machine.run s₀.reset i n) (i n)) = true :=
  (running s₀ i).progresses hf

/-- Addresses are taken every second cycle, data every third one, and all of the memory is
`lui x1, 0x80010; ld x2, 0(x1)`. -/
def slowLoads (n : Nat) : In :=
  { awReady := n % 2 == 0, wReady := n % 3 == 0, bValid := n % 2 == 1
    arReady := n % 2 == 0, rValid := n % 3 == 0, rData := 0x0000b103800100b7 }

theorem fair_slowLoads (s : Nat → State) : Fair s slowLoads where
  ar := fun n => ⟨2 * n, by omega, fun _ => by simp [slowLoads, axiIn]⟩
  r := fun n => ⟨3 * n, by omega, fun _ => by simp [slowLoads, axiIn]⟩
  aw := fun n => ⟨2 * n, by omega, fun _ => by simp [slowLoads, axiIn]⟩
  w := fun n => ⟨3 * n, by omega, fun _ => by simp [slowLoads, axiIn]⟩
  b := fun n => ⟨2 * n + 1, by omega, fun _ => by simp [slowLoads, axiIn]⟩

/-- The load is accepted in cycle 16, its line is there in cycle 33, and the run goes on. -/
theorem goes_on_load :
    let s := machine.run (default : State).reset slowLoads
    Sys.addrShake (s 16).sys (sysIn (s 16) (slowLoads 16)) = true ∧
    (∀ k, k < 34 → 17 ≤ k →
      Core.memStall (s k).sys.core (coreIn (s k) (slowLoads k)).toEarly = true) ∧
    ∃ m, 1000 ≤ m ∧
      (flow default slowLoads m).progress (s m).sys.core (coreIn (s m) (slowLoads m)) = true := by
  intro s
  exact ⟨by decide +kernel, by decide +kernel, goes_on default slowLoads (fair_slowLoads _) 1000⟩

/-- An interrupt that stays enabled and pending until one is taken is taken: over such a slave no
program and no latency keeps it out, as long as no instruction runs at pc zero. -/
theorem interrupt_answered (s₀ : State) (i : Nat → In) (hf : Fair (machine.run s₀.reset i) i)
    (n : Nat) :
    let s := fun k => (machine.run s₀.reset i k).sys.core
    let e := fun k => (coreIn (machine.run s₀.reset i k) (i k)).toEarly
    (∀ m, n ≤ m → (∀ k, n ≤ k → k < m → Core.aluIntr (s k) (e k) = false) →
      Core.pendingIntr (s m) (e m) = true ∧
        ((flow s₀ i m).exVld = true → (s m).exu.idAlu.pc ≠ 0)) →
    ∃ m, n ≤ m ∧ Core.aluIntr (s m) (e m) = true := by
  intro s e hp
  by_contra hno
  have hq : ∀ k, n ≤ k → Core.aluIntr (s k) (e k) = false :=
    fun k hk => Bool.of_not_eq_true fun hk' => hno ⟨k, hk, hk'⟩
  obtain ⟨m, hm, hgo⟩ := (running s₀ i).progresses hf n
  have hv := (flow_holds s₀ i m).2.exVld_of_progress hgo
  obtain ⟨hpend, hz⟩ := hp m hm fun k hk _ => hq k hk
  have ha := Core.aluIntr_of_pendingIntr hpend (hz hv)
  rw [hq m hm] at ha
  cases ha

theorem fair_of_ready {s : Nat → State} {i : Nat → In}
    (h : ∀ n, (i n).awReady = true ∧ (i n).wReady = true ∧ (i n).bValid = true ∧
      (i n).arReady = true ∧ (i n).rValid = true) : Fair s i where
  ar := fun n => ⟨n, Nat.le_refl n, fun _ => (h n).2.2.2.1⟩
  r := fun n => ⟨n, Nat.le_refl n, fun _ => (h n).2.2.2.2⟩
  aw := fun n => ⟨n, Nat.le_refl n, fun _ => (h n).1⟩
  w := fun n => ⟨n, Nat.le_refl n, fun _ => (h n).2.1⟩
  b := fun n => ⟨n, Nat.le_refl n, fun _ => (h n).2.2.1⟩

/-- `lui x1, 0x20004; sd x0, 0(x1)`, and at the end of the line `csrrsi x0, mstatus, 8`: the timer
is due when interrupts are enabled, and EX is empty. -/
def timerIn (n : Nat) : In :=
  { awReady := true, wReady := true, bValid := true, arReady := true, rValid := true
    rData := if n < 9 then
        [0x0000b023200040b7, 0x0000001300000013, 0x0000001300000013, 0x3004607300000013].getD
          ((n - 2) / 2) 0
      else 0x0000001300000013 }

theorem interrupt_answered_timer : ∃ m, 19 ≤ m ∧
    Core.aluIntr (machine.run (default : State).reset timerIn m).sys.core
      (coreIn (machine.run (default : State).reset timerIn m) (timerIn m)).toEarly = true := by
  have hf : Fair (machine.run (default : State).reset timerIn) timerIn :=
    fair_of_ready fun _ => ⟨rfl, rfl, rfl, rfl, rfl⟩
  refine interrupt_answered default timerIn hf 19 fun m hm hq => ?_
  by_cases hl : m < 28
  · exact (by decide +kernel : ∀ m, m < 28 → 19 ≤ m →
      Core.pendingIntr (machine.run (default : State).reset timerIn m).sys.core
          (coreIn (machine.run (default : State).reset timerIn m) (timerIn m)).toEarly = true ∧
        ((flow default timerIn m).exVld = true →
          (machine.run (default : State).reset timerIn m).sys.core.exu.idAlu.pc ≠ 0)) m hl hm
  · have h := hq 27 (by omega) (by omega)
    exact absurd h (by decide +kernel)

end Top

end Rv64imCore
