import Rv64imCore.AxiSlave
import Rv64imCore.Liveness

/-! The handshakes of the whole top on the five AXI channels: what it offers it goes on offering,
to any slave. -/

namespace Rv64imCore.Axi
set_option autoImplicit true

section Wires
variable (s : State) (i : In)

/-- What the three channels towards the slave offer. -/
def arOffer : Option (BitVec 32) := if arValid s i then some (arAddr s i) else none
def awOffer : Option (BitVec 32) := if awValid s i then some (awAddr i) else none
def wOffer : Option (BitVec 64 × BitVec 8) :=
  if wValid s i then some (wData i, wStrb i) else none

/-- The first master is on the read channel without a request of its own. -/
def stale : Bool := s.m0Rget && !i.m0.valid

end Wires

/-- A handshake that the slave leaves open stays open in the next cycle. Only the address of a read
may change, while the first master is on the channel without a request. -/
structure Stays (s : State) (i : In) (s' : State) (i' : In) : Prop where
  ar : arValid s i = true → i.arReady = false →
    arValid s' i' = true ∧ (stale s i = false → arOffer s' i' = arOffer s i)
  aw : awValid s i = true → i.awReady = false → awOffer s' i' = awOffer s i
  w : wValid s i = true → i.wReady = false → wOffer s' i' = wOffer s i
  r : rReady s = true → i.rValid = false → rReady s' = true
  b : bReady s = true → i.bValid = false → bReady s' = true

section Step
variable {x : Slave} {s : State} {i i' : In} {m0' : Abr}

theorem arValid_alone (h : arValid s i = true) : rReady s = false := by
  rw [arValid, Bool.and_eq_true, Bool.not_eq_true'] at h
  exact h.2

theorem rOver_of_arValid (h : arValid s i = true) : rOver s i = false := by
  rw [rOver, arValid_alone h, Bool.and_false]

theorem bOver_of_awValid (h : awValid s i = true) : bOver s i = false := by
  rw [awValid, Bool.and_eq_true, Bool.not_eq_true'] at h
  rw [bOver, bReady, h.2, Bool.false_and, Bool.and_false]

theorem bOver_of_wValid (h : wValid s i = true) : bOver s i = false := by
  rw [wValid, Bool.and_eq_true, Bool.not_eq_true'] at h
  rw [bOver, bReady, h.2, Bool.and_false, Bool.and_false]

theorem Slave.Routed.write_stays (h : x.Routed s i.m1)
    (hm : i.m1.valid = true → m1Rdy s i = false → i'.m1 = i.m1) (hw : m1Wen i = true)
    (hb : bOver s i = false) : i'.m1 = i.m1 := by
  rw [m1Wen, Bool.and_eq_true] at hw
  exact hm hw.1 (by rw [h.m1Rdy_of_write hw.2, hb])

theorem Slave.Routed.aw_stays (h : x.Routed s i.m1)
    (hm : i.m1.valid = true → m1Rdy s i = false → i'.m1 = i.m1) (hv : awValid s i = true)
    (hr : i.awReady = false) : awOffer (Axi.next s i) i' = awOffer s i := by
  have hb := bOver_of_awValid hv
  have hv' := hv
  rw [awValid, Bool.and_eq_true] at hv'
  have he := h.write_stays hm hv'.1 hb
  have hn : (Axi.next s i).awOver = s.awOver := by simp [Axi.next, hb, hr]
  rw [awOffer, awOffer, awValid, awValid, m1Wen, m1Wen, awAddr, awAddr, hn, he]

theorem Slave.Routed.w_stays (h : x.Routed s i.m1)
    (hm : i.m1.valid = true → m1Rdy s i = false → i'.m1 = i.m1) (hv : wValid s i = true)
    (hr : i.wReady = false) : wOffer (Axi.next s i) i' = wOffer s i := by
  have hb := bOver_of_wValid hv
  have hv' := hv
  rw [wValid, Bool.and_eq_true] at hv'
  have he := h.write_stays hm hv'.1 hb
  have hn : (Axi.next s i).wOver = s.wOver := by simp [Axi.next, hb, hr]
  rw [wOffer, wOffer, wValid, wValid, m1Wen, m1Wen, wData, wData, wStrb, wStrb, hn, he]

theorem Slave.Routed.read_stays (h : x.Routed s i.m1)
    (hm : i.m1.valid = true → m1Rdy s i = false → i'.m1 = i.m1) (hq : m1Ren i = true)
    (hr : rOver s i = false) : i'.m1 = i.m1 := by
  rw [m1Ren, Bool.and_eq_true, Bool.not_eq_true'] at hq
  exact hm hq.1 (by rw [h.m1Rdy_of_read hq.2, hr, Bool.and_false])

theorem m0_unanswered (hm : i.m0.valid = true → m0Rdy s i = false → i'.m0 = i.m0)
    (hq : m0Ren i = true) (hr : rOver s i = false) : i'.m0 = i.m0 := by
  rw [m0Ren, Bool.and_eq_true] at hq
  exact hm hq.1 (by rw [m0Rdy, hr, Bool.and_false])

theorem Slave.Routed.arValid_stays (h : x.Routed s i.m1)
    (hm0 : i.m0.valid = true → m0Rdy s i = false → i'.m0 = i.m0)
    (hm1 : i.m1.valid = true → m1Rdy s i = false → i'.m1 = i.m1) (hv : arValid s i = true)
    (hr : i.arReady = false) : arValid (Axi.next s i) i' = true := by
  have ho := rOver_of_arValid hv
  have hn : (Axi.next s i).arOver = false := by
    simp only [Axi.next, ho, hr, Bool.false_and]
    exact arValid_alone hv
  rw [arValid, Bool.and_eq_true, Bool.or_eq_true] at hv
  rw [arValid, hn, Bool.not_false, Bool.and_true, Bool.or_eq_true]
  rcases hv.1 with hq | hq
  · exact .inl (by rw [m0Ren, m0_unanswered hm0 hq ho]; exact hq)
  · exact .inr (by rw [m1Ren, h.read_stays hm1 hq ho]; exact hq)

/-- The master that has the read channel keeps it, with its address. -/
theorem Slave.Routed.arAddr_stays (h : x.Routed s i.m1)
    (hm0 : i.m0.valid = true → m0Rdy s i = false → i'.m0 = i.m0)
    (hm1 : i.m1.valid = true → m1Rdy s i = false → i'.m1 = i.m1) (hw : i.m0.wen = false)
    (hv : arValid s i = true) (hs : stale s i = false) :
    arAddr (Axi.next s i) i' = arAddr s i := by
  have ho := rOver_of_arValid hv
  cases hg : m0Valid s i with
  | true =>
    -- it is the first master that asks, now and in the next cycle
    have hq : i.m0.valid = true := by
      rw [m0Valid, Bool.or_eq_true, Bool.and_eq_true, m0Ren, Bool.and_eq_true] at hg
      rcases hg with hg | hg
      · exact hg.1.1
      · simpa [stale, hg] using hs
    have hg' : (Axi.next s i).m0Rget = true := by
      rw [m0Valid] at hg
      cases hn : m0Ren i && !m1Ren i with
      | true => simp only [Axi.next, hn, if_true]
      | false =>
        rw [hn, Bool.false_or] at hg
        simp [Axi.next, hn, ho, hg]
    have he : i'.m0 = i.m0 := m0_unanswered hm0 (by rw [m0Ren, hq, hw]; rfl) ho
    rw [arAddr, arAddr, hg, m0Valid, hg', Bool.or_true, if_pos rfl, if_pos rfl, he]
  | false =>
    have hg0 := hg
    rw [m0Valid, Bool.or_eq_false_iff] at hg0
    have hq : m1Ren i = true := by
      rw [arValid, Bool.and_eq_true, Bool.or_eq_true] at hv
      rcases hv.1 with h0 | h1
      · simpa [h0] using hg0.1
      · exact h1
    have he := h.read_stays hm1 hq ho
    have hg' : (Axi.next s i).m0Rget = false := by
      simp [Axi.next, hg0.1, ho, hg0.2]
    have hq' : m1Ren i' = true := by rw [m1Ren, he]; exact hq
    rw [arAddr, arAddr, hg, m0Valid, hg', hq', he]
    simp

theorem Slave.Routed.stays (h : x.Routed s i.m1)
    (hm0 : i.m0.valid = true → m0Rdy s i = false → i'.m0 = i.m0)
    (hm1 : i.m1.valid = true → m1Rdy s i = false → i'.m1 = i.m1) (hw : i.m0.wen = false) :
    Stays s i (Axi.next s i) i' where
  ar := fun hv hr => by
    have hv' := h.arValid_stays hm0 hm1 hv hr
    refine ⟨hv', fun hs => ?_⟩
    rw [arOffer, arOffer, if_pos hv, if_pos hv', h.arAddr_stays hm0 hm1 hw hv hs]
  aw := h.aw_stays hm1
  w := h.w_stays hm1
  r := fun hv hr => by
    have ho : rOver s i = false := by rw [rOver, hr, Bool.false_and]
    have ha : s.arOver = true := hv
    change (if rOver s i then false else if _ then true else s.arOver) = true
    rw [ho, ha]
    simp
  b := fun hv hr => by
    have ho : bOver s i = false := by rw [bOver, hr, Bool.false_and]
    rw [bReady, Bool.and_eq_true] at hv
    simp [bReady, Axi.next, ho, hv.1, hv.2]

/-- An open read that the first master has the channel for is its own. -/
def Slave.Owned (x : Slave) (s : State) (m0 : Abr) : Prop :=
  s.arOver = true → s.m0Rget = true → m0.valid = true ∧ x.ar = some m0.addr

/-- While a read is open, `m0_rget` says whose it is. -/
theorem Slave.Routed.m0Valid_of_arOver (h : x.Routed s i.m1) (ho : s.arOver = true) :
    m0Valid s i = s.m0Rget := by
  cases hg : s.m0Rget with
  | true => rw [m0Valid, hg, Bool.or_true]
  | false =>
    obtain ⟨h1, h2, -⟩ := h.owner ho hg
    simp [m0Valid, m1Ren, h1, h2, hg]

theorem m0Rget_of_not_rOver (hr : rOver s i = false) : (Axi.next s i).m0Rget = m0Valid s i := by
  cases hn : m0Ren i && !m1Ren i with
  | true => simp [Axi.next, m0Valid, hn]
  | false => simp [Axi.next, m0Valid, hn, hr]

theorem Slave.Owned.next (h : x.Owned s i.m0) (hx : x.Routed s i.m1)
    (hm0 : i.m0.valid = true → m0Rdy s i = false → m0' = i.m0)
    (hs : arShake s i = true → stale s i = false) :
    (x.update s i).Owned (Axi.next s i) m0' := by
  intro ho hg
  have hr : rOver s i = false := by
    refine Bool.of_not_eq_true fun hr => ?_
    simp [Axi.next, hr] at ho
  have hown : m0Valid s i = true := (m0Rget_of_not_rOver hr).symm.trans hg
  have stay (hv : i.m0.valid = true) : m0' = i.m0 :=
    hm0 hv (by rw [m0Rdy, hr, Bool.and_false])
  cases ha : arShake s i with
  | true =>
    have hv : i.m0.valid = true := by
      have hst := hs ha
      rw [m0Valid, m0Ren, Bool.or_eq_true, Bool.and_eq_true, Bool.and_eq_true] at hown
      rcases hown with hq | hq
      · exact hq.1.1
      · simpa [stale, hq] using hst
    rw [stay hv]
    refine ⟨hv, ?_⟩
    simp only [Slave.update, ha, if_true, arAddr, hown]
  | false =>
    have hover : s.arOver = true := by
      change (if rOver s i then false else if arShake s i then true else s.arOver) = true at ho
      rw [hr, ha] at ho
      exact ho
    obtain ⟨hv, he⟩ := h hover ((hx.m0Valid_of_arOver hover).symm.trans hown)
    rw [stay hv]
    refine ⟨hv, ?_⟩
    simp only [Slave.update, ha, hr]
    exact he

theorem Slave.Owned.answer (h : x.Owned s i.m0) (hx : x.Routed s i.m1)
    (hr : m0Rdy s i = true) : i.m0.valid = true ∧ x.ar = some i.m0.addr := by
  rw [m0Rdy, Bool.and_eq_true] at hr
  have ho := arOver_of_rOver hr.2
  exact h ho (by rw [← hx.m0Valid_of_arOver ho, hr.1])

end Step

end Rv64imCore.Axi

namespace Rv64imCore.Top
set_option autoImplicit true

theorem FetchInv.m0_stays {s : State} {i : In} (h : FetchInv s) (hv : (m0 s).valid = true)
    (hr : Axi.m0Rdy s.axi (axiIn s i) = false) : m0 (Top.next s i) = m0 s := by
  have hn : (Top.next s i).icache = s.icache := h.icache.next_wait (i := icacheIn s i) hv hr
  rw [m0, m0, hn]

/-- What the slave has taken from the bridge, of a run that starts with an empty memory. -/
def taken (s : State) (i : Nat → In) (n : Nat) : Axi.Slave :=
  machine.history (Axi.Slave.start fun _ => 0) (fun x s i => x.update s.axi (axiIn s i)) s i n

theorem taken_routed (s₀ : State) (i : Nat → In) (n : Nat) :
    Sys.Inv (machine.run s₀.reset i n).sys ∧
      (taken s₀.reset i n).Routed (machine.run s₀.reset i n).axi
        (Sys.m3 (machine.run s₀.reset i n).sys) := by
  refine machine.history_invariant _ _
    (P := fun s (x : Axi.Slave) => Sys.Inv s.sys ∧ x.Routed s.axi (Sys.m3 s.sys))
    (C := fun _ _ _ => True) ⟨Sys.Inv.reset s₀.sys, Axi.Slave.Routed.reset _ _⟩ ?_
    fun _ _ => trivial
  intro s x a _ ⟨hi, hx⟩
  exact ⟨hi.next _, hx.next (i := axiIn s a) fun hv hr => hi.m3_stays (i := sysIn s a) hv hr⟩

/-- In every run of the top, over any slave, nothing that is offered on an AXI channel is taken back
or changed before it is accepted, but for the address of a read while the I-cache holds the read
channel without a request. -/
theorem keeps_handshakes (s₀ : State) (i : Nat → In) (n : Nat) :
    let s := machine.run s₀.reset i
    Axi.Stays (s n).axi (axiIn (s n) (i n)) (s (n + 1)).axi (axiIn (s (n + 1)) (i (n + 1))) := by
  intro s
  obtain ⟨hi, hx⟩ := taken_routed s₀ i n
  have hr := running s₀ i
  exact hx.stays (i := axiIn (s n) (i n)) (fun hv hq => (hr.fetch n).m0_stays hv hq)
    (fun hv hq => hi.m3_stays (i := sysIn (s n) (i n)) hv hq) (hr.clean n).state

theorem owned_run (s₀ : State) (i : Nat → In)
    (hs : ∀ k, k < n → Axi.arShake (machine.run s₀.reset i k).axi
      (axiIn (machine.run s₀.reset i k) (i k)) = true →
      Axi.stale (machine.run s₀.reset i k).axi (axiIn (machine.run s₀.reset i k) (i k)) = false) :
    (taken s₀.reset i n).Owned (machine.run s₀.reset i n).axi (m0 (machine.run s₀.reset i n)) := by
  induction n with
  | zero => exact fun ho => Bool.noConfusion ho
  | succ n ih =>
    exact (ih fun k hk => hs k (by omega)).next (i := axiIn _ (i n)) (taken_routed s₀ i n).2
      (fun hv hr => ((running s₀ i).fetch n).m0_stays hv hr) (hs n (by omega))

/-- As long as no address is accepted in a cycle in which the I-cache holds the read channel without
a request, no read of the top is lost or mixed up: the I-cache and the data side are answered only
from the address that they ask for, and every response answers one of them. -/
theorem reads_routed (s₀ : State) (i : Nat → In) (n : Nat) :
    let s := machine.run s₀.reset i
    let a := fun k => axiIn (s k) (i k)
    let x := taken s₀.reset i n
    (∀ k, k < n → Axi.arShake (s k).axi (a k) = true → Axi.stale (s k).axi (a k) = false) →
    (Axi.m0Rdy (s n).axi (a n) = true →
      (m0 (s n)).valid = true ∧ x.ar = some (m0 (s n)).addr) ∧
    (Axi.m1Rdy (s n).axi (a n) = true → (Sys.m3 (s n).sys).valid = true →
      (Sys.m3 (s n).sys).wen = false → x.ar = some (Sys.m3 (s n).sys).addr) ∧
    (Axi.rOver (s n).axi (a n) = true → Axi.m0Rdy (s n).axi (a n) = true ∨
      Axi.m1Rdy (s n).axi (a n) = true ∧ (Sys.m3 (s n).sys).valid = true ∧
        (Sys.m3 (s n).sys).wen = false) := by
  intro s a x hs
  have hx : x.Routed (s n).axi (Sys.m3 (s n).sys) := (taken_routed s₀ i n).2
  have ho : x.Owned (s n).axi (m0 (s n)) := owned_run s₀ i hs
  refine ⟨ho.answer (i := a n) hx, fun hr hv hw => (hx.read (i := a n) hr hv hw).2.1, fun hr => ?_⟩
  cases hg : Axi.m0Valid (s n).axi (a n) with
  | true => exact .inl (by rw [Axi.m0Rdy, hg, hr]; rfl)
  | false =>
    have hov := Axi.arOver_of_rOver hr
    have hget := (hx.m0Valid_of_arOver (i := a n) hov).symm.trans hg
    obtain ⟨hv, hw, -⟩ := hx.owner hov hget
    exact .inr ⟨by rw [Axi.m1Rdy, hg, hr]; simp, hv, hw⟩

/-- `lui x1, 0x80010` at the start of a line and `ld x2, 0(x1)` at its end: the load misses while
the next line is filled. -/
def loadDuringFill (n : Nat) : In :=
  { awReady := true, wReady := true, bValid := true, arReady := true, rValid := true
    rData := if n = 2 then 0x00000013800100b7
      else if n = 8 then 0x0000b10300000013
      else 0x0000001300000013 }

theorem reads_routed_load :
    let s := machine.run (default : State).reset loadDuringFill
    let a := fun k => axiIn (s k) (loadDuringFill k)
    let x := taken (default : State).reset loadDuringFill
    (Axi.m0Rdy (s 20).axi (a 20) = true ∧ (x 20).ar = some 0x80000028) ∧
    Axi.m1Rdy (s 22).axi (a 22) = true ∧ (x 22).ar = some 0x80010000 := by
  intro s a x
  have hs : ∀ k, k < 22 →
      Axi.arShake (s k).axi (a k) = true → Axi.stale (s k).axi (a k) = false := by decide +kernel
  have h0 := (reads_routed default loadDuringFill 20 fun k hk => hs k (by omega)).1
    (by decide +kernel)
  have h1 := (reads_routed default loadDuringFill 22 hs).2.1
    (by decide +kernel) (by decide +kernel) (by decide +kernel)
  have hm0 : (m0 (s 20)).addr = 0x80000028 := by decide +kernel
  have hm1 : (Sys.m3 (s 22).sys).addr = 0x80010000 := by decide +kernel
  exact ⟨⟨by decide +kernel, h0.2.trans (congrArg some hm0)⟩, by decide +kernel,
    h1.trans (congrArg some hm1)⟩

end Rv64imCore.Top
