import Rv64imCore.BusService

/-! The read channel of the AXI bridge, between its two masters and a slave of any latency. -/

namespace Rv64imCore.Axi
set_option autoImplicit true

/-- The bridge, the request each master holds until its own ready, and the address the slave has
accepted and not yet answered. The first master only reads; the second says if it writes. -/
structure Bus where
  axi : State
  m0 : Option (BitVec 32)
  m1 : Option (Bool × BitVec 32)
  opened : Option (BitVec 32)
  deriving DecidableEq

/-- What masters and slave choose in a cycle: the next requests, the lines of an idle master, the
slave's handshakes, and the memory the slave answers from. -/
structure Env where
  next0 : Option (BitVec 32)
  next1 : Option (Bool × BitVec 32)
  idle0 : BitVec 32
  idle1 : Bool × BitVec 32
  wdata : BitVec 64
  wmask : BitVec 8
  awReady : Bool
  wReady : Bool
  bValid : Bool
  arReady : Bool
  respond : Bool
  word : BitVec 32 → BitVec 64
  noise : BitVec 64

def isRead (r : Option (Bool × BitVec 32)) : Bool := r.isSome && !(r.getD (true, 0)).1

/-- The second master waits for a read. -/
def Bus.reads1 (b : Bus) : Bool := isRead b.m1

section Wires
variable (b : Bus) (e : Env)

def Bus.rData : BitVec 64 :=
  match b.opened with
  | some a => if e.respond then e.word a else e.noise
  | none => e.noise

def Bus.input : In :=
  { m0 := { valid := b.m0.isSome, wen := false, addr := b.m0.getD e.idle0, wdata := 0, wmask := 0 }
    m1 := { valid := b.m1.isSome, wen := (b.m1.getD e.idle1).1, addr := (b.m1.getD e.idle1).2
            wdata := e.wdata, wmask := e.wmask }
    awReady := e.awReady, wReady := e.wReady, bValid := e.bValid, arReady := e.arReady
    rValid := b.opened.isSome && e.respond
    rData := b.rData e }

def Bus.arShake : Bool := e.arReady && arValid b.axi (b.input e)
def Bus.rShake : Bool := rOver b.axi (b.input e)
def Bus.rdy0 : Bool := m0Rdy b.axi (b.input e)
def Bus.rdy1 : Bool := m1Rdy b.axi (b.input e)

def Bus.next : Bus :=
  { axi := Axi.next b.axi (b.input e)
    m0 := if b.m0.isNone || b.rdy0 e then e.next0 else b.m0
    m1 := if b.m1.isNone || b.rdy1 e then e.next1 else b.m1
    opened := if b.arShake e then some (arAddr b.axi (b.input e))
      else if b.rShake e then none
      else b.opened }

/-- An address is accepted on behalf of the first master while that one asks for nothing. -/
def Bus.stale : Bool := b.arShake e && b.axi.m0Rget && b.m0.isNone

end Wires

def Bus.reset : Bus := { axi := resetState, m0 := none, m1 := none, opened := none }

def bus : Clocked.Machine Bus Env where
  next := Bus.next

/-- The open read belongs to the master that `m0_rget` names, which still waits for it. -/
structure Bus.Routed (b : Bus) : Prop where
  opened : b.opened.isSome = b.axi.arOver
  owner0 : b.axi.m0Rget = true → ∀ a, b.opened = some a → b.m0 = some a
  owner1 : b.axi.m0Rget = false → ∀ a, b.opened = some a → b.m1 = some (false, a)
  writing : b.axi.awOver = true ∨ b.axi.wOver = true → ∃ a, b.m1 = some (true, a)

theorem Bus.Routed.reset : Bus.reset.Routed where
  opened := rfl
  owner0 := fun _ _ h => nomatch h
  owner1 := fun _ _ h => nomatch h
  writing := fun h => by rcases h with h | h <;> cases h

section Step
variable {b : Bus} {e : Env}

theorem m0Ren_input : m0Ren (b.input e) = b.m0.isSome := by simp [m0Ren, Bus.input]

theorem m1Ren_input : m1Ren (b.input e) = b.reads1 := by
  simp only [m1Ren, Bus.input, Bus.reads1, isRead]
  cases b.m1 <;> rfl

theorem reads1_iff : b.reads1 = true ↔ ∃ a, b.m1 = some (false, a) := by
  rw [Bus.reads1, isRead]
  cases h : b.m1 with
  | none => simp
  | some x =>
    obtain ⟨w, a⟩ := x
    cases w <;> simp

theorem m1Wen_iff : m1Wen (b.input e) = true ↔ ∃ a, b.m1 = some (true, a) := by
  simp only [m1Wen, Bus.input]
  cases h : b.m1 with
  | none => simp
  | some x =>
    obtain ⟨w, a⟩ := x
    cases w <;> simp

theorem Bus.Routed.bOver_of_reads1 (h : b.Routed) (hr : b.reads1 = true) :
    Axi.bOver b.axi (b.input e) = false := by
  rw [Bool.eq_false_iff]
  intro hb
  simp only [Axi.bOver, bReady, Bool.and_eq_true] at hb
  obtain ⟨a, ha⟩ := h.writing (.inl hb.2.1)
  obtain ⟨a', ha'⟩ := reads1_iff.mp hr
  rw [ha] at ha'
  cases ha'

theorem Bus.Routed.rShake_eq (h : b.Routed) : b.rShake e = (b.opened.isSome && e.respond) := by
  rw [Bus.rShake, rOver, rReady, ← h.opened]
  change ((b.opened.isSome && e.respond) && b.opened.isSome) = _
  cases b.opened.isSome <;> simp

theorem arShake_of_arOver (h : b.axi.arOver = true) : b.arShake e = false := by
  simp [Bus.arShake, arValid, h]

theorem rShake_of_arOver (h : b.axi.arOver = false) : b.rShake e = false := by
  simp [Bus.rShake, rOver, rReady, h]

theorem m0Valid_of_rget (h : b.axi.m0Rget = true) : m0Valid b.axi (b.input e) = true := by
  simp [m0Valid, h]

theorem m0Valid_of_reads1 (h : b.axi.m0Rget = false) (hr : b.reads1 = true) :
    m0Valid b.axi (b.input e) = false := by
  simp [m0Valid, h, m1Ren_input, hr]

theorem Bus.Routed.owner (h : b.Routed) (ho : b.opened = some a) :
    (b.axi.m0Rget = true ∧ b.m0 = some a ∧ m0Valid b.axi (b.input e) = true) ∨
    (b.axi.m0Rget = false ∧ b.m1 = some (false, a) ∧ m0Valid b.axi (b.input e) = false) := by
  cases hg : b.axi.m0Rget with
  | true => exact .inl ⟨rfl, h.owner0 hg a ho, m0Valid_of_rget hg⟩
  | false =>
    have hm := h.owner1 hg a ho
    exact .inr ⟨rfl, hm, m0Valid_of_reads1 hg (reads1_iff.mpr ⟨a, hm⟩)⟩

theorem arShake_cases (hs : b.stale e = false) (ha : b.arShake e = true) :
    b.axi.arOver = false ∧
    ((m0Valid b.axi (b.input e) = true ∧ b.m0 = some (arAddr b.axi (b.input e))) ∨
    (m0Valid b.axi (b.input e) = false ∧ b.axi.m0Rget = false ∧ b.reads1 = true ∧
      b.m1 = some (false, arAddr b.axi (b.input e)))) := by
  have ha' := ha
  simp only [Bus.arShake, arValid, Bool.and_eq_true, Bool.not_eq_true', m0Ren_input] at ha'
  obtain ⟨-, hr, ho⟩ := ha'
  refine ⟨ho, ?_⟩
  cases hv : m0Valid b.axi (b.input e) with
  | true =>
    refine .inl ⟨rfl, ?_⟩
    have hm : b.m0.isSome = true := by
      simp only [m0Valid, m0Ren_input, Bool.or_eq_true, Bool.and_eq_true] at hv
      rcases hv with hv | hv
      · exact hv.1
      · rw [Bus.stale, ha, hv] at hs
        simpa using hs
    obtain ⟨a, hm⟩ := Option.isSome_iff_exists.mp hm
    rw [arAddr, if_pos hv]
    simp [Bus.input, hm]
  | false =>
    simp only [m0Valid, m0Ren_input, m1Ren_input, Bool.or_eq_false_iff] at hv hr
    have hr1 : b.reads1 = true := by
      revert hr hv
      cases b.m0.isSome <;> cases b.reads1 <;> simp
    obtain ⟨a, hm⟩ := reads1_iff.mp hr1
    refine .inr ⟨rfl, hv.2, hr1, ?_⟩
    rw [arAddr, m0Valid_of_reads1 hv.2 hr1]
    simp [Bus.input, hm]

theorem Bus.Routed.rdy (h : b.Routed) (hr : b.rShake e = true) :
    ∃ a, b.opened = some a ∧ b.rData e = e.word a ∧
      ((b.rdy0 e = true ∧ b.m0 = some a ∧ (b.rdy1 e && b.reads1) = false) ∨
       (b.rdy0 e = false ∧ b.m1 = some (false, a) ∧ b.rdy1 e = true ∧ b.reads1 = true)) := by
  have hr' := hr
  rw [h.rShake_eq, Bool.and_eq_true] at hr'
  obtain ⟨a, ha⟩ := Option.isSome_iff_exists.mp hr'.1
  refine ⟨a, ha, by rw [Bus.rData, ha, hr'.2]; rfl, ?_⟩
  have hr : rOver b.axi (b.input e) = true := hr
  rcases h.owner (e := e) ha with ⟨-, hm, hv⟩ | ⟨hg, hm, hv⟩
  · refine .inl ⟨by rw [Bus.rdy0, m0Rdy, hv, hr]; rfl, hm, ?_⟩
    cases hq : b.reads1 with
    | false => rw [Bool.and_false]
    | true => rw [Bus.rdy1, m1Rdy, h.bOver_of_reads1 hq, hv]; rfl
  · refine .inr ⟨by rw [Bus.rdy0, m0Rdy, hv]; rfl, hm, ?_, reads1_iff.mpr ⟨a, hm⟩⟩
    rw [Bus.rdy1, m1Rdy, hv, hr]
    simp

theorem rdy_of_not_rShake (hr : b.rShake e = false) :
    b.rdy0 e = false ∧ b.rdy1 e = bOver b.axi (b.input e) := by
  have hr : rOver b.axi (b.input e) = false := hr
  constructor
  · rw [Bus.rdy0, m0Rdy, hr, Bool.and_false]
  · rw [Bus.rdy1, m1Rdy, hr, Bool.and_false, Bool.or_false]

theorem Bus.Routed.rdy1_of_write (h : b.Routed) (hw : b.m1 = some (true, a)) :
    b.rdy1 e = Axi.bOver b.axi (b.input e) := by
  cases hr : b.rShake e with
  | false => exact (rdy_of_not_rShake hr).2
  | true =>
    obtain ⟨c, hc, -, -⟩ := h.rdy hr
    rcases h.owner (e := e) hc with ⟨-, -, hv⟩ | ⟨-, hm, -⟩
    · rw [Bus.rdy1, m1Rdy, hv]; simp
    · rw [hw] at hm; cases hm

theorem next_m0 (h : b.m0 = some a) (hr : b.rdy0 e = false) : (b.next e).m0 = some a := by
  simp [Bus.next, h, hr]

theorem next_m1 (h : b.m1 = some x) (hr : b.rdy1 e = false) : (b.next e).m1 = some x := by
  simp [Bus.next, h, hr]

theorem next_m0Rget : (b.next e).axi.m0Rget =
    if b.m0.isSome && !b.reads1 then true else if b.rShake e then false else b.axi.m0Rget := by
  rw [← m0Ren_input (e := e), ← m1Ren_input (e := e)]; rfl

theorem next_arOver : (b.next e).axi.arOver =
    if b.rShake e then false else if b.arShake e then true else b.axi.arOver := rfl

theorem next_opened : (b.next e).opened =
    if b.arShake e then some (arAddr b.axi (b.input e)) else if b.rShake e then none
    else b.opened := rfl

/-- The flag of an open read does not move before its response. -/
theorem Bus.Routed.next_owner (h : b.Routed) (hr : b.rShake e = false) (ho : b.opened = some a) :
    ((b.next e).axi.m0Rget = true ∧ (b.next e).m0 = some a) ∨
    ((b.next e).axi.m0Rget = false ∧ (b.next e).m1 = some (false, a)) := by
  obtain ⟨h0, h1⟩ := rdy_of_not_rShake hr
  rcases h.owner (e := e) ho with ⟨hg, hm, -⟩ | ⟨hg, hm, -⟩
  · refine .inl ⟨?_, next_m0 hm h0⟩
    rw [next_m0Rget, hr, hg]
    cases b.m0.isSome && !b.reads1 <;> rfl
  · have hq : b.reads1 = true := reads1_iff.mpr ⟨a, hm⟩
    refine .inr ⟨?_, next_m1 hm (h1.trans (h.bOver_of_reads1 hq))⟩
    rw [next_m0Rget, hr, hg, hq, Bool.not_true, Bool.and_false]
    rfl

/-- An accepted address belongs to the master that the flag names from then on. -/
theorem Bus.Routed.next_accept (h : b.Routed) (hs : b.stale e = false) (ha : b.arShake e = true) :
    ((b.next e).axi.m0Rget = true ∧ (b.next e).m0 = some (arAddr b.axi (b.input e))) ∨
    ((b.next e).axi.m0Rget = false ∧
      (b.next e).m1 = some (false, arAddr b.axi (b.input e))) := by
  obtain ⟨ho, hc⟩ := arShake_cases hs ha
  have hr := rShake_of_arOver (e := e) ho
  obtain ⟨h0, h1⟩ := rdy_of_not_rShake hr
  rcases hc with ⟨hv, hm⟩ | ⟨-, hg, hq, hm⟩
  · refine .inl ⟨?_, next_m0 hm h0⟩
    rw [next_m0Rget, hr]
    cases hc : b.m0.isSome && !b.reads1 with
    | true => rfl
    | false =>
      rw [m0Valid, m0Ren_input, m1Ren_input, hc, Bool.false_or] at hv
      rw [hv]; rfl
  · refine .inr ⟨?_, next_m1 hm (h1.trans (h.bOver_of_reads1 hq))⟩
    rw [next_m0Rget, hr, hg, hq, Bool.not_true, Bool.and_false]
    rfl

theorem m1Wen_of_over {i : In} {o r : Bool}
    (h : (if r && (m1Wen i && !o) then true else o) = true) : o = true ∨ m1Wen i = true := by
  revert h
  cases o <;> cases r <;> cases m1Wen i <;> decide

theorem Bus.Routed.next_writing (h : b.Routed)
    (hw : (b.next e).axi.awOver = true ∨ (b.next e).axi.wOver = true) :
    ∃ a, (b.next e).m1 = some (true, a) := by
  have hb : bOver b.axi (b.input e) = false := by
    rw [Bool.eq_false_iff]
    intro hb
    simp [Bus.next, Axi.next, hb] at hw
  simp only [Bus.next, Axi.next, hb, awValid, wValid] at hw
  obtain ⟨a, hm⟩ : ∃ a, b.m1 = some (true, a) := by
    rcases hw with hw | hw <;> rcases m1Wen_of_over hw with ho | hm
    · exact h.writing (.inl ho)
    · exact m1Wen_iff.mp hm
    · exact h.writing (.inr ho)
    · exact m1Wen_iff.mp hm
  exact ⟨a, next_m1 hm ((h.rdy1_of_write hm).trans hb)⟩

theorem Bus.Routed.next (h : b.Routed) (hs : b.stale e = false) : (b.next e).Routed := by
  cases hr : b.rShake e with
  | true =>
    have ho : b.axi.arOver = true := by
      rw [h.rShake_eq, Bool.and_eq_true, h.opened] at hr
      exact hr.1
    have hn : (b.next e).opened = none := by rw [next_opened, arShake_of_arOver ho, hr]; rfl
    refine ⟨?_, fun _ a ha => ?_, fun _ a ha => ?_, h.next_writing⟩
    · rw [hn, next_arOver, hr]; rfl
    · rw [hn] at ha; cases ha
    · rw [hn] at ha; cases ha
  | false =>
    cases ha : b.arShake e with
    | true =>
      have hn : (b.next e).opened = some (arAddr b.axi (b.input e)) := by
        rw [next_opened, ha]; rfl
      refine ⟨?_, fun hg a h' => ?_, fun hg a h' => ?_, h.next_writing⟩
      · rw [hn, next_arOver, hr, ha]; rfl
      · rw [← h', hn]
        rcases h.next_accept hs ha with ⟨-, hm⟩ | ⟨hg', -⟩
        · exact hm
        · rw [hg] at hg'; cases hg'
      · obtain rfl : arAddr b.axi (b.input e) = a := by rw [hn] at h'; injection h'
        rcases h.next_accept hs ha with ⟨hg', -⟩ | ⟨-, hm⟩
        · rw [hg] at hg'; cases hg'
        · exact hm
    | false =>
      have hn : (b.next e).opened = b.opened := by rw [next_opened, ha, hr]; rfl
      refine ⟨?_, fun hg a h' => ?_, fun hg a h' => ?_, h.next_writing⟩
      · rw [hn, next_arOver, hr, ha]; exact h.opened
      · rcases h.next_owner hr (hn ▸ h') with ⟨-, hm⟩ | ⟨hg', -⟩
        · exact hm
        · rw [hg] at hg'; cases hg'
      · rcases h.next_owner hr (hn ▸ h') with ⟨hg', -⟩ | ⟨-, hm⟩
        · rw [hg] at hg'; cases hg'
        · exact hm

theorem Bus.Routed.answer0 (h : b.Routed) (hr : b.rdy0 e = true) :
    ∃ a, b.m0 = some a ∧ m0Rdata (b.input e) = e.word a := by
  have hs : b.rShake e = true := by
    simp only [Bus.rdy0, m0Rdy, Bool.and_eq_true] at hr
    exact hr.2
  obtain ⟨a, -, hd, hc⟩ := h.rdy hs
  rcases hc with ⟨-, hm, -⟩ | ⟨h0, -⟩
  · refine ⟨a, hm, ?_⟩
    rw [m0Rdata, m0Ren_input, hm]
    exact hd
  · rw [hr] at h0; cases h0

theorem Bus.Routed.answer1 (h : b.Routed) (hr : b.rdy1 e = true) (hq : b.reads1 = true) :
    ∃ a, b.m1 = some (false, a) ∧ m1Rdata (b.input e) = e.word a := by
  have hs : b.rShake e = true := by
    simp only [Bus.rdy1, m1Rdy, h.bOver_of_reads1 hq, Bool.false_or, Bool.and_eq_true] at hr
    exact hr.2
  obtain ⟨a, -, hd, hc⟩ := h.rdy hs
  rcases hc with ⟨-, -, h1⟩ | ⟨-, hm, -, -⟩
  · rw [hr, hq] at h1; cases h1
  · refine ⟨a, hm, ?_⟩
    rw [m1Rdata, m1Ren_input, hq]
    exact hd

end Step

/-- The read requests raised by each master, the addresses accepted by the slave, and the ready
pulses that answer reads. -/
structure Ledger where
  raised0 : Nat
  raised1 : Nat
  accepted : Nat
  answered0 : Nat
  answered1 : Nat

def Ledger.empty : Ledger :=
  { raised0 := 0, raised1 := 0, accepted := 0, answered0 := 0, answered1 := 0 }

def Ledger.update (g : Ledger) (b : Bus) (e : Env) : Ledger :=
  { raised0 := g.raised0 + (if b.m0.isNone || b.rdy0 e then e.next0.isSome else false).toNat
    raised1 := g.raised1 + (if b.m1.isNone || b.rdy1 e then isRead e.next1 else false).toNat
    accepted := g.accepted + (b.arShake e).toNat
    answered0 := g.answered0 + (b.rdy0 e).toNat
    answered1 := g.answered1 + (b.rdy1 e && b.reads1).toNat }

structure Ledger.Balanced (g : Ledger) (b : Bus) : Prop where
  routed : b.Routed
  m0 : g.raised0 = g.answered0 + b.m0.isSome.toNat
  m1 : g.raised1 = g.answered1 + b.reads1.toNat
  channel : g.accepted = g.answered0 + g.answered1 + b.axi.arOver.toNat

theorem Ledger.Balanced.next {g : Ledger} {b : Bus} {e : Env} (h : g.Balanced b)
    (hs : b.stale e = false) : (g.update b e).Balanced (b.next e) where
  routed := h.routed.next hs
  m0 := by
    have ha := h.routed.answer0 (e := e)
    simp only [Ledger.update, Bus.next, h.m0]
    cases hm : b.m0 with
    | none =>
      have : b.rdy0 e = false := by
        rw [Bool.eq_false_iff]
        intro hr
        obtain ⟨a, ha, -⟩ := ha hr
        rw [hm] at ha; cases ha
      simp [this]
    | some a => cases b.rdy0 e <;> simp
  m1 := by
    simp only [Ledger.update, Bus.next, Bus.reads1, h.m1]
    cases hm : b.m1 with
    | none => simp [isRead]
    | some x => cases b.rdy1 e <;> simp
  channel := by
    rw [next_arOver]
    simp only [Ledger.update, h.channel]
    cases hr : b.rShake e with
    | true =>
      obtain ⟨a, ho, -, hc⟩ := h.routed.rdy hr
      have hov : b.axi.arOver = true := by rw [← h.routed.opened, ho]; rfl
      rw [arShake_of_arOver hov, hov]
      rcases hc with ⟨h0, -, h1⟩ | ⟨h0, -, h1, h2⟩
      · rw [h0, h1]; simp; omega
      · rw [h0, h1, h2]; simp; omega
    | false =>
      obtain ⟨h0, h1⟩ := rdy_of_not_rShake hr
      have h2 : (b.rdy1 e && b.reads1) = false := by
        cases hq : b.reads1 with
        | false => rw [Bool.and_false]
        | true => rw [h1, h.routed.bOver_of_reads1 hq]; rfl
      rw [h0, h2]
      cases ha : b.arShake e with
      | false => simp
      | true =>
        have hov : b.axi.arOver = false := by
          simp only [Bus.arShake, arValid, Bool.and_eq_true, Bool.not_eq_true'] at ha
          exact ha.2.2
        simp [hov]

/-! Every read is answered, given a slave that accepts and responds again and again. -/

section Rank
variable {b : Bus} {e : Env}

/-- What stands between a waiting read of the first master and its response. Until the flag is its
own, the master waits for the other one to pause. -/
def Bus.rank0 (b : Bus) : Nat := if b.axi.m0Rget then (if b.axi.arOver then 1 else 2) else 3

theorem Bus.Routed.rShake_of_arOver (h : b.Routed) (ho : b.axi.arOver = true) :
    b.rShake e = e.respond := by
  rw [h.rShake_eq, h.opened, ho, Bool.true_and]

theorem arShake_of_m0 (hm : b.m0.isSome = true) (ho : b.axi.arOver = false) :
    b.arShake e = e.arReady := by
  simp [Bus.arShake, arValid, m0Ren_input, m1Ren_input, hm, ho]

theorem Bus.Routed.rank0_next (h : b.Routed) (hm : b.m0.isSome = true) (hr : b.rdy0 e = false) :
    (b.next e).rank0 ≤ b.rank0 ∧
      ((if b.rank0 = 1 then e.respond = true else if b.rank0 = 2 then e.arReady = true
        else b.reads1 = false) → (b.next e).rank0 < b.rank0) := by
  cases hg : b.axi.m0Rget with
  | false =>
    have hk : b.rank0 = 3 := by simp [Bus.rank0, hg]
    rw [hk]
    refine ⟨?_, fun hw => ?_⟩
    · simp only [Bus.rank0]
      cases (b.next e).axi.m0Rget <;> cases (b.next e).axi.arOver <;> decide
    · have hw : b.reads1 = false := hw
      have hn : (b.next e).axi.m0Rget = true := by rw [next_m0Rget, hm, hw]; rfl
      simp only [Bus.rank0, hn, if_true]
      cases (b.next e).axi.arOver <;> decide
  | true =>
    have hs : b.rShake e = false := by
      cases hs : b.rShake e with
      | false => rfl
      | true =>
        rw [Bus.rdy0, m0Rdy, m0Valid_of_rget hg] at hr
        exact absurd (show rOver b.axi (b.input e) = false by simpa using hr)
          (by rw [show rOver b.axi (b.input e) = true from hs]; decide)
    have hn : (b.next e).axi.m0Rget = true := by
      rw [next_m0Rget, hs, hg]
      cases b.m0.isSome && !b.reads1 <;> rfl
    have ho' : (b.next e).axi.arOver = if b.arShake e then true else b.axi.arOver := by
      rw [next_arOver, hs]; rfl
    simp only [Bus.rank0, hg, hn, ho', if_true]
    cases ho : b.axi.arOver with
    | true =>
      rw [h.rShake_of_arOver ho] at hs
      simp [hs]
    | false =>
      rw [arShake_of_m0 hm ho]
      cases e.arReady <;> simp

theorem Bus.Routed.moves (h : b.Routed)
    (hw : if readRank b.axi = 1 ∨ readRank b.axi = 3 then e.respond = true else e.arReady = true) :
    Moves b.axi (b.input e) (readRank b.axi) := by
  rw [Moves]
  split
  · rename_i hk
    rw [if_pos hk] at hw
    intro ho
    change (b.opened.isSome && e.respond) = true
    rw [hw, h.opened, Bool.and_true]
    exact ho
  · rename_i hk
    rw [if_neg hk] at hw
    have hk' : readRank b.axi = 2 ∨ readRank b.axi = 4 := by
      revert hk
      rw [readRank]
      cases b.axi.arOver <;> cases b.axi.m0Rget <;> decide
    rw [if_pos hk']
    exact fun _ => hw

theorem Bus.Routed.readRank_next (h : b.Routed) (hq : b.reads1 = true) (hr : b.rdy1 e = false) :
    readRank (b.next e).axi ≤ readRank b.axi ∧
      ((if readRank b.axi = 1 ∨ readRank b.axi = 3 then e.respond = true else e.arReady = true) →
        readRank (b.next e).axi < readRank b.axi) := by
  have hren : (b.input e).m1.valid = true ∧ (b.input e).m1.wen = false := by
    simpa [m1Ren] using (m1Ren_input (e := e)).trans hq
  obtain ⟨hle, hlt⟩ := Axi.readRank_next hren.1 hren.2 hr
  exact ⟨hle, fun hw => hlt (h.moves hw)⟩

end Rank

section Run
variable {e : Nat → Env}

theorem routed_run (hc : ∀ n, (bus.run Bus.reset e n).stale (e n) = false) (n : Nat) :
    (bus.run Bus.reset e n).Routed :=
  bus.run_induction (C := fun b a => b.stale a = false) Bus.Routed.reset
    (fun _ _ hs h => h.next hs) (fun k _ => hc k)

theorem m0_stays {b : Bus} (hm : (bus.run b e n).m0 = some a) (hnm : n ≤ m)
    (hr : ∀ k, n ≤ k → k < m → (bus.run b e k).rdy0 (e k) = false) :
    (bus.run b e m).m0 = some a :=
  Clocked.kept (P := fun k => (bus.run b e k).m0 = some a) hnm hm
    fun k hk hkm h => next_m0 h (hr k hk hkm)

theorem m1_stays {b : Bus} (hm : (bus.run b e n).m1 = some x) (hnm : n ≤ m)
    (hr : ∀ k, n ≤ k → k < m → (bus.run b e k).rdy1 (e k) = false) :
    (bus.run b e m).m1 = some x :=
  Clocked.kept (P := fun k => (bus.run b e k).m1 = some x) hnm hm
    fun k hk hkm h => next_m1 h (hr k hk hkm)

theorem read0_answered (hc : ∀ n, (bus.run Bus.reset e n).stale (e n) = false)
    (ha : Clocked.Often fun n => (e n).arReady = true)
    (hr : Clocked.Often fun n => (e n).respond = true)
    (hp : Clocked.Often fun n => (bus.run Bus.reset e n).reads1 = false)
    (hm : (bus.run Bus.reset e n).m0 = some a) :
    ∃ m, n ≤ m ∧ (bus.run Bus.reset e m).m0 = some a ∧
      (bus.run Bus.reset e m).rdy0 (e m) = true := by
  have hi := routed_run hc
  obtain ⟨m, hnm, hw, hfirst⟩ := Clocked.exists_first (Clocked.ends_of_often
    (G := fun r n => if r = 1 then (e n).respond = true else if r = 2 then (e n).arReady = true
      else (bus.run Bus.reset e n).reads1 = false)
    (fun r => by split; exacts [hr, by split; exacts [ha, hp]])
    (W := fun n => (bus.run Bus.reset e n).m0.isSome = true ∧
      (bus.run Bus.reset e n).rdy0 (e n) = false)
    (fun n => (bus.run Bus.reset e n).rank0) (fun n hw => ((hi n).rank0_next hw.1 hw.2).1)
    (fun n hw hg => ((hi n).rank0_next hw.1 hw.2).2 hg) n)
  have hm' := m0_stays hm hnm fun k hk hkm => (Decidable.not_not.mp (hfirst k hk hkm)).2
  refine ⟨m, hnm, hm', ?_⟩
  rw [← Bool.not_eq_false]
  exact fun h => hw ⟨by rw [hm']; rfl, h⟩

theorem read1_answered (hc : ∀ n, (bus.run Bus.reset e n).stale (e n) = false)
    (ha : Clocked.Often fun n => (e n).arReady = true)
    (hr : Clocked.Often fun n => (e n).respond = true)
    (hm : (bus.run Bus.reset e n).m1 = some (false, a)) :
    ∃ m, n ≤ m ∧ (bus.run Bus.reset e m).m1 = some (false, a) ∧
      (bus.run Bus.reset e m).rdy1 (e m) = true := by
  have hi := routed_run hc
  obtain ⟨m, hnm, hw, hfirst⟩ := Clocked.exists_first (Clocked.ends_of_often
    (G := fun r n => if r = 1 ∨ r = 3 then (e n).respond = true else (e n).arReady = true)
    (fun r => by split; exacts [hr, ha])
    (W := fun n => (bus.run Bus.reset e n).reads1 = true ∧
      (bus.run Bus.reset e n).rdy1 (e n) = false)
    (fun n => readRank (bus.run Bus.reset e n).axi)
    (fun n hw => ((hi n).readRank_next hw.1 hw.2).1)
    (fun n hw hg => ((hi n).readRank_next hw.1 hw.2).2 hg) n)
  have hm' := m1_stays hm hnm fun k hk hkm => (Decidable.not_not.mp (hfirst k hk hkm)).2
  refine ⟨m, hnm, hm', ?_⟩
  rw [← Bool.not_eq_false]
  exact fun h => hw ⟨reads1_iff.mpr ⟨a, hm'⟩, h⟩

end Run

/-- In a run where no address is accepted for a first master that asks for nothing: every accepted
address is that of a read that waits, every ready pulse of a read carries the word at its own
address, each read has had at most one pulse and the slave one address for each read answered. With
a slave that accepts and responds again and again, every read of the second master is answered, and
every read of the first once the second pauses. -/
theorem read_routing (e : Nat → Env)
    (hc : ∀ n, (bus.run Bus.reset e n).stale (e n) = false) :
    let b := bus.run Bus.reset e
    let g := bus.history Ledger.empty Ledger.update Bus.reset e
    (∀ n, (b n).arShake (e n) = true →
      (b n).m0 = some (arAddr (b n).axi ((b n).input (e n))) ∨
      (b n).m1 = some (false, arAddr (b n).axi ((b n).input (e n)))) ∧
    (∀ n, (b n).rdy0 (e n) = true →
      ∃ a, (b n).m0 = some a ∧ m0Rdata ((b n).input (e n)) = (e n).word a) ∧
    (∀ n, (b n).rdy1 (e n) = true → (b n).reads1 = true →
      ∃ a, (b n).m1 = some (false, a) ∧ m1Rdata ((b n).input (e n)) = (e n).word a) ∧
    (∀ n, (g n).raised0 = (g n).answered0 + (b n).m0.isSome.toNat ∧
      (g n).raised1 = (g n).answered1 + (b n).reads1.toNat ∧
      (g n).accepted = (g n).answered0 + (g n).answered1 + (b n).axi.arOver.toNat) ∧
    (Clocked.Often (fun n => (e n).arReady = true) →
      Clocked.Often (fun n => (e n).respond = true) →
      (∀ n a, (b n).m1 = some (false, a) →
        ∃ m, n ≤ m ∧ (b m).m1 = some (false, a) ∧ (b m).rdy1 (e m) = true) ∧
      (Clocked.Often (fun n => (b n).reads1 = false) → ∀ n a, (b n).m0 = some a →
        ∃ m, n ≤ m ∧ (b m).m0 = some a ∧ (b m).rdy0 (e m) = true)) := by
  intro b g
  have hi := routed_run hc
  have hg : ∀ n, (g n).Balanced (b n) := fun n =>
    bus.history_induction _ _ (P := fun b g => Ledger.Balanced g b)
      (C := fun b a => b.stale a = false) ⟨Bus.Routed.reset, rfl, rfl, rfl⟩
      (fun _ _ _ hs h => h.next hs) (fun k _ => hc k)
  refine ⟨fun n ha => ?_, fun n => (hi n).answer0, fun n => (hi n).answer1,
    fun n => ⟨(hg n).m0, (hg n).m1, (hg n).channel⟩, fun ha hr => ⟨?_, ?_⟩⟩
  · rcases (arShake_cases (hc n) ha).2 with ⟨-, hm⟩ | ⟨-, -, -, hm⟩
    · exact .inl hm
    · exact .inr hm
  · exact fun n a hm => read1_answered hc ha hr hm
  · exact fun hp n a hm => read0_answered hc ha hr hp hm

theorem stale_of_busy {e : Nat → Env} (h : ∀ n, (e n).next0.isSome = true) (n : Nat) :
    (bus.run Bus.reset e n).stale (e n) = false := by
  have hb : (bus.run Bus.reset e n).m0.isSome = true ∨
      (bus.run Bus.reset e n).axi.m0Rget = false := by
    refine bus.run_induction (P := fun b => b.m0.isSome = true ∨ b.axi.m0Rget = false)
      (C := fun _ a => a.next0.isSome = true) (.inr rfl) (fun b a ha _ => .inl ?_) fun k _ => h k
    change (if b.m0.isNone || b.rdy0 a then a.next0 else b.m0).isSome = true
    split
    · exact ha
    · rename_i hn
      cases hm : b.m0 with
      | none => rw [hm] at hn; exact absurd rfl hn
      | some a => rfl
  rcases hb with hb | hb
  · simp [Bus.stale, Option.isNone_eq_false_iff.mpr hb]
  · simp [Bus.stale, hb]

/-- The first master reads one word after the other, the second reads a word of its own once in
twelve cycles, and the slave accepts in every other cycle and answers in every third. -/
def bothReading (n : Nat) : Env :=
  { next0 := some 0x100, next1 := if n % 12 = 4 then some (false, 0x200) else none, idle0 := 0
    idle1 := (false, 0), wdata := 0, wmask := 0, awReady := true, wReady := true, bValid := true
    arReady := n % 12 % 2 == 0, respond := n % 12 % 3 == 0, word := fun a => a.setWidth 64
    noise := 0 }

theorem read_routing_both :
    let b := bus.run Bus.reset bothReading
    (b 5).m0 = some 0x100 ∧ (b 5).m1 = some (false, 0x200) ∧
    (∃ m, 5 ≤ m ∧ (b m).rdy1 (bothReading m) = true ∧
      m1Rdata ((b m).input (bothReading m)) = 0x200) ∧
    ∃ m, 5 ≤ m ∧ (b m).rdy0 (bothReading m) = true ∧
      m0Rdata ((b m).input (bothReading m)) = 0x100 := by
  intro b
  have hper : ∀ n, bothReading (n + 12) = bothReading n := fun n => by
    simp [bothReading, Nat.add_mod_right]
  have hp : Clocked.Often fun n => (b n).reads1 = false := by
    refine Clocked.often_of_periodic (N := 12) (m := 12) (p := 12) (by decide) (fun n hn h => ?_)
      (Nat.le_refl _) (by decide +kernel)
    rw [show b (n + 12) = b n from bus.run_periodic hper (N := 12) (by decide +kernel) hn]
    exact h
  have ha : Clocked.Often fun n => (bothReading n).arReady = true := fun n =>
    ⟨n * 12, Nat.le_mul_of_pos_right n (by decide), by simp [bothReading]⟩
  have hr : Clocked.Often fun n => (bothReading n).respond = true := fun n =>
    ⟨n * 12, Nat.le_mul_of_pos_right n (by decide), by simp [bothReading]⟩
  have h0 : (b 5).m0 = some 0x100 := by decide +kernel
  have h1 : (b 5).m1 = some (false, 0x200) := by decide +kernel
  obtain ⟨-, hd0, hd1, -, hl⟩ := read_routing bothReading (stale_of_busy fun _ => rfl)
  obtain ⟨hl1, hl0⟩ := hl ha hr
  obtain ⟨m, hm, hm1, hy1⟩ := hl1 5 _ h1
  obtain ⟨k, hk, hk0, hy0⟩ := hl0 hp 5 _ h0
  refine ⟨h0, h1, ⟨m, hm, hy1, ?_⟩, k, hk, hy0, ?_⟩
  · obtain ⟨a, ha, hw⟩ := hd1 m hy1 (reads1_iff.mpr ⟨_, hm1⟩)
    rw [hm1] at ha
    cases ha
    exact hw
  · obtain ⟨a, ha, hw⟩ := hd0 k hy0
    rw [hk0] at ha
    cases ha
    exact hw

/-- The first master has read and rests, and its flag is still set when the second starts to read:
the slave is given the stale address of the first master, and when that one asks for another word
before the response, it takes the wrong one. -/
theorem stale_address_accepted :
    (¬∀ (e : Nat → Env) (n : Nat),
      let b := bus.run Bus.reset e n
      b.arShake (e n) = true → b.m0 = some (arAddr b.axi (b.input (e n))) ∨
        b.m1 = some (false, arAddr b.axi (b.input (e n)))) ∧
    (¬∀ (e : Nat → Env) (n : Nat),
      let b := bus.run Bus.reset e n
      b.rdy0 (e n) = true →
        ∃ a, b.m0 = some a ∧ m0Rdata (b.input (e n)) = (e n).word a) := by
  let e : Nat → Env := fun n =>
    { next0 := if n = 0 then some 0x100 else if n = 3 then some 0x400 else none
      next1 := if n = 2 then some (false, 0x200) else none
      idle0 := 0x100, idle1 := (false, 0), wdata := 0, wmask := 0, awReady := true
      wReady := true, bValid := true, arReady := true, respond := true
      word := fun a => a.setWidth 64, noise := 0 }
  constructor
  · intro h
    have h := h e 3 (by decide +kernel)
    revert h
    decide +kernel
  · intro h
    obtain ⟨a, hm, hd⟩ := h e 4 (by decide +kernel)
    have hm' : (bus.run Bus.reset e 4).m0 = some 0x400 := by decide +kernel
    rw [hm'] at hm
    injection hm with hm
    rw [← hm] at hd
    revert hd
    decide +kernel

end Rv64imCore.Axi
