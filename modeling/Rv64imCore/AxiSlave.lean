import Rv64imCore.Axi
import Rv64imCore.CacheLines

/-! The slave on the five AXI channels of the bridge: what it has taken, and the memory it keeps. -/

namespace Rv64imCore.Axi
set_option autoImplicit true

/-- The addresses of the memory; the others are devices. -/
def isRam (addr : BitVec 32) : Bool := addr.extractLsb' 28 4 == 0x8#4

/-- The memory, the address of the read that is open, and what has come of the write under way. -/
structure Slave where
  mem : Bytes.Mem 29
  ar : Option (BitVec 32)
  aw : Option (BitVec 32)
  w : Option (BitVec 64 × BitVec 8)

def Slave.start (m : Bytes.Mem 29) : Slave := { mem := m, ar := none, aw := none, w := none }

/-- The memory with the write under way, once both its parts are there. -/
def Slave.commit (x : Slave) : Bytes.Mem 29 :=
  match x.aw, x.w with
  | some a, some d => if isRam a then x.mem.store (Dcache.wordOf a) d.2 d.1 else x.mem
  | _, _ => x.mem

section Wires
variable (s : State) (i : In)

def arShake : Bool := i.arReady && arValid s i
def awShake : Bool := i.awReady && awValid s i
def wShake : Bool := i.wReady && wValid s i

/-- What the handshakes of a cycle leave. A write is done with its response. -/
def Slave.update (x : Slave) : Slave :=
  { mem := if bOver s i then x.commit else x.mem
    ar := if arShake s i then some (arAddr s i) else if rOver s i then none else x.ar
    aw := if bOver s i then none else if awShake s i then some (awAddr i) else x.aw
    w := if bOver s i then none else if wShake s i then some (wData i, wStrb i) else x.w }

/-- A read of the memory is answered as it stands before or after the write under way. -/
def Slave.Answers (x : Slave) : Prop :=
  rOver s i = true → ∀ a, x.ar = some a → isRam a = true →
    i.rData = x.mem.read (Dcache.wordOf a) ∨ i.rData = x.commit.read (Dcache.wordOf a)

instance (x : Slave) : Decidable (x.Answers s i) :=
  decidable_of_iff (rOver s i = true → (x.ar.all fun a => !isRam a ||
      (i.rData == x.mem.read (Dcache.wordOf a) || i.rData == x.commit.read (Dcache.wordOf a))) =
        true) (by
    rw [Slave.Answers, Option.all_eq_true]
    simp only [Bool.or_eq_true, Bool.not_eq_true', beq_iff_eq, ← Bool.not_eq_true, imp_iff_not_or])

end Wires

/-- What the slave has taken is what the second master asks for, but for reads of the first. -/
structure Slave.Routed (x : Slave) (s : State) (m1 : Abr) : Prop where
  opened : x.ar.isSome = s.arOver
  owner : s.arOver = true → s.m0Rget = false →
    m1.valid = true ∧ m1.wen = false ∧ x.ar = some m1.addr
  aw : if s.awOver then m1.valid = true ∧ m1.wen = true ∧ x.aw = some m1.addr else x.aw = none
  w : if s.wOver then m1.valid = true ∧ m1.wen = true ∧ x.w = some (m1.wdata, m1.wmask)
    else x.w = none

theorem Slave.Routed.reset (m : Bytes.Mem 29) (m1 : Abr) :
    (Slave.start m).Routed resetState m1 where
  opened := rfl
  owner := fun h => Bool.noConfusion h
  aw := rfl
  w := rfl

section Step
variable {x : Slave} {s : State} {i : In} {m1' : Abr}

theorem arOver_of_rOver (h : rOver s i = true) : s.arOver = true := by
  rw [rOver, rReady, Bool.and_eq_true] at h
  exact h.2

theorem of_arShake (h : arShake s i = true) :
    s.arOver = false ∧ rOver s i = false ∧ (m0Ren i = true ∨ m1Ren i = true) := by
  simp only [arShake, arValid, Bool.and_eq_true, Bool.or_eq_true, Bool.not_eq_true'] at h
  exact ⟨h.2.2, by rw [rOver, rReady, h.2.2, Bool.and_false], h.2.1⟩

theorem Slave.Routed.writes (h : x.Routed s i.m1) (ho : s.awOver = true ∨ s.wOver = true) :
    i.m1.valid = true ∧ i.m1.wen = true := by
  rcases ho with ho | ho
  · have ha := h.aw
    rw [if_pos ho] at ha
    exact ⟨ha.1, ha.2.1⟩
  · have ha := h.w
    rw [if_pos ho] at ha
    exact ⟨ha.1, ha.2.1⟩

theorem Slave.Routed.m1Rdy_of_write (h : x.Routed s i.m1) (hw : i.m1.wen = true) :
    m1Rdy s i = bOver s i := by
  rw [m1Rdy]
  cases hr : rOver s i with
  | false => simp
  | true =>
    cases hg : s.m0Rget with
    | true => simp [m0Valid, hg]
    | false =>
      rw [(h.owner (arOver_of_rOver hr) hg).2.1] at hw
      cases hw

theorem Slave.Routed.m1Rdy_of_read (h : x.Routed s i.m1) (hw : i.m1.wen = false) :
    m1Rdy s i = (!m0Valid s i && rOver s i) := by
  have hb : bOver s i = false := by
    rw [Bool.eq_false_iff]
    intro hb
    simp only [bOver, bReady, Bool.and_eq_true] at hb
    rw [(h.writes (.inl hb.2.1)).2] at hw
    cases hw
  rw [m1Rdy, hb, Bool.false_or]

theorem Slave.Routed.next_opened (h : x.Routed s i.m1) :
    (x.update s i).ar.isSome = (Axi.next s i).arOver := by
  change (if arShake s i then _ else if rOver s i then _ else x.ar).isSome =
    if rOver s i then false else if arShake s i then true else s.arOver
  cases ha : arShake s i with
  | true => rw [(of_arShake ha).2.1]; rfl
  | false =>
    cases rOver s i with
    | true => rfl
    | false => exact h.opened

theorem Slave.Routed.next_owner (h : x.Routed s i.m1)
    (hm : i.m1.valid = true → m1Rdy s i = false → m1' = i.m1)
    (ho : (Axi.next s i).arOver = true) (hg : (Axi.next s i).m0Rget = false) :
    m1'.valid = true ∧ m1'.wen = false ∧ (x.update s i).ar = some m1'.addr := by
  have hr : rOver s i = false := by
    rw [Bool.eq_false_iff]
    intro hr
    simp [Axi.next, hr] at ho
  have hren : (m0Ren i && !m1Ren i) = false := by
    rw [Bool.eq_false_iff]
    intro hren
    simp only [Axi.next, hren] at hg
    cases hg
  have hget : s.m0Rget = false := by simpa [Axi.next, hren, hr] using hg
  have hv : m0Valid s i = false := by rw [m0Valid, hren, hget]; rfl
  have hstay (hvalid : i.m1.valid = true) (hw : i.m1.wen = false) : m1' = i.m1 :=
    hm hvalid (by rw [h.m1Rdy_of_read hw, hr, Bool.and_false])
  cases ha : arShake s i with
  | true =>
    have hm1 : i.m1.valid = true ∧ i.m1.wen = false := by
      have h1 : m1Ren i = true := by
        rcases (of_arShake ha).2.2 with h0 | h1
        · rw [h0] at hren
          simpa using hren
        · exact h1
      simpa [m1Ren] using h1
    rw [hstay hm1.1 hm1.2]
    refine ⟨hm1.1, hm1.2, ?_⟩
    simp only [Slave.update, ha, if_true, arAddr, hv]
    rfl
  | false =>
    have hover : s.arOver = true := by
      change (if rOver s i then false else if arShake s i then true else s.arOver) = true at ho
      rw [hr, ha] at ho
      exact ho
    obtain ⟨h1, h2, h3⟩ := h.owner hover hget
    rw [hstay h1 h2]
    refine ⟨h1, h2, ?_⟩
    simp only [Slave.update, ha, hr]
    exact h3

/-- A part of a write that has been taken stays with the write until its response. -/
theorem Slave.Routed.next_write (h : x.Routed s i.m1)
    (hm : i.m1.valid = true → m1Rdy s i = false → m1' = i.m1) (hb : bOver s i = false)
    (hw : m1Wen i = true) : m1'.valid = true ∧ m1'.wen = true ∧ m1' = i.m1 := by
  rw [m1Wen, Bool.and_eq_true] at hw
  have he := hm hw.1 (by rw [h.m1Rdy_of_write hw.2, hb])
  rw [he]
  exact ⟨hw.1, hw.2, rfl⟩

theorem Slave.Routed.next (h : x.Routed s i.m1)
    (hm : i.m1.valid = true → m1Rdy s i = false → m1' = i.m1) :
    (x.update s i).Routed (Axi.next s i) m1' where
  opened := h.next_opened
  owner := h.next_owner hm
  aw := by
    have hx := h.aw
    change if (if bOver s i then false else if awShake s i then true else s.awOver) = true then
      _ ∧ _ ∧ (if bOver s i then none else if awShake s i then some (awAddr i) else x.aw) = _
      else (if bOver s i then none else if awShake s i then some (awAddr i) else x.aw) = none
    cases hb : bOver s i with
    | true => rfl
    | false =>
      cases ha : awShake s i with
      | true =>
        simp only [awShake, awValid, Bool.and_eq_true] at ha
        obtain ⟨h1, h2, h3⟩ := h.next_write hm hb ha.2.1
        exact ⟨h1, h2, by rw [h3]; rfl⟩
      | false =>
        cases ho : s.awOver with
        | false => rwa [ho] at hx
        | true =>
          rw [ho] at hx
          obtain ⟨h1, h2, h3⟩ := h.next_write hm hb (by rw [m1Wen, hx.1, hx.2.1]; rfl)
          exact ⟨h1, h2, by rw [h3]; exact hx.2.2⟩
  w := by
    have hx := h.w
    change if (if bOver s i then false else if wShake s i then true else s.wOver) = true then
      _ ∧ _ ∧ (if bOver s i then none else if wShake s i then some (wData i, wStrb i) else x.w) = _
      else (if bOver s i then none else if wShake s i then some (wData i, wStrb i) else x.w) = none
    cases hb : bOver s i with
    | true => rfl
    | false =>
      cases ha : wShake s i with
      | true =>
        simp only [wShake, wValid, Bool.and_eq_true] at ha
        obtain ⟨h1, h2, h3⟩ := h.next_write hm hb ha.2.1
        exact ⟨h1, h2, by rw [h3]; rfl⟩
      | false =>
        cases ho : s.wOver with
        | false => rwa [ho] at hx
        | true =>
          rw [ho] at hx
          obtain ⟨h1, h2, h3⟩ := h.next_write hm hb (by rw [m1Wen, hx.1, hx.2.1]; rfl)
          exact ⟨h1, h2, by rw [h3]; exact hx.2.2⟩

theorem Slave.Routed.commit_cases (h : x.Routed s i.m1) : x.commit = x.mem ∨
    (i.m1.valid = true ∧ i.m1.wen = true ∧ isRam i.m1.addr = true ∧
      x.commit = x.mem.store (Dcache.wordOf i.m1.addr) i.m1.wmask i.m1.wdata) := by
  have ha := h.aw
  have hw := h.w
  cases hao : s.awOver with
  | false =>
    rw [hao] at ha
    have ha : x.aw = none := ha
    rw [commit, ha]
    exact .inl rfl
  | true =>
    cases hwo : s.wOver with
    | false =>
      rw [hwo] at hw
      have hw : x.w = none := hw
      rw [commit, hw]
      cases x.aw <;> exact .inl rfl
    | true =>
      rw [hao] at ha
      rw [hwo] at hw
      obtain ⟨h1, h2, h3⟩ := ha
      rw [commit, h3, hw.2.2]
      cases hr : isRam i.m1.addr with
      | false => exact .inl (by simp [hr])
      | true => exact .inr ⟨h1, h2, rfl, by simp [hr]⟩

/-- The response of a write: the memory takes what the second master asks for. -/
theorem Slave.Routed.write (h : x.Routed s i.m1) (hb : bOver s i = true) :
    i.m1.valid = true ∧ i.m1.wen = true ∧ m1Rdy s i = true ∧
      x.commit = if isRam i.m1.addr then
        x.mem.store (Dcache.wordOf i.m1.addr) i.m1.wmask i.m1.wdata else x.mem := by
  have hb' := hb
  simp only [bOver, bReady, Bool.and_eq_true] at hb'
  have ha := h.aw
  have hw := h.w
  rw [hb'.2.1] at ha
  rw [hb'.2.2] at hw
  obtain ⟨h1, h2, h3⟩ := ha
  refine ⟨h1, h2, by rw [h.m1Rdy_of_write h2, hb], ?_⟩
  rw [commit, h3, hw.2.2]

theorem Slave.Routed.read (h : x.Routed s i.m1) (hr : m1Rdy s i = true) (hv : i.m1.valid = true)
    (hw : i.m1.wen = false) : rOver s i = true ∧ x.ar = some i.m1.addr ∧
      m1Rdata i = i.rData ∧ x.commit = x.mem := by
  rw [h.m1Rdy_of_read hw, Bool.and_eq_true, Bool.not_eq_true'] at hr
  have hg : s.m0Rget = false := by
    have hm := hr.1
    rw [m0Valid, Bool.or_eq_false_iff] at hm
    exact hm.2
  refine ⟨hr.2, (h.owner (arOver_of_rOver hr.2) hg).2.2, by simp [m1Rdata, m1Ren, hv, hw], ?_⟩
  rcases h.commit_cases with hc | ⟨-, hw', -⟩
  · exact hc
  · rw [hw] at hw'
    cases hw'

end Step

end Rv64imCore.Axi
