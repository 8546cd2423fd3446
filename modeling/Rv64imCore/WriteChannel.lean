import Rv64imCore.Axi
import Rv64imCore.Clocked

/-! The write channels of the AXI bridge, between its second master and a slave that takes and
answers in any order, with the reads of the first master under way. -/

namespace Rv64imCore.Axi
set_option autoImplicit true

/-- `axi_aw_len_o`. -/
def awLen : BitVec 8 := 0

/-- The slave looks for the mark on the beat with which the burst is complete. -/
def endsBurst (beat : Nat) : Bool := beat == awLen.toNat + 1

structure Request where
  wen : Bool
  addr : BitVec 32
  wdata : BitVec 64
  wmask : BitVec 8
  deriving DecidableEq

/-- The bridge, and the request that the second master holds until its own ready. -/
structure Writer where
  axi : State
  m1 : Option Request

/-- What a cycle brings: the next request and the idle lines of the second master, anything from the
first, and the handshakes of the slave. -/
structure Turn where
  next1 : Option Request
  idle1 : Request
  m0 : Abr
  awReady : Bool
  wReady : Bool
  bValid : Bool
  arReady : Bool
  rValid : Bool
  rData : BitVec 64

section Wires
variable (b : Writer) (e : Turn)

def Writer.input : In :=
  { m0 := e.m0
    m1 := { valid := b.m1.isSome, wen := (b.m1.getD e.idle1).wen, addr := (b.m1.getD e.idle1).addr
            wdata := (b.m1.getD e.idle1).wdata, wmask := (b.m1.getD e.idle1).wmask }
    awReady := e.awReady, wReady := e.wReady, bValid := e.bValid, arReady := e.arReady
    rValid := e.rValid, rData := e.rData }

/-- The write that the second master waits for. -/
def Writer.pending : Option Request := b.m1.filter (·.wen)

def Writer.awShake : Bool := e.awReady && awValid b.axi (b.input e)
def Writer.wShake : Bool := e.wReady && wValid b.axi (b.input e)
def Writer.bShake : Bool := bOver b.axi (b.input e)
def Writer.rdy1 : Bool := m1Rdy b.axi (b.input e)

def Writer.next : Writer :=
  { axi := Axi.next b.axi (b.input e)
    m1 := if b.m1.isNone || b.rdy1 e then e.next1 else b.m1 }

end Wires

def Writer.reset : Writer := { axi := resetState, m1 := none }

def writer : Clocked.Machine Writer Turn where
  next := Writer.next

/-- An open read belongs to the first master or to a read of the second, and only a write that still
waits has sent its address or its data. -/
structure Writer.Sound (b : Writer) : Prop where
  idle : b.pending = none → b.axi.awOver = false ∧ b.axi.wOver = false
  owner : b.axi.arOver = true → b.axi.m0Rget = true ∨ ∃ r, b.m1 = some r ∧ r.wen = false

theorem Writer.Sound.reset : Writer.reset.Sound where
  idle := fun _ => ⟨rfl, rfl⟩
  owner := fun h => nomatch h

section Step
variable {b : Writer} {e : Turn} {r : Request}

theorem Writer.pending_eq_some : b.pending = some r ↔ b.m1 = some r ∧ r.wen = true := by
  rw [Writer.pending, Option.filter_eq_some_iff]

theorem Writer.pending_of_read (h : b.m1 = some r) (hr : r.wen = false) : b.pending = none := by
  rw [Writer.pending, h, Option.filter_some, hr]
  rfl

theorem Writer.m1Wen_input : m1Wen (b.input e) = b.pending.isSome := by
  simp only [m1Wen, Writer.input, Writer.pending]
  cases b.m1 with
  | none => rfl
  | some r => cases hr : r.wen <;> simp [Option.filter_some, hr]

theorem Writer.Sound.bShake_idle (h : b.Sound) (hp : b.pending = none) : b.bShake e = false := by
  rw [Writer.bShake, bOver, bReady, (h.idle hp).1, Bool.false_and, Bool.and_false]

/-- While a write waits, a read response can only be for the first master. -/
theorem Writer.Sound.rdy1_of_pending (h : b.Sound) (hp : b.pending = some r) :
    b.rdy1 e = b.bShake e := by
  cases ho : b.axi.arOver with
  | false => simp [Writer.rdy1, Writer.bShake, m1Rdy, rOver, rReady, ho]
  | true =>
    have hg : b.axi.m0Rget = true := by
      rcases h.owner ho with hg | ⟨r', hm, hr'⟩
      · exact hg
      · rw [Writer.pending_of_read hm hr'] at hp
        cases hp
    simp [Writer.rdy1, Writer.bShake, m1Rdy, m0Valid, hg]

theorem Writer.next_m1_held (hm : b.m1 = some r) (hr : b.rdy1 e = false) :
    (b.next e).m1 = some r := by
  simp [Writer.next, hm, hr]

theorem Writer.next_pending_held (hp : b.pending = some r) (hr : b.rdy1 e = false) :
    (b.next e).pending = some r := by
  obtain ⟨hm, hw⟩ := Writer.pending_eq_some.mp hp
  exact Writer.pending_eq_some.mpr ⟨Writer.next_m1_held hm hr, hw⟩

theorem Writer.next_awOver : (b.next e).axi.awOver =
    if b.bShake e then false else if b.awShake e then true else b.axi.awOver := rfl

theorem Writer.next_wOver : (b.next e).axi.wOver =
    if b.bShake e then false else if b.wShake e then true else b.axi.wOver := rfl

theorem Writer.shake_idle (hp : b.pending = none) : b.awShake e = false ∧ b.wShake e = false := by
  have hw : m1Wen (b.input e) = false := by rw [Writer.m1Wen_input, hp]; rfl
  simp [Writer.awShake, Writer.wShake, awValid, wValid, hw]

theorem Writer.shake_pending (hp : b.pending = some r) :
    b.awShake e = (e.awReady && !b.axi.awOver) ∧ b.wShake e = (e.wReady && !b.axi.wOver) := by
  have hw : m1Wen (b.input e) = true := by rw [Writer.m1Wen_input, hp]; rfl
  simp [Writer.awShake, Writer.wShake, awValid, wValid, hw]

theorem Writer.Sound.next (h : b.Sound) (e : Turn) : (b.next e).Sound := by
  constructor
  · intro hp'
    cases hp : b.pending with
    | none =>
      obtain ⟨hs, hw⟩ := Writer.shake_idle (e := e) hp
      obtain ⟨ha, hd⟩ := h.idle hp
      rw [Writer.next_awOver, Writer.next_wOver, hs, hw, ha, hd]
      cases b.bShake e <;> exact ⟨rfl, rfl⟩
    | some r =>
      cases hb : b.bShake e with
      | true => rw [Writer.next_awOver, Writer.next_wOver, hb]; exact ⟨rfl, rfl⟩
      | false =>
        rw [Writer.next_pending_held hp ((h.rdy1_of_pending hp).trans hb)] at hp'
        cases hp'
  · intro ho'
    have hr : rOver b.axi (b.input e) = false := by
      rw [Bool.eq_false_iff]
      intro hr
      simp [Writer.next, Axi.next, hr] at ho'
    have hread (r : Request) (hm : b.m1 = some r) (hw : r.wen = false) :
        (b.next e).m1 = some r := by
      have hb := h.bShake_idle (e := e) (Writer.pending_of_read hm hw)
      rw [Writer.bShake] at hb
      exact Writer.next_m1_held hm (by simp [Writer.rdy1, m1Rdy, hb, hr])
    cases hm1 : m1Ren (b.input e) with
    | true =>
      have hm : ∃ r, b.m1 = some r ∧ r.wen = false := by
        simp only [m1Ren, Writer.input] at hm1
        cases hm : b.m1 with
        | none => simp [hm] at hm1
        | some r => exact ⟨r, rfl, by simpa [hm] using hm1⟩
      obtain ⟨r, hm, hw⟩ := hm
      exact .inr ⟨r, hread r hm hw, hw⟩
    | false =>
      cases hm0 : m0Ren (b.input e) with
      | true => exact .inl (by simp [Writer.next, Axi.next, hm0, hm1])
      | false =>
        have ho : b.axi.arOver = true := by
          simpa [Writer.next, Axi.next, hr, arValid, hm0, hm1] using ho'
        rcases h.owner ho with hg | ⟨r, hm, hw⟩
        · exact .inl (by simp [Writer.next, Axi.next, hm0, hr, hg])
        · exact .inr ⟨r, hread r hm hw, hw⟩

end Step

/-- The writes asked for, those answered, and what was sent on the two channels. -/
structure WriteLog where
  raised : List Request
  done : List Request
  aw : List (BitVec 32)
  w : List (BitVec 64 × BitVec 8)

def WriteLog.empty : WriteLog := { raised := [], done := [], aw := [], w := [] }

def WriteLog.update (g : WriteLog) (b : Writer) (e : Turn) : WriteLog :=
  { raised := g.raised ++
      (if b.m1.isNone || b.rdy1 e then (e.next1.filter (·.wen)).toList else [])
    done := g.done ++ (if b.rdy1 e then b.pending.toList else [])
    aw := g.aw ++ (if b.awShake e then [awAddr (b.input e)] else [])
    w := g.w ++ (if b.wShake e then [(wData (b.input e), wStrb (b.input e))] else []) }

/-- The writes whose part of a channel has been sent: those answered, and the one that waits when
its flag is set. -/
def WriteLog.sent (g : WriteLog) (b : Writer) (flag : Bool) : List Request :=
  g.done ++ if flag then b.pending.toList else []

structure WriteLog.Agrees (g : WriteLog) (b : Writer) : Prop where
  sound : b.Sound
  raised : g.raised = g.done ++ b.pending.toList
  aw : g.aw = (g.sent b b.axi.awOver).map (·.addr)
  w : g.w = (g.sent b b.axi.wOver).map fun r => (r.wdata, r.wmask)

section Log
variable {g : WriteLog} {b : Writer} {e : Turn}

theorem input_of_pending (hp : b.pending = some r) : awAddr (b.input e) = r.addr ∧
    wData (b.input e) = r.wdata ∧ wStrb (b.input e) = r.wmask := by
  have hm := (Writer.pending_eq_some.mp hp).1
  simp [awAddr, wData, wStrb, Writer.input, hm]

theorem sent_next {f : Request → α} {l : List α} {flag shake : Bool} {a : α} {r : Request}
    {done : List Request} (hl : l = (done ++ if flag then [r] else []).map f) (ha : a = f r)
    (hs : shake = true → flag = false) :
    l ++ (if shake then [a] else []) = (done ++ if flag || shake then [r] else []).map f := by
  cases shake with
  | false => simp [hl]
  | true => simp [hl, hs rfl, ha]

theorem WriteLog.Agrees.next_raised (h : g.Agrees b) (e : Turn) :
    (g.update b e).raised = (g.update b e).done ++ (b.next e).pending.toList := by
  simp only [WriteLog.update, h.raised]
  cases ht : b.m1.isNone || b.rdy1 e with
  | true =>
    have hn : (b.next e).pending = e.next1.filter (·.wen) := by
      simp [Writer.pending, Writer.next, ht]
    rw [hn, if_pos rfl]
    cases hr : b.rdy1 e with
    | true => rfl
    | false =>
      rw [hr, Bool.or_false, Option.isNone_iff_eq_none] at ht
      simp [Writer.pending, ht]
  | false =>
    have hn : (b.next e).pending = b.pending := by simp [Writer.pending, Writer.next, ht]
    rw [Bool.or_eq_false_iff] at ht
    simp [hn, ht.2]

theorem WriteLog.Agrees.next_channels (h : g.Agrees b) (e : Turn) :
    (g.update b e).aw
      = ((g.update b e).sent (b.next e) (b.next e).axi.awOver).map (·.addr) ∧
    (g.update b e).w
      = ((g.update b e).sent (b.next e) (b.next e).axi.wOver).map fun r => (r.wdata, r.wmask) := by
  have haws := h.aw
  have hws := h.w
  cases hp : b.pending with
  | none =>
    obtain ⟨haw, hw⟩ := Writer.shake_idle (e := e) hp
    obtain ⟨ha, hd⟩ := h.sound.idle hp
    have hb := h.sound.bShake_idle (e := e) hp
    have ha' : (b.next e).axi.awOver = false := by rw [Writer.next_awOver, hb, haw]; exact ha
    have hd' : (b.next e).axi.wOver = false := by rw [Writer.next_wOver, hb, hw]; exact hd
    rw [ha, WriteLog.sent] at haws
    rw [hd, WriteLog.sent] at hws
    constructor
    · simp [WriteLog.update, WriteLog.sent, ha', haw, hp, haws]
    · simp [WriteLog.update, WriteLog.sent, hd', hw, hp, hws]
  | some r =>
    obtain ⟨haw, hw⟩ := Writer.shake_pending (e := e) hp
    obtain ⟨hra, hrd, hrm⟩ := input_of_pending (e := e) hp
    rw [WriteLog.sent, hp] at haws hws
    cases hb : b.bShake e with
    | true =>
      have hr : b.rdy1 e = true := (h.sound.rdy1_of_pending hp).trans hb
      have ha' : (b.next e).axi.awOver = false := by rw [Writer.next_awOver, hb]; rfl
      have hd' : (b.next e).axi.wOver = false := by rw [Writer.next_wOver, hb]; rfl
      simp only [Writer.bShake, bOver, bReady, Bool.and_eq_true] at hb
      rw [hb.2.1] at haw haws
      rw [hb.2.2] at hw hws
      constructor
      · simp [WriteLog.update, WriteLog.sent, ha', haw, hr, hp, haws]
      · simp [WriteLog.update, WriteLog.sent, hd', hw, hr, hp, hws]
    | false =>
      have hr : b.rdy1 e = false := (h.sound.rdy1_of_pending hp).trans hb
      have hp' := Writer.next_pending_held hp hr
      have ha' : (b.next e).axi.awOver = (b.axi.awOver || b.awShake e) := by
        rw [Writer.next_awOver, hb]
        cases b.awShake e <;> simp
      have hd' : (b.next e).axi.wOver = (b.axi.wOver || b.wShake e) := by
        rw [Writer.next_wOver, hb]
        cases b.wShake e <;> simp
      have hdone : (g.update b e).done = g.done := by simp [WriteLog.update, hr]
      constructor
      · rw [WriteLog.sent, hp', hdone, ha']
        refine sent_next haws hra fun hs => ?_
        rw [haw, Bool.and_eq_true, Bool.not_eq_true'] at hs
        exact hs.2
      · rw [WriteLog.sent, hp', hdone, hd']
        refine sent_next hws (by rw [hrd, hrm]) fun hs => ?_
        rw [hw, Bool.and_eq_true, Bool.not_eq_true'] at hs
        exact hs.2

theorem WriteLog.Agrees.next (h : g.Agrees b) (e : Turn) : (g.update b e).Agrees (b.next e) :=
  ⟨h.sound.next e, h.next_raised e, (h.next_channels e).1, (h.next_channels e).2⟩

end Log

section Run
variable (e : Nat → Turn)

def bridge (n : Nat) : Writer := writer.run Writer.reset e n
def writes (n : Nat) : WriteLog := writer.history .empty WriteLog.update Writer.reset e n

theorem bridge_succ (n : Nat) : bridge e (n + 1) = (bridge e n).next (e n) := rfl

theorem wOver_run (h : ∀ n, (bridge e n).wShake (e n) = false) (n : Nat) :
    (bridge e n).axi.wOver = false := by
  induction n with
  | zero => rfl
  | succ n ih =>
    rw [bridge_succ, Writer.next_wOver, h n]
    cases (bridge e n).bShake (e n) with
    | true => rfl
    | false => exact ih

theorem agrees_run (n : Nat) : (writes e n).Agrees (bridge e n) := by
  refine writer.history_induction _ _ (P := fun b g => WriteLog.Agrees g b) (C := fun _ _ => True)
    ⟨Writer.Sound.reset, rfl, rfl, rfl⟩ (fun _ _ a _ h => h.next a) fun _ _ => trivial

/-- The slave again and again takes or answers what it is offered. -/
structure Willing : Prop where
  aw : Clocked.Often fun n => awValid (bridge e n).axi ((bridge e n).input (e n)) = true →
    (e n).awReady = true
  w : Clocked.Often fun n => wValid (bridge e n).axi ((bridge e n).input (e n)) = true →
    (e n).wReady = true
  b : Clocked.Often fun n => bReady (bridge e n).axi = true → (e n).bValid = true

end Run

section Rank
variable {b : Writer} {e : Turn}

theorem awValid_of_pending (hp : b.pending = some r) :
    awValid b.axi (b.input e) = !b.axi.awOver ∧ wValid b.axi (b.input e) = !b.axi.wOver := by
  have hw : m1Wen (b.input e) = true := by rw [Writer.m1Wen_input, hp]; rfl
  rw [awValid, wValid, hw, Bool.true_and, Bool.true_and]
  exact ⟨rfl, rfl⟩

theorem pending_of_valid (h : awValid b.axi (b.input e) = true ∨ wValid b.axi (b.input e) = true) :
    ∃ r, b.pending = some r := by
  have hw : m1Wen (b.input e) = true := by
    rcases h with h | h
    · rw [awValid, Bool.and_eq_true] at h
      exact h.1
    · rw [wValid, Bool.and_eq_true] at h
      exact h.1
  rw [Writer.m1Wen_input] at hw
  exact Option.isSome_iff_exists.mp hw

theorem bShake_of_flag (h : b.axi.awOver = false ∨ b.axi.wOver = false) :
    b.bShake e = false := by
  rcases h with h | h <;> simp [Writer.bShake, bOver, bReady, h]

/-- What stands between a waiting write and its response. -/
def Writer.writeRank (b : Writer) : Nat :=
  if b.axi.awOver then (if b.axi.wOver then 1 else 2) else 3

theorem Writer.Sound.writeRank_next (h : b.Sound) (hp : b.pending = some r)
    (hr : b.rdy1 e = false) : (b.next e).writeRank ≤ b.writeRank ∧
      ((if b.writeRank = 1 then bReady b.axi = true → e.bValid = true
        else if b.writeRank = 2 then wValid b.axi (b.input e) = true → e.wReady = true
        else awValid b.axi (b.input e) = true → e.awReady = true) →
        (b.next e).writeRank < b.writeRank) := by
  have hb : b.bShake e = false := (h.rdy1_of_pending hp).symm.trans hr
  obtain ⟨haw, hw⟩ := Writer.shake_pending (e := e) hp
  obtain ⟨hva, hvw⟩ := awValid_of_pending (e := e) hp
  have ha' : (b.next e).axi.awOver = if b.awShake e then true else b.axi.awOver := by
    rw [Writer.next_awOver, hb]
    rfl
  have hd' : (b.next e).axi.wOver = if b.wShake e then true else b.axi.wOver := by
    rw [Writer.next_wOver, hb]
    rfl
  simp only [Writer.writeRank, ha', hd', haw, hw, hva, hvw]
  cases ha : b.axi.awOver with
  | false =>
    cases e.awReady <;> cases e.wReady <;> cases b.axi.wOver <;> simp
  | true =>
    cases hd : b.axi.wOver with
    | false => cases e.awReady <;> cases e.wReady <;> simp
    | true =>
      -- both parts are sent and the response is not there
      have hv : e.bValid = false := by
        simpa [Writer.bShake, bOver, bReady, ha, hd, Writer.input] using hb
      simp [bReady, ha, hd, hv]

end Rank

/-- The write channels over a run: each write asked for sends its address and its data once, in
order; what is offered stays until it is taken; the response is taken with both sent, and is the one
ready of the write, which comes if the slave is willing. -/
structure Served (e : Nat → Turn) : Prop where
  raised : ∀ n, (writes e n).raised = (writes e n).done ++ (bridge e n).pending.toList
  address : ∀ n, (writes e n).aw
    = ((writes e n).sent (bridge e n) (bridge e n).axi.awOver).map (·.addr)
  data : ∀ n, (writes e n).w = ((writes e n).sent (bridge e n) (bridge e n).axi.wOver).map
    fun r => (r.wdata, r.wmask)
  awStable : ∀ n, awValid (bridge e n).axi ((bridge e n).input (e n)) = true →
    (e n).awReady = false →
    awValid (bridge e (n + 1)).axi ((bridge e (n + 1)).input (e (n + 1))) = true ∧
    awAddr ((bridge e (n + 1)).input (e (n + 1))) = awAddr ((bridge e n).input (e n))
  wStable : ∀ n, wValid (bridge e n).axi ((bridge e n).input (e n)) = true →
    (e n).wReady = false →
    wValid (bridge e (n + 1)).axi ((bridge e (n + 1)).input (e (n + 1))) = true ∧
    wData ((bridge e (n + 1)).input (e (n + 1))) = wData ((bridge e n).input (e n)) ∧
    wStrb ((bridge e (n + 1)).input (e (n + 1))) = wStrb ((bridge e n).input (e n))
  response : ∀ n, (bridge e n).bShake (e n) = true → ∃ r, (bridge e n).pending = some r ∧
    (writes e n).aw = ((writes e n).done ++ [r]).map (·.addr) ∧
    (writes e n).w = ((writes e n).done ++ [r]).map fun r => (r.wdata, r.wmask)
  ready : ∀ n r, (bridge e n).pending = some r →
    (bridge e n).rdy1 (e n) = (bridge e n).bShake (e n)
  answered : Willing e → ∀ n r, (bridge e n).pending = some r →
    ∃ m, n ≤ m ∧ (bridge e m).pending = some r ∧ (bridge e m).rdy1 (e m) = true

/-- Each data beat is marked as the last one, as the first of its burst. -/
def Marked (e : Nat → Turn) : Prop :=
  ∀ n, (bridge e n).wShake (e n) = true → wLast = endsBurst 1

theorem served (e : Nat → Turn) : Served e := by
  have hg := agrees_run e
  refine ⟨fun n => (hg n).raised, fun n => (hg n).aw, fun n => (hg n).w, ?_, ?_, ?_, ?_, ?_⟩
  · intro n hv hr
    obtain ⟨r, hp⟩ := pending_of_valid (.inl hv)
    have ha : (bridge e n).axi.awOver = false := by
      simpa [(awValid_of_pending hp).1] using hv
    have hb := bShake_of_flag (e := e n) (.inl ha)
    have hp' : (bridge e (n + 1)).pending = some r :=
      Writer.next_pending_held hp (((hg n).sound.rdy1_of_pending hp).trans hb)
    have ha' : (bridge e (n + 1)).axi.awOver = false := by
      rw [bridge_succ, Writer.next_awOver, hb, (Writer.shake_pending hp).1, hr]
      exact ha
    rw [(awValid_of_pending hp').1, ha', (input_of_pending hp').1, (input_of_pending hp).1]
    exact ⟨rfl, rfl⟩
  · intro n hv hr
    obtain ⟨r, hp⟩ := pending_of_valid (.inr hv)
    have hd : (bridge e n).axi.wOver = false := by
      simpa [(awValid_of_pending hp).2] using hv
    have hb := bShake_of_flag (e := e n) (.inr hd)
    have hp' : (bridge e (n + 1)).pending = some r :=
      Writer.next_pending_held hp (((hg n).sound.rdy1_of_pending hp).trans hb)
    have hd' : (bridge e (n + 1)).axi.wOver = false := by
      rw [bridge_succ, Writer.next_wOver, hb, (Writer.shake_pending hp).2, hr]
      exact hd
    rw [(awValid_of_pending hp').2, hd', (input_of_pending hp').2.1, (input_of_pending hp').2.2,
      (input_of_pending hp).2.1, (input_of_pending hp).2.2]
    exact ⟨rfl, rfl, rfl⟩
  · intro n hb
    have hf := hb
    simp only [Writer.bShake, bOver, bReady, Bool.and_eq_true] at hf
    have haws := (hg n).aw
    have hws := (hg n).w
    cases hp : (bridge e n).pending with
    | none => rw [((hg n).sound.idle hp).1] at hf; cases hf.2.1
    | some r =>
      rw [WriteLog.sent, hf.2.1, hp] at haws
      rw [WriteLog.sent, hf.2.2, hp] at hws
      exact ⟨r, rfl, haws, hws⟩
  · exact fun n r hp => (hg n).sound.rdy1_of_pending hp
  · intro hs n r hp
    obtain ⟨m, hnm, hw, hfirst⟩ := Clocked.exists_first (Clocked.ends_of_often
      (G := fun r n =>
        if r = 1 then bReady (bridge e n).axi = true → (e n).bValid = true
        else if r = 2 then wValid (bridge e n).axi ((bridge e n).input (e n)) = true →
          (e n).wReady = true
        else awValid (bridge e n).axi ((bridge e n).input (e n)) = true → (e n).awReady = true)
      (fun r => by split; exacts [hs.b, by split; exacts [hs.w, hs.aw]])
      (W := fun n => (∃ r, (bridge e n).pending = some r) ∧ (bridge e n).rdy1 (e n) = false)
      (fun n => (bridge e n).writeRank)
      (fun n ⟨⟨_, hp⟩, hr⟩ => ((hg n).sound.writeRank_next hp hr).1)
      (fun n ⟨⟨_, hp⟩, hr⟩ => ((hg n).sound.writeRank_next hp hr).2) n)
    have hp' : (bridge e m).pending = some r := by
      refine Clocked.kept (P := fun k => (bridge e k).pending = some r) hnm hp ?_
      intro k hk hkm hpk
      exact Writer.next_pending_held hpk (not_not.mp (hfirst k hk hkm)).2
    refine ⟨m, hnm, hp', ?_⟩
    rw [← Bool.not_eq_false]
    exact fun h => hw ⟨⟨r, hp'⟩, h⟩

/-- The write transactions are well formed. -/
def WellFormed (e : Nat → Turn) : Prop := Served e ∧ Marked e

/-- In every run the channels serve each write once; the last beat of the burst is marked just when
no data beat is ever taken. -/
theorem write_wellFormed_iff (e : Nat → Turn) : Served e ∧ (WellFormed e ↔
    ∀ n, (bridge e n).pending.isSome = true → (e n).wReady = false) := by
  refine ⟨served e, fun h n hp => ?_, fun h => ⟨served e, fun n hs => ?_⟩⟩
  · have hno (n : Nat) : (bridge e n).wShake (e n) = false := by
      rw [Bool.eq_false_iff]
      intro hs
      exact absurd (h.2 n hs) (by decide)
    have hw := wOver_run e hno n
    obtain ⟨r, hp⟩ := Option.isSome_iff_exists.mp hp
    have hs := hno n
    rwa [(Writer.shake_pending hp).2, hw, Bool.not_false, Bool.and_true] at hs
  · cases hp : (bridge e n).pending with
    | none => rw [(Writer.shake_idle hp).2] at hs; cases hs
    | some r =>
      rw [(Writer.shake_pending hp).2, h n (by rw [hp]; rfl)] at hs
      cases hs

/-- A single write to a slave that is always ready: its one data beat is not marked. -/
theorem last_beat_unmarked : ¬∀ e : Nat → Turn, WellFormed e := by
  intro h
  let e : Nat → Turn := fun n =>
    { next1 := if n = 0 then some { wen := true, addr := 0x100, wdata := 0x55, wmask := 0xff }
        else none
      idle1 := { wen := false, addr := 0, wdata := 0, wmask := 0 }
      m0 := { valid := false, wen := false, addr := 0, wdata := 0, wmask := 0 }
      awReady := true, wReady := true, bValid := true, arReady := true, rValid := false
      rData := 0 }
  have hm := (h e).2 1 (by decide +kernel)
  revert hm
  decide

end Rv64imCore.Axi
