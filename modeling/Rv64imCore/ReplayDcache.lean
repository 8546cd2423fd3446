import Mathlib.Algebra.Group.Nat.Defs
import Rv64imCore.CacheMemory
import Rv64imCore.Clocked
import Rv64imCore.Progress

/-! `DCache` of `replay_dcache.py`, and that it replays the tag, valid, dirty and PLRU arrays of
`rv64im_core_dcache` from the accepted requests alone. -/

namespace Rv64imCore
set_option autoImplicit true

namespace Replay

inductive Operation where
  | LOAD
  | STORE
  deriving DecidableEq

structure Way where
  valid : Bool := false
  tag : Nat := 0
  dirty : Bool := false
  deriving DecidableEq

/-- `lines[set][way]` and `plru[set]`. -/
structure DCache where
  ways : Nat
  lineBytes : Nat
  sets : Nat
  lines : Nat → Nat → Way
  plru : Nat → Nat

/-- The format `{n:#x}`. -/
def hex (n : Int) : String :=
  (if n < 0 then "-0x" else "0x") ++ String.ofList (Nat.toDigits 16 n.natAbs)

namespace DCache

/-- `DCache.__init__`. -/
def init (capacityBytes : Int) (ways lineBytes : Nat) : Except String DCache :=
  if ways ≠ 4 then .error "the qualified RTL replacement model requires four ways"
  else if capacityBytes ≤ 0 ∨ capacityBytes % (ways * lineBytes) ≠ 0 then
    .error "capacity must be divisible by ways * line_bytes"
  else
    let sets := capacityBytes.toNat / (ways * lineBytes)
    if sets &&& (sets - 1) ≠ 0 then .error "set count must be a power of two"
    else .ok { ways, lineBytes, sets, lines := fun _ _ => {}, plru := fun _ => 0 }

def victim (plru : Nat) : Nat :=
  let bit0 := plru &&& 1
  let bit1 := (plru >>> 1) &&& 1
  let bit2 := (plru >>> 2) &&& 1
  if bit0 ≠ 0 then (if bit2 ≠ 0 then 3 else 2) else (if bit1 ≠ 0 then 1 else 0)

def updatePlru (plru way : Nat) : Except String Nat :=
  let bit1 := (plru >>> 1) &&& 1
  let bit2 := (plru >>> 2) &&& 1
  if way = 3 then .ok (bit1 <<< 1)
  else if way = 2 then .ok (4 ||| (bit1 <<< 1))
  else if way = 1 then .ok ((bit2 <<< 2) ||| 1)
  else if way = 0 then .ok ((bit2 <<< 2) ||| 3)
  else .error s!"invalid way {way}"

section Access
variable (d : DCache)

def setLine (set way : Nat) (line : Way) : DCache :=
  { d with lines := fun j w => if j = set ∧ w = way then line else d.lines j w }
def setPlru (set plru : Nat) : DCache :=
  { d with plru := fun j => if j = set then plru else d.plru j }

/-- The outcome is the pair {hit, dirty eviction}. -/
def access (address : Int) (operation : Operation) : Except String (DCache × Bool × Bool) :=
  if address < 0 ∨ address > 0xffffffff then
    .error ("address outside 32-bit D-cache interface: " ++ hex address)
  else
    let lineNumber := address.toNat / d.lineBytes
    let setIndex := lineNumber % d.sets
    let tag := lineNumber / d.sets
    let hitWay := (List.range d.ways).find? fun w =>
      (d.lines setIndex w).valid && (d.lines setIndex w).tag == tag
    match hitWay with
    | some w =>
      let line := d.lines setIndex w
      let d' := if operation = .STORE then d.setLine setIndex w { line with dirty := true } else d
      (updatePlru (d.plru setIndex) w).map fun plru => (d'.setPlru setIndex plru, true, false)
    | none =>
      let w := victim (d.plru setIndex)
      let line := d.lines setIndex w
      let d' := d.setLine setIndex w
        { valid := true, tag, dirty := if operation = .STORE then true else line.dirty }
      (updatePlru (d.plru setIndex) w).map fun plru =>
        (d'.setPlru setIndex plru, false, line.valid && line.dirty)

end Access

/-- A sequence of accesses, with their outcomes. -/
def accesses (d : DCache) : List (Int × Operation) → Except String (DCache × List (Bool × Bool))
  | [] => .ok (d, [])
  | (address, operation) :: l =>
    match d.access address operation with
    | .error e => .error e
    | .ok (d, r) => (accesses d l).map fun x => (x.1, r :: x.2)

theorem accesses_concat {d d' d'' : DCache} {l : List (Int × Operation)} {rs : List (Bool × Bool)}
    (h : d.accesses l = .ok (d', rs)) (ha : d'.access a o = .ok (d'', r)) :
    d.accesses (l ++ [(a, o)]) = .ok (d'', rs ++ [r]) := by
  induction l generalizing d rs with
  | nil =>
    cases h
    rw [List.nil_append, accesses, ha]
    rfl
  | cons x l ih =>
    rw [accesses] at h
    rw [List.cons_append, accesses]
    cases hx : d.access x.1 x.2 with
    | error e => rw [hx] at h; cases h
    | ok y =>
      rw [hx] at h
      cases hl : y.1.accesses l with
      | error e => simp [hl, Except.map] at h
      | ok z =>
        simp only [hl, Except.map, Except.ok.injEq, Prod.mk.injEq] at h
        obtain ⟨rfl, rfl⟩ := h
        simp only [ih hl, Except.map, List.cons_append]

end DCache

end Replay

namespace Dcache
open Replay (Operation DCache)

/-- The replayed cache and the arrays agree in every set. -/
structure Same (d : DCache) (s : State k) : Prop where
  ways : d.ways = 4
  lineBytes : d.lineBytes = 32
  sets : d.sets = 2 ^ k
  valid : ∀ (j : BitVec k) (w : Fin 4), (d.lines j.toNat w).valid = s.vldArry w j
  tag : ∀ (j : BitVec k) (w : Fin 4), (d.lines j.toNat w).tag = (s.tagArry w j).toNat
  dirty : ∀ (j : BitVec k) (w : Fin 4), (d.lines j.toNat w).dirty = s.dryArry w j
  plru : ∀ j : BitVec k, d.plru j.toNat = (s.plruArry j).toNat

/-- No tag stands twice in a set. -/
def Distinct (s : State k) : Prop := ∀ j w w', s.vldArry w j = true → s.vldArry w' j = true →
  s.tagArry w j = s.tagArry w' j → w = w'

def operation (wen : Bool) : Operation := if wen then .STORE else .LOAD

section Address
variable (a : BitVec 32)

theorem idxOf_toNat : (idxOf k a).toNat = a.toNat / 32 % 2 ^ k := by
  rw [idxOf, BitVec.extractLsb'_toNat, Nat.shiftRight_eq_div_pow]

theorem tagOf_toNat : (tagOf k a).toNat = a.toNat / 32 / 2 ^ k := by
  have hlt : a.toNat / 2 ^ (5 + k) < 2 ^ (27 - k) := by
    rw [Nat.div_lt_iff_lt_mul (Nat.two_pow_pos _), ← Nat.pow_add]
    exact Nat.lt_of_lt_of_le a.isLt (Nat.pow_le_pow_right (by decide) (by omega))
  rw [tagOf, BitVec.extractLsb'_toNat, Nat.shiftRight_eq_div_pow, Nat.mod_eq_of_lt hlt,
    Nat.pow_add, Nat.div_div_eq_div_mul]

end Address

theorem updatePlru_eq (p : BitVec 3) (w : Fin 4) :
    DCache.updatePlru p.toNat w = .ok (plruUp (fun x => x == w) p).toNat := by
  have h : ∀ (p : BitVec 3) (w : Fin 4),
      (DCache.updatePlru p.toNat w).toOption = some (plruUp (fun x => x == w) p).toNat := by decide
  specialize h p w
  cases hu : DCache.updatePlru p.toNat w with
  | error e => rw [hu] at h; cases h
  | ok q =>
    rw [hu] at h
    exact congrArg _ (Option.some.inj h)

theorem plruVic_eq (p : BitVec 3) :
    ∃ v : Fin 4, plruVic p = (fun x => x == v) ∧ DCache.victim p.toNat = v := by
  have h : ∀ p, ∃ v : Fin 4, (∀ w, plruVic p w = (w == v)) ∧ DCache.victim p.toNat = v := by decide
  obtain ⟨v, hv, hn⟩ := h p
  exact ⟨v, funext hv, hn⟩

section Access
variable {d : DCache} {s : State k} {a : BitVec 32}

theorem Same.wayHit_eq (h : Same d s) (a : BitVec 32) (w : Fin 4) :
    ((d.lines (idxOf k a).toNat w).valid && (d.lines (idxOf k a).toNat w).tag == (tagOf k a).toNat)
      = wayHit s a w := by
  rw [h.valid, h.tag, wayHit, wayVld, Bool.and_comm]
  congr 1
  rw [Bool.eq_iff_iff, beq_iff_eq, beq_iff_eq, BitVec.toNat_inj]

/-- The way that Python finds first is the one that hits. -/
theorem Same.find_hit (h : Same d s) {w : Fin 4} (hw : wayHit s a = fun x => x == w) :
    (List.range 4).find? (fun x => (d.lines (idxOf k a).toNat x).valid
      && (d.lines (idxOf k a).toNat x).tag == (tagOf k a).toNat) = some w.val := by
  rw [List.find?_range_eq_some]
  refine ⟨?_, List.mem_range.mpr w.isLt, ?_⟩
  · rw [h.wayHit_eq a w, hw]
    exact beq_self_eq_true w
  · intro x hx
    have hne : (⟨x, Nat.lt_trans hx w.isLt⟩ : Fin 4) ≠ w :=
      fun he => Nat.ne_of_lt hx (congrArg Fin.val he)
    have hx' := h.wayHit_eq a ⟨x, Nat.lt_trans hx w.isLt⟩
    rw [hw] at hx'
    rw [hx'.trans (beq_eq_false_iff_ne.mpr hne)]
    rfl

theorem Same.find_miss (h : Same d s) (hn : ∀ w, wayHit s a w = false) :
    (List.range 4).find? (fun x => (d.lines (idxOf k a).toNat x).valid
      && (d.lines (idxOf k a).toNat x).tag == (tagOf k a).toNat) = none := by
  rw [List.find?_eq_none]
  intro x hx
  have hlt : x < 4 := List.mem_range.mp hx
  have := h.wayHit_eq a ⟨x, hlt⟩
  rw [hn] at this
  rw [this]
  decide

theorem Same.access_hit (h : Same d s) {w : Fin 4} (hw : wayHit s a = fun x => x == w)
    (o : Operation) : d.access a.toNat o
      = .ok ((if o = .STORE then d.setLine (idxOf k a).toNat w
            { d.lines (idxOf k a).toNat w with dirty := true } else d).setPlru (idxOf k a).toNat
          (plruUp (wayHit s a) (s.plruArry (idxOf k a))).toNat, true, false) := by
  have ha : ¬((a.toNat : Int) < 0 ∨ (a.toNat : Int) > 0xffffffff) := by
    have := a.isLt
    omega
  rw [DCache.access, if_neg ha]
  simp only [Int.toNat_natCast, h.ways, h.lineBytes, h.sets, ← idxOf_toNat, ← tagOf_toNat,
    h.find_hit hw, h.plru, updatePlru_eq, Except.map, hw]

theorem Same.access_miss (h : Same d s) (hn : ∀ w, wayHit s a w = false) {v : Fin 4}
    (hv : wayVic s a = fun x => x == v) (o : Operation) : d.access a.toNat o
      = .ok ((d.setLine (idxOf k a).toNat v
            { valid := true, tag := (tagOf k a).toNat
              dirty := if o = .STORE then true else s.dryArry v (idxOf k a) }).setPlru
          (idxOf k a).toNat (plruUp (wayVic s a) (s.plruArry (idxOf k a))).toNat,
        false, vicDry s a) := by
  have ha : ¬((a.toNat : Int) < 0 ∨ (a.toNat : Int) > 0xffffffff) := by
    have := a.isLt
    omega
  obtain ⟨v', hv', hvic⟩ := plruVic_eq (s.plruArry (idxOf k a))
  have hvv : v' = v := by
    have he := congrFun (hv'.symm.trans hv) v'
    simpa using he
  subst hvv
  have hdry : vicDry s a = (s.vldArry v' (idxOf k a) && s.dryArry v' (idxOf k a)) := by
    rw [vicDry, hv]
    rcases way_cases v' with rfl | rfl | rfl | rfl <;>
      simp [anyWay, wayDry, wayVld, Bool.and_comm]
  rw [DCache.access, if_neg ha]
  simp only [Int.toNat_natCast, h.ways, h.lineBytes, h.sets, ← idxOf_toNat, ← tagOf_toNat,
    h.find_miss hn, h.plru, hvic, updatePlru_eq, Except.map, hv, h.valid, h.dirty, hdry]

theorem Distinct.wayHit_onehot (h : Distinct s) (hh : anyWay (wayHit s a) = true) :
    ∃ w, wayHit s a = fun x => x == w := by
  have hit (w : Fin 4) : wayHit s a w = true ↔
      s.tagArry w (idxOf k a) = tagOf k a ∧ s.vldArry w (idxOf k a) = true := by
    rw [wayHit, wayVld, Bool.and_eq_true, beq_iff_eq]
  obtain ⟨w, hw⟩ := exists_of_anyWay hh
  refine ⟨w, funext fun x => ?_⟩
  by_cases hx : x = w
  · rw [hx, hw, beq_self_eq_true]
  · rw [beq_eq_false_iff_ne.mpr hx, Bool.eq_false_iff]
    intro hx'
    rw [hit] at hw hx'
    exact hx (h _ _ _ hx'.2 hw.2 (hx'.1.trans hw.1.symm))

theorem lines_setLine (d : DCache) (j j' : BitVec k) (w w' : Fin 4) (line : Replay.Way) :
    (d.setLine j'.toNat w' line).lines j.toNat w
      = if j = j' ∧ w = w' then line else d.lines j.toNat w := by
  simp only [DCache.setLine, BitVec.toNat_inj, Fin.val_inj]

theorem plru_setPlru (d : DCache) (j j' : BitVec k) (p : Nat) :
    (d.setPlru j'.toNat p).plru j.toNat = if j = j' then p else d.plru j.toNat := by
  simp only [DCache.setPlru, BitVec.toNat_inj]

theorem lines_setPlru (d : DCache) (j p : Nat) : (d.setPlru j p).lines = d.lines := rfl

theorem Same.congr {s' : State k} (h : Same d s) (hv : s'.vldArry = s.vldArry)
    (ht : s'.tagArry = s.tagArry) (hd : s'.dryArry = s.dryArry) (hp : s'.plruArry = s.plruArry) :
    Same d s' :=
  ⟨h.ways, h.lineBytes, h.sets, fun j w => hv ▸ h.valid j w, fun j w => ht ▸ h.tag j w,
    fun j w => hd ▸ h.dirty j w, fun j => hp ▸ h.plru j⟩

theorem Distinct.congr {s' : State k} (h : Distinct s) (hv : s'.vldArry = s.vldArry)
    (ht : s'.tagArry = s.tagArry) : Distinct s' := by
  intro j w w'
  rw [hv, ht]
  exact h j w w'

variable {i : In}

theorem Same.hit (h : Same d s) (hd : Distinct s) (hi : Idle s) (hq : reqVld s i = true)
    (hh : anyWay (wayHit s i.addr) = true) :
    ∃ d', d.access i.addr.toNat (operation i.wen) = .ok (d', true, false) ∧
      Same d' (next s i) ∧ Distinct (next s i) := by
  obtain ⟨w, hw⟩ := hd.wayHit_onehot hh
  refine ⟨_, h.access_hit hw _, ?_, ?_⟩
  · rw [hi.next_hit hq hh]
    cases hwen : i.wen with
    | false =>
      refine ⟨h.ways, h.lineBytes, h.sets, h.valid, h.tag, h.dirty, fun j => ?_⟩
      simp only [operation, plru_setPlru, beq_iff_eq, apply_ite BitVec.toNat, ← h.plru]
      rfl
    | true =>
      refine ⟨h.ways, h.lineBytes, h.sets, fun j w' => ?_, fun j w' => ?_, fun j w' => ?_,
        fun j => ?_⟩
      · simp only [operation, lines_setPlru, if_true, lines_setLine, ← h.valid]
        split
        · next he => rw [he.1, he.2]
        · rfl
      · simp only [operation, lines_setPlru, if_true, lines_setLine, ← h.tag]
        split
        · next he => rw [he.1, he.2]
        · rfl
      · simp only [operation, lines_setPlru, if_true, lines_setLine, ← h.dirty, hw]
        by_cases hj : j = idxOf k i.addr <;> by_cases hx : w' = w <;> simp [hj, hx]
      · simp only [operation, plru_setPlru, beq_iff_eq, apply_ite BitVec.toNat, ← h.plru]
        rfl
  · rw [hi.next_hit hq hh]
    exact hd

/-- A miss is being worked on: the arrays are those of before its access. -/
structure Pending (d : DCache) (s : State k) : Prop where
  before : ∃ d₀ e, Same d₀ s ∧ d₀.access s.addrFf.toNat (operation s.wenFf) = .ok (d, false, e)
  distinct : Distinct s
  absent : ∀ w, wayHit s s.addrFf w = false
  vic : s.wayVicFf = wayVic s s.addrFf

theorem wayHit_of_anyWay (hh : anyWay (wayHit s a) = false) (w : Fin 4) : wayHit s a w = false := by
  rw [Bool.eq_false_iff]
  intro hw
  rw [anyWay_of hw] at hh
  cases hh

theorem Same.miss (h : Same d s) (hd : Distinct s) (hi : Idle s) (hq : reqVld s i = true)
    (hh : anyWay (wayHit s i.addr) = false) :
    ∃ d', d.access i.addr.toNat (operation i.wen) = .ok (d', false, vicDry s i.addr) ∧
      Pending d' (next s i) := by
  obtain ⟨v, hv, -⟩ := plruVic_eq (s.plruArry (idxOf k i.addr))
  have hn := wayHit_of_anyWay hh
  have ha := h.access_miss hn hv (operation i.wen)
  refine ⟨_, ha, ?_⟩
  rw [hi.next_miss hq hh]
  exact ⟨⟨d, vicDry s i.addr, h.congr rfl rfl rfl rfl, ha⟩, hd.congr rfl rfl, hn, rfl⟩

theorem Pending.congr {s' : State k} (h : Pending d s) (hv : s'.vldArry = s.vldArry)
    (ht : s'.tagArry = s.tagArry) (hd : s'.dryArry = s.dryArry) (hp : s'.plruArry = s.plruArry)
    (ha : s'.addrFf = s.addrFf) (hw : s'.wenFf = s.wenFf) (hc : s'.wayVicFf = s.wayVicFf) :
    Pending d s' := by
  obtain ⟨d₀, e, hs, hacc⟩ := h.before
  refine ⟨⟨d₀, e, hs.congr hv ht hd hp, by rw [ha, hw]; exact hacc⟩, h.distinct.congr hv ht, ?_, ?_⟩
  · intro w
    have := h.absent w
    rw [wayHit, wayVld] at this ⊢
    rw [hv, ht, ha]
    exact this
  · rw [hc, h.vic, wayVic, wayVic, hp, ha]

/-- The last refill beat brings the arrays to where the replay is. -/
theorem Pending.last (h : Pending d s) (hf : Refilling s) (hr : i.abrReady = true)
    (hc : s.rcnt = 3) : Same d (next s i) ∧ Distinct (next s i) := by
  obtain ⟨d₀, e, hs, hacc⟩ := h.before
  obtain ⟨v, hv, -⟩ := plruVic_eq (s.plruArry (idxOf k s.addrFf))
  have hvic : s.wayVicFf = fun x => x == v := h.vic.trans hv
  have ha := (hs.access_miss h.absent hv (operation s.wenFf)).symm.trans hacc
  simp only [Except.ok.injEq, Prod.mk.injEq] at ha
  obtain ⟨rfl, -⟩ := ha
  rw [hf.next_last hr hc]
  constructor
  · refine ⟨hs.ways, hs.lineBytes, hs.sets, fun j w => ?_, fun j w => ?_, fun j w => ?_,
      fun j => ?_⟩
    · simp only [lines_setPlru, lines_setLine, hvic, idxFf, ← hs.valid]
      by_cases hj : j = idxOf k s.addrFf <;> by_cases hx : w = v <;> simp [hj, hx]
    · simp only [lines_setPlru, lines_setLine, hvic, idxFf]
      by_cases hj : j = idxOf k s.addrFf <;> by_cases hx : w = v <;> simp [hj, hx, hs.tag]
    · simp only [lines_setPlru, lines_setLine, hvic, idxFf]
      cases s.wenFf <;> by_cases hj : j = idxOf k s.addrFf <;> by_cases hx : w = v <;>
        simp [hj, hx, hs.dirty, operation]
    · simp only [plru_setPlru, beq_iff_eq, apply_ite BitVec.toNat, idxFf, h.vic, ← hs.plru]
      rfl
  · intro j w w' h1 h2 h3
    have habs (x : Fin 4) (hv : s.vldArry x (idxOf k s.addrFf) = true)
        (ht : s.tagArry x (idxOf k s.addrFf) = tagOf k s.addrFf) : False := by
      have hx := h.absent x
      rw [wayHit, wayVld, ht, hv] at hx
      simp at hx
    by_cases hj : j = idxOf k s.addrFf
    · subst hj
      simp only [hvic, idxFf, beq_self_eq_true, if_true, Bool.or_eq_true, beq_iff_eq] at h1 h2 h3
      by_cases hw : w = v <;> by_cases hw' : w' = v
      · exact hw.trans hw'.symm
      · rw [if_pos hw, if_neg hw'] at h3
        exact (habs w' (h2.resolve_left hw') h3.symm).elim
      · rw [if_neg hw, if_pos hw'] at h3
        exact (habs w (h1.resolve_left hw) h3).elim
      · rw [if_neg hw, if_neg hw'] at h3
        exact h.distinct _ _ _ (h1.resolve_left hw) (h2.resolve_left hw') h3
    · simp only [idxFf, beq_eq_false_iff_ne.mpr hj] at h1 h2 h3
      exact h.distinct _ _ _ h1 h2 h3

/-- The replay keeps up with the cache: it is level with it while the cache is idle, and one access
ahead while a miss is worked on. -/
def Tracks (d : DCache) (s : State k) : Prop :=
  (Idle s ∧ Same d s ∧ Distinct s) ∨ ((WritingBack s ∨ Refilling s) ∧ Pending d s)

theorem Tracks.control (h : Tracks d s) : Control s := by
  rcases h with ⟨hi, -⟩ | ⟨hw | hr, -⟩
  · exact .inl hi
  · exact .inr (.inl hw)
  · exact .inr (.inr hr)

theorem Control.idle (h : Control s) (hn : stateIsNorm s = true) : Idle s := by
  rcases h with h | h | h
  · exact h
  · rw [h.isNorm] at hn; cases hn
  · rw [h.isNorm] at hn; cases hn

theorem Control.working (h : Control s) (hn : stateIsNorm s = false) :
    WritingBack s ∨ Refilling s := by
  rcases h with h | h | h
  · rw [h.isNorm] at hn; cases hn
  · exact .inl h
  · exact .inr h

theorem Tracks.next_none (h : Tracks d s) (hq : reqVld s i = false) : Tracks d (next s i) := by
  have hc := h.control.next i
  rcases h with ⟨hi, hs, hd⟩ | ⟨hw | hr, hp⟩
  · rw [hi.next_quiet hq] at hc ⊢
    exact .inl ⟨hc.idle hi.isNorm, hs.congr rfl rfl rfl rfl, hd.congr rfl rfl⟩
  · rcases hw.beat with hb | hb
    · rw [hw.next_first hb.1] at hc ⊢
      exact .inr ⟨hc.working hw.isNorm, hp.congr rfl rfl rfl rfl rfl rfl rfl⟩
    · cases hr : i.abrReady with
      | false =>
        rw [hw.next_wait hb.1 hr]
        exact .inr ⟨.inl hw, hp⟩
      | true =>
        by_cases h3 : s.wcnt = 3
        · rw [hw.next_last hb.1 hr h3] at hc ⊢
          exact .inr ⟨hc.working (by simp [stateIsNorm, norm, rbus]),
            hp.congr rfl rfl rfl rfl rfl rfl rfl⟩
        · rw [hw.next_beat hb.1 hr h3] at hc ⊢
          exact .inr ⟨hc.working hw.isNorm, hp.congr rfl rfl rfl rfl rfl rfl rfl⟩
  · cases ha : i.abrReady with
    | false =>
      rw [hr.next_wait ha]
      exact .inr ⟨.inr hr, hp⟩
    | true =>
      by_cases h3 : s.rcnt = 3
      · obtain ⟨hs, hd⟩ := hp.last hr ha h3
        refine .inl ⟨hc.idle ?_, hs, hd⟩
        rw [hr.next_last ha h3]
        rfl
      · rw [hr.next_beat ha h3] at hc ⊢
        exact .inr ⟨hc.working hr.isNorm, hp.congr rfl rfl rfl rfl rfl rfl rfl⟩

theorem Tracks.next_request (h : Tracks d s) (hq : reqVld s i = true) :
    ∃ d', d.access i.addr.toNat (operation i.wen) = .ok (d', reqHit s i, wbusEn s i) ∧
      Tracks d' (next s i) := by
  have hc := h.control.next i
  rcases h with ⟨hi, hs, hd⟩ | ⟨hw | hr, -⟩
  · cases hh : anyWay (wayHit s i.addr) with
    | true =>
      obtain ⟨d', ha, hs', hd'⟩ := hs.hit hd hi hq hh
      refine ⟨d', ?_, .inl ⟨hc.idle ?_, hs', hd'⟩⟩
      · rw [ha, reqHit, wbusEn, reqMiss, hq, hh]
        rfl
      · rw [hi.next_hit hq hh]
        exact hi.isNorm
    | false =>
      obtain ⟨d', ha, hp⟩ := hs.miss hd hi hq hh
      refine ⟨d', ?_, .inr ⟨hc.working ?_, hp⟩⟩
      · rw [ha, reqHit, wbusEn, reqMiss, hq, hh]
        rfl
      · rw [hi.next_miss hq hh]
        cases vicDry s i.addr <;> rfl
  · rw [hw.reqVld] at hq; cases hq
  · rw [hr.reqVld] at hq; cases hq

end Access

def machine (k : Nat) : Clocked.Machine (State k) In := { next := next }

/-- The requests a run accepts, each with its outcome {hit, dirty eviction}. -/
abbrev Outcomes := List ((Int × Operation) × (Bool × Bool))

def record (l : Outcomes) (s : State k) (i : In) : Outcomes :=
  if reqVld s i then l.concat ((i.addr.toNat, operation i.wen), (reqHit s i, wbusEn s i)) else l

def outcomes (s : State k) (i : Nat → In) (n : Nat) : Outcomes :=
  (machine k).history [] record s.reset i n

/-- The replay of a cache of `2 ^ k` sets. -/
def empty (k : Nat) : DCache :=
  { ways := 4, lineBytes := 32, sets := 2 ^ k, lines := fun _ _ => {}, plru := fun _ => 0 }

theorem init_eq (k : Nat) : DCache.init ((2 ^ k * 128 : Nat) : Int) 4 32 = .ok (empty k) := by
  have hpos := Nat.two_pow_pos k
  have hc : ¬(((2 ^ k * 128 : Nat) : Int) ≤ 0 ∨
      ((2 ^ k * 128 : Nat) : Int) % ((4 : Nat) * (32 : Nat)) ≠ 0) := by
    omega
  have hs : 2 ^ k &&& (2 ^ k - 1) = 0 := by
    rw [Nat.and_two_pow_sub_one_eq_mod, Nat.mod_self]
  have hd : 2 ^ k * 128 / (4 * 32) = 2 ^ k := Nat.mul_div_cancel _ (by decide)
  rw [DCache.init, if_neg (by decide), if_neg hc]
  simp only [Int.toNat_natCast, hd, hs, ne_eq, not_true_eq_false, if_false]
  rfl

theorem same_reset (s : State k) : Same (empty k) s.reset :=
  ⟨rfl, rfl, rfl, fun _ _ => rfl, fun _ _ => rfl, fun _ _ => rfl, fun _ => rfl⟩

theorem distinct_reset (s : State k) : Distinct s.reset := by
  intro j w w' h
  cases h

theorem tracks_run (s : State k) (i : Nat → In) (n : Nat) :
    ∃ d, (empty k).accesses ((outcomes s i n).map Prod.fst)
        = .ok (d, (outcomes s i n).map Prod.snd) ∧
      Tracks d ((machine k).run s.reset i n) := by
  induction n with
  | zero =>
    exact ⟨empty k, rfl, .inl ⟨(control_reset s).idle rfl, same_reset s, distinct_reset s⟩⟩
  | succ n ih =>
    obtain ⟨d, hd, ht⟩ := ih
    have hlog : outcomes s i (n + 1)
        = record (outcomes s i n) ((machine k).run s.reset i n) (i n) := rfl
    rw [hlog, Clocked.Machine.run_succ, record]
    cases hq : reqVld ((machine k).run s.reset i n) (i n) with
    | false => exact ⟨d, hd, ht.next_none hq⟩
    | true =>
      obtain ⟨d', ha, ht'⟩ := ht.next_request hq
      refine ⟨d', ?_, ht'⟩
      rw [if_pos rfl, List.concat_eq_append, List.map_append, List.map_append]
      exact DCache.accesses_concat hd ha

theorem control_run (s : State k) (i : Nat → In) (n : Nat) :
    Control ((machine k).run s.reset i n) :=
  (machine k).run_invariant (control_reset s) (fun _ a h => h.next a) n

theorem Control.reqVld_of_working (h : Control s) (hn : stateIsNorm s = false) :
    reqVld s i = false := by
  rcases h.working hn with h | h
  · exact h.reqVld
  · exact h.reqVld

theorem completes (s : State k) {i : Nat → In} (hb : Clocked.Often fun m => (i m).abrReady = true)
    (n : Nat) : ∃ m, n ≤ m ∧ stateIsNorm ((machine k).run s.reset i m) = true ∧
      outcomes s i m = outcomes s i n := by
  have hrank (m : Nat) (hw : stateIsNorm ((machine k).run s.reset i m) = false) :=
    (control_run s i m).rank_next ((control_run s i m).reqVld_of_working (i := i m) hw)
  have hend := hb.ends (W := fun m => stateIsNorm ((machine k).run s.reset i m) = false)
    (fun m => rank ((machine k).run s.reset i m)) (fun m hw => (hrank m hw).1)
    (fun m hw hr => (hrank m hw).2 hw fun _ => hr) n
  obtain ⟨m, hm, hnorm, hfirst⟩ := Clocked.exists_first hend
  refine ⟨m, hm, by simpa using hnorm, ?_⟩
  apply Clocked.kept (P := fun m => outcomes s i m = outcomes s i n) hm rfl
  intro u hu hum he
  have hw : stateIsNorm ((machine k).run s.reset i u) = false := by
    simpa using hfirst u hu hum
  have hlog : outcomes s i (u + 1)
      = record (outcomes s i u) ((machine k).run s.reset i u) (i u) := rfl
  rw [hlog, record, (control_run s i u).reqVld_of_working hw]
  exact he

/-- Over any run of the cache with `2 ^ k` sets, the replay of the accepted requests gives each
its hit or miss and its dirty eviction, and agrees with the arrays whenever no miss is being worked
on, as is the case again after each request. -/
theorem replay_exact (k : Nat) (s : State k) (i : Nat → In) :
    ∃ d, DCache.init ((2 ^ k * 128 : Nat) : Int) 4 32 = .ok d ∧
      (∀ n, ∃ d', d.accesses ((outcomes s i n).map Prod.fst)
          = .ok (d', (outcomes s i n).map Prod.snd) ∧
        (stateIsNorm ((machine k).run s.reset i n) = true →
          Same d' ((machine k).run s.reset i n))) ∧
      ((Clocked.Often fun m => (i m).abrReady = true) →
        ∀ n, ∃ m, n ≤ m ∧ stateIsNorm ((machine k).run s.reset i m) = true ∧
          outcomes s i m = outcomes s i n) := by
  refine ⟨empty k, init_eq k, fun n => ?_, fun hb n => completes s hb n⟩
  obtain ⟨d, hd, ht⟩ := tracks_run s i n
  refine ⟨d, hd, fun hn => ?_⟩
  rcases ht with ⟨-, hs, -⟩ | ⟨hw, -⟩
  · exact hs
  · rcases hw with hw | hr
    · rw [hw.isNorm] at hn; cases hn
    · rw [hr.isNorm] at hn; cases hn

end Dcache

end Rv64imCore
