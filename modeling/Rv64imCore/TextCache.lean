import Rv64imCore.BusTraffic
import Rv64imCore.CacheRefines

/-! A cache that is only read, over a memory of which some words never change: those words it
answers with, whatever becomes of the others. -/

namespace Rv64imCore.Dcache
set_option autoImplicit true
open WriteBack (Slots Coherent)

/-- The lines as far as the words that `T` knows. Nothing is dirty in a cache that is only read. -/
def textSlots (T : BitVec 29 → Option (BitVec 64)) (s : State 6) :
    Slots (Fin 4 × BitVec 6) Line (BitVec 2) (Option (BitVec 64)) where
  valid := (slots s).valid
  line := (slots s).line
  dirty := fun _ => False
  word := fun x b => (T (wordAt ((slots s).line x) b)).map fun _ => (slots s).word x b

def textWords (T : BitVec 29 → Option (BitVec 64)) (l : Line) (b : BitVec 2) :
    Option (BitVec 64) :=
  T (wordAt l b)

/-- The valid lines outside `out` hold the words that `T` knows. -/
def HoldsText (T : BitVec 29 → Option (BitVec 64)) (s : State 6)
    (out : Fin 4 × BitVec 6 → Prop) : Prop :=
  Coherent (textSlots T s) (textWords T) (textWords T) out

/-- A response is being offered for the word at `addr`. -/
structure TextAnswering (T : BitVec 29 → Option (BitVec 64)) (s : State 6) (addr : BitVec 32) :
    Prop where
  idle : Idle s
  vldC1 : s.vldC1 = true
  holds : HoldsText T s fun _ => False
  data : ∀ w, T (wordOf addr) = some w → memRdata s = w

/-- The line of a read is being refilled. -/
structure TextFilling (T : BitVec 29 → Option (BitVec 64)) (s : State 6) (a : Access)
    (v : Fin 4) : Prop where
  phase : Refilling s
  missed : Missed s a v
  read : a.wen = false
  holds : HoldsText T s fun y => y = a.slot v
  filled : ∀ b, b.toNat < s.rcnt.toNat → ∀ w, T (wordAt (lineOf a.addr) b) = some w →
    (slots s).word (a.slot v) b = w
  kept : (bankOf a.addr).toNat < s.rcnt.toNat → ∀ w, T (wordOf a.addr) = some w →
    s.dataOfBus = w

/-- A read of `addr` has been accepted and is not answered. -/
inductive TextServing (T : BitVec 29 → Option (BitVec 64)) (s : State 6) (addr : BitVec 32) : Prop
  | filling (a : Access) (v : Fin 4) (h : TextFilling T s a v) (ha : a.addr = addr)
  | answering (h : TextAnswering T s addr)

structure TextFree (T : BitVec 29 → Option (BitVec 64)) (s : State 6) : Prop where
  idle : Idle s
  vldC1 : s.vldC1 = false
  holds : HoldsText T s fun _ => False

section Step
variable {T : BitVec 29 → Option (BitVec 64)} {s : State 6} {i : In}

theorem HoldsText.reset (s : State 6) : HoldsText T s.reset fun _ => False :=
  Coherent.empty fun _ h => Bool.noConfusion h

theorem HoldsText.word (h : HoldsText T s out) {x : Fin 4 × BitVec 6} (hv : (slots s).valid x)
    (hx : ¬out x) (hw : T (wordAt ((slots s).line x) b) = some w) : (slots s).word x b = w := by
  have hc : (T (wordAt ((slots s).line x) b)).map (fun _ => (slots s).word x b) =
      T (wordAt ((slots s).line x) b) := h.words x b hv hx
  rw [hw] at hc
  exact Option.some.inj hc

theorem HoldsText.wayHit_onehot (h : HoldsText T s out) {a : BitVec 32}
    (hh : anyWay (wayHit s a) = true) : ∃ w, wayHit s a = fun x => x == w := by
  obtain ⟨w, hw⟩ := exists_of_anyWay hh
  refine ⟨w, funext fun x => ?_⟩
  by_cases hx : x = w
  · rw [hx, hw]
    simp
  · have hn : wayHit s a x = false := by
      rw [Bool.eq_false_iff]
      intro hx'
      rw [wayHit_iff] at hw hx'
      have hd := h.distinct _ _ hx'.1 hw.1 (hx'.2.trans hw.2.symm)
      exact hx (congrArg Prod.fst hd)
    rw [hn]
    simp [hx]

/-- The lines stay as long as neither the arrays nor the words that count do anything. -/
theorem HoldsText.frame {s' : State 6} (h : HoldsText T s out) (hv : s'.vldArry = s.vldArry)
    (ht : s'.tagArry = s.tagArry)
    (hw : ∀ x b, ¬out x → (slots s').word x b = (slots s).word x b) : HoldsText T s' out := by
  have hl : (slots s').line = (slots s).line := by
    funext x
    simp only [slots, ht]
  refine Coherent.frame h ?_ hl rfl fun x b hx => ?_
  · funext x
    simp only [textSlots, slots, hv]
  · simp only [textSlots, hl, hw x b hx]

theorem HoldsText.hit (h : HoldsText T s fun _ => False) (hi : Idle s) (hq : reqVld s i = true)
    (hh : anyWay (wayHit s i.addr) = true) (hw : i.wen = false) :
    TextAnswering T (next s i) i.addr := by
  obtain ⟨w, hws⟩ := h.wayHit_onehot hh
  have hv : wayHit s i.addr w = true := by simp [hws]
  rw [wayHit_iff] at hv
  rw [hi.next_hit hq hh, hw, BitVec.setWidth_eq]
  refine ⟨{ hi with done := fun _ => rfl }, rfl, ?_, fun x hx => ?_⟩
  · exact h.frame rfl rfl fun x b _ => Ram.word_read ..
  · rw [wordOf_eq, ← hv.2] at hx
    rw [← h.word hv.1 (fun h => h) hx]
    simp only [memRdata, dataOfRam, hws]
    rw [if_neg (by decide), Ram.orWays_onehot]
    simp only [beq_self_eq_true, Ram.rdata_next]
    rfl

theorem HoldsText.miss (h : HoldsText T s fun _ => False) (hi : Idle s) (hc : Clean s)
    (hq : reqVld s i = true) (hh : anyWay (wayHit s i.addr) = false) (hw : i.wen = false) :
    TextServing T (next s i) i.addr := by
  obtain ⟨v, hv⟩ := plruVic_onehot (s.plruArry (idxOf 6 i.addr))
  have hm := missed_next hi hq hh hv
  have hd : vicDry s i.addr = false := by simp [vicDry, anyWay, wayDry, hc.dry]
  refine .filling i.access v ⟨?_, hm, hw, ?_, fun b hb => ?_, fun hb => ?_⟩ rfl
  · rw [hi.next_miss hq hh]
    simp only [hd]
    exact ⟨rfl, rfl, hi.wbusVld, rfl, hi.wcnt, hi.rramCnt, rfl, rfl⟩
  · rw [hi.next_miss hq hh]
    exact Coherent.evict h _ fun _ hx' => hx'.elim
  · rw [hi.next_miss hq hh] at hb
    simp only [hi.rcnt] at hb
    exact absurd hb (Nat.not_lt_zero _)
  · rw [hi.next_miss hq hh] at hb
    simp only [hi.rcnt] at hb
    exact absurd hb (Nat.not_lt_zero _)

theorem HoldsText.accept (h : HoldsText T s fun _ => False) (hi : Idle s) (hc : Clean s)
    (hq : reqVld s i = true) (hw : i.wen = false) : TextServing T (next s i) i.addr := by
  cases hh : anyWay (wayHit s i.addr) with
  | true => exact .answering (h.hit hi hq hh hw)
  | false => exact h.miss hi hc hq hh hw

theorem HoldsText.quiet (h : HoldsText T s fun _ => False) (hi : Idle s)
    (hq : reqVld s i = false) : HoldsText T (next s i) fun _ => False := by
  rw [hi.next_quiet hq]
  exact h

theorem busWord_of_read {a : Access} (hm : Missed s a v) (hw : a.wen = false) :
    busWord s i = if s.rcnt = bankOf a.addr then i.abrRdata else s.dataOfBus := by
  rw [busWord, bankOfMiss, hm.wen, hm.addr, hw]
  simp

theorem refillRam_of_read {a : Access} (hm : Missed s a v) (hw : a.wen = false) (w : Fin 4)
    (j : BitVec 6) (b : BitVec 2) : Ram.word (refillRam s i w) j b =
      if (w, j) = a.slot v ∧ b = s.rcnt then i.abrRdata else Ram.word (s.ram w) j b := by
  have hd : rbusData s i = i.abrRdata := by
    rw [rbusData, hm.wen, hw]
    rfl
  rw [refillRam, Ram.word_next, BitVec.setWidth_eq, idxFf, hm.victim, hm.addr, Bytes.merge_ones, hd]
  simp only [Access.slot, Prod.mk.injEq, Bool.and_true, Bool.and_eq_true, beq_iff_eq, and_assoc]

theorem Refilling.slots_last {a : Access} (h : Refilling s) (hm : Missed s a v)
    (hr : i.abrReady = true) (hc : s.rcnt = 3) :
    (slots (Dcache.next s i)).valid (a.slot v) ∧
    (slots (Dcache.next s i)).line (a.slot v) = lineOf a.addr ∧
    ∀ y, y ≠ a.slot v → ((slots (Dcache.next s i)).valid y ↔ (slots s).valid y) ∧
      (slots (Dcache.next s i)).line y = (slots s).line y := by
  have hidx : idxFf s = idxOf 6 a.addr := by rw [idxFf, hm.addr]
  rw [h.next_last hr hc]
  refine ⟨?_, ?_, fun y hy => ?_⟩
  · simp [slots, hidx, hm.victim, Access.slot]
  · simp [slots, hidx, hm.addr, hm.victim, Access.slot, lineOf]
  · by_cases hj : y.2 = idxOf 6 a.addr
    · have hway : y.1 ≠ v := fun h' => hy (Prod.ext h' hj)
      simp [slots, hidx, hm.victim, hj, hway]
    · simp [slots, hidx, hj]

theorem abrAddr_of_refill {a : Access} (h : Refilling s) (hm : Missed s a v) :
    wordOf (abrAddr s) = wordAt (lineOf a.addr) s.rcnt := by
  rw [abrAddr, h.isWbus, if_neg (by decide), rbusAddr, wordAt_line, hm.addr]

theorem TextFilling.word_beat {a : Access} (h : TextFilling T s a v)
    (hd : ∀ w, T (wordOf (abrAddr s)) = some w → i.abrRdata = w)
    (hb : b.toNat < s.rcnt.toNat ∨ b = s.rcnt) (hw : T (wordAt (lineOf a.addr) b) = some w) :
    Ram.word (refillRam s i v) (idxOf 6 a.addr) b = w := by
  rw [refillRam_of_read h.missed h.read]
  by_cases hc : b = s.rcnt
  · rw [if_pos ⟨rfl, hc⟩]
    rw [abrAddr_of_refill h.phase h.missed, ← hc] at hd
    exact hd w hw
  · rw [if_neg fun h' => hc h'.2]
    exact h.filled b (hb.resolve_right hc) w hw

theorem TextFilling.bus_beat {a : Access} (h : TextFilling T s a v)
    (hd : ∀ w, T (wordOf (abrAddr s)) = some w → i.abrRdata = w)
    (hb : (bankOf a.addr).toNat < s.rcnt.toNat ∨ bankOf a.addr = s.rcnt)
    (hw : T (wordOf a.addr) = some w) : busWord s i = w := by
  rw [busWord_of_read h.missed h.read]
  by_cases hc : s.rcnt = bankOf a.addr
  · rw [if_pos hc]
    rw [abrAddr_of_refill h.phase h.missed, hc, ← wordOf_eq] at hd
    exact hd w hw
  · rw [if_neg hc]
    exact h.kept (hb.resolve_right fun h' => hc h'.symm) w hw

theorem TextFilling.next {a : Access} (h : TextFilling T s a v)
    (hd : i.abrReady = true → ∀ w, T (wordOf (abrAddr s)) = some w → i.abrRdata = w) :
    TextServing T (Dcache.next s i) a.addr := by
  have hp := h.phase
  cases hr : i.abrReady with
  | false =>
    rw [hp.next_wait hr]
    exact .filling a v h rfl
  | true =>
    have hd := hd hr
    have hframe (x : Fin 4 × BitVec 6) (b : BitVec 2) (hx : x ≠ a.slot v) :
        Ram.word (refillRam s i x.1) x.2 b = (slots s).word x b := by
      rw [refillRam_of_read h.missed h.read, if_neg fun h' => hx h'.1]
      rfl
    by_cases hc : s.rcnt = 3
    · have hlast (b : BitVec 2) : b.toNat < s.rcnt.toNat ∨ b = s.rcnt := hc ▸ lt_or_last b
      obtain ⟨hv, hl, hf⟩ := hp.slots_last h.missed hr hc
      have hn := hp.next_last hr hc
      have hword : (slots (Dcache.next s i)).word =
          fun x b => Ram.word (refillRam s i x.1) x.2 b := by rw [hn]; rfl
      refine .answering ⟨?_, by rw [hn], ?_, fun w hw => ?_⟩
      · rw [hn]
        exact ⟨rfl, hp.wbusVld, hp.wbusEnFf, rfl, hp.wcnt, hp.rramCnt, rfl, fun _ => rfl⟩
      · refine Coherent.install (x := a.slot v) (l := lineOf a.addr) h.holds h.missed.absent hv
          (fun y hy => (hf y hy).1) hl (fun y hy => (hf y hy).2) (fun _ _ h' => h'.elim)
          (fun b => ?_) (fun y b hy => ?_) (fun _ _ => rfl) fun _ _ _ => rfl
        · simp only [textSlots, textWords, hl, hword]
          cases hw : T (wordAt (lineOf a.addr) b) with
          | none => rfl
          | some w => exact congrArg some (h.word_beat hd (hlast b) hw)
        · simp only [textSlots, (hf y hy).2, hword, hframe y b hy]
      · rw [hn]
        exact h.bus_beat hd (hlast _) hw
    · refine .filling a v ⟨?_, ?_, h.read, ?_, fun b hb w hw => ?_, fun hb w hw => ?_⟩ rfl
      · rw [hp.next_beat hr hc]
        exact { hp with }
      · rw [hp.next_beat hr hc]
        exact { h.missed with }
      · rw [hp.next_beat hr hc]
        exact Coherent.frame h.holds rfl rfl rfl fun x b hx =>
          congrArg (fun y => (T _).map fun _ => y) (hframe x b hx)
      · rw [hp.next_beat hr hc] at hb ⊢
        exact h.word_beat hd (lt_succ_cases hb) hw
      · rw [hp.next_beat hr hc] at hb ⊢
        exact h.bus_beat hd (lt_succ_cases hb) hw

theorem TextAnswering.stall (h : TextAnswering T s addr) (hr : i.rspRdy = false) :
    TextAnswering T (next s i) addr := by
  have hs : stallC1 s i.rspRdy = true := by simp [stallC1, memRspVld, h.vldC1, hr]
  have hq : reqVld s i = false := by simp [reqVld, memReqRdy, hs]
  refine ⟨h.idle.quiet hq, ?_, h.holds.quiet h.idle hq, fun w hw => ?_⟩
  · rw [h.idle.next_quiet hq, hs]
  · rw [h.idle.next_quiet hq, ← h.data w hw]
    simp [memRdata, dataOfRam, hr]

theorem TextAnswering.leave (h : TextAnswering T s addr) (hr : i.rspRdy = true)
    (hq : reqVld s i = false) : TextFree T (next s i) where
  idle := h.idle.quiet hq
  vldC1 := by
    rw [h.idle.next_quiet hq]
    simp [stallC1, hr]
  holds := h.holds.quiet h.idle hq

theorem TextFree.quiet (h : TextFree T s) (hq : reqVld s i = false) : TextFree T (next s i) where
  idle := h.idle.quiet hq
  vldC1 := by
    rw [h.idle.next_quiet hq]
    simp [stallC1, memRspVld, h.vldC1]
  holds := h.holds.quiet h.idle hq

theorem TextServing.answering_of_vldC1 (h : TextServing T s addr) (hv : s.vldC1 = true) :
    TextAnswering T s addr := by
  cases h with
  | filling a v h => rw [h.phase.vldC1] at hv; cases hv
  | answering h => exact h

end Step

/-- What the cache is doing: it serves the read of an address, or nothing. -/
def TextState (T : BitVec 29 → Option (BitVec 64)) (s : State 6) : Option (BitVec 32) → Prop
  | some addr => TextServing T s addr
  | none => TextFree T s

/-- The read that is open after a cycle. -/
def openNext (s : State 6) (i : In) (o : Option (BitVec 32)) : Option (BitVec 32) :=
  if reqVld s i then some i.addr else if memRspVld s && i.rspRdy then none else o

/-- Over a memory that gives the words that `T` knows, a cache that is only read keeps serving. -/
theorem TextState.next {T : BitVec 29 → Option (BitVec 64)} {s : State 6} {i : In}
    {o : Option (BitVec 32)} (h : TextState T s o) (hc : Clean s) (hw : i.wen = false)
    (hd : i.abrReady = true → abrValid s = true →
      ∀ w, T (wordOf (abrAddr s)) = some w → i.abrRdata = w) :
    TextState T (Dcache.next s i) (openNext s i o) := by
  cases o with
  | none =>
    have hf : TextFree T s := h
    cases hq : reqVld s i with
    | true =>
      rw [openNext, hq, if_pos rfl]
      exact hf.holds.accept hf.idle hc hq hw
    | false =>
      rw [openNext, hq, memRspVld, hf.vldC1]
      exact hf.quiet hq
  | some addr =>
    have hs : TextServing T s addr := h
    cases hs with
    | filling a v hf ha =>
      subst ha
      rw [openNext, hf.phase.reqVld, memRspVld, hf.phase.vldC1]
      have hv : abrValid s = true := by
        rw [abrValid, hf.phase.isWbus, if_neg (by decide), hf.phase.rbusVld]
      exact hf.next fun hr => hd hr hv
    | answering ha =>
      cases hr : i.rspRdy with
      | false =>
        have hq : reqVld s i = false := by
          simp [reqVld, memReqRdy, stallC1, memRspVld, ha.vldC1, hr]
        rw [openNext, hq, hr, Bool.and_false]
        exact .answering (ha.stall hr)
      | true =>
        cases hq : reqVld s i with
        | true =>
          rw [openNext, hq, if_pos rfl]
          exact ha.holds.accept ha.idle hc hq hw
        | false =>
          rw [openNext, hq, memRspVld, ha.vldC1, hr]
          exact ha.leave hr hq

end Rv64imCore.Dcache
