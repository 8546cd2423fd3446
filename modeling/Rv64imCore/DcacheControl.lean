import Rv64imCore.Dcache

/-! The control of the cache: its three phases, and what one clock edge does in each of them. -/

namespace Rv64imCore.Dcache
set_option autoImplicit true

structure Idle (s : State k) : Prop where
  state : s.state = norm
  wbusVld : s.wbusVld = false
  wbusEnFf : s.wbusEnFf = false
  rbusVld : s.rbusVld = false
  wcnt : s.wcnt = 0
  rramCnt : s.rramCnt = 0
  rcnt : s.rcnt = 0
  done : s.rbusDoneFf = true → s.vldC1 = true

/-- A dirty victim is on its way out: the first word is being read from the SRAM, or word `wcnt`
is on the bus and the SRAM is one word ahead. -/
structure WritingBack (s : State k) : Prop where
  state : s.state = wbus
  vldC1 : s.vldC1 = false
  rbusVld : s.rbusVld = false
  rcnt : s.rcnt = 0
  done : s.rbusDoneFf = false
  beat : (s.wbusEnFf = true ∧ s.wbusVld = false ∧ s.wcnt = 0 ∧ s.rramCnt = 0) ∨
    (s.wbusEnFf = false ∧ s.wbusVld = true ∧ s.rramCnt = s.wcnt + 1)

structure Refilling (s : State k) : Prop where
  state : s.state = rbus
  vldC1 : s.vldC1 = false
  wbusVld : s.wbusVld = false
  wbusEnFf : s.wbusEnFf = false
  wcnt : s.wcnt = 0
  rramCnt : s.rramCnt = 0
  rbusVld : s.rbusVld = true
  done : s.rbusDoneFf = false

def Control (s : State k) : Prop := Idle s ∨ WritingBack s ∨ Refilling s

theorem way_cases (w : Fin 4) : w = 0 ∨ w = 1 ∨ w = 2 ∨ w = 3 := by
  revert w; decide

theorem ram_next_idle (r : Ram.State) (a : BitVec 6) (b : BitVec 4) (wen : Bool) (m : BitVec 8)
    (d : BitVec 64) : Ram.next r false a b wen m d = r := by
  simp [Ram.next, Sram.next]

section Phases
variable {s : State k} {i : In}

theorem Idle.isNorm (h : Idle s) : stateIsNorm s = true := by simp [stateIsNorm, h.state]
theorem Idle.isWbus (h : Idle s) : stateIsWbus s = false := by
  simp [stateIsWbus, h.state, norm, wbus]
theorem Idle.isRbus (h : Idle s) : stateIsRbus s = false := by
  simp [stateIsRbus, h.state, norm, rbus]
theorem WritingBack.isNorm (h : WritingBack s) : stateIsNorm s = false := by
  simp [stateIsNorm, h.state, norm, wbus]
theorem WritingBack.isWbus (h : WritingBack s) : stateIsWbus s = true := by
  simp [stateIsWbus, h.state]
theorem WritingBack.isRbus (h : WritingBack s) : stateIsRbus s = false := by
  simp [stateIsRbus, h.state, rbus, wbus]
theorem Refilling.isNorm (h : Refilling s) : stateIsNorm s = false := by
  simp [stateIsNorm, h.state, norm, rbus]
theorem Refilling.isWbus (h : Refilling s) : stateIsWbus s = false := by
  simp [stateIsWbus, h.state, rbus, wbus]
theorem Refilling.isRbus (h : Refilling s) : stateIsRbus s = true := by
  simp [stateIsRbus, h.state]

theorem WritingBack.reqVld (h : WritingBack s) : reqVld s i = false := by
  simp [Dcache.reqVld, memReqRdy, h.isNorm]
theorem Refilling.reqVld (h : Refilling s) : reqVld s i = false := by
  simp [Dcache.reqVld, memReqRdy, h.isNorm]

theorem Idle.next_quiet (h : Idle s) (hq : Dcache.reqVld s i = false) :
    next s i = { s with
      vldC1 := stallC1 s i.rspRdy
      rbusDoneFf := if s.vldC1 && i.rspRdy then false else s.rbusDoneFf } := by
  have hc : ∀ w, ramCs s i w = false := by
    simp [ramCs, hq, busWramVld, busRramVld, woverOne, h.wbusVld, h.wbusEnFf, h.rbusVld]
  have hv : vldC1Ns s i = stallC1 s i.rspRdy := by
    simp [vldC1Ns, reqHit, rbusDone, busWramVld, hq, h.rbusVld, stallC1, memRspVld]
    cases s.vldC1 <;> simp
  simp [next, stateEn, normEn, wbusEn, rbusEn, rbusDone, wbusDone, woverOne, busWramVld,
    busRramVld, reqHit, reqMiss, signArryUpEn1, hq, hc, hv, h.wbusVld, h.wbusEnFf, h.rbusVld,
    ram_next_idle, memRspVld]

theorem reqVld_rdy (h : Dcache.reqVld s i = true) :
    i.reqVld = true ∧ stateIsNorm s = true ∧ stallC1 s i.rspRdy = false := by
  simpa [Dcache.reqVld, memReqRdy] using h

theorem Idle.done_clear (h : Idle s) (hq : Dcache.reqVld s i = true)
    (hr : memRspVld s = false ∨ i.rspRdy = false) : s.rbusDoneFf = false := by
  have hs := (reqVld_rdy hq).2.2
  have hv : s.vldC1 = false := by
    rcases hr with hr | hr
    · exact hr
    · simpa [stallC1, memRspVld, hr] using hs
  cases hd : s.rbusDoneFf with
  | false => rfl
  | true => exact (h.done hd).symm.trans hv

theorem Idle.next_hit (h : Idle s) (hq : Dcache.reqVld s i = true)
    (hh : anyWay (wayHit s i.addr) = true) :
    next s i = { s with
      dryArry := fun w j =>
        if i.wen && j == idxOf k i.addr then wayHit s i.addr w || s.dryArry w (idxOf k i.addr)
        else s.dryArry w j
      plruArry := fun j =>
        if j == idxOf k i.addr then plruUp (wayHit s i.addr) (s.plruArry (idxOf k i.addr))
        else s.plruArry j
      vldC1 := true
      wayHitFf := wayHit s i.addr
      rbusDoneFf := false
      ram := fun w => Ram.next (s.ram w) (wayHit s i.addr w)
        (BitVec.setWidth 6 (idxOf k i.addr)) (1#4 <<< bankOf i.addr) i.wen i.wmask i.wdata } := by
  have hs := (reqVld_rdy hq).2.2
  simp [next, stateEn, normEn, wbusEn, rbusEn, rbusDone, wbusDone, woverOne, busWramVld,
    busRramVld, reqHit, reqMiss, reqW, signArryUpEn1, dryNs, idxUpSel, plruArryNs, vldC1Ns, ramCs,
    ramWen, ramAddr, ramBankSel, ramWdata, ramWmask, h.isNorm, h.isWbus, h.isRbus, hq, hh, hs,
    h.wbusVld, h.wbusEnFf, h.rbusVld]
  refine ⟨?_, h.done_clear hq⟩
  funext w j
  cases i.wen <;> simp

/-- A miss latches the request and its victim and leaves the arrays alone. -/
theorem Idle.next_miss (h : Idle s) (hq : Dcache.reqVld s i = true)
    (hh : anyWay (wayHit s i.addr) = false) :
    next s i = { s with
      state := if vicDry s i.addr then wbus else rbus
      wenFf := i.wen
      addrFf := i.addr
      vldC1 := false
      wayVicFf := wayVic s i.addr
      wmaskFf := i.wmask
      wdataFf := i.wdata
      vicAddrFf := vicAddr s i
      wbusEnFf := vicDry s i.addr
      rbusVld := !vicDry s i.addr
      rbusDoneFf := false } := by
  have hs := (reqVld_rdy hq).2.2
  have hw : ∀ w, wayHit s i.addr w = false := by
    intro w
    simp only [anyWay, Bool.or_eq_false_iff] at hh
    rcases way_cases w with rfl | rfl | rfl | rfl
    · exact hh.2
    · exact hh.1.2
    · exact hh.1.1.2
    · exact hh.1.1.1
  have hc : ∀ w, ramCs s i w = false := by
    simp [ramCs, hw, busWramVld, busRramVld, woverOne, h.wbusVld, h.wbusEnFf, h.rbusVld]
  cases hv : vicDry s i.addr <;>
    simp [next, stateEn, stateNs, normEn, wbusEn, rbusEn, rbusDone, wbusDone, woverOne,
      busWramVld, busRramVld, reqHit, reqMiss, signArryUpEn1, vldC1Ns, hq, hh, hs, hc, hv,
      h.wbusVld, h.wbusEnFf, h.rbusVld, ram_next_idle] <;>
    exact h.done_clear hq

/-- The first cycle of a write-back fetches the victim's first word. -/
theorem WritingBack.next_first (h : WritingBack s) (he : s.wbusEnFf = true) :
    next s i = { s with
      wbusEnFf := false
      wbusVld := true
      rramCnt := s.rramCnt + 1
      ram := fun w => Ram.next (s.ram w) (s.wayVicFf w)
        (BitVec.setWidth 6 (idxOf k s.vicAddrFf)) (1#4 <<< s.rramCnt) false i.wmask i.wdata } := by
  have hb : s.wbusVld = false := by
    rcases h.beat with hb | hb
    · exact hb.2.1
    · simp [hb.1] at he
  simp [next, stateEn, normEn, wbusEn, rbusEn, rbusDone, wbusDone, woverOne, busWramVld,
    busRramVld, reqHit, reqMiss, signArryUpEn1, vldC1Ns, ramCs, ramWen, ramAddr, ramBankSel,
    ramWdata, ramWmask, stallC1, memRspVld, h.isNorm, h.isWbus, h.isRbus, h.reqVld, he, hb,
    h.rbusVld, h.vldC1, h.done]

theorem WritingBack.wbusVld_of_en (h : WritingBack s) (he : s.wbusEnFf = false) :
    s.wbusVld = true := by
  rcases h.beat with hb | hb
  · simp [hb.1] at he
  · exact hb.2.1

theorem WritingBack.next_wait (h : WritingBack s) (he : s.wbusEnFf = false)
    (hr : i.abrReady = false) : next s i = s := by
  have hb := h.wbusVld_of_en he
  have hv := h.vldC1
  have hu := h.rbusVld
  have hd := h.done
  simp [next, stateEn, normEn, wbusEn, rbusEn, rbusDone, wbusDone, woverOne, busWramVld,
    busRramVld, reqHit, reqMiss, signArryUpEn1, vldC1Ns, ramCs, stallC1, memRspVld, h.reqVld, he,
    hb, hr, hu, hv, hd, ram_next_idle]
  cases s
  simp_all

theorem WritingBack.next_beat (h : WritingBack s) (he : s.wbusEnFf = false)
    (hr : i.abrReady = true) (hc : s.wcnt ≠ 3) :
    next s i = { s with
      wcnt := s.wcnt + 1
      rramCnt := s.rramCnt + 1
      ram := fun w => Ram.next (s.ram w) (s.wayVicFf w)
        (BitVec.setWidth 6 (idxOf k s.vicAddrFf)) (1#4 <<< s.rramCnt) false i.wmask i.wdata } := by
  have hb := h.wbusVld_of_en he
  have hc' : (s.wcnt == 3#2) = false := by simpa using hc
  simp [next, stateEn, normEn, wbusEn, rbusEn, rbusDone, wbusDone, woverOne, busWramVld,
    busRramVld, reqHit, reqMiss, signArryUpEn1, vldC1Ns, ramCs, ramWen, ramAddr, ramBankSel, bne,
    ramWdata, ramWmask, stallC1, memRspVld, h.isNorm, h.isWbus, h.isRbus, h.reqVld, he, hb, hr, hc',
    h.rbusVld, h.vldC1, h.done]

theorem WritingBack.next_last (h : WritingBack s) (he : s.wbusEnFf = false)
    (hr : i.abrReady = true) (hc : s.wcnt = 3) :
    next s i = { s with state := rbus, wcnt := 0, wbusVld := false, rbusVld := true } := by
  have hb := h.wbusVld_of_en he
  simp [next, stateEn, stateNs, normEn, wbusEn, rbusEn, rbusDone, wbusDone, woverOne, busWramVld,
    busRramVld, reqHit, reqMiss, signArryUpEn1, vldC1Ns, ramCs, stallC1, memRspVld, h.reqVld, he,
    hb, hr, hc, h.rbusVld, h.vldC1, h.done, ram_next_idle]

theorem Refilling.next_wait (h : Refilling s) (hr : i.abrReady = false) : next s i = s := by
  have hv := h.vldC1
  have hw := h.wbusVld
  have he := h.wbusEnFf
  have hu := h.rbusVld
  have hd := h.done
  simp [next, stateEn, normEn, wbusEn, rbusEn, rbusDone, wbusDone, woverOne, busWramVld,
    busRramVld, reqHit, reqMiss, signArryUpEn1, vldC1Ns, ramCs, stallC1, memRspVld, h.reqVld, hr,
    hw, he, hu, hv, hd, ram_next_idle]
  cases s
  simp_all

/-- The bus register after a refill beat: a load keeps the word it missed on. -/
def busWord (s : State k) (i : In) : BitVec 64 :=
  if !s.wenFf && s.rcnt == bankOfMiss s then i.abrRdata else s.dataOfBus

/-- The SRAM after a refill beat. -/
def refillRam (s : State k) (i : In) (w : Fin 4) : Ram.State :=
  Ram.next (s.ram w) (s.wayVicFf w) (BitVec.setWidth 6 (idxFf s)) (1#4 <<< s.rcnt) true 0xff
    (rbusData s i)

theorem Refilling.next_beat (h : Refilling s) (hr : i.abrReady = true) (hc : s.rcnt ≠ 3) :
    next s i = { s with rcnt := s.rcnt + 1, dataOfBus := busWord s i, ram := refillRam s i } := by
  have hc' : (s.rcnt == 3#2) = false := by simpa using hc
  simp [next, stateEn, normEn, wbusEn, rbusEn, rbusDone, wbusDone, woverOne, busWramVld,
    busRramVld, reqHit, reqMiss, signArryUpEn1, vldC1Ns, ramCs, ramWen, ramAddr, ramBankSel, bne,
    ramWdata, ramWmask, stallC1, memRspVld, h.isNorm, h.isWbus, h.isRbus, h.reqVld, hr, hc',
    h.wbusVld, h.wbusEnFf, h.rbusVld, h.vldC1, h.done, busWord, idxFf, reg]
  rfl

/-- The last refill beat installs the line and raises the response. -/
theorem Refilling.next_last (h : Refilling s) (hr : i.abrReady = true) (hc : s.rcnt = 3) :
    next s i = { s with
      state := norm
      tagArry := fun w j =>
        if j == idxFf s then (if s.wayVicFf w then tagOf k s.addrFf else s.tagArry w (idxFf s))
        else s.tagArry w j
      dryArry := fun w j =>
        if s.wenFf && j == idxFf s then s.wayVicFf w || s.dryArry w (idxFf s) else s.dryArry w j
      vldArry := fun w j =>
        if j == idxFf s then s.wayVicFf w || s.vldArry w (idxFf s) else s.vldArry w j
      plruArry := fun j =>
        if j == idxFf s then plruUp s.wayVicFf (s.plruArry (idxFf s)) else s.plruArry j
      vldC1 := true
      rcnt := 0
      rbusVld := false
      dataOfBus := busWord s i
      rbusDoneFf := true
      ram := refillRam s i } := by
  simp [next, stateEn, stateNs, normEn, wbusEn, rbusEn, rbusDone, wbusDone, woverOne, busWramVld,
    busRramVld, reqHit, reqMiss, signArryUpEn1, vldC1Ns, ramCs, ramWen, ramAddr, ramBankSel,
    ramWdata, ramWmask, stallC1, memRspVld, tagArryNs, dryNs, vldNs, idxUpSel, plruArryNs,
    h.isNorm, h.isWbus, h.isRbus, h.reqVld, hr, hc, h.wbusVld, h.wbusEnFf, h.rbusVld, h.vldC1,
    busWord, norm, reg]
  constructor
  · funext w j
    cases s.wenFf <;> simp
  · funext w
    simp [refillRam, hc, idxFf]

theorem Idle.next (h : Idle s) (i : In) : Control (next s i) := by
  cases hq : Dcache.reqVld s i with
  | false =>
    rw [h.next_quiet hq]
    refine .inl { h with done := fun hd => ?_ }
    revert hd
    have hd := h.done
    cases hv : s.vldC1 <;> cases hr : i.rspRdy <;> simp_all [stallC1, memRspVld]
  | true =>
    cases hh : anyWay (wayHit s i.addr) with
    | true =>
      rw [h.next_hit hq hh]
      exact .inl { h with done := fun _ => rfl }
    | false =>
      rw [h.next_miss hq hh]
      cases hv : vicDry s i.addr with
      | true =>
        exact .inr (.inl ⟨rfl, rfl, rfl, h.rcnt, rfl, .inl ⟨rfl, h.wbusVld, h.wcnt, h.rramCnt⟩⟩)
      | false =>
        exact .inr (.inr ⟨rfl, rfl, h.wbusVld, rfl, h.wcnt, h.rramCnt, rfl, rfl⟩)

theorem WritingBack.next (h : WritingBack s) (i : In) : Control (next s i) := by
  rcases h.beat with hb | hb
  · rw [h.next_first hb.1]
    exact .inr (.inl { h with
      beat := .inr ⟨rfl, rfl, by simp [hb.2.2.1, hb.2.2.2]⟩ })
  · cases hr : i.abrReady with
    | false => exact .inr (.inl ((h.next_wait hb.1 hr).symm ▸ h))
    | true =>
      by_cases hc : s.wcnt = 3
      · rw [h.next_last hb.1 hr hc]
        exact .inr (.inr ⟨rfl, h.vldC1, rfl, hb.1, rfl, by simp [hb.2.2, hc], rfl, h.done⟩)
      · rw [h.next_beat hb.1 hr hc]
        exact .inr (.inl { h with beat := .inr ⟨hb.1, hb.2.1, by rw [hb.2.2]⟩ })

theorem Refilling.next (h : Refilling s) (i : In) : Control (next s i) := by
  cases hr : i.abrReady with
  | false => exact .inr (.inr ((h.next_wait hr).symm ▸ h))
  | true =>
    by_cases hc : s.rcnt = 3
    · rw [h.next_last hr hc]
      exact .inl ⟨rfl, h.wbusVld, h.wbusEnFf, rfl, h.wcnt, h.rramCnt, rfl, fun _ => rfl⟩
    · rw [h.next_beat hr hc]
      exact .inr (.inr { h with })

theorem Control.next (h : Control s) (i : In) : Control (next s i) := by
  rcases h with h | h | h
  · exact h.next i
  · exact h.next i
  · exact h.next i

theorem control_reset (s : State k) : Control s.reset :=
  .inl ⟨rfl, rfl, rfl, rfl, rfl, rfl, rfl, fun h => h⟩

/-- A request has been accepted and not yet answered. -/
def busy (s : State k) : Bool := !stateIsNorm s || s.vldC1

theorem busy_of_rsp (h : memRspVld s = true) : busy s = true := by
  simp_all [busy, memRspVld]

theorem Idle.busy (h : Idle s) : busy s = s.vldC1 := by simp [Dcache.busy, h.isNorm]
theorem WritingBack.busy (h : WritingBack s) : busy s = true := by simp [Dcache.busy, h.isNorm]
theorem Refilling.busy (h : Refilling s) : busy s = true := by simp [Dcache.busy, h.isNorm]

theorem Control.memReqRdy (h : Control s) (r : Bool) :
    memReqRdy s r = (!busy s || (s.vldC1 && r)) := by
  rcases h with h | h | h
  · rw [h.busy, Dcache.memReqRdy, h.isNorm, stallC1, memRspVld]
    cases s.vldC1 <;> cases r <;> rfl
  · simp [Dcache.memReqRdy, h.isNorm, h.busy, h.vldC1]
  · simp [Dcache.memReqRdy, h.isNorm, h.busy, h.vldC1]

theorem Control.busy_of_abrValid (h : Control s) (hv : abrValid s = true) :
    busy s = true ∧ s.vldC1 = false := by
  rcases h with h | h | h
  · simp [abrValid, h.isWbus, h.rbusVld] at hv
  · exact ⟨h.busy, h.vldC1⟩
  · exact ⟨h.busy, h.vldC1⟩

/-- One request at a time: it is pending from its acceptance to its response. -/
theorem Control.busy_next (h : Control s) (i : In) :
    busy (Dcache.next s i) = (Dcache.reqVld s i || (busy s && !(s.vldC1 && i.rspRdy))) := by
  rcases h with h | h | h
  · cases hq : Dcache.reqVld s i with
    | false =>
      rw [h.busy, h.next_quiet hq]
      simp [Dcache.busy, stateIsNorm, h.state, stallC1, memRspVld]
      cases s.vldC1 <;> simp
    | true =>
      cases hh : anyWay (wayHit s i.addr) with
      | true => rw [h.next_hit hq hh]; simp [Dcache.busy]
      | false =>
        rw [h.next_miss hq hh]
        cases vicDry s i.addr <;> simp [Dcache.busy, stateIsNorm, norm, wbus, rbus]
  · rw [h.reqVld, h.busy, h.vldC1]
    rcases h.beat with hb | hb
    · rw [h.next_first hb.1]; simp [Dcache.busy, stateIsNorm, h.state, norm, wbus]
    · cases hr : i.abrReady with
      | false => rw [h.next_wait hb.1 hr, h.busy]; rfl
      | true =>
        by_cases hc : s.wcnt = 3
        · rw [h.next_last hb.1 hr hc]; simp [Dcache.busy, stateIsNorm, norm, rbus]
        · rw [h.next_beat hb.1 hr hc]; simp [Dcache.busy, stateIsNorm, h.state, norm, wbus]
  · rw [h.reqVld, h.busy, h.vldC1]
    cases hr : i.abrReady with
    | false => rw [h.next_wait hr, h.busy]; rfl
    | true =>
      by_cases hc : s.rcnt = 3
      · rw [h.next_last hr hc]; simp [Dcache.busy]
      · rw [h.next_beat hr hc]; simp [Dcache.busy, stateIsNorm, h.state, norm, rbus]

theorem Control.vldC1_of_hit (h : Control s) (hq : Dcache.reqVld s i = true)
    (hh : anyWay (wayHit s i.addr) = true) : (Dcache.next s i).vldC1 = true := by
  rcases h with h | h | h
  · rw [h.next_hit hq hh]
  · rw [h.reqVld] at hq; cases hq
  · rw [h.reqVld] at hq; cases hq

end Phases

section Counting
variable {s : State k} {i : In}

theorem WritingBack.next_state (h : WritingBack s) (i : In) :
    (Dcache.next s i).state = wbus ∨ (Dcache.next s i).state = rbus := by
  cases he : s.wbusEnFf with
  | true =>
    rw [h.next_first he]
    exact .inl h.state
  | false =>
    cases hr : i.abrReady with
    | false =>
      rw [h.next_wait he hr]
      exact .inl h.state
    | true =>
      by_cases hc : s.wcnt = 3
      · rw [h.next_last he hr hc]
        exact .inr rfl
      · rw [h.next_beat he hr hc]
        exact .inl h.state

theorem Refilling.next_state (h : Refilling s) (i : In) :
    (Dcache.next s i).state = rbus ∨ (Dcache.next s i).state = norm := by
  cases hr : i.abrReady with
  | false =>
    rw [h.next_wait hr]
    exact .inl h.state
  | true =>
    by_cases hc : s.rcnt = 3
    · rw [h.next_last hr hc]
      exact .inr rfl
    · rw [h.next_beat hr hc]
      exact .inl h.state

theorem reqMiss_eq_false (h : reqVld s i = false) : reqMiss s i = false := by
  rw [reqMiss, h, Bool.false_and]

/-- A cache starts work with a miss, and ends it where the refill ends. -/
theorem Control.work_next (h : Control s) (i : In) :
    (!stateIsNorm (Dcache.next s i)).toNat
      + (!stateIsRbus (Dcache.next s i) && stateIsRbus s).toNat =
    (!stateIsNorm s).toNat + (reqMiss s i).toNat := by
  rcases h with h | h | h
  · cases hq : reqVld s i with
    | false =>
      rw [h.next_quiet hq]
      simp [stateIsNorm, stateIsRbus, reqMiss, hq, h.state, norm, rbus]
    | true =>
      cases hh : anyWay (wayHit s i.addr) with
      | true =>
        rw [h.next_hit hq hh]
        simp [stateIsNorm, stateIsRbus, reqMiss, hq, hh, h.state, norm, rbus]
      | false =>
        rw [h.next_miss hq hh]
        cases hv : vicDry s i.addr <;>
          simp [stateIsNorm, stateIsRbus, reqMiss, hq, hh, h.state, norm, rbus, wbus]
  · have hm := reqMiss_eq_false (i := i) h.reqVld
    rcases h.next_state i with hn | hn <;>
      simp [stateIsNorm, stateIsRbus, hm, hn, h.state, norm, rbus, wbus]
  · have hm := reqMiss_eq_false (i := i) h.reqVld
    rcases h.next_state i with hn | hn <;>
      simp [stateIsNorm, stateIsRbus, hm, hn, h.state, norm, rbus]

/-- A write-back starts with a miss that has a dirty victim. -/
theorem Control.wbus_next (h : Control s) (i : In) :
    (stateIsWbus (Dcache.next s i)).toNat
      + (!stateIsWbus (Dcache.next s i) && stateIsWbus s).toNat =
    (stateIsWbus s).toNat + (wbusEn s i).toNat := by
  rcases h with h | h | h
  · cases hq : reqVld s i with
    | false =>
      rw [h.next_quiet hq]
      simp [stateIsWbus, wbusEn, reqMiss, hq, h.state, norm, wbus]
    | true =>
      cases hh : anyWay (wayHit s i.addr) with
      | true =>
        rw [h.next_hit hq hh]
        simp [stateIsWbus, wbusEn, reqMiss, hq, hh, h.state, norm, wbus]
      | false =>
        rw [h.next_miss hq hh]
        cases hv : vicDry s i.addr <;>
          simp [stateIsWbus, wbusEn, reqMiss, hq, hh, hv, h.state, norm, rbus, wbus]
  · have hm : wbusEn s i = false := by rw [wbusEn, reqMiss_eq_false h.reqVld, Bool.false_and]
    rcases h.next_state i with hn | hn <;>
      simp [stateIsWbus, hm, hn, h.state, rbus, wbus]
  · have hm : wbusEn s i = false := by rw [wbusEn, reqMiss_eq_false h.reqVld, Bool.false_and]
    rcases h.next_state i with hn | hn <;>
      simp [stateIsWbus, hm, hn, h.state, norm, rbus, wbus]

end Counting

end Rv64imCore.Dcache
