import Rv64imCore.AxiSlave
import Rv64imCore.BusTraffic
import Rv64imCore.DataSide
import Rv64imCore.ProgramText

/-! What the data side puts on the memory bus: requests that stay until they are taken, the D-cache
only to the memory, and the device bridge only outside it. -/

namespace Rv64imCore
set_option autoImplicit true

namespace Dcache

/-- The D-cache holds lines of the memory, and works on one. -/
structure InRam (s : State 6) : Prop where
  lines : ∀ x, (slots s).valid x → ((slots s).line x).1.extractLsb' 17 4 = 0x8#4
  addr : stateIsNorm s = false → Axi.isRam s.addrFf = true

theorem isRam_line (a : BitVec 32) :
    Axi.isRam a = ((lineOf a).1.extractLsb' 17 4 == 0x8#4) := by
  have h : (lineOf a).1.extractLsb' 17 4 = a.extractLsb' 28 4 := by
    apply BitVec.eq_of_getLsbD_eq
    intro k hk
    simp only [lineOf, tagOf, BitVec.getLsbD_extractLsb', hk]
    grind
  rw [Axi.isRam, h]

theorem isRam_word (a : BitVec 32) (c : BitVec 2) :
    Axi.isRam (a.extractLsb' 5 27 ++ c ++ 0#3) = Axi.isRam a := by
  have h : (a.extractLsb' 5 27 ++ c ++ 0#3).extractLsb' 28 4 = a.extractLsb' 28 4 := by
    apply BitVec.eq_of_getLsbD_eq
    intro k hk
    simp only [BitVec.getLsbD_append, BitVec.getLsbD_extractLsb', hk]
    grind
  rw [Axi.isRam, Axi.isRam, h]

section Step
variable {s : State 6} {i : In}

theorem InRam.reset (s : State 6) : InRam s.reset where
  lines := fun _ h => Bool.noConfusion h
  addr := fun h => Bool.noConfusion h

/-- Only the last refill beat installs a line. -/
theorem Control.slots_next (h : Control s) {x : Fin 4 × BitVec 6}
    (hv : (slots (Dcache.next s i)).valid x) :
    ((slots s).valid x ∧ (slots (Dcache.next s i)).line x = (slots s).line x) ∨
    (stateIsNorm s = false ∧ (slots (Dcache.next s i)).line x = lineOf s.addrFf) := by
  cases hd : rbusDone s i with
  | false =>
    refine .inl ⟨?_, ?_⟩
    · simpa [slots, Dcache.next, hd] using hv
    · simp [slots, Dcache.next, hd]
  | true =>
    simp only [rbusDone, busWramVld, Bool.and_eq_true, beq_iff_eq] at hd
    have hp : Refilling s := by
      rcases h with h | h | h
      · rw [h.rbusVld] at hd; cases hd.1.1
      · rw [h.rbusVld] at hd; cases hd.1.1
      · exact h
    rw [hp.next_last hd.1.2 hd.2] at hv ⊢
    by_cases hj : x.2 = idxFf s
    · cases hw : s.wayVicFf x.1 with
      | true => exact .inr ⟨hp.isNorm, by simp [slots, lineOf, hj, hw]; rfl⟩
      | false =>
        refine .inl ⟨?_, ?_⟩
        · simpa [slots, hj, hw] using hv
        · simp [slots, hj, hw]
    · refine .inl ⟨?_, ?_⟩
      · simpa [slots, hj] using hv
      · simp [slots, hj]

theorem InRam.next (h : InRam s) (hc : Control s)
    (hq : reqVld s i = true → Axi.isRam i.addr = true) :
    InRam (Dcache.next s i) where
  lines := by
    intro x hv
    rcases hc.slots_next hv with ⟨hv, hl⟩ | ⟨hn, hl⟩
    · rw [hl]
      exact h.lines x hv
    · rw [hl]
      have ha := h.addr hn
      rw [isRam_line, beq_iff_eq] at ha
      exact ha
  addr := by
    intro hn
    cases hr : reqVld s i with
    | false =>
      have ha : (Dcache.next s i).addrFf = s.addrFf := by
        simp only [Dcache.next, reqMiss, hr]
        rfl
      rw [ha]
      refine h.addr ?_
      rw [Bool.eq_false_iff]
      intro hs
      rcases hc with hc | hc | hc
      · rw [(hc.quiet hr).isNorm] at hn
        cases hn
      · rw [hc.isNorm] at hs
        cases hs
      · rw [hc.isNorm] at hs
        cases hs
    | true =>
      have hi : Idle s := by
        rcases hc with hc | hc | hc
        · exact hc
        · rw [hc.reqVld] at hr
          cases hr
        · rw [hc.reqVld] at hr
          cases hr
      cases hh : anyWay (wayHit s i.addr) with
      | true =>
        rw [hi.next_hit hr hh] at hn
        have hn : stateIsNorm s = false := hn
        rw [hi.isNorm] at hn
        cases hn
      | false =>
        rw [hi.next_miss hr hh]
        exact hq hr

theorem InRam.abrAddr {m₀ : Bytes.Mem 29} {b : Backed} {g : Log} (h : InRam b.cache)
    (hr : Refines m₀ b g) (hv : abrValid b.cache = true) :
    Axi.isRam (Dcache.abrAddr b.cache) = true := by
  have hidle (hi : Idle b.cache) : False := by
    rw [abrValid, hi.isWbus, if_neg (by decide), hi.rbusVld] at hv
    cases hv
  rw [Dcache.abrAddr]
  rcases hr.state with ⟨-, hf⟩ | ⟨rs, a, -, -, hs⟩
  · exact (hidle hf.idle).elim
  · cases hs with
    | cleaning v hc =>
      rw [hc.phase.isWbus, if_pos rfl, wbusAddr, isRam_word, isRam_line, hc.line, beq_iff_eq]
      exact h.lines _ hc.valid
    | filling v hf =>
      rw [hf.phase.isWbus, if_neg (by decide), rbusAddr, isRam_word]
      exact h.addr hf.phase.isNorm
    | answering ha => exact (hidle ha.idle).elim

end Step

/-- The stores that have been asked for leave the program text alone. -/
def KeepsText (P : Rv64im.Platform) (m₀ : Bytes.Mem 29) (rs : List Access) : Prop :=
  ∀ l, l <+: rs → P.SameText m₀ (flat m₀ l)

section Text
variable {P : Rv64im.Platform} {m₀ : Bytes.Mem 29}

theorem KeepsText.empty : KeepsText P m₀ [] := by
  intro l hl
  rw [List.prefix_nil.mp hl]
  exact .refl m₀

theorem KeepsText.concat (h : KeepsText P m₀ rs) (ha : P.SameText m₀ (flat m₀ (rs ++ [a]))) :
    KeepsText P m₀ (rs ++ [a]) := by
  intro l hl
  rcases List.prefix_concat_iff.mp hl with rfl | hl
  · exact ha
  · exact h l hl

/-- What is written back is the program text, where it is program text. -/
theorem Refines.backing_text {b : Backed} {g : Log} (h : Refines m₀ b g)
    (hk : KeepsText P m₀ g.requests) (ht : P.SameText m₀ b.mem) (r : Bool) :
    P.SameText m₀ (backing b.cache b.mem r) := by
  rcases h.state with ⟨-, hf⟩ | ⟨rs, a, hr, -, hs⟩
  · rw [hf.idle.backing]
    exact ht
  · cases hs with
    | filling v hf =>
      rw [hf.phase.backing]
      exact ht
    | answering ha =>
      rw [ha.idle.backing]
      exact ht
    | cleaning v hc =>
      have hflat : P.SameText m₀ (flat m₀ rs) := hk rs (by rw [hr]; exact List.prefix_append ..)
      let i : In := { reqVld := false, wen := false, addr := 0, wdata := 0, wmask := 0
                      rspRdy := false, abrRdata := 0, abrReady := r }
      change P.SameText m₀ (backing b.cache b.mem i.abrReady)
      cases he : b.cache.wbusEnFf with
      | true =>
        have hv : b.cache.wbusVld = false := by
          rcases hc.phase.beat with hb | hb
          · exact hb.2.1
          · rw [hb.1] at he
            cases he
        rw [hc.phase.backing_wait b.mem (.inl hv)]
        exact ht
      | false =>
        cases hrdy : i.abrReady with
        | false =>
          rw [← hrdy, hc.phase.backing_wait b.mem (.inr hrdy)]
          exact ht
        | true =>
          rw [← hrdy, hc.backing_beat he hrdy]
          intro c hct
          by_cases hcw : c = wordAt ((slots b.cache).line (a.slot v)) b.cache.wcnt
          · rw [hcw, Bytes.Mem.read_store_same, Bytes.merge_ones]
            rw [hcw] at hct
            exact hflat _ hct
          · rw [Bytes.Mem.read_store_ne _ hcw]
            exact ht c hct

end Text

end Dcache

namespace Sys

/-- The device bridge works outside the memory, and the D-cache inside. -/
structure Apart (s : State) : Prop where
  device : s.atob.valid = true → Axi.isRam s.atob.addr = false
  dcache : Dcache.InRam s.dcache

section Step
variable {s : State} {i : In}

theorem Apart.reset (s : State) : Apart s.reset where
  device := fun h => Bool.noConfusion h
  dcache := Dcache.InRam.reset s.dcache

theorem isRam_lsuAddr : Axi.isRam ((lsuAddr s i).extractLsb' 0 32) = cs s i 0 := by
  have h : ((lsuAddr s i).extractLsb' 0 32).extractLsb' 28 4 = (lsuAddr s i).extractLsb' 28 4 := by
    apply BitVec.eq_of_getLsbD_eq
    intro k hk
    simp only [BitVec.getLsbD_extractLsb', hk]
    grind
  rw [Axi.isRam, h]
  rfl

theorem Apart.next (h : Apart s) (hi : Inv s) : Apart (Sys.next s i) where
  device := by
    intro hv
    have hv' : (if (req s i 2).vld && s.atob.reqRdy then true
        else if s.atob.valid && m2Rdy s i then false else s.atob.valid) = true := hv
    change Axi.isRam (if (req s i 2).vld && s.atob.reqRdy then (req s i 2).addr
      else s.atob.addr) = false
    cases hq : (req s i 2).vld && s.atob.reqRdy with
    | true =>
      rw [if_pos rfl]
      change Axi.isRam ((lsuAddr s i).extractLsb' 0 32) = false
      simp only [req, Bool.and_eq_true] at hq
      rw [isRam_lsuAddr]
      obtain ⟨k, hk⟩ := OneToN.cs_onehot (lsuAddr s i)
      change cs s i = _ at hk
      have h2 := hq.1.1
      rw [hk] at h2 ⊢
      obtain rfl : (2 : Fin 3) = k := by simpa using h2
      rfl
    | false =>
      rw [hq] at hv'
      refine h.device ?_
      revert hv'
      cases s.atob.valid <;> cases m2Rdy s i <;> simp
  dcache := by
    refine h.dcache.next hi.dcache fun hq => ?_
    have hc : (dcacheIn s i).reqVld = true := (Bool.and_eq_true_iff.mp hq).1
    change Axi.isRam ((lsuAddr s i).extractLsb' 0 32) = true
    rw [isRam_lsuAddr]
    exact (Bool.and_eq_true_iff.mp hc).1

theorem m3_of_device (h1 : (m1 s).valid = false) (h2 : (m2 s).valid = true) : m3 s = m2 s := by
  simp only [m3, TwoToOne.abr, h1, h2]
  cases hm : m2 s with
  | mk v w a d k =>
    rw [hm] at h2
    obtain rfl : v = true := h2
    simp

theorem m3_of_dcache (h1 : (m1 s).valid = true) (h2 : (m2 s).valid = false) : m3 s = m1 s := by
  simp only [m3, TwoToOne.abr, h1, h2]
  cases hm : m1 s with
  | mk v w a d k =>
    rw [hm] at h1
    obtain rfl : v = true := h1
    simp

theorem Inv.m3_cases (h : Inv s) (hv : (m3 s).valid = true) :
    ((m1 s).valid = true ∧ (m2 s).valid = false ∧ m3 s = m1 s) ∨
    ((m1 s).valid = false ∧ (m2 s).valid = true ∧ m3 s = m2 s) := by
  have hn := h.not_m1_m2
  cases h1 : (m1 s).valid with
  | true =>
    have h2 : (m2 s).valid = false := by simpa [h1] using hn
    exact .inl ⟨rfl, h2, m3_of_dcache h1 h2⟩
  | false =>
    have h2 : (m2 s).valid = true := by
      have hv' : ((m2 s).valid || (m1 s).valid) = true := hv
      rwa [h1, Bool.or_false] at hv'
    exact .inr ⟨rfl, h2, m3_of_device h1 h2⟩

theorem Inv.m3_stays (h : Inv s) (hv : (m3 s).valid = true) (hb : i.busReady = false) :
    m3 (Sys.next s i) = m3 s := by
  have hn := (h.next i).not_m1_m2
  rcases h.m3_cases hv with ⟨h1, h2, he⟩ | ⟨h1, h2, he⟩
  · have hr : m1Rdy s i = false := by rw [m1Rdy, TwoToOne.ready, hb, ite_self]
    have hd : (Sys.next s i).dcache = s.dcache := h.dcache.next_wait h1 hr
    have h1' : m1 (Sys.next s i) = m1 s := by rw [m1, m1, hd]
    rw [he, ← h1']
    refine m3_of_dcache (by rw [h1', h1]) ?_
    simpa [h1', h1] using hn
  · have hr : m2Rdy s i = false := by rw [m2Rdy, TwoToOne.ready, hb, ite_self]
    have hrdy := h.bridge h2
    have ha : m2 (Sys.next s i) = m2 s := by
      simp only [m2, AtoB.abr, Sys.next, AtoB.next, hrdy, hr, Bool.and_false]
      rfl
    rw [he, ← ha]
    refine m3_of_device ?_ (by rw [ha, h2])
    simpa [ha, h2] using hn

end Step

end Sys

end Rv64imCore
