import Rv64imCore.DivisionSpec
import Rv64imCore.LeadingBit

/-! The phases of a division, from the request to the answer. -/

namespace Rv64imCore.Div
set_option autoImplicit true

/-- No request is being worked on. -/
structure Idle (s : State) : Prop where
  busy : s.busy = false
  cnt : s.cnt = 0#6
  ready : s.divReady = false

/-- What the divider holds of the request `j`. -/
structure Latched (j : In) (s : State) : Prop where
  busy : s.busy = true
  op1 : s.op1Signed = negative j.isSigned j.rs1
  op2 : s.op2Signed = negative j.isSigned j.rs2
  fast : s.fastDivR = fastDiv j
  rvld : s.rvldCntR = BitVec.ofNat 6 (lead (rs1Abs j))
  dvld : s.dvldCntR = BitVec.ofNat 6 (lead (rs2Abs j))

/-- The dividend as it is loaded, and the divisor at step `k`. -/
def scaled (j : In) : Nat := (rs1Abs j).toNat * 2 ^ (63 - lead (rs1Abs j))
def divisor (j : In) (k : Nat) : Nat := (rs2Abs j).toNat * 2 ^ (63 - lead (rs2Abs j) - k)

/-- `k` steps of the request are done. The fast path keeps the dividend; the other one has the
loop invariant of restoring division. -/
structure Working (j : In) (k : Nat) (s : State) : Prop extends Latched j s where
  ready : s.divReady = false
  cnt : s.cnt = BitVec.ofNat 6 k
  le : k ≤ steps j
  kept : fastDiv j = true → s.remReg.toNat = scaled j
  div : fastDiv j = false → s.divReg.toNat = divisor j k
  loop : fastDiv j = false →
    Restoring.Prefix (scaled j) (divisor j k) s.resReg.toNat s.remReg.toNat

/-- The answer stands at the outputs. -/
structure Answered (j : In) (s : State) : Prop extends Latched j s where
  ready : s.divReady = true
  res : divRes s = quotient j
  rem : divRem s = remainder j

theorem idle_reset (s : State) : Idle s.reset := ⟨rfl, rfl, rfl⟩

theorem Idle.next_reset (s : State) (i : In) : Idle (next true s i) := ⟨rfl, rfl, rfl⟩

theorem Idle.next_none (h : Idle s) (hr : i.divReq = false) : Idle (next false s i) := by
  have ha : ack s = false := h.ready
  refine ⟨?_, ?_, ?_⟩
  · change reg false false (if ack s then !i.stall else i.divReq) _ s.busy = false
    rw [ha, hr]
    exact h.busy
  · change reg false 0 (if s.divReady then !i.stall else s.busy) _ s.cnt = 0#6
    rw [h.ready, h.busy]
    exact h.cnt
  · change reg false false (if s.divReady then !i.stall else s.busy) _ s.divReady = false
    rw [h.ready, h.busy]
    rfl

theorem Latched.next (h : Latched j s) (hb : (Div.next false s i).busy = true) :
    Latched j (Div.next false s i) := by
  have hs : (i.divReq && !s.busy) = false := by rw [h.busy]; simp
  refine ⟨hb, ?_, ?_, ?_, ?_, ?_⟩
  · change reg false false (i.divReq && !s.busy) _ s.op1Signed = _
    rw [hs]; exact h.op1
  · change reg false false (i.divReq && !s.busy) _ s.op2Signed = _
    rw [hs]; exact h.op2
  · change reg false false (i.divReq && !s.busy) _ s.fastDivR = _
    rw [hs]; exact h.fast
  · change reg false 0 (i.divReq && !s.busy) _ s.rvldCntR = _
    rw [hs]; exact h.rvld
  · change reg false 0 (i.divReq && !s.busy) _ s.dvldCntR = _
    rw [hs]; exact h.dvld

theorem Answered.next_stall (h : Answered j s) (hs : i.stall = true) :
    Answered j (next false s i) := by
  have ha : ack s = true := h.ready
  have hb : (next false s i).busy = true := by
    change reg false false (if ack s then !i.stall else i.divReq) _ s.busy = true
    rw [ha, hs]; exact h.busy
  have hl := h.toLatched.next hb
  have hrdy : (next false s i).divReady = true := by
    change reg false false (if s.divReady then !i.stall else s.busy) _ s.divReady = true
    rw [h.ready, hs]; rfl
  have hrem : (next false s i).remReg = s.remReg := by
    change reg false 0 (if ack s then !i.stall else i.divReq || s.busy) _ s.remReg = _
    rw [ha, hs]; rfl
  have hres : (next false s i).resReg = s.resReg := by
    change reg false 0 (if ack s then !i.stall else i.divReq || s.busy) _ s.resReg = _
    rw [ha, hs]; rfl
  refine ⟨hl, hrdy, ?_, ?_⟩
  · rw [← h.res, divRes, divRes, hl.fast, h.fast, hl.dvld, h.dvld, hres]
  · rw [← h.rem, divRem, divRem, remResSel, remResSel, hl.op1, h.op1, hl.rvld, h.rvld, hrem]

theorem Answered.next_taken (h : Answered j s) (hs : i.stall = false) : Idle (next false s i) := by
  have ha : ack s = true := h.ready
  refine ⟨?_, ?_, ?_⟩
  · change reg false false (if ack s then !i.stall else _) (if ack s then i.stall else _) _ = false
    rw [ha, hs]; rfl
  · change reg false 0 (if s.divReady then !i.stall else _) (if s.divReady then 0 else _) _ = 0#6
    rw [h.ready, hs]; rfl
  · change reg false false (if s.divReady then !i.stall else _)
      (if s.divReady then false else _) _ = false
    rw [h.ready, hs]; rfl

theorem scaled_lt (j : In) : scaled j < 2 ^ 64 := by
  rw [scaled, ← toNat_shiftUp]
  exact (rs1Abs j <<< ~~~(vldCnt (rs1Abs j))).isLt

theorem lt_two_mul_divisor (h : fastDiv j = false) : scaled j < 2 * divisor j 0 := by
  have hb := two_pow_lead_le (rs2Abs_ne_zero_of_slow h)
  have hl := lead_lt (rs2Abs j)
  have hd : 2 ^ 63 ≤ divisor j 0 := by
    calc 2 ^ 63 = 2 ^ lead (rs2Abs j) * 2 ^ (63 - lead (rs2Abs j) - 0) := by
          rw [← Nat.pow_add]; congr 1; omega
      _ ≤ divisor j 0 := Nat.mul_le_mul_right _ hb
  have := scaled_lt j
  omega

theorem Idle.next_start (h : Idle s) (hr : j.divReq = true) : Working j 0 (next false s j) := by
  have ha : ack s = false := h.ready
  have hstart : (j.divReq && !s.busy) = true := by rw [hr, h.busy]; rfl
  have hupd : dataUpdEn s j = true := by rw [dataUpdEn, ha, hr]; rfl
  have hrem : (next false s j).remReg.toNat = scaled j := by
    change (reg false 0 (dataUpdEn s j) (remRegNs s j) s.remReg).toNat = _
    rw [hupd, reg_load, remRegNs, h.busy]
    simp only [Bool.not_false, mask_true, Bool.false_and, mask_false, BitVec.or_zero]
    exact toNat_shiftUp _
  have hdiv : (next false s j).divReg.toNat = divisor j 0 := by
    change (reg false 0 (dataUpdEn s j) (divRegNs s j) s.divReg).toNat = _
    rw [hupd, reg_load, divRegNs, h.busy]
    simp only [Bool.not_false, mask_true, mask_false, BitVec.or_zero]
    exact toNat_shiftUp _
  have hres : (next false s j).resReg = 0#64 := by
    change reg false 0 (dataUpdEn s j) (resRegNs s) s.resReg = _
    rw [hupd, reg_load, resRegNs, quotientSignCorrection, h.busy]
    simp
  refine ⟨⟨?_, ?_, ?_, ?_, ?_, ?_⟩, ?_, ?_, Nat.zero_le _, fun _ => hrem, fun _ => hdiv, ?_⟩
  · change reg false false (if ack s then _ else j.divReq) (if ack s then _ else j.divReq) _ = true
    rw [ha, hr]; rfl
  · change reg false false (j.divReq && !s.busy) _ s.op1Signed = _
    rw [hstart]; rfl
  · change reg false false (j.divReq && !s.busy) _ s.op2Signed = _
    rw [hstart]; rfl
  · change reg false false (j.divReq && !s.busy) _ s.fastDivR = _
    rw [hstart]; rfl
  · change reg false 0 (j.divReq && !s.busy) _ s.rvldCntR = _
    rw [hstart]; exact vldCnt_eq _
  · change reg false 0 (j.divReq && !s.busy) _ s.dvldCntR = _
    rw [hstart]; exact vldCnt_eq _
  · change reg false false (if s.divReady then !j.stall else s.busy) _ s.divReady = false
    rw [h.ready, h.busy]; rfl
  · change reg false 0 (if s.divReady then !j.stall else s.busy) _ s.cnt = _
    rw [h.ready, h.busy]; exact h.cnt
  · intro hslow
    rw [hrem, hres]
    exact .init (lt_two_mul_divisor hslow)

theorem add_le_of_slow (h : fastDiv j = false) (hk : k ≤ steps j) :
    lead (rs2Abs j) + k ≤ lead (rs1Abs j) := by
  have := lead_le_of_slow h
  rw [steps, h] at hk
  simp at hk
  omega

theorem divisor_succ (h : fastDiv j = false) (hk : k < steps j) :
    divisor j k = 2 * divisor j (k + 1) := by
  have ha := add_le_of_slow h (k := k + 1) hk
  have hl := lead_lt (rs1Abs j)
  have he : 63 - lead (rs2Abs j) - k = 63 - lead (rs2Abs j) - (k + 1) + 1 := by omega
  rw [divisor, divisor, he, Nat.pow_succ]
  ring

theorem divisor_pos (h : fastDiv j = false) (k : Nat) : 0 < divisor j k := by
  have hb := two_pow_lead_le (rs2Abs_ne_zero_of_slow h)
  exact Nat.mul_pos (Nat.lt_of_lt_of_le (Nat.two_pow_pos _) hb) (Nat.two_pow_pos _)

namespace Working

section Facts
variable {j i : In} {s : State} {k : Nat}

theorem divDone_eq (h : Working j k s) : divDone s = decide (k = steps j) := by
  have hk := h.le
  rw [divDone, h.fast, h.rvld, h.dvld, h.cnt]
  cases hf : fastDiv j with
  | true =>
    rw [steps, hf, if_pos rfl] at hk ⊢
    rw [Bool.or_true, decide_eq_true (by omega)]
  | false =>
    have ha := add_le_of_slow hf hk
    have hl := lead_lt (rs1Abs j)
    rw [steps, hf, if_neg (by decide)] at hk ⊢
    rw [Bool.or_false, Bool.eq_iff_iff, beq_iff_eq, decide_eq_true_iff, ← BitVec.toNat_inj,
      BitVec.toNat_sub, BitVec.toNat_ofNat, BitVec.toNat_ofNat, BitVec.toNat_ofNat]
    omega

theorem res_lt (h : Working j k s) (hf : fastDiv j = false) : s.resReg.toNat < 2 ^ 63 := by
  have hp := h.loop hf
  have hd := divisor_pos hf k
  have hs := scaled_lt j
  have hm : s.resReg.toNat * 2 ≤ s.resReg.toNat * (2 * divisor j k) :=
    Nat.mul_le_mul_left _ (by omega)
  have he := hp.eq
  omega

theorem next_busy (h : Working j k s) : (next false s i).busy = true := by
  have ha : ack s = false := h.ready
  change reg false false (if ack s then _ else i.divReq) (if ack s then _ else i.divReq)
    s.busy = true
  rw [ha]
  cases hr : i.divReq with
  | true => rfl
  | false => exact h.busy

theorem dataUpdEn_eq (h : Working j k s) : dataUpdEn s i = true := by
  have ha : ack s = false := h.ready
  rw [dataUpdEn, ha, h.busy]
  simp

theorem divReadyEn_eq (h : Working j k s) : divReadyEn s i = true := by
  rw [divReadyEn, h.ready, h.busy]
  rfl

theorem next_divReady (h : Working j k s) :
    (next false s i).divReady = decide (k = steps j) := by
  change reg false false (divReadyEn s i) (if s.divReady then false else divDone s) s.divReady = _
  rw [h.divReadyEn_eq, h.ready]
  exact h.divDone_eq

theorem next_remReg (h : Working j k s) : (next false s i).remReg.toNat
    = if fastDiv j then s.remReg.toNat else Restoring.rest s.divReg.toNat s.remReg.toNat := by
  change (reg false 0 (dataUpdEn s i) (remRegNs s i) s.remReg).toNat = _
  rw [h.dataUpdEn_eq, reg_load, remRegNs, h.busy, h.fast]
  cases fastDiv j with
  | true => simp
  | false => simp [subRes_toNat]

theorem next_resReg (h : Working j k s) (hf : fastDiv j = false) : (next false s i).resReg
    = signed (decide (k = steps j) && (negative j.isSigned j.rs1 ^^ negative j.isSigned j.rs2))
      (BitVec.ofNat 64
        (2 * s.resReg.toNat + (Restoring.bit s.divReg.toNat s.remReg.toNat).toNat)) := by
  have hq : quotientNs s = BitVec.ofNat 64
      (2 * s.resReg.toNat + (Restoring.bit s.divReg.toNat s.remReg.toNat).toNat) := by
    rw [← quotientNs_toNat s (h.res_lt hf), BitVec.ofNat_toNat, BitVec.setWidth_eq]
  have hc : quotientSignCorrection s
      = (decide (k = steps j) && (negative j.isSigned j.rs1 ^^ negative j.isSigned j.rs2)) := by
    rw [quotientSignCorrection, h.busy, h.ready, h.divDone_eq, h.fast, hf, h.op1, h.op2]
    simp
  change reg false 0 (dataUpdEn s i) (resRegNs s) s.resReg = _
  rw [h.dataUpdEn_eq, reg_load, resRegNs, h.busy, hc, hq]
  cases decide (k = steps j) && (negative j.isSigned j.rs1 ^^ negative j.isSigned j.rs2) with
  | true => simp [signed, BitVec.neg_eq_not_add]
  | false => simp [signed]

theorem next_step (h : Working j k s) (hk : k < steps j) : Working j (k + 1) (next false s i) := by
  have hf : fastDiv j = false := by
    cases hf : fastDiv j with
    | false => rfl
    | true =>
      rw [steps, hf] at hk
      exact absurd hk (Nat.not_lt_zero k)
  have hne : decide (k = steps j) = false := decide_eq_false (Nat.ne_of_lt hk)
  have hd := h.div hf
  have hsucc := divisor_succ hf hk
  have hbit : (Restoring.bit s.divReg.toNat s.remReg.toNat).toNat < 2 := Bool.toNat_lt _
  have hlt := h.res_lt hf
  have hres : (next false s i).resReg.toNat
      = 2 * s.resReg.toNat + (Restoring.bit s.divReg.toNat s.remReg.toNat).toNat := by
    rw [h.next_resReg hf, hne, Bool.false_and, signed, if_neg (by decide), BitVec.toNat_ofNat]
    exact Nat.mod_eq_of_lt (by omega)
  have hrem := h.next_remReg (i := i)
  rw [hf, if_neg (by decide)] at hrem
  refine ⟨h.toLatched.next h.next_busy, ?_, ?_, hk, fun hf' => ?_, fun _ => ?_, fun _ => ?_⟩
  · rw [h.next_divReady, hne]
  · change reg false 0 (divReadyEn s i) (if s.divReady then 0 else s.cnt + 1) s.cnt = _
    rw [h.divReadyEn_eq, h.ready, h.cnt]
    exact (BitVec.ofNat_add k 1).symm
  · rw [hf] at hf'
    cases hf'
  · change (reg false 0 (dataUpdEn s i) (divRegNs s i) s.divReg).toNat = _
    rw [h.dataUpdEn_eq, reg_load, divRegNs, h.busy]
    have hz : (0#1 ++ s.divReg.extractLsb' 1 63).toNat = s.divReg.toNat / 2 := by
      have := s.divReg.isLt
      rw [BitVec.toNat_append, BitVec.extractLsb'_toNat, Nat.shiftRight_eq_div_pow]
      simp
      omega
    simp only [Bool.not_true, mask_false, mask_true, BitVec.zero_or]
    rw [hz, hd, hsucc]
    omega
  · rw [hres, hrem, hd, hsucc]
    exact (hsucc ▸ h.loop hf).next

theorem divRem_next (h : Working j k s) (m : Nat)
    (hm : (next false s i).remReg.toNat / 2 ^ (63 - lead (rs1Abs j)) = m) :
    divRem (next false s i) = signed (negative j.isSigned j.rs1) (BitVec.ofNat 64 m) := by
  have hl := h.toLatched.next (h.next_busy (i := i))
  have hsel : remResSel (next false s i) = BitVec.ofNat 64 m := by
    apply BitVec.eq_of_toNat_eq
    have hlt := (remResSel (next false s i)).isLt
    rw [remResSel, hl.rvld, BitVec.ushiftRight_eq', BitVec.toNat_ushiftRight,
      toNat_not_ofNat (lead_lt _), Nat.shiftRight_eq_div_pow, hm] at hlt ⊢
    rw [BitVec.toNat_ofNat, Nat.mod_eq_of_lt hlt]
  rw [divRem, hsel, hl.op1, signed, BitVec.neg_eq_not_add]
  rfl

theorem next_done_fast (h : Working j k s) (hk : k = steps j) (hf : fastDiv j = true) :
    Answered j (next false s i) := by
  have hl := h.toLatched.next (h.next_busy (i := i))
  have hrem := h.next_remReg (i := i)
  rw [hf, if_pos rfl, h.kept hf] at hrem
  have hsel : (next false s i).remReg.toNat / 2 ^ (63 - lead (rs1Abs j)) = (rs1Abs j).toNat := by
    rw [hrem, scaled]
    exact Nat.mul_div_cancel _ (Nat.two_pow_pos _)
  have hrs1 : divRem (next false s i) = j.rs1 := by
    rw [h.divRem_next _ hsel, BitVec.ofNat_toNat, BitVec.setWidth_eq]
    exact signed_absVal _ _
  have hres : divRes (next false s i) = BitVec.fill 64 (BitVec.ofNat 6 (lead (rs2Abs j)) == 0) := by
    rw [divRes, hl.fast, hf, if_pos rfl, hl.dvld]
  have hready : (next false s i).divReady = true := by rw [h.next_divReady, decide_eq_true hk]
  by_cases hz : rs2Abs j = 0#64
  · have h2 : j.rs2 = 0#64 := (absVal_eq_zero_iff _ _).mp hz
    refine ⟨hl, hready, ?_, ?_⟩
    · rw [hres, hz, quotient, if_pos h2]
      decide
    · rw [hrs1, remainder, if_pos h2]
  · have hlead := ((fastDiv_iff j).mp hf).resolve_right hz
    have hlt : (rs1Abs j).toNat < (rs2Abs j).toNat := by
      calc (rs1Abs j).toNat < 2 ^ (lead (rs1Abs j) + 1) := lt_two_pow_lead _
        _ ≤ 2 ^ lead (rs2Abs j) := Nat.pow_le_pow_right (by decide) hlead
        _ ≤ (rs2Abs j).toNat := two_pow_lead_le hz
    refine ⟨hl, hready, ?_, ?_⟩
    · have hne : (BitVec.ofNat 6 (lead (rs2Abs j)) == 0) = false := by
        have h64 := lead_lt (rs2Abs j)
        rw [beq_eq_false_iff_ne, ne_eq, ← BitVec.toNat_inj, BitVec.toNat_ofNat,
          Nat.mod_eq_of_lt h64]
        exact Nat.ne_of_gt (Nat.lt_of_le_of_lt (Nat.zero_le _) hlead)
      rw [hres, hne, quotient_eq j hz, Nat.div_eq_of_lt hlt]
      cases negative j.isSigned j.rs1 ^^ negative j.isSigned j.rs2 <;> rfl
    · rw [hrs1, remainder_eq j hz, Nat.mod_eq_of_lt hlt, BitVec.ofNat_toNat, BitVec.setWidth_eq]
      exact (signed_absVal _ _).symm

theorem next_done (h : Working j k s) (hk : k = steps j) : Answered j (next false s i) := by
  cases hf : fastDiv j with
  | true => exact h.next_done_fast hk hf
  | false =>
    have hl := h.toLatched.next (h.next_busy (i := i))
    have hadd := add_le_of_slow hf h.le
    have hr := lead_lt (rs1Abs j)
    have hd : divisor j k = (rs2Abs j).toNat * 2 ^ (63 - lead (rs1Abs j)) := by
      rw [divisor, hk, steps, hf, if_neg (by decide)]
      congr 2
      have := lead_le_of_slow hf
      omega
    have hstep := (h.loop hf).step
    rw [hd] at hstep
    obtain ⟨hq, hm⟩ := Restoring.div_mod_of_scaled (Nat.two_pow_pos _) hstep.1 hstep.2
    have hrem := h.next_remReg (i := i)
    rw [hf, if_neg (by decide), h.div hf, hd] at hrem
    have hz := rs2Abs_ne_zero_of_slow hf
    refine ⟨hl, by rw [h.next_divReady, decide_eq_true hk], ?_, ?_⟩
    · rw [divRes, hl.fast, hf, if_neg (by decide), h.next_resReg hf, decide_eq_true hk,
        Bool.true_and, h.div hf, hd, hq, quotient_eq j hz]
    · rw [← hrem] at hm
      rw [h.divRem_next _ hm, remainder_eq j hz]

end Facts

end Working

/-- From the cycle of a request to that of its answer. -/
def latency (j : In) : Nat := if fastDiv j then 2 else lead (rs1Abs j) - lead (rs2Abs j) + 2

theorem latency_eq (j : In) : latency j = steps j + 2 := by
  unfold latency steps
  split <;> omega

section Cycles
variable {d : Nat → State} {e : Nat → In}

theorem working_of_idle (hi : Idle (d t)) (hr : (e t).divReq = true)
    (hd : ∀ v, t ≤ v → v ≤ t + m → d (v + 1) = next false (d v) (e v)) (hm : m ≤ steps (e t)) :
    Working (e t) m (d (t + 1 + m)) := by
  induction m with
  | zero =>
    rw [Nat.add_zero, hd t (Nat.le_refl t) (Nat.le_add_right t 0)]
    exact hi.next_start hr
  | succ m ih =>
    have hw := ih (fun v hv hvm => hd v hv (by omega)) (by omega)
    rw [← Nat.add_assoc, hd (t + 1 + m) (by omega) (by omega)]
    exact hw.next_step hm

/-- A divider that is left to work answers after the latency. -/
theorem answered_of_idle (hi : Idle (d t)) (hr : (e t).divReq = true)
    (hd : ∀ v, t ≤ v → v < t + latency (e t) → d (v + 1) = next false (d v) (e v)) :
    Answered (e t) (d (t + latency (e t))) := by
  have hl := latency_eq (e t)
  have hw := working_of_idle hi hr (m := steps (e t)) (fun v hv hvm => hd v hv (by omega))
    (Nat.le_refl _)
  have he : t + latency (e t) = t + 1 + steps (e t) + 1 := by omega
  rw [he, hd _ (by omega) (by omega)]
  exact hw.next_done rfl

end Cycles

/-- Every state of a run is in one of the phases. -/
def Phase (s : State) : Prop := Idle s ∨ (∃ j k, Working j k s) ∨ ∃ j, Answered j s

theorem Phase.next (h : Phase s) (b : Bool) (i : In) : Phase (next b s i) := by
  cases b with
  | true => exact .inl (Idle.next_reset s i)
  | false =>
    rcases h with h | ⟨j, k, h⟩ | ⟨j, h⟩
    · cases hr : i.divReq with
      | false => exact .inl (h.next_none hr)
      | true => exact .inr (.inl ⟨i, 0, h.next_start hr⟩)
    · rcases Nat.lt_or_eq_of_le h.le with hk | hk
      · exact .inr (.inl ⟨j, k + 1, h.next_step hk⟩)
      · exact .inr (.inr ⟨j, h.next_done hk⟩)
    · cases hs : i.stall with
      | false => exact .inl (h.next_taken hs)
      | true => exact .inr (.inr ⟨j, h.next_stall hs⟩)

end Rv64imCore.Div
