import Rv64imCore.WordDivSigned

/-! The word divisions are right wherever the operands fit. -/

namespace Rv64imCore.Exu
set_option autoImplicit true

section Fitting
variable {op : WordDivOp} {a b : BitVec 64}

theorem correct_of_zeroFits (h : WordDivOp.zeroFits op b = true) : Correct op a b := by
  cases op with
  | divw =>
    obtain rfl : b = 0#64 := by simpa [WordDivOp.zeroFits, WordDivOp.isDiv] using h
    exact correct_divw_zero
  | divuw =>
    obtain rfl : b = 0#64 := by simpa [WordDivOp.zeroFits, WordDivOp.isDiv] using h
    exact correct_divuw_zero
  | remw =>
    have hz : b.setWidth 32 = 0#32 := by simpa [WordDivOp.zeroFits, WordDivOp.isDiv] using h
    exact correct_remw_low_zero ((low_toInt_eq_zero_iff b).mpr hz)
  | remuw =>
    have hz : b.setWidth 32 = 0#32 := by simpa [WordDivOp.zeroFits, WordDivOp.isDiv] using h
    exact correct_remuw_zero ((low_eq_zero_iff b).mp hz)

theorem correct_of_divisorFits (ha : WordDivOp.extended op a = true)
    (hb : WordDivOp.divisorFits op b = true) : Correct op a b := by
  cases op with
  | divw => exact correct_divw (extended_divw_iff.mp ha) (extended_divw_iff.mp hb)
  | divuw => exact correct_divuw (extended_divuw_iff.mp ha) (extended_divuw_iff.mp hb)
  | remw =>
    simp only [WordDivOp.divisorFits, Bool.or_eq_true, beq_iff_eq] at hb
    rcases hb with (hb | hz) | rfl
    · exact correct_remw (extended_remw_iff.mp ha) (extended_remw_iff.mp hb)
    · exact correct_remw_low_zero ((low_toInt_eq_zero_iff b).mpr hz)
    · exact correct_remw_two_pow (extended_remw_iff.mp ha)
  | remuw =>
    simp only [WordDivOp.divisorFits, Bool.or_eq_true, beq_iff_eq] at hb
    rcases hb with hb | hz
    · exact correct_remuw (extended_remuw_iff.mp ha) (extended_remuw_iff.mp hb)
    · exact correct_remuw_zero ((low_eq_zero_iff b).mp hz)

theorem exists_wrong_divisor (ha : ¬WordDivOp.extended op a = true) :
    ∃ b, WordDivOp.extended op b = true ∧ ¬Correct op a b := by
  cases op with
  | divw =>
    obtain ⟨b, hb, hc⟩ := not_correct_divw_dividend (mt extended_divw_iff.mpr ha)
    exact ⟨b, extended_divw_iff.mpr hb, hc⟩
  | divuw =>
    obtain ⟨b, hb, hc⟩ := not_correct_divuw_dividend (mt extended_divuw_iff.mpr ha)
    exact ⟨b, extended_divuw_iff.mpr hb, hc⟩
  | remw =>
    obtain ⟨b, hb, hc⟩ := not_correct_remw_dividend (mt extended_remw_iff.mpr ha)
    exact ⟨b, extended_remw_iff.mpr hb, hc⟩
  | remuw =>
    obtain ⟨b, hb, hc⟩ := not_correct_remuw_dividend (mt extended_remuw_iff.mpr ha)
    exact ⟨b, extended_remuw_iff.mpr hb, hc⟩

theorem exists_wrong_dividend (hb : ¬WordDivOp.divisorFits op b = true) :
    ∃ a, WordDivOp.extended op a = true ∧ ¬Correct op a b := by
  cases op with
  | divw =>
    obtain ⟨a, ha, hc⟩ := not_correct_divw_divisor (mt extended_divw_iff.mpr hb)
    exact ⟨a, extended_divw_iff.mpr ha, hc⟩
  | divuw =>
    obtain ⟨a, ha, hc⟩ := not_correct_divuw_divisor (mt extended_divuw_iff.mpr hb)
    exact ⟨a, extended_divuw_iff.mpr ha, hc⟩
  | remw =>
    simp only [WordDivOp.divisorFits, Bool.or_eq_true, beq_iff_eq, not_or] at hb
    obtain ⟨⟨hx, hz⟩, hp⟩ := hb
    obtain ⟨a, ha, hc⟩ := not_correct_remw_divisor (mt extended_remw_iff.mpr hx)
      (mt (low_toInt_eq_zero_iff b).mp hz) (fun h => hp (BitVec.toInt_inj.mp h))
    exact ⟨a, extended_remw_iff.mpr ha, hc⟩
  | remuw =>
    simp only [WordDivOp.divisorFits, Bool.or_eq_true, beq_iff_eq, not_or] at hb
    obtain ⟨a, ha, hc⟩ := not_correct_remuw_divisor (mt extended_remuw_iff.mpr hb.1)
      (mt (low_eq_zero_iff b).mpr hb.2)
    exact ⟨a, extended_remuw_iff.mpr ha, hc⟩

theorem divisorFits_of_extended (h : WordDivOp.extended op b = true) :
    WordDivOp.divisorFits op b = true := by
  cases op with
  | divw => exact h
  | divuw => exact h
  | remw => rw [WordDivOp.divisorFits, h]; rfl
  | remuw => rw [WordDivOp.divisorFits, h]; rfl

end Fitting

/-- The word divisions are right wherever the operands fit. That leaves out no more than the
missing truncation does: a dividend that is not extended is wrong for some extended divisor, and a
divisor that does not fit is wrong for some extended dividend. -/
theorem word_division_fits (op : WordDivOp) (a b : BitVec 64) :
    (WordDivOp.fits op a b = true → Correct op a b) ∧
    ((∀ d, WordDivOp.extended op d = true → Correct op a d) ↔ WordDivOp.extended op a = true) ∧
    ((∀ c, WordDivOp.extended op c = true → Correct op c b) ↔
      WordDivOp.divisorFits op b = true) := by
  refine ⟨?_, ?_, ?_⟩
  · intro h
    rw [WordDivOp.fits, Bool.or_eq_true, Bool.and_eq_true] at h
    rcases h with h | ⟨ha, hb⟩
    · exact correct_of_zeroFits h
    · exact correct_of_divisorFits ha hb
  · constructor
    · intro h
      by_contra ha
      obtain ⟨d, hd, hc⟩ := exists_wrong_divisor ha
      exact hc (h d hd)
    · intro ha d hd
      exact correct_of_divisorFits ha (divisorFits_of_extended hd)
  · constructor
    · intro h
      by_contra hb
      obtain ⟨c, hc, hw⟩ := exists_wrong_dividend hb
      exact hw (h c hc)
    · intro hb c hc
      exact correct_of_divisorFits hc hb

/-- -7 by 2, as words. -/
theorem word_division_fits_minus_seven :
    WordDivOp.fits .divw (-7) 2 = true ∧ Correct .divw (-7) 2 :=
  ⟨by decide, (word_division_fits .divw (-7) 2).1 (by decide)⟩

/-- The word `0x80000000`, sign-extended as `lui` leaves it: DIVUW by 2 divides the whole
register. -/
theorem divuw_upper_half :
    Executes .divuw 0xffffffff80000000 2 default (issueThenWait .divuw 0xffffffff80000000 2) 1
      (1 + Div.latency (WordDivOp.divuw.request 0xffffffff80000000 2)) ∧
    rdData (machine.run (reset default) (issueThenWait .divuw 0xffffffff80000000 2)
        (1 + Div.latency (WordDivOp.divuw.request 0xffffffff80000000 2)))
      (issueThenWait .divuw 0xffffffff80000000 2
        (1 + Div.latency (WordDivOp.divuw.request 0xffffffff80000000 2))) = 0xffffffffc0000000 ∧
    WordDivOp.result .divuw 0xffffffff80000000 2 = 0x40000000 := by
  have he := executes_issueThenWait .divuw 0xffffffff80000000 2
  exact ⟨he, he.rdData_eq.trans (by decide), by decide⟩

end Rv64imCore.Exu
