import Rv64imCore.WordDivUnsigned

/-! The operands for which DIVW and REMW are right. -/

namespace Rv64imCore.Exu
set_option autoImplicit true

section Signed

theorem tdiv_spec (x k : Int) (hk : 0 < k) :
    ∃ q r, x.tdiv k = q ∧ x.tmod k = r ∧ x = k * q + r ∧ -k < r ∧ r < k := by
  refine ⟨_, _, rfl, rfl, (Int.mul_tdiv_add_tmod x k).symm, ?_, Int.tmod_lt_of_pos x hk⟩
  have h := Int.tmod_lt_of_pos (-x) hk
  rw [Int.neg_tmod] at h
  omega

/-- A quotient by `2^31` or by 3 that ignores the upper half `h` shows what `h` is. -/
theorem tdiv_two_pow_ne {h s : Int} (h0 : h ≠ 0) (h1 : -2 ^ 31 < h) (h2 : h < 2 ^ 31) :
    (h * 2 ^ 32 + s).tdiv (2 ^ 31) % 2 ^ 32 ≠ s.tdiv (2 ^ 31) % 2 ^ 32 := by
  obtain ⟨q, r, hq, -, hx, hr⟩ := tdiv_spec (h * 2 ^ 32 + s) (2 ^ 31) (by decide)
  obtain ⟨q', r', hq', -, hx', hr'⟩ := tdiv_spec s (2 ^ 31) (by decide)
  rw [hq, hq']
  omega

theorem tdiv_three_ne {h s : Int} (h0 : h % 3 ≠ 0) :
    (h * 2 ^ 32 + s).tdiv 3 % 2 ^ 32 ≠ s.tdiv 3 % 2 ^ 32 := by
  obtain ⟨q, r, hq, -, hx, hr⟩ := tdiv_spec (h * 2 ^ 32 + s) 3 (by decide)
  obtain ⟨q', r', hq', -, hx', hr'⟩ := tdiv_spec s 3 (by decide)
  rw [hq, hq']
  omega

/-- An odd divisor that leaves the same remainders divides the upper half. -/
theorem dvd_of_tmod_eq {k h s : Int} (hk : 0 < k) (hk' : k ≤ 2 ^ 31) (hg : Int.gcd k (2 ^ 32) = 1)
    (he : (h * 2 ^ 32 + s).tmod k % 2 ^ 32 = s.tmod k % 2 ^ 32) : k ∣ h := by
  obtain ⟨q, r, -, hr, hx, h1, h2⟩ := tdiv_spec (h * 2 ^ 32 + s) k hk
  obtain ⟨q', r', -, hr', hx', h1', h2'⟩ := tdiv_spec s k hk
  rw [hr, hr'] at he
  have hrr : r = r' := by
    clear hx hx' hg
    omega
  have hd : k ∣ 2 ^ 32 * h := ⟨q - q', by rw [Int.mul_sub]; clear he; omega⟩
  exact Int.dvd_of_dvd_mul_right_of_gcd_one hd hg

theorem eq_zero_of_dvd {h : Int} (hd : 2147483647 ∣ h) (h1 : -2 ^ 31 ≤ h) (h2 : h ≤ 2 ^ 31)
    (hm : h % 3 = 0) : h = 0 := by
  obtain ⟨u, rfl⟩ := hd
  have hu : u = -1 ∨ u = 0 ∨ u = 1 := by
    clear hm
    omega
  rcases hu with rfl | rfl | rfl
  · simp at hm
  · rfl
  · simp at hm

variable {a b : BitVec 64}

theorem extended_divw_iff :
    WordDivOp.divw.extended a = true ↔ a.toInt = (a.setWidth 32).toInt := by
  change (a == (a.setWidth 32).signExtend 64) = true ↔ _
  rw [beq_iff_eq, ← BitVec.toInt_inj, BitVec.toInt_signExtend_of_le (by decide)]

theorem extended_remw_iff :
    WordDivOp.remw.extended a = true ↔ a.toInt = (a.setWidth 32).toInt := extended_divw_iff

theorem exists_signed_halves (x : BitVec 64) : ∃ h s : Int, x.toInt = h * 2 ^ 32 + s ∧
    -2 ^ 31 ≤ h ∧ h ≤ 2 ^ 31 ∧ -2 ^ 31 ≤ s ∧ s < 2 ^ 31 ∧ (x.setWidth 32).toInt = s := by
  obtain ⟨h, hx⟩ := low_toInt x
  have h1 := BitVec.le_toInt x
  have h2 := BitVec.toInt_lt (x := x)
  have h3 := BitVec.le_toInt (x.setWidth 32)
  have h4 := BitVec.toInt_lt (x := x.setWidth 32)
  exact ⟨h, (x.setWidth 32).toInt, hx, by omega, by omega, by omega, by omega, rfl⟩

theorem correct_divw_zero : Correct .divw a 0#64 := by
  have hq : WordDivOp.divw.wide a 0#64 = BitVec.allOnes 64 := rfl
  have hw : WordDivOp.divw.word (a.setWidth 32) 0#32 = BitVec.allOnes 32 := rfl
  rw [correct_iff, hq]
  exact (by decide : (BitVec.allOnes 64).setWidth 32 = BitVec.allOnes 32).trans hw.symm

theorem correct_divw (ha : a.toInt = (a.setWidth 32).toInt) (hb : b.toInt = (b.setWidth 32).toInt) :
    Correct .divw a b := by
  by_cases hz : b = 0#64
  · rw [hz]
    exact correct_divw_zero
  · have ht : (b.setWidth 32).toInt ≠ 0 := by
      rw [← hb]
      exact fun h => hz (BitVec.toInt_inj.mp h)
    rw [correct_divw_iff a b hz, if_neg ht, ha, hb]

theorem not_correct_divw_dividend (ha : a.toInt ≠ (a.setWidth 32).toInt) :
    ∃ b : BitVec 64, b.toInt = (b.setWidth 32).toInt ∧ ¬Correct .divw a b := by
  obtain ⟨h, s, hx, h1, h2, h3, h4, hs⟩ := exists_signed_halves a
  by_cases hm : h % 3 = 0
  · refine ⟨0xffffffff80000000#64, by decide, ?_⟩
    rw [correct_divw_iff a _ (by decide), hs, hx]
    change ¬(h * 2 ^ 32 + s).tdiv (-(2 ^ 31)) % 2 ^ 32 = s.tdiv (-(2 ^ 31)) % 2 ^ 32
    rw [Int.tdiv_neg, Int.tdiv_neg]
    have hne := tdiv_two_pow_ne (h := h) (s := s) (by rintro rfl; omega) (by omega) (by omega)
    omega
  · refine ⟨3#64, by decide, ?_⟩
    rw [correct_divw_iff a _ (by decide), hs, hx]
    exact tdiv_three_ne hm

theorem tdiv_eq_zero {x y : Int} (h : x.natAbs < y.natAbs) : x.tdiv y = 0 := by
  rw [← Int.natAbs_eq_zero, Int.natAbs_tdiv]
  exact Nat.div_eq_of_lt h

theorem exists_low_dividend (b : BitVec 64) : ∃ a : BitVec 64,
    a.toInt = (b.setWidth 32).toInt ∧ (a.setWidth 32).toInt = (b.setWidth 32).toInt :=
  ⟨(b.setWidth 32).signExtend 64, BitVec.toInt_signExtend_of_le (by decide), by
    rw [setWidth_signExtend]⟩

theorem not_correct_divw_divisor (hb : b.toInt ≠ (b.setWidth 32).toInt) :
    ∃ a : BitVec 64, a.toInt = (a.setWidth 32).toInt ∧ ¬Correct .divw a b := by
  have hz : b ≠ 0#64 := by
    rintro rfl
    exact hb rfl
  obtain ⟨g, t, hy, h1, h2, h3, h4, ht⟩ := exists_signed_halves b
  by_cases h0 : t = 0
  · refine ⟨0#64, by decide, ?_⟩
    rw [correct_divw_iff _ b hz, if_pos (ht.trans h0)]
    change ¬(0 : Int).tdiv b.toInt % 2 ^ 32 = -1 % 2 ^ 32
    rw [Int.zero_tdiv]
    decide
  · obtain ⟨a, ha, hl⟩ := exists_low_dividend b
    refine ⟨a, ha.trans hl.symm, ?_⟩
    rw [correct_divw_iff _ b hz, if_neg (by rw [ht]; exact h0), hl, ha, ht, Int.tdiv_self h0]
    rw [ht] at hb
    by_cases hlt : t.natAbs < b.toInt.natAbs
    · rw [tdiv_eq_zero hlt]
      decide
    · -- the only other divisor as short as its low half
      obtain ⟨rfl, hy'⟩ : t = -2 ^ 31 ∧ b.toInt = 2 ^ 31 := by omega
      rw [hy']
      decide

theorem correct_remw_low_zero (hb : (b.setWidth 32).toInt = 0) : Correct .remw a b := by
  by_cases hz : b = 0#64
  · have hq : WordDivOp.remw.wide a 0#64 = a := rfl
    rw [hz, correct_iff, hq]
    rfl
  · obtain ⟨h, s, hx, -, -, -, -, hs⟩ := exists_signed_halves a
    obtain ⟨g, t, hy, -, -, -, -, ht⟩ := exists_signed_halves b
    rw [correct_remw_iff a b hz, if_pos hb, hs, Int.tmod_def, hy, ← ht, hb, hx]
    have he : h * 2 ^ 32 + s - (g * 2 ^ 32 + 0) * (h * 2 ^ 32 + s).tdiv (g * 2 ^ 32 + 0)
        = s + 2 ^ 32 * (h - g * (h * 2 ^ 32 + s).tdiv (g * 2 ^ 32 + 0)) := by ring
    rw [he, Int.add_mul_emod_self_left]

theorem correct_remw (ha : a.toInt = (a.setWidth 32).toInt) (hb : b.toInt = (b.setWidth 32).toInt) :
    Correct .remw a b := by
  by_cases ht : (b.setWidth 32).toInt = 0
  · exact correct_remw_low_zero ht
  · have hz : b ≠ 0#64 := by
      rintro rfl
      exact ht rfl
    rw [correct_remw_iff a b hz, if_neg ht, ha, hb]

/-- The divisors `2^31` and `-2^31` leave the same remainders. -/
theorem correct_remw_two_pow (ha : a.toInt = (a.setWidth 32).toInt) :
    Correct .remw a 0x80000000#64 := by
  rw [correct_remw_iff a _ (by decide), ha]
  change (a.setWidth 32).toInt.tmod (2 ^ 31) % 2 ^ 32
    = (a.setWidth 32).toInt.tmod (-(2 ^ 31)) % 2 ^ 32
  rw [Int.tmod_neg]

theorem not_correct_remw_dividend (ha : a.toInt ≠ (a.setWidth 32).toInt) :
    ∃ b : BitVec 64, b.toInt = (b.setWidth 32).toInt ∧ ¬Correct .remw a b := by
  obtain ⟨h, s, hx, h1, h2, h3, h4, hs⟩ := exists_signed_halves a
  by_cases hm : h % 3 = 0
  · refine ⟨0x7fffffff#64, by decide, ?_⟩
    rw [correct_remw_iff a _ (by decide), hs, hx]
    intro he
    have hd : 2147483647 ∣ h := dvd_of_tmod_eq (by decide) (by decide) (by decide) he
    have h0 := eq_zero_of_dvd hd h1 h2 hm
    apply ha
    rw [hx, hs, h0, Int.zero_mul, Int.zero_add]
  · refine ⟨3#64, by decide, ?_⟩
    rw [correct_remw_iff a _ (by decide), hs, hx]
    intro he
    exact hm (Int.emod_eq_zero_of_dvd (dvd_of_tmod_eq (by decide) (by decide) (by decide) he))

theorem not_correct_remw_divisor (hb : b.toInt ≠ (b.setWidth 32).toInt)
    (h0 : (b.setWidth 32).toInt ≠ 0) (hp : b.toInt ≠ 2 ^ 31) :
    ∃ a : BitVec 64, a.toInt = (a.setWidth 32).toInt ∧ ¬Correct .remw a b := by
  have hz : b ≠ 0#64 := by
    rintro rfl
    exact hb rfl
  obtain ⟨g, t, hy, h1, h2, h3, h4, ht⟩ := exists_signed_halves b
  obtain ⟨a, ha, hl⟩ := exists_low_dividend b
  refine ⟨a, ha.trans hl.symm, ?_⟩
  rw [correct_remw_iff _ b hz, if_neg h0, hl, ha, ht, Int.tmod_self, Int.tmod_def]
  rw [ht] at hb h0
  have hlt : t.natAbs < b.toInt.natAbs := by omega
  rw [tdiv_eq_zero hlt]
  omega

end Signed

end Rv64imCore.Exu
