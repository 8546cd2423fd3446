import Rv64imCore.Divider

/-! The priority decode of the divider, which brings the leading bits of the operands to bit 63. -/

namespace Rv64imCore.Div
set_option autoImplicit true

/-- The index of the highest bit set, 0 for the word 0. -/
def lead (x : BitVec 64) : Nat := x.toNat.log2

theorem lt_two_pow_lead (x : BitVec 64) : x.toNat < 2 ^ (lead x + 1) := Nat.lt_log2_self

theorem lead_lt (x : BitVec 64) : lead x < 64 := by
  by_cases h : x.toNat = 0
  · rw [lead, h]; decide
  · exact (Nat.log2_lt h).mpr x.isLt

theorem two_pow_lead_le {x : BitVec 64} (h : x ≠ 0#64) : 2 ^ lead x ≤ x.toNat := by
  apply Nat.log2_self_le
  intro h'
  exact h (BitVec.eq_of_toNat_eq h')

theorem lead_le_iff (x : BitVec 64) (i : Nat) : lead x ≤ i ↔ x.toNat < 2 ^ (i + 1) := by
  by_cases h : x.toNat = 0
  · have h0 : lead x = 0 := by rw [lead, h]; decide
    rw [h0, h]
    exact ⟨fun _ => Nat.two_pow_pos _, fun _ => Nat.zero_le _⟩
  · rw [← Nat.lt_succ_iff, Nat.succ_eq_add_one]
    exact Nat.log2_lt h

theorem vldDec_getLsbD (x : BitVec 64) (i : Nat) :
    (vldDec x).getLsbD i = (decide (i < 64) && decide (lead x ≤ i)) := by
  have h : (x >>> (i + 1) == 0) = decide (lead x ≤ i) := by
    rw [Bool.eq_iff_iff, beq_iff_eq, decide_eq_true_iff, lead_le_iff]
    constructor
    · intro hz
      have := congrArg BitVec.toNat hz
      rw [BitVec.toNat_ushiftRight, Nat.shiftRight_eq_div_pow] at this
      exact (Nat.div_eq_zero_iff_lt (Nat.two_pow_pos _)).mp this
    · intro hlt
      apply BitVec.eq_of_toNat_eq
      rw [BitVec.toNat_ushiftRight, Nat.shiftRight_eq_div_pow]
      exact Nat.div_eq_of_lt hlt
  rw [vldDec, Bits.getLsbD_ofFn, h]

theorem testBit_lead {x : BitVec 64} (h : x ≠ 0#64) : x.getLsbD (lead x) = true := by
  have hn : x.toNat ≠ 0 := fun h' => h (BitVec.eq_of_toNat_eq h')
  exact Nat.testBit_log2 hn

theorem vldOnehot_getLsbD {x : BitVec 64} (hx : x ≠ 0#64) (i : Nat) :
    (vldOnehot x).getLsbD i = decide (i = lead x) := by
  rw [vldOnehot, BitVec.getLsbD_and, vldDec_getLsbD]
  by_cases hi : i = lead x
  · rw [hi, testBit_lead hx]
    simp [lead_lt x]
  · by_cases hle : lead x ≤ i
    · have hz : x.getLsbD i = false := by
        apply Nat.testBit_lt_two_pow
        have hlt := lt_two_pow_lead x
        exact Nat.lt_of_lt_of_le hlt (Nat.pow_le_pow_right (by decide) (by omega))
      simp [hz, hi]
    · simp [hle, hi]

theorem vldOnehot_zero : vldOnehot 0#64 = 0#64 := BitVec.zero_and

theorem foldl_only (m : Nat) (v : BitVec 6) (p : Nat → Bool) (hp : ∀ i, p i = true ↔ i = m)
    (n : Nat) :
    (List.range n).foldl (fun c i => if p i then BitVec.ofNat 6 i else c) v
      = if m < n then BitVec.ofNat 6 m else v := by
  induction n with
  | zero => rfl
  | succ n ih =>
    rw [List.range_succ, List.foldl_append, ih]
    by_cases h : n = m
    · subst h
      simp [(hp n).mpr rfl]
    · have hn : ¬p n = true := fun h' => h ((hp n).mp h')
      have hlt : m < n + 1 ↔ m < n := by omega
      simp [hn, hlt]

theorem vldCnt_eq (x : BitVec 64) : vldCnt x = BitVec.ofNat 6 (lead x) := by
  by_cases hx : x = 0#64
  · have h0 : vldCnt 0#64 = 0#6 := by
      rw [vldCnt, vldOnehot_zero]
      decide
    rw [hx, h0]
    decide
  · rw [vldCnt, foldl_only (lead x) 0 _ ?_ 64, if_pos (lead_lt x)]
    intro i
    rw [vldOnehot_getLsbD hx, decide_eq_true_iff]

theorem vldDec_and_eq_iff (x y : BitVec 64) :
    vldDec x &&& vldDec y = vldDec y ↔ lead x ≤ lead y := by
  constructor
  · intro h
    have hb : ((vldDec x).getLsbD (lead y) && (vldDec y).getLsbD (lead y))
        = (vldDec y).getLsbD (lead y) := by rw [← BitVec.getLsbD_and, h]
    rw [vldDec_getLsbD, vldDec_getLsbD] at hb
    simpa [lead_lt y] using hb
  · intro h
    apply BitVec.eq_of_getLsbD_eq
    intro i hi
    rw [BitVec.getLsbD_and, vldDec_getLsbD, vldDec_getLsbD]
    by_cases hy : lead y ≤ i
    · have hx : lead x ≤ i := Nat.le_trans h hy
      simp [hx, hy]
    · simp [hy]

theorem vldDec_eq_iff (x y : BitVec 64) : vldDec x = vldDec y ↔ lead x = lead y := by
  constructor
  · intro h
    have hxy : vldDec x &&& vldDec y = vldDec y := by rw [h, BitVec.and_self]
    have hyx : vldDec y &&& vldDec x = vldDec x := by rw [h, BitVec.and_self]
    exact Nat.le_antisymm ((vldDec_and_eq_iff x y).mp hxy) ((vldDec_and_eq_iff y x).mp hyx)
  · intro h
    apply BitVec.eq_of_getLsbD_eq
    intro i hi
    rw [vldDec_getLsbD, vldDec_getLsbD, h]

theorem vldOnehot_eq_zero_iff (x : BitVec 64) : vldOnehot x = 0#64 ↔ x = 0#64 := by
  constructor
  · intro h
    by_contra hx
    have hb := vldOnehot_getLsbD hx (lead x)
    rw [h] at hb
    simp at hb
  · intro h
    rw [h, vldOnehot_zero]

/-- The fast path: the dividend is shorter than the divisor, or the divisor is 0. -/
theorem fastDiv_iff (i : In) :
    fastDiv i = true ↔ lead (rs1Abs i) < lead (rs2Abs i) ∨ rs2Abs i = 0#64 := by
  rw [fastDiv, Bool.or_eq_true, Bool.and_eq_true, beq_iff_eq, bne_iff_ne, beq_iff_eq, ne_eq,
    vldDec_and_eq_iff, vldDec_eq_iff, BitVec.ofNat_eq_ofNat, vldOnehot_eq_zero_iff,
    Nat.lt_iff_le_and_ne]

/-- How many cycles the divider works beyond the first. -/
def steps (j : In) : Nat := if fastDiv j then 0 else lead (rs1Abs j) - lead (rs2Abs j)

theorem lead_le_of_slow (h : fastDiv j = false) : lead (rs2Abs j) ≤ lead (rs1Abs j) := by
  by_contra hlt
  rw [(fastDiv_iff j).mpr (.inl (Nat.lt_of_not_le hlt))] at h
  cases h

theorem rs2Abs_ne_zero_of_slow (h : fastDiv j = false) : rs2Abs j ≠ 0#64 := by
  intro hz
  rw [(fastDiv_iff j).mpr (.inr hz)] at h
  cases h

/-! The operands are shifted up until their leading bits stand at bit 63. -/

theorem toNat_not_ofNat (h : k < 64) : (~~~(BitVec.ofNat 6 k)).toNat = 63 - k := by
  rw [BitVec.toNat_not, BitVec.toNat_ofNat, Nat.mod_eq_of_lt h]

theorem toNat_shiftUp (x : BitVec 64) :
    (x <<< ~~~(vldCnt x)).toNat = x.toNat * 2 ^ (63 - lead x) := by
  have hlt := lt_two_pow_lead x
  have hl := lead_lt x
  have hb : x.toNat * 2 ^ (63 - lead x) < 2 ^ 64 := by
    calc x.toNat * 2 ^ (63 - lead x) < 2 ^ (lead x + 1) * 2 ^ (63 - lead x) :=
          Nat.mul_lt_mul_of_pos_right hlt (Nat.two_pow_pos _)
      _ = 2 ^ 64 := by rw [← Nat.pow_add]; congr 1; omega
  rw [vldCnt_eq, BitVec.shiftLeft_eq', BitVec.toNat_shiftLeft, toNat_not_ofNat hl,
    Nat.shiftLeft_eq, Nat.mod_eq_of_lt hb]

end Rv64imCore.Div
