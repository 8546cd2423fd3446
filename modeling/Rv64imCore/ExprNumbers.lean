import Mathlib.Data.List.TakeWhile
import Rv64imCore.ExprMeaning

/-! The numbers that `strtoul` reads. -/

namespace Rv64imCore.Sdb
set_option autoImplicit true

theorem isDigitOf_ten {c : Char} (h : c.isDigit = true) : isDigitOf 10 c = true := by
  have hl : digitVal c < 10 := by
    rw [digitVal, if_pos h]
    simp only [Char.isDigit, Bool.and_eq_true, decide_eq_true_eq, UInt32.le_iff_toNat_le,
      ge_iff_le] at h
    have h9 : '9'.val.toNat = 57 := rfl
    have hc : c.toNat = c.val.toNat := rfl
    omega
  rw [isDigitOf, decide_eq_true hl, Bool.and_true, Char.isAlphanum, h, Bool.or_true]

theorem number_all {base : Nat} {s : Text} (h : ∀ c ∈ s, isDigitOf base c = true) :
    number base s = ofDigits base s := by
  rw [number, List.takeWhile_eq_self_iff.mpr h]

theorem strto_ten (max : Nat) {s : Text} (h : first s ≠ '0') :
    strto max s = Nat.min max (number 10 s) := by
  cases s with
  | nil => rfl
  | cons c s =>
    rw [strto]
    · rintro x d ds ⟨⟩
      exact h rfl
    · rintro ds ⟨⟩
      exact h rfl

theorem strto_eight (max : Nat) {s : Text} (h : first s ≠ 'x' ∧ first s ≠ 'X') :
    strto max ('0' :: s) = Nat.min max (number 8 ('0' :: s)) := by
  match s with
  | [] => rfl
  | [c] => rfl
  | x :: c :: s =>
    have hx : ¬((x = 'x' ∨ x = 'X') ∧ isDigitOf 16 c = true) := fun hx => hx.1.elim h.1 h.2
    rw [strto, if_neg hx]

theorem first_toDigits (h : 0 < n) : first (Nat.toDigits 10 n) ≠ '0' := by
  induction n using Nat.base_induction 10 (by decide) with
  | single m hm =>
    have hd : ∀ m < 10, 0 < m → Nat.digitChar m ≠ '0' := by decide
    rw [Nat.toDigits_of_lt_base hm]
    exact hd m hm h
  | digit m k hk hm ih =>
    rw [← Nat.toDigits_append_toDigits (by decide) hm hk, first_append _ Nat.toDigits_ne_nil]
    exact ih hm

theorem first_isDigit_of_all {s : Text} (hne : s ≠ []) (h : ∀ c ∈ s, c.isDigit = true) :
    (first s).isDigit = true := by
  obtain ⟨c, cs, rfl⟩ := List.exists_cons_of_ne_nil hne
  exact h c List.mem_cons_self

theorem ofDigits_ten {s : Text} (h : ∀ c ∈ s, c.isDigit = true) :
    ofDigits 10 s = Nat.ofDigitChars 10 s 0 := by
  have hf (n : Nat) : s.foldl (fun n c => 10 * n + digitVal c) n = Nat.ofDigitChars 10 s n := by
    induction s generalizing n with
    | nil => rfl
    | cons c s ih =>
      rw [List.foldl_cons, ih fun d hd => h d (List.mem_cons_of_mem c hd), digitVal,
        if_pos (h c List.mem_cons_self), Nat.ofDigitChars_cons]
      rfl
  exact hf 0

theorem sprintU_isDigit (v : BitVec 32) : ∀ c ∈ sprintU v, c.isDigit = true := fun _ =>
  Nat.isDigit_of_mem_toDigits (by decide) (by decide)

theorem strtoul_sprintU (v : BitVec 32) : strtoul (sprintU v) = v.toNat := by
  rcases Nat.eq_zero_or_pos v.toNat with h | h
  · rw [sprintU, h]
    rfl
  · have hv := v.isLt
    have h0 : first (sprintU v) ≠ '0' := first_toDigits h
    rw [strtoul, strto_ten _ h0, number_all fun c hc =>
      isDigitOf_ten (sprintU_isDigit v c hc), ofDigits_ten (sprintU_isDigit v), sprintU,
      Nat.ofDigitChars_toDigits (by decide) (by decide)]
    exact Nat.min_eq_right (by omega)

theorem le_foldl (ds : Text) (n : Nat) : n ≤ ds.foldl (fun n c => 10 * n + digitVal c) n := by
  induction ds generalizing n with
  | nil => exact Nat.le_refl n
  | cons c ds ih =>
    have hc : n ≤ 10 * n + digitVal c := by omega
    exact Nat.le_trans hc (ih _)

theorem foldl_eight {ds : Text} (hd : ∀ c ∈ ds, c.isDigit = true) (n : Nat)
    (h : ds.foldl (fun n c => 10 * n + digitVal c) n < 8) :
    (ds.takeWhile (isDigitOf 8)).foldl (fun n c => 8 * n + digitVal c) n
      = ds.foldl (fun n c => 10 * n + digitVal c) n := by
  induction ds generalizing n with
  | nil => rfl
  | cons c ds ih =>
    rw [List.foldl_cons] at h ⊢
    have hle := le_foldl ds (10 * n + digitVal c)
    obtain rfl : n = 0 := by omega
    have hc : isDigitOf 8 c = true := by
      have ht := isDigitOf_ten (hd c List.mem_cons_self)
      rw [isDigitOf, Bool.and_eq_true] at ht ⊢
      exact ⟨ht.1, decide_eq_true (by omega)⟩
    rw [List.takeWhile_cons, hc, if_pos rfl, List.foldl_cons]
    exact ih (fun c hc => hd c (List.mem_cons_of_mem _ hc)) _ h

theorem Dec.Plain.strtoul_eq {d : Dec} (h : d.Plain) : strtoul d.digits = d.value := by
  have hsmall := h.small
  have hmin : Nat.min (2 ^ 64 - 1) d.value = d.value := Nat.min_eq_right (by omega)
  by_cases h0 : first d.digits = '0'
  · have hv : d.value < 8 := h.decimal.resolve_left (not_not.mpr h0)
    obtain ⟨c, cs, hc⟩ := List.exists_cons_of_ne_nil d.nonempty
    obtain rfl : c = '0' := by
      rw [hc] at h0
      exact h0
    have hx : first cs ≠ 'x' ∧ first cs ≠ 'X' := by
      cases cs with
      | nil => decide
      | cons e es =>
        have he := d.isDigit e (by rw [hc]; simp)
        constructor <;> rintro (rfl : e = _) <;> exact absurd he (by decide)
    have hn : number 8 d.digits = d.value := foldl_eight d.isDigit 0 hv
    rw [hc] at hn ⊢
    rw [strtoul, strto_eight _ hx, hn, hmin]
  · rw [strtoul, strto_ten _ h0, number_all fun c hc => isDigitOf_ten (d.isDigit c hc)]
    exact hmin

theorem ofDigits_lt (base : Nat) {s : Text} (h : ∀ c ∈ s, isDigitOf base c = true) :
    ofDigits base s < base ^ s.length := by
  have hf (n : Nat) : s.foldl (fun n c => base * n + digitVal c) n < (n + 1) * base ^ s.length := by
    induction s generalizing n with
    | nil => simp
    | cons c s ih =>
      have hc : digitVal c < base :=
        of_decide_eq_true (Bool.and_eq_true_iff.mp (h c List.mem_cons_self)).2
      have hs : base * n + digitVal c + 1 ≤ base * (n + 1) := by
        rw [Nat.mul_succ]
        omega
      calc s.foldl (fun n c => base * n + digitVal c) (base * n + digitVal c)
          < (base * n + digitVal c + 1) * base ^ s.length :=
            ih (fun c hc => h c (List.mem_cons_of_mem _ hc)) _
        _ ≤ base * (n + 1) * base ^ s.length := Nat.mul_le_mul_right _ hs
        _ = (n + 1) * base ^ (s.length + 1) := by
            rw [Nat.pow_succ, Nat.mul_comm base, Nat.mul_assoc, Nat.mul_comm base]
  exact (hf 0).trans_eq (Nat.one_mul _)

theorem Hex.value_lt (h : Hex) : h.value < 2 ^ 32 :=
  Nat.lt_of_lt_of_le (ofDigits_lt 16 h.isDigit) (Nat.pow_le_pow_right (by decide) h.short)

theorem Hex.strtol_eq (h : Hex) : strtol ('0' :: h.x :: h.digits) = h.value := by
  obtain ⟨c, cs, hc⟩ := List.exists_cons_of_ne_nil h.nonempty
  have hx : (h.x = 'x' ∨ h.x = 'X') ∧ isDigitOf 16 c = true :=
    ⟨h.isX, h.isDigit c (hc ▸ List.mem_cons_self)⟩
  have hlt := h.value_lt
  rw [hc, strtol, strto, if_pos hx, ← hc, number_all h.isDigit]
  exact Nat.min_eq_right (show h.value ≤ 2 ^ 63 - 1 by omega)

end Rv64imCore.Sdb
