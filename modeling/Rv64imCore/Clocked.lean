import Mathlib.Logic.Function.Basic

namespace Clocked
set_option autoImplicit true

/-- A synchronous machine: what one clock edge makes of the registers and the inputs. -/
structure Machine (σ ι : Type) where
  next : σ → ι → σ

/-- The registers after `n` clock edges under a stream of inputs. -/
def Machine.run (M : Machine σ ι) (s : σ) (i : Nat → ι) : Nat → σ
  | 0 => s
  | n + 1 => M.next (M.run s i n) (i n)

@[simp] theorem Machine.run_zero (M : Machine σ ι) (s : σ) (i : Nat → ι) :
    M.run s i 0 = s := rfl

theorem Machine.run_succ (M : Machine σ ι) (s : σ) (i : Nat → ι) (n : Nat) :
    M.run s i (n + 1) = M.next (M.run s i n) (i n) := rfl

/-- An invariant kept by every step that meets `C` holds along a run whose steps all meet `C`. -/
theorem Machine.run_induction (M : Machine σ ι) {P : σ → Prop} {C : σ → ι → Prop}
    (h₀ : P s) (hs : ∀ s a, C s a → P s → P (M.next s a))
    (hC : ∀ k, k < n → C (M.run s i k) (i k)) : P (M.run s i n) := by
  induction n with
  | zero => exact h₀
  | succ n ih =>
    exact hs _ _ (hC n (Nat.lt_succ_self n)) (ih fun k hk => hC k (Nat.lt_succ_of_lt hk))

theorem Machine.run_invariant (M : Machine σ ι) {P : σ → Prop}
    (h₀ : P s) (hs : ∀ s a, P s → P (M.next s a)) (n : Nat) : P (M.run s i n) :=
  M.run_induction (C := fun _ _ => True) h₀ (fun s a _ => hs s a) (fun _ _ => trivial)

/-- The history that `upd` collects over the first `n` edges of a run; it never feeds back. -/
def Machine.history (M : Machine σ ι) (g₀ : γ) (upd : γ → σ → ι → γ)
    (s : σ) (i : Nat → ι) : Nat → γ
  | 0 => g₀
  | n + 1 => upd (M.history g₀ upd s i n) (M.run s i n) (i n)

/-- The invariant rule for a machine together with its history. -/
theorem Machine.history_induction (M : Machine σ ι) (g₀ : γ) (upd : γ → σ → ι → γ)
    {P : σ → γ → Prop} {C : σ → ι → Prop} (h₀ : P s g₀)
    (hs : ∀ s g a, C s a → P s g → P (M.next s a) (upd g s a))
    (hC : ∀ k, k < n → C (M.run s i k) (i k)) :
    P (M.run s i n) (M.history g₀ upd s i n) := by
  induction n with
  | zero => exact h₀
  | succ n ih =>
    exact hs _ _ _ (hC n (Nat.lt_succ_self n)) (ih fun k hk => hC k (Nat.lt_succ_of_lt hk))

/-- The same where the steps depend on the history. -/
theorem Machine.history_invariant (M : Machine σ ι) (g₀ : γ) (upd : γ → σ → ι → γ)
    {P : σ → γ → Prop} {C : σ → γ → ι → Prop} (h₀ : P s g₀)
    (hs : ∀ s g a, C s g a → P s g → P (M.next s a) (upd g s a))
    (hC : ∀ k, k < n → C (M.run s i k) (M.history g₀ upd s i k) (i k)) :
    P (M.run s i n) (M.history g₀ upd s i n) := by
  induction n with
  | zero => exact h₀
  | succ n ih =>
    exact hs _ _ _ (hC n (Nat.lt_succ_self n)) (ih fun k hk => hC k (Nat.lt_succ_of_lt hk))

/-- A relation between two machines kept by every step that meets `C` holds along a run whose steps
all meet `C`. -/
theorem Machine.run_simulation (M : Machine σ ι) (A : Machine τ ι) {R : σ → τ → Prop}
    {C : σ → ι → Prop} (h₀ : R s t)
    (hs : ∀ s t a, C s a → R s t → R (M.next s a) (A.next t a))
    (hC : ∀ k, k < n → C (M.run s i k) (i k)) : R (M.run s i n) (A.run t i n) := by
  induction n with
  | zero => exact h₀
  | succ n ih =>
    exact hs _ _ _ (hC n (Nat.lt_succ_self n)) (ih fun k hk => hC k (Nat.lt_succ_of_lt hk))

/-- A run that is back in a state after one period of its inputs goes round for ever. -/
theorem Machine.run_periodic (M : Machine σ ι) {i : Nat → ι} (hi : ∀ n, i (n + p) = i n)
    (h : M.run s i (N + p) = M.run s i N) (hn : N ≤ n) : M.run s i (n + p) = M.run s i n := by
  induction hn with
  | refl => exact h
  | @step n hn ih =>
    rw [Nat.succ_add, M.run_succ, M.run_succ, ih, hi]

/-- Something happens again and again. -/
def Often (P : Nat → Prop) : Prop := ∀ n, ∃ m, n ≤ m ∧ P m

theorem often_of_periodic {P : Nat → Prop} (hp : 0 < p) (hs : ∀ n, N ≤ n → P n → P (n + p))
    (hm : N ≤ m) (h : P m) : Often P := by
  intro n
  refine ⟨m + n * p, Nat.le_trans (Nat.le_mul_of_pos_right n hp) (Nat.le_add_left _ m), ?_⟩
  induction n with
  | zero => simpa using h
  | succ n ih =>
    rw [Nat.succ_mul, ← Nat.add_assoc]
    exact hs _ (Nat.le_trans hm (Nat.le_add_right m _)) ih

/-- A wait ends when some rank never grows while it lasts and falls each time the event that its
value waits for happens. -/
theorem ends_of_often {G : Nat → Nat → Prop} (hG : ∀ r, Often (G r)) {W : Nat → Prop}
    (rank : Nat → Nat) (hle : ∀ n, W n → rank (n + 1) ≤ rank n)
    (hlt : ∀ n, W n → G (rank n) n → rank (n + 1) < rank n) (n : Nat) : ∃ m, n ≤ m ∧ ¬W m := by
  induction hr : rank n using Nat.strongRecOn generalizing n with
  | _ r ih =>
    obtain ⟨g, hng, hg⟩ := hG r n
    -- walk to the event, where the rank falls, unless it falls or the wait ends before
    have walk : ∀ d k, k + d = g → n ≤ k → rank k ≤ r → ∃ m, n ≤ m ∧ ¬W m := by
      intro d
      induction d with
      | zero =>
        intro k hk hnk hrk
        by_cases hw : W k
        · have hf : rank (k + 1) < r := by
            rcases Nat.lt_or_eq_of_le hrk with hrk | hrk
            · exact Nat.lt_of_le_of_lt (hle k hw) hrk
            · rw [← hk, ← hrk] at hg
              exact hrk ▸ hlt k hw hg
          obtain ⟨m, hm, hWm⟩ := ih _ hf (k + 1) rfl
          exact ⟨m, by omega, hWm⟩
        · exact ⟨k, hnk, hw⟩
      | succ d ihd =>
        intro k hk hnk hrk
        by_cases hw : W k
        · exact ihd (k + 1) (by omega) (by omega) (Nat.le_trans (hle k hw) hrk)
        · exact ⟨k, hnk, hw⟩
    exact walk (g - n) n (by omega) (Nat.le_refl n) (Nat.le_of_eq hr)

theorem Often.ends (hG : Often G) {W : Nat → Prop} (rank : Nat → Nat)
    (hle : ∀ n, W n → rank (n + 1) ≤ rank n)
    (hlt : ∀ n, W n → G n → rank (n + 1) < rank n) (n : Nat) : ∃ m, n ≤ m ∧ ¬W m :=
  ends_of_often (fun _ => hG) rank hle hlt n

theorem kept {P : Nat → Prop} (hnm : n ≤ m) (h : P n)
    (hs : ∀ k, n ≤ k → k < m → P k → P (k + 1)) : P m := by
  induction hnm with
  | refl => exact h
  | @step m hnm ih =>
    exact hs m hnm (Nat.lt_succ_self m) (ih fun k hk hkm => hs k hk (Nat.lt_succ_of_lt hkm))

theorem exists_first {P : Nat → Prop} (h : ∃ m, n ≤ m ∧ P m) :
    ∃ m, n ≤ m ∧ P m ∧ ∀ k, n ≤ k → k < m → ¬P k := by
  obtain ⟨m, hm, hp⟩ := h
  induction hd : m - n using Nat.strongRecOn generalizing m with
  | _ d ih =>
    by_cases he : ∃ k, n ≤ k ∧ k < m ∧ P k
    · obtain ⟨k, hk, hkm, hpk⟩ := he
      exact ih (k - n) (by omega) k hk hpk rfl
    · exact ⟨m, hm, hp, fun k hk hkm hpk => he ⟨k, hk, hkm, hpk⟩⟩

end Clocked
