import Rv64imCore.Clocked

/-! What a synchronous machine emits over a run, and the rule that balances two such traces. -/

namespace Clocked
set_option autoImplicit true

/-- What the first `n` cycles emit, in order. -/
def Machine.trace (M : Machine σ ι) (out : σ → ι → List β) (s : σ) (i : Nat → ι) : Nat → List β
  | 0 => []
  | n + 1 => M.trace out s i n ++ out (M.run s i n) (i n)

section Trace
variable {M : Machine σ ι} {out : σ → ι → List β} {s : σ} {i : Nat → ι}

theorem Machine.trace_succ (n : Nat) :
    M.trace out s i (n + 1) = M.trace out s i n ++ out (M.run s i n) (i n) := rfl

theorem Machine.trace_mono (h : n ≤ m) : M.trace out s i n <+: M.trace out s i m := by
  induction h with
  | refl => exact List.prefix_rfl
  | step _ ih => exact ih.trans (List.prefix_append _ _)

theorem Machine.mem_trace : x ∈ M.trace out s i n ↔ ∃ k, k < n ∧ x ∈ out (M.run s i k) (i k) := by
  induction n with
  | zero => simp [Machine.trace]
  | succ n ih =>
    rw [Machine.trace_succ, List.mem_append, ih]
    constructor
    · rintro (⟨k, hk, hx⟩ | hx)
      · exact ⟨k, by omega, hx⟩
      · exact ⟨n, by omega, hx⟩
    · rintro ⟨k, hk, hx⟩
      rcases Nat.lt_succ_iff_lt_or_eq.mp hk with hk | rfl
      · exact .inl ⟨k, hk, hx⟩
      · exact .inr hx

theorem Machine.trace_length {out' : σ → ι → List γ}
    (h : ∀ s a, (out s a).length = (out' s a).length) (n : Nat) :
    (M.trace out s i n).length = (M.trace out' s i n).length := by
  induction n with
  | zero => rfl
  | succ n ih => rw [trace_succ, trace_succ, List.length_append, List.length_append, ih, h]

end Trace

/-- When every cycle pays what it makes out of what was owed and what falls due, all that fell due
has been made, in order, but for what is still owed. -/
theorem Machine.ledger (M : Machine σ ι) {due made : σ → ι → List β} {owed : σ → List β}
    {P : σ → Prop} {C : σ → ι → Prop} (h₀ : P s) (ho : owed s = [])
    (hs : ∀ s a, C s a → P s → P (M.next s a))
    (hp : ∀ s a, C s a → P s → owed s ++ due s a = made s a ++ owed (M.next s a))
    (hC : ∀ k, k < n → C (M.run s i k) (i k)) :
    M.trace due s i n = M.trace made s i n ++ owed (M.run s i n) := by
  induction n with
  | zero => simp [Machine.trace, ho]
  | succ n ih =>
    have hk : ∀ k, k < n → C (M.run s i k) (i k) := fun k hk => hC k (Nat.lt_succ_of_lt hk)
    have hn := M.run_induction h₀ hs hk
    rw [trace_succ, trace_succ, ih hk, List.append_assoc, hp _ _ (hC n (Nat.lt_succ_self n)) hn,
      ← List.append_assoc, run_succ]

section Seen
variable [DecidableEq κ]

/-- The events of a stream that key `k` sees. -/
def seen (k : κ) (events : List (κ × ε)) : List ε :=
  (events.filter fun e => e.1 == k).map Prod.snd

theorem seen_append (k : κ) (events events' : List (κ × ε)) :
    seen k (events ++ events') = seen k events ++ seen k events' := by
  simp [seen]

theorem seen_singleton (k k' : κ) (e : ε) : seen k [(k', e)] = if k' = k then [e] else [] := by
  by_cases h : k' = k <;> simp [seen, h]

end Seen

end Clocked
