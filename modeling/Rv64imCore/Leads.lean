import Rv64imCore.Clocked

/-! Systems that must reach something whatever they are given on the way. -/

namespace Clocked
set_option autoImplicit true

/-- A step relation: what the input `i` may make of a state. -/
structure System (σ ι : Type) where
  step : σ → ι → σ → Prop

def Machine.system (M : Machine σ ι) : System σ ι where
  step s i t := t = M.next s i

/-- Whatever the inputs, some run from `s` comes to a state with `Q`. -/
inductive System.Leads (S : System σ ι) (Q : σ → Prop) : σ → Prop where
  | now {s} : Q s → System.Leads S Q s
  | next {s} (f : ι → σ) : (∀ i, S.step s i (f i)) → (∀ i, System.Leads S Q (f i)) →
      System.Leads S Q s

section Leads
variable {S : System σ ι}

theorem System.Leads.trans (h : S.Leads P s) (hq : ∀ t, P t → S.Leads Q t) : S.Leads Q s := by
  induction h with
  | now hp => exact hq _ hp
  | next f hs _ ih => exact .next f hs ih

theorem System.Leads.mono (h : S.Leads P s) (hq : ∀ t, P t → Q t) : S.Leads Q s :=
  h.trans fun t hp => .now (hq t hp)

theorem System.Leads.step (h : ∀ i, S.step s i t) (ht : S.Leads Q t) : S.Leads Q s :=
  .next (fun _ => t) h fun _ => ht

/-- A loop whose rounds leave it or come down. -/
theorem System.Leads.loop {I : Nat → σ → Prop}
    (h : ∀ n s, I n s → S.Leads (fun t => Q t ∨ ∃ m, m < n ∧ I m t) s) (h₀ : I n s) :
    S.Leads Q s := by
  induction n using Nat.strongRecOn generalizing s with
  | _ n ih =>
    refine (h n s h₀).trans ?_
    rintro t (hq | ⟨m, hm, hi⟩)
    · exact .now hq
    · exact ih m hm hi

/-- Every step of `T` is made by some steps of `S`. -/
def System.Simulates (S : System σ ι) (T : System τ ι) (R : τ → σ → Prop) : Prop :=
  ∀ t s (f : ι → τ), R t s → (∀ i, T.step t i (f i)) → S.Leads (fun s' => ∃ i, R (f i) s') s

theorem System.Simulates.leads {T : System τ ι} {R : τ → σ → Prop} (h : S.Simulates T R)
    (hl : T.Leads Q t) (hr : R t s) : S.Leads (fun s' => ∃ t', Q t' ∧ R t' s') s := by
  induction hl generalizing s with
  | now hq => exact .now ⟨_, hq, hr⟩
  | next f hs _ ih =>
    refine (h _ _ f hr hs).trans ?_
    rintro s' ⟨i, hi⟩
    exact ih i hi

end Leads

section Machine
variable {M : Machine σ ι}

theorem Machine.run_first (M : Machine σ ι) (s : σ) (i : Nat → ι) (n : Nat) :
    M.run s i (n + 1) = M.run (M.next s (i 0)) (fun k => i (k + 1)) n := by
  induction n with
  | zero => rfl
  | succ n ih => rw [M.run_succ, ih, ← M.run_succ]

theorem System.Leads.run (h : M.system.Leads Q s) (i : Nat → ι) : ∃ n, Q (M.run s i n) := by
  induction h generalizing i with
  | now hq => exact ⟨0, hq⟩
  | @next s f hs _ ih =>
    obtain ⟨n, hn⟩ := ih (i 0) fun k => i (k + 1)
    refine ⟨n + 1, ?_⟩
    rw [M.run_first, ← hs (i 0)]
    exact hn

end Machine

end Clocked
