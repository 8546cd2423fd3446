import Rv64imCore.ProfileCounts

/-! The episodes of the dependency observer, beside the counters. -/

namespace Rv64imCore.Profile
set_option autoImplicit true

theorem bump_ne_nil (h : l ≠ []) : bump l ≠ [] := by
  cases l with
  | nil => exact absurd rfl h
  | cons e l => cases l <;> simp [bump]

theorem sum_bump (h : l ≠ []) :
    ((bump l).map Episode.cycles).sum = (l.map Episode.cycles).sum + 1 := by
  induction l with
  | nil => exact absurd rfl h
  | cons e l ih =>
    cases l with
    | nil => rfl
    | cons e' l =>
      have hi := ih (List.cons_ne_nil _ _)
      simp only [bump, List.map_cons, List.sum_cons] at hi ⊢
      omega

/-- Only the last episode may be one that has just been opened. -/
theorem lasting_bump (h : ∀ x ∈ l.dropLast, 0 < x.cycles) : ∀ x ∈ bump l, 0 < x.cycles := by
  induction l with
  | nil => exact fun x hx => nomatch hx
  | cons e l ih =>
    cases l with
    | nil =>
      intro x hx
      rw [bump, List.mem_singleton] at hx
      rw [hx]
      exact Nat.succ_pos _
    | cons e' l =>
      intro x hx
      simp only [bump, List.mem_cons] at hx
      rw [List.dropLast_cons_cons] at h
      rcases hx with rfl | hx
      · exact h _ (List.mem_cons_self ..)
      · refine ih (fun y hy => h y (List.mem_cons_of_mem _ hy)) x ?_
        simpa only [bump] using hx

theorem map_settle (a : BitVec 32) (hit : Bool) (l : List Episode) :
    (settle a hit l).map Episode.cycles = l.map Episode.cycles := by
  induction l with
  | nil => rfl
  | cons e l ih =>
    rw [settle]
    split
    · rfl
    · rw [List.map_cons, List.map_cons, ih]

/-- An episode is open only if there is one, and all of them have lasted. -/
structure Observer.Holds (o : Observer) : Prop where
  opened : o.previousExclusiveDependency = true → o.episodes ≠ []
  lasting : ∀ n ∈ o.episodes.map Episode.cycles, 0 < n

section Sample
variable {o : Observer} {t : Taps}

theorem Observer.opened_ne_nil (h : o.Holds) (he : o.exclusive t = true) : o.opened t ≠ [] := by
  rw [Observer.opened, he]
  cases hp : o.previousExclusiveDependency with
  | true => simpa using h.opened hp
  | false => simp

theorem Observer.sum_opened :
    ((o.opened t).map Episode.cycles).sum = (o.episodes.map Episode.cycles).sum := by
  rw [Observer.opened]
  split
  · simp [Observer.episode]
  · rfl

theorem Observer.Holds.lasting_opened (h : o.Holds) :
    ∀ x ∈ (o.opened t).dropLast, 0 < x.cycles := by
  have hl : ∀ x ∈ o.episodes, 0 < x.cycles := fun x hx => h.lasting _ (List.mem_map_of_mem hx)
  rw [Observer.opened]
  split
  · rw [List.dropLast_concat]
    exact hl
  · exact fun x hx => hl x (List.mem_of_mem_dropLast hx)

theorem Observer.map_sample : ((o.sample t).episodes.map Episode.cycles) =
    (o.counted t).map Episode.cycles := by
  rw [Observer.sample]
  split
  · exact map_settle _ _ _
  · rfl

theorem Observer.Holds.sample_cycles (h : o.Holds) :
    (o.sample t).dependencyCycles = o.dependencyCycles + (o.exclusive t).toNat := by
  rw [Observer.dependencyCycles, Observer.map_sample, Observer.counted, Observer.dependencyCycles]
  cases he : o.exclusive t with
  | true =>
    rw [if_pos rfl, sum_bump (Observer.opened_ne_nil h he), Observer.sum_opened]
    rfl
  | false => rw [if_neg Bool.false_ne_true, Observer.sum_opened]; rfl

theorem Observer.Holds.sample (h : o.Holds) : (o.sample t).Holds where
  opened := fun he hn => by
    have he : o.exclusive t = true := he
    have hm := Observer.map_sample (o := o) (t := t)
    rw [hn, Observer.counted, he, if_pos rfl] at hm
    exact bump_ne_nil (Observer.opened_ne_nil h he) (List.map_eq_nil_iff.mp hm.symm)
  lasting := by
    rw [Observer.map_sample, Observer.counted]
    cases he : o.exclusive t with
    | true =>
      rw [if_pos rfl]
      intro n hn
      obtain ⟨x, hx, rfl⟩ := List.mem_map.mp hn
      exact lasting_bump h.lasting_opened x hx
    | false =>
      have ho : o.opened t = o.episodes := by rw [Observer.opened, he]; rfl
      rw [if_neg Bool.false_ne_true, ho]
      exact h.lasting

theorem Observer.Holds.cycle (h : o.Holds) : o.cycle.Holds := ⟨h.opened, h.lasting⟩

theorem Observer.Holds.endRoi (h : o.Holds) : o.endRoi.Holds :=
  ⟨fun hp => Bool.noConfusion hp, h.lasting⟩

theorem Observer.Holds.beginRoi : Observer.beginRoi.Holds :=
  ⟨fun hp => Bool.noConfusion hp, fun _ hn => nomatch hn⟩

theorem Observer.exclusive_eq (h : o.roiActive = true) :
    o.exclusive t = (t.cause == .dependency) := by
  rw [Observer.exclusive, h, Taps.cause]
  cases t.dcacheTotalStall <;> cases t.dividerStall <;> cases t.branchRecovery <;>
    cases t.dependencyStall <;> cases t.icacheTotalStall <;> rfl

end Sample

/-- How often the region of interest has been entered. -/
def entries (r : Region) (s : Top.State) (e : Nat → Top.In) (n : Nat) : Nat :=
  (harness r).history 0 (fun g b i => g + (b.starts r i).toNat) (Harness.start s) e n

section Run
variable {r : Region} {b : Harness}

/-- The observer beside the counters, which are not put back when a region is entered. -/
structure Harness.Accounts (b : Harness) (g : Nat) : Prop where
  sound : b.Sound
  holds : b.observer.Holds
  fresh : g = 0 → b.counts.exclusiveDependencyCycles = 0 ∧ b.roi = false
  sum : g ≤ 1 → b.observer.dependencyCycles = b.counts.exclusiveDependencyCycles

theorem Harness.Accounts.start (s : Top.State) : (Harness.start s).Accounts 0 where
  sound := .start s
  holds := Observer.Holds.beginRoi.endRoi
  fresh := fun _ => ⟨rfl, rfl⟩
  sum := fun _ => rfl

theorem dependencyCycles_next (i : Top.In) : (b.next r i).observer.dependencyCycles =
    (if b.starts r i then Observer.beginRoi
      else if b.roi then b.observer.cycle.sample (b.taps i) else b.observer).dependencyCycles := by
  simp only [Harness.next]
  cases b.stops r i <;> rfl

theorem Harness.Accounts.next_holds (h : b.Accounts g) (i : Top.In) :
    (b.next r i).observer.Holds := by
  have hs : (if b.starts r i then Observer.beginRoi
      else if b.roi then b.observer.cycle.sample (b.taps i) else b.observer).Holds := by
    split
    · exact .beginRoi
    · split
      · exact h.holds.cycle.sample
      · exact h.holds
  simp only [Harness.next]
  cases b.stops r i with
  | true => exact hs.endRoi
  | false => exact hs

theorem Harness.Accounts.next (h : b.Accounts g) (i : Top.In) :
    (b.next r i).Accounts (g + (b.starts r i).toNat) where
  sound := h.sound.next i
  holds := h.next_holds i
  fresh := fun hg => by
    have hst : b.starts r i = false := by
      cases hst : b.starts r i with
      | false => rfl
      | true => rw [hst] at hg; simp at hg
    obtain ⟨hc, hr⟩ := h.fresh (by omega)
    refine ⟨?_, by simp [Harness.next, hst, hr]⟩
    simpa [Harness.next, Harness.sampled, hr] using hc
  sum := fun hg => by
    rw [dependencyCycles_next]
    cases hst : b.starts r i with
    | true =>
      rw [hst] at hg
      have hc := (h.fresh (by simpa using hg)).1
      simp [Harness.next, Harness.sampled, hst, hc, Observer.beginRoi,
        Observer.dependencyCycles]
    | false =>
      rw [hst] at hg
      have hsum := h.sum (by simpa using hg)
      rw [if_neg Bool.false_ne_true]
      cases hr : b.roi with
      | false => simpa [Harness.next, Harness.sampled, hr] using hsum
      | true =>
        have ha : b.observer.cycle.roiActive = true := h.sound.active.trans hr
        have hc : (b.next r i).counts = b.counts.sample b.previous (b.taps i) := by
          simp [Harness.next, Harness.sampled, hst, hr]
        rw [if_pos rfl, h.holds.cycle.sample_cycles, Observer.exclusive_eq ha, hc]
        change b.observer.dependencyCycles + _ = _
        rw [hsum]
        rfl

theorem accounts_run (s : Top.State) (e : Nat → Top.In) (n : Nat) :
    ((harness r).run (Harness.start s) e n).Accounts (entries r s e n) :=
  (harness r).history_induction 0 (fun g b i => g + (b.starts r i).toNat)
    (P := fun b (g : Nat) => b.Accounts g) (C := fun _ _ => True) (.start s)
    (fun _ _ a _ h => h.next a) fun _ _ => trivial

end Run

/-- In a run that enters the region of interest at most once, the cycles of the episodes of the
dependency observer are the cycles that the counters put down to dependencies, and no episode is
empty. -/
theorem episodes_account (r : Region) (s : Top.State) (e : Nat → Top.In) (n : Nat)
    (h : entries r s e n ≤ 1) :
    let b := (harness r).run (Harness.start s) e n
    b.observer.dependencyCycles = b.counts.exclusiveDependencyCycles ∧
      ∀ x ∈ b.observer.episodes, 0 < x.cycles := by
  intro b
  have ha := accounts_run (r := r) s e n
  exact ⟨ha.sum h, fun x hx => ha.holds.lasting _ (List.mem_map_of_mem hx)⟩

/-- All of the memory is `mul x1, x0, x0; add x2, x1, x1`. -/
def readyMuls : Top.In :=
  { awReady := true, wReady := true, bValid := true, arReady := true, rValid := true
    rData := 0x00108133020000b3 }

theorem episodes_account_muls :
    let b := (harness wholeRegion).run (Harness.start default) (fun _ => readyMuls) 16
    b.observer.dependencyCycles = b.counts.exclusiveDependencyCycles ∧
      ∀ x ∈ b.observer.episodes, 0 < x.cycles :=
  episodes_account wholeRegion default (fun _ => readyMuls) 16 (by decide +kernel)

end Rv64imCore.Profile
