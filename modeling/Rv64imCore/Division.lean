import Rv64imCore.Clocked
import Rv64imCore.DivisionPhases

/-! The divider answers every request with the quotient and remainder of its operands, after a
number of cycles that depends on the operands alone. -/

namespace Rv64imCore.Div
set_option autoImplicit true

/-- A cycle: the inputs of the divider and the flush that resets it. -/
structure Cycle extends In where
  flush : Bool

def machine : Clocked.Machine State Cycle := { next := fun s c => next c.flush s c.toIn }

section Run
variable (s : State) (c : Nat → Cycle)

/-- The divider as cycle `t` sees it. -/
def seen (t : Nat) : State := (machine.run s.reset c t).settle (c t).flush

/-- The request of cycle `t` is still pending in the next one: it is not flushed, and its answer
is not taken. -/
def waits (t : Nat) : Bool :=
  (c t).divReq && !(c t).flush && !(ack (seen s c t) && !(c t).stall)

/-- A pending request is held, with its operands. -/
def Held : Prop := ∀ t, waits s c t = true → (c (t + 1)).divReq = true ∧
  (c (t + 1)).rs1 = (c t).rs1 ∧ (c (t + 1)).rs2 = (c t).rs2 ∧
  (c (t + 1)).isSigned = (c t).isSigned

/-- A request comes in cycle `t`: it is not one that was pending before. -/
def requests (t : Nat) : Bool :=
  (c t).divReq && !(c t).flush && (t == 0 || !waits s c (t - 1))

end Run

section RunFacts
variable {s : State} {c : Nat → Cycle}

theorem phase_run (s : State) (c : Nat → Cycle) (t : Nat) : Phase (machine.run s.reset c t) :=
  machine.run_invariant (P := Phase) (.inl (idle_reset s)) (fun _ a h => h.next a.flush a.toIn) t

theorem seen_eq (h : (c t).flush = false) : seen s c t = machine.run s.reset c t := by
  rw [seen, h]; rfl

theorem run_succ (h : (c t).flush = false) :
    machine.run s.reset c (t + 1) = next false (machine.run s.reset c t) (c t).toIn := by
  rw [Clocked.Machine.run_succ]
  change next (c t).flush _ _ = _
  rw [h]

theorem waits_step (hb : (machine.run s.reset c (t + 1)).busy = true)
    (hr : (machine.run s.reset c t).busy = true → (c t).divReq = true) : waits s c t = true := by
  have hf : (c t).flush = false := by
    rw [Bool.eq_false_iff]
    intro hf
    rw [Clocked.Machine.run_succ] at hb
    change (next (c t).flush _ _).busy = true at hb
    rw [hf, (Idle.next_reset _ _).busy] at hb
    cases hb
  rw [run_succ hf] at hb
  rw [waits, seen_eq hf, hf]
  rcases phase_run s c t with h | ⟨j, k, h⟩ | ⟨j, h⟩
  · have ha : ack (machine.run s.reset c t) = false := h.ready
    cases hreq : (c t).divReq with
    | true => rw [ha]; rfl
    | false =>
      rw [(h.next_none hreq).busy] at hb
      cases hb
  · have ha : ack (machine.run s.reset c t) = false := h.ready
    rw [ha, hr h.busy]
    rfl
  · cases hs : (c t).stall with
    | true => rw [hr h.busy]; simp
    | false =>
      rw [(h.next_taken hs).busy] at hb
      cases hb

/-- While requests are held, a busy divider works for one that was pending. -/
theorem waits_of_busy (hh : Held s c) (t : Nat)
    (hb : (machine.run s.reset c (t + 1)).busy = true) : waits s c t = true := by
  induction t with
  | zero =>
    refine waits_step hb fun h => ?_
    cases h
  | succ t ih => exact waits_step hb fun h => (hh t (ih h)).1

theorem idle_of_requests (hh : Held s c) (hr : requests s c t = true) :
    Idle (machine.run s.reset c t) := by
  have hnb : ¬(machine.run s.reset c t).busy = true := by
    intro hb
    cases t with
    | zero => cases hb
    | succ t =>
      have hw := waits_of_busy hh t hb
      rw [requests, Nat.add_sub_cancel, hw] at hr
      simp at hr
  rcases phase_run s c t with h | ⟨j, k, h⟩ | ⟨j, h⟩
  · exact h
  · exact absurd h.busy hnb
  · exact absurd h.busy hnb

theorem working_run (hi : Idle (machine.run s.reset c t)) (hr : (c t).divReq = true)
    (hf : ∀ u, t ≤ u → u ≤ t + m → (c u).flush = false) (hm : m ≤ steps (c t).toIn) :
    Working (c t).toIn m (machine.run s.reset c (t + 1 + m)) :=
  working_of_idle (d := machine.run s.reset c) (e := fun u => (c u).toIn) hi hr
    (fun u hu hum => run_succ (hf u hu hum)) hm

theorem answered_run (hi : Idle (machine.run s.reset c t)) (hr : (c t).divReq = true)
    (hf : ∀ u, t ≤ u → u ≤ t + latency (c t).toIn → (c u).flush = false) :
    Answered (c t).toIn (machine.run s.reset c (t + latency (c t).toIn)) :=
  answered_of_idle (d := machine.run s.reset c) (e := fun u => (c u).toIn) hi hr
    (fun u hu hum => run_succ (hf u hu (Nat.le_of_lt hum)))

/-- Every request that is not flushed is answered, in the cycle its operands give and in none
before, with its quotient and remainder, which stay until a cycle without stall takes them. -/
theorem division_correct (s : State) (c : Nat → Cycle) (hh : Held s c) (t : Nat)
    (hr : requests s c t = true)
    (hf : ∀ u, t ≤ u → u ≤ t + latency (c t).toIn → (c u).flush = false) :
    (∀ u, t ≤ u → u < t + latency (c t).toIn → ack (seen s c u) = false) ∧
    ∀ u, t + latency (c t).toIn ≤ u →
      (∀ v, t + latency (c t).toIn ≤ v → v < u → (c v).stall = true) →
      (∀ v, t + latency (c t).toIn ≤ v → v ≤ u → (c v).flush = false) →
      ack (seen s c u) = true ∧ divRes (seen s c u) = quotient (c t).toIn ∧
        divRem (seen s c u) = remainder (c t).toIn := by
  have hi := idle_of_requests hh hr
  have hreq : (c t).divReq = true := by
    rw [requests] at hr
    simp only [Bool.and_eq_true] at hr
    exact hr.1.1
  have hl := latency_eq (c t).toIn
  constructor
  · intro u htu hu
    rw [seen_eq (hf u htu (by omega))]
    rcases Nat.eq_or_lt_of_le htu with rfl | hlt
    · exact hi.ready
    · have hw := working_run hi hreq (m := u - (t + 1)) (fun v hv hvm => hf v hv (by omega))
        (by omega)
      rw [show t + 1 + (u - (t + 1)) = u by omega] at hw
      exact hw.ready
  · intro u hu hstall hflush
    rw [seen_eq (hflush u hu (Nat.le_refl u))]
    have ha : Answered (c t).toIn (machine.run s.reset c u) := by
      apply Clocked.kept (P := fun u => Answered (c t).toIn (machine.run s.reset c u)) hu
        (answered_run hi hreq hf)
      intro v hv hvu h
      rw [run_succ (hflush v hv (Nat.le_of_lt hvu))]
      exact h.next_stall (hstall v hv hvu)
    exact ⟨ha.ready, ha.res, ha.rem⟩

end RunFacts

/-- -7 / 2, asked for in every cycle. -/
def minusSevenByTwo : Cycle :=
  { rs1 := -7, rs2 := 2, isSigned := true, divReq := true, stall := false, flush := false }

theorem division_correct_minus_seven : latency minusSevenByTwo.toIn = 3 ∧
    ack (seen default (fun _ => minusSevenByTwo) 3) = true ∧
    divRes (seen default (fun _ => minusSevenByTwo) 3) = -3 ∧
    divRem (seen default (fun _ => minusSevenByTwo) 3) = -1 := by
  have hs : fastDiv minusSevenByTwo.toIn = false := by
    rw [Bool.eq_false_iff, ne_eq, fastDiv_iff]
    decide
  have hl : latency minusSevenByTwo.toIn = 3 := by
    rw [latency, hs]
    decide
  have h := (division_correct default (fun _ => minusSevenByTwo)
    (fun _ _ => ⟨rfl, rfl, rfl, rfl⟩) 0 (by decide) (fun _ _ _ => rfl)).2 3
    (by rw [hl]) (fun v hv hvu => by rw [hl] at hv; omega) (fun _ _ _ => rfl)
  exact ⟨hl, h.1, h.2.1.trans (by decide), h.2.2.trans (by decide)⟩

end Rv64imCore.Div
