import Rv64imCore.Ledger
import Rv64imCore.Training

/-! The direction table against a saturating counter for each index. -/

namespace Rv64imCore.Satcnt
set_option autoImplicit true
open Clocked (seen)

/-! The counters as they are meant. -/

/-- A counter that stops at 0 and at 3. -/
def saturate (c : Nat) (taken : Bool) : Nat := if taken then min (c + 1) 3 else c - 1

/-- The counter of a key that has seen these directions. -/
def counter (taken : List Bool) : Nat := taken.foldl saturate 2

theorem counter_concat (taken : List Bool) (t : Bool) :
    counter (taken ++ [t]) = saturate (counter taken) t := by
  simp [counter]

theorem cntNext_toNat (c : BitVec 2) (t : Bool) : (cntNext c t).toNat = saturate c.toNat t := by
  revert c t
  decide

/-! The module. -/

/-- A resolved instruction and a lookup. -/
structure In where
  bx : Bx
  predPc : BitVec 64
  predEn : Bool

def machine : Clocked.Machine State In where
  next := fun s i => next s i.bx i.predPc i.predEn

/-- The conditional branch a cycle resolves: its index and its direction. -/
def resolved (_ : State) (i : In) : List (BitVec 10 × Bool) :=
  if i.bx.cond then [(index i.bx.pc, i.bx.pt)] else []

/-- What a lookup has to show: validity after the first direction, and the counter from then on. -/
structure Shows (s : State) (taken : List Bool) : Prop where
  valid : s.predVld = !taken.isEmpty
  value : taken ≠ [] → s.cntVal.toNat = counter taken

/-- The same of an entry of the table. -/
structure Entry (s : State) (k : BitVec 10) (taken : List Bool) : Prop where
  valid : s.cntVld k = !taken.isEmpty
  value : (s.satCnt k).toNat = counter taken

section Step
variable {s : State} {i : In} {k : BitVec 10}

theorem Entry.reset (hg : generated k = true) (s : State) : Entry s.reset k [] := by
  refine ⟨?_, ?_⟩
  · simp [State.reset, hg]
  · simp [State.reset, hg, counter]

/-- An entry of the generate loop is trained by the branches of its index. -/
theorem Entry.next (hg : generated k = true) (h : Entry s k (seen k events)) (i : In) :
    Entry (machine.next s i) k (seen k (events ++ resolved s i)) := by
  rw [Clocked.seen_append, resolved]
  cases hc : i.bx.cond with
  | false =>
    refine ⟨?_, ?_⟩ <;> simp only [machine, Satcnt.next, hc, Bool.and_false]
    · simpa [seen] using h.valid
    · simpa [seen] using h.value
  | true =>
    rw [if_pos rfl, Clocked.seen_singleton]
    by_cases hk : index i.bx.pc = k
    · rw [if_pos hk]
      refine ⟨?_, ?_⟩
      · simp [machine, Satcnt.next, hc, hg, hk]
      · rw [counter_concat, ← h.value, ← cntNext_toNat]
        simp [machine, Satcnt.next, hc, hg, hk]
    · rw [if_neg hk, List.append_nil]
      refine ⟨?_, ?_⟩
      · simpa [machine, Satcnt.next, hk] using h.valid
      · simpa [machine, Satcnt.next, hk] using h.value

theorem Entry.shows (h : Entry s (index i.predPc) taken) (hp : i.predEn = true) :
    Shows (machine.next s i) taken := by
  refine ⟨?_, fun _ => ?_⟩
  · simpa [machine, Satcnt.next, hp, reg] using h.valid
  · simpa [machine, Satcnt.next, hp, reg] using h.value

/-- The last entry is out of the generate loop. -/
theorem last_next (s : State) (i : In) :
    (machine.next s i).cntVld 1023#10 = s.cntVld 1023#10 := by
  simp [machine, Satcnt.next, generated]

end Step

section Runs
variable (s : State) (i : Nat → In)

/-- The branches resolved in the first `n` cycles. -/
abbrev history (n : Nat) : List (BitVec 10 × Bool) := machine.trace resolved s.reset i n

theorem entry_run (hg : generated k = true) (n : Nat) :
    Entry (machine.run s.reset i n) k (seen k (history s i n)) := by
  induction n with
  | zero => exact Entry.reset hg s
  | succ n ih => exact ih.next hg (i n)

theorem last_run (n : Nat) : (machine.run s.reset i n).cntVld 1023#10 = s.cntVld 1023#10 := by
  induction n with
  | zero => rfl
  | succ n ih => rw [← ih, Clocked.Machine.run_succ, last_next]

end Runs

/-- A lookup of `pc` in cycle 1, after a branch at `pc` in cycle 0 or after none. -/
def lookupAfter (cond : Bool) (pc : BitVec 64) (n : Nat) : In :=
  { bx := { cond := cond && n == 0, pc := pc, pt := true, push := false, pop := false }
    predPc := pc, predEn := true }

/-- Every lookup of `pc`, after any history of branches, shows the counter of its index just when
that is not the last index of the table. -/
theorem lookup_trained_iff (s : State) (pc : BitVec 64) :
    (∀ (i : Nat → In) (n : Nat), (i n).predEn = true → (i n).predPc = pc →
      Shows (machine.run s.reset i (n + 1)) (seen (index pc) (history s i n))) ↔
    index pc ≠ 1023#10 := by
  constructor
  · intro h hk
    -- a lookup after one branch is valid, and one after none is not
    have hv (c : Bool) : (machine.run s.reset (lookupAfter c pc) 2).predVld = s.cntVld 1023#10 := by
      rw [← last_run s (lookupAfter c pc) 1, ← hk]
      rfl
    have h1 := (h (lookupAfter true pc) 1 rfl rfl).valid
    have h0 := (h (lookupAfter false pc) 1 rfl rfl).valid
    rw [hv] at h0 h1
    have he : (seen (index pc) (history s (lookupAfter true pc) 1)).isEmpty = false := by
      simp [history, Clocked.Machine.trace, resolved, lookupAfter, seen]
    have hn : (seen (index pc) (history s (lookupAfter false pc) 1)).isEmpty = true := by
      simp [history, Clocked.Machine.trace, resolved, lookupAfter, seen]
    rw [he] at h1
    rw [hn, h1] at h0
    cases h0
  · intro hk i n hp hpc
    have hg : generated (index pc) = true := by
      rw [generated, bne_iff_ne]
      exact hk
    refine Entry.shows ?_ hp
    rw [hpc]
    exact entry_run s i hg n

/-- The branch at `0xffc` maps to the last index and is not learnt. -/
theorem last_index_untrained : ¬∀ (s : State) (pc : BitVec 64) (i : Nat → In) (n : Nat),
    (i n).predEn = true → (i n).predPc = pc →
      Shows (machine.run s.reset i (n + 1)) (seen (index pc) (history s i n)) := by
  intro h
  have hv := (h default 0xffc (lookupAfter true 0xffc) 1 rfl rfl).valid
  revert hv
  decide

end Rv64imCore.Satcnt

namespace Rv64imCore.Core
set_option autoImplicit true

/-- What the table of the fetch unit sees in a cycle of the core. -/
def satcntIn (s : State) (i : In) : Satcnt.In :=
  { bx := bx s i, predPc := Ifu.pcNext s.ifu (ifuIn s i)
    predEn := Ifu.addrShake s.ifu (ifuIn s i) }

/-- The table of the fetch unit is trained by the branches that the core resolves. -/
theorem satcnt_run (s : State) (i : Nat → In) (n : Nat) :
    (machine.run s.reset i n).ifu.satcnt = Satcnt.machine.run s.ifu.satcnt.reset
      (fun k => satcntIn (machine.run s.reset i k) (i k)) n := by
  induction n with
  | zero => rfl
  | succ n ih =>
    rw [Clocked.Machine.run_succ, Clocked.Machine.run_succ, ← ih]
    rfl

end Rv64imCore.Core
