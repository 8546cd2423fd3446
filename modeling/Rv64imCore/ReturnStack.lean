import Rv64imCore.Ledger
import Rv64imCore.RingStack
import Rv64imCore.Training

/-! The return-address stack against a stack of 32 entries. -/

namespace Rv64imCore.Ras
set_option autoImplicit true
open RingStack (Holds)

theorem prev_iterate (j : Nat) (k : BitVec 5) :
    (fun k : BitVec 5 => k - 1)^[j] k = k - BitVec.ofNat 5 j := by
  induction j generalizing k with
  | zero => simp
  | succ j ih =>
    rw [Function.iterate_succ_apply, ih, BitVec.ofNat_add]
    simp only [BitVec.sub_eq_add_neg, BitVec.neg_add, BitVec.add_assoc]
    congr 1
    exact BitVec.add_comm _ _

def ring : RingStack.Ring (BitVec 5) 32 where
  next := fun k => k + 1
  prev := fun k => k - 1
  prev_next := fun k => BitVec.add_sub_cancel k 1
  distinct := by
    intro k i j hi hj h
    rw [prev_iterate, prev_iterate] at h
    bv_omega
  around := by
    intro k
    rw [prev_iterate]
    exact BitVec.sub_zero k

/-! The stack as it is meant. -/

/-- What a cycle of EX tells the stack. -/
structure In where
  push : Bool
  pop : Bool
  pushTgt : BitVec 64

/-- A stack of 32 return addresses. -/
def stack : Clocked.Machine (List (BitVec 64)) In where
  next := fun st i =>
    match i.push, i.pop with
    | true, true => RingStack.replace i.pushTgt st
    | true, false => RingStack.push 32 i.pushTgt st
    | false, true => RingStack.pop st
    | false, false => st

/-! The module. -/

def machine : Clocked.Machine State In where
  next := fun s i => next s i.push i.pop i.pushTgt

/-- The pop port shows whether the stack is empty, and its top. -/
structure Shows (s : State) (st : List (BitVec 64)) : Prop where
  valid : popVld s = !st.isEmpty
  top : ∀ a, st.head? = some a → popTgt s = a

/-- The pop port shows `a` already, and so does the slot at the write pointer when it is in use. -/
def Settled (s : State) (a : BitVec 64) : Prop :=
  popVld s = true ∧ popTgt s = a ∧ (s.tgtVld s.wptr = true → s.retTgt s.wptr = a)

instance instDecidableSettled (s : State) (a : BitVec 64) : Decidable (Settled s a) :=
  inferInstanceAs (Decidable (_ ∧ _ ∧ _))

/-- The slots of the module hold the stack. -/
def Held (s : State) (st : List (BitVec 64)) : Prop := Holds ring s.wptr s.tgtVld s.retTgt st

section Step
variable {s : State} {st : List (BitVec 64)}

theorem Held.reset (s : State) : Held s.reset [] := Holds.empty fun _ => rfl

theorem Held.shows (h : Held s st) : Shows s st :=
  ⟨h.top_valid (by decide), fun _ ha => h.top_data ha⟩

theorem update_eq (f : BitVec 5 → α) (k : BitVec 5) (a : α) :
    Function.update f k a = fun j => if j = k then a else f j := by
  funext j
  exact Function.update_apply f k a j

theorem next_push (s : State) (a : BitVec 64) : next s true false a =
    { wptr := s.wptr + 1, tgtVld := Function.update s.tgtVld s.wptr true
      retTgt := Function.update s.retTgt s.wptr a } := by
  simp [next, reg, update_eq]

theorem next_pop (s : State) (a : BitVec 64) : next s false true a =
    { s with wptr := rptr s, tgtVld := Function.update s.tgtVld (rptr s) false } := by
  simp [next, reg, rptr, update_eq]

/-- A pop and a push at once write above the top and move nothing. -/
theorem next_replace (s : State) (a : BitVec 64) : next s true true a =
    { s with retTgt := Function.update s.retTgt s.wptr a } := by
  have hw : s.wptr + 1#5 - 1#5 = s.wptr := BitVec.add_sub_cancel s.wptr 1#5
  simp [next, reg, update_eq, hw]

theorem next_idle (s : State) (a : BitVec 64) : next s false false a = s := by
  simp [next, reg]

/-- A pop and a push at once do what they are meant to just in a settled state. -/
theorem Held.replace_iff (h : Held s st) (a : BitVec 64) :
    Held (next s true true a) (RingStack.replace a st) ↔ Settled s a := by
  rw [next_replace]
  exact h.overwrite_iff (by decide)

theorem Held.next (h : Held s st) (i : In)
    (hi : i.push = true → i.pop = true → Settled s i.pushTgt) :
    Held (machine.next s i) (stack.next st i) := by
  obtain ⟨push, pop, a⟩ := i
  cases push with
  | false =>
    cases pop with
    | false =>
      have hn := next_idle s a
      simpa only [machine, stack, hn] using h
    | true =>
      have hn := next_pop s a
      simp only [machine, stack, hn]
      exact h.pop
  | true =>
    cases pop with
    | false =>
      have hn := next_push s a
      simp only [machine, stack, hn]
      exact h.push (by decide) a
    | true => exact (h.replace_iff a).mpr (hi rfl rfl)

end Step

/-- From reset the pop port shows the stack, through overflow and underflow, when the state is
settled in every cycle that pops and pushes at once. -/
theorem stack_shown (s : State) (i : Nat → In) (n : Nat)
    (h : ∀ k, k < n → (i k).push = true → (i k).pop = true →
      Settled (machine.run s.reset i k) (i k).pushTgt) :
    Shows (machine.run s.reset i n) (stack.run [] i n) :=
  (machine.run_simulation stack (Held.reset s) (fun _ _ a hc hr => Held.next hr a hc) h).shows

/-- Two calls, a return, and a jump that returns and calls from the same place. -/
def coroutine (n : Nat) : In :=
  match n with
  | 0 => { push := true, pop := false, pushTgt := 0x1000 }
  | 1 => { push := true, pop := false, pushTgt := 0x2000 }
  | 2 => { push := false, pop := true, pushTgt := 0 }
  | _ => { push := true, pop := true, pushTgt := 0x1000 }

theorem stack_shown_coroutine : stack.run [] coroutine 4 = [0x1000] ∧
    Shows (machine.run (default : State).reset coroutine 4) (stack.run [] coroutine 4) :=
  ⟨rfl, stack_shown default coroutine 4 (by decide)⟩

/-- A jump that returns and calls from another place leaves the old address on top. -/
theorem replaced_top_kept : ¬∀ (s : State) (i : Nat → In) (n : Nat),
    Shows (machine.run s.reset i n) (stack.run [] i n) := by
  intro h
  have ht := (h default
    (fun n => { push := true, pop := n == 1, pushTgt := 0x1000 * (n + 1) }) 2).top
    0x2000 rfl
  revert ht
  decide

end Rv64imCore.Ras

namespace Rv64imCore.Core
set_option autoImplicit true

/-- What the stack of the fetch unit sees in a cycle of the core. -/
def rasIn (s : State) (i : In) : Ras.In :=
  { push := (bx s i).push, pop := (bx s i).pop, pushTgt := Ifu.pushTgt (ifuIn s i) }

/-- The stack of the fetch unit is driven by the jumps that the core resolves. -/
theorem ras_run (s : State) (i : Nat → In) (n : Nat) :
    (machine.run s.reset i n).ifu.ras = Ras.machine.run s.ifu.ras.reset
      (fun k => rasIn (machine.run s.reset i k) (i k)) n := by
  induction n with
  | zero => rfl
  | succ n ih =>
    rw [Clocked.Machine.run_succ, Clocked.Machine.run_succ, ← ih]
    rfl

end Rv64imCore.Core
