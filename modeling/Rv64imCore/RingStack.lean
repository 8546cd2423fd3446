import Mathlib.Logic.Function.Iterate

/-! A stack that keeps its last `d` entries, and a ring of `d` slots that holds one. -/

namespace RingStack
set_option autoImplicit true

/-- A push beyond `d` entries discards the oldest. -/
def push (d : Nat) (a : α) (st : List α) : List α := (a :: st).take d

/-- A pop of an empty stack leaves it empty. -/
def pop (st : List α) : List α := st.tail

/-- A pop and a push at once. -/
def replace (a : α) (st : List α) : List α := a :: st.tail

theorem replace_succ (a : α) (st : List α) (j : Nat) :
    (replace a st)[j + 1]? = st[j + 1]? := by
  cases st <;> rfl

theorem replace_of_head (h : st.head? = some a) : replace a st = st := by
  cases st with
  | nil => cases h
  | cons b st =>
    rw [List.head?_cons, Option.some.injEq] at h
    rw [h]
    rfl

/-- A successor function that comes round after `d` steps and not before. -/
structure Ring (κ : Type) (d : Nat) where
  next : κ → κ
  prev : κ → κ
  prev_next : ∀ k, prev (next k) = k
  distinct : ∀ k i j, i < d → j < d → prev^[i] k = prev^[j] k → i = j
  around : ∀ k, prev^[d] k = k

namespace Ring
variable (R : Ring κ d)

/-- The slot of entry `j` below the write pointer. -/
def slot (w : κ) (j : Nat) : κ := R.prev^[j + 1] w

theorem slot_zero (w : κ) : R.slot w 0 = R.prev w := rfl

theorem slot_next_zero (w : κ) : R.slot (R.next w) 0 = w := R.prev_next w

theorem slot_next_succ (w : κ) (j : Nat) : R.slot (R.next w) (j + 1) = R.slot w j := by
  rw [slot, Function.iterate_succ_apply, R.prev_next]
  rfl

theorem slot_prev (w : κ) (j : Nat) : R.slot (R.prev w) j = R.slot w (j + 1) :=
  (Function.iterate_succ_apply R.prev (j + 1) w).symm

theorem slot_last (w : κ) (h : j + 1 = d) : R.slot w j = w := by
  rw [slot, h, R.around]

theorem slot_inj (w : κ) (hi : i < d) (hj : j < d) (h : R.slot w i = R.slot w j) : i = j := by
  rw [slot, slot, Function.iterate_succ_apply, Function.iterate_succ_apply] at h
  exact R.distinct _ i j hi hj h

theorem slot_ne (w : κ) (h : j + 1 < d) : R.slot w j ≠ w := by
  intro he
  have hl : R.slot w (d - 1) = w := R.slot_last w (by omega)
  have := R.slot_inj w (by omega) (by omega) (he.trans hl.symm)
  omega

end Ring

/-- The ring with its write pointer at `w` holds the stack. -/
structure Holds (R : Ring κ d) (w : κ) (valid : κ → Bool) (data : κ → α) (st : List α) :
    Prop where
  length : st.length ≤ d
  valid : ∀ j, j < d → valid (R.slot w j) = decide (j < st.length)
  data : ∀ j a, st[j]? = some a → data (R.slot w j) = a

section Operations
variable {R : Ring κ d} {w : κ} {valid : κ → Bool} {data : κ → α} {st : List α}

theorem Holds.empty (h : ∀ k, valid k = false) : Holds R w valid data [] :=
  ⟨Nat.zero_le _, fun _ _ => h _, fun _ _ h => by cases h⟩

theorem Holds.index_lt (h : Holds R w valid data st) (hj : st[j]? = some a) : j < d := by
  obtain ⟨hj, -⟩ := List.getElem?_eq_some_iff.mp hj
  exact Nat.lt_of_lt_of_le hj h.length

theorem Holds.top_valid (h : Holds R w valid data st) (hd : 0 < d) :
    valid (R.prev w) = !st.isEmpty := by
  have hv := h.valid 0 hd
  rw [R.slot_zero] at hv
  rw [hv]
  cases st <;> rfl

theorem Holds.top_data (h : Holds R w valid data st) (ht : st.head? = some a) :
    data (R.prev w) = a := by
  rw [List.head?_eq_getElem?] at ht
  exact h.data 0 a ht

variable [DecidableEq κ]

theorem Holds.push (h : Holds R w valid data st) (hd : 0 < d) (a : α) :
    Holds R (R.next w) (Function.update valid w true) (Function.update data w a)
      (push d a st) := by
  have hl : (RingStack.push d a st).length = min d (st.length + 1) := List.length_take
  refine ⟨?_, fun j hj => ?_, fun j b hb => ?_⟩
  · rw [hl]
    exact Nat.min_le_left _ _
  · rw [hl]
    cases j with
    | zero =>
      rw [R.slot_next_zero, Function.update_self]
      exact (decide_eq_true (by omega)).symm
    | succ j =>
      rw [R.slot_next_succ, Function.update_of_ne (R.slot_ne w hj), h.valid j (by omega),
        decide_eq_decide]
      omega
  · obtain ⟨hj, -⟩ := List.getElem?_eq_some_iff.mp hb
    have hjd : j < d := by
      rw [hl] at hj
      omega
    rw [RingStack.push, List.getElem?_take_of_lt hjd] at hb
    cases j with
    | zero =>
      rw [List.getElem?_cons_zero, Option.some.injEq] at hb
      rw [R.slot_next_zero, Function.update_self, hb]
    | succ j =>
      rw [List.getElem?_cons_succ] at hb
      rw [R.slot_next_succ, Function.update_of_ne (R.slot_ne w hjd)]
      exact h.data j b hb

theorem Holds.pop (h : Holds R w valid data st) :
    Holds R (R.prev w) (Function.update valid (R.prev w) false) data (pop st) := by
  refine ⟨?_, fun j hj => ?_, fun j b hb => ?_⟩
  · rw [RingStack.pop, List.length_tail]
    exact Nat.le_trans (Nat.sub_le _ _) h.length
  · rw [RingStack.pop, List.length_tail]
    have hlen := h.length
    by_cases hlast : j + 1 = d
    · rw [R.slot_last _ hlast, Function.update_self]
      exact (decide_eq_false (by omega)).symm
    · rw [Function.update_of_ne (R.slot_ne _ (by omega)), R.slot_prev, h.valid _ (by omega),
        decide_eq_decide]
      omega
  · rw [RingStack.pop, List.getElem?_tail] at hb
    rw [R.slot_prev]
    exact h.data _ b hb

/-- A write at the pointer hits the oldest entry of a full stack and no other. -/
theorem Holds.overwrite (h : Holds R w valid data st)
    (ha : valid w = true → data w = a) : Holds R w valid (Function.update data w a) st := by
  refine ⟨h.length, h.valid, fun j b hb => ?_⟩
  have hjd := h.index_lt hb
  by_cases hlast : j + 1 = d
  · have hw := R.slot_last w hlast
    obtain ⟨hj, -⟩ := List.getElem?_eq_some_iff.mp hb
    have hv : valid w = true := by
      rw [← hw, h.valid j hjd]
      exact decide_eq_true hj
    have hdata := h.data j b hb
    rw [hw] at hdata ⊢
    rw [Function.update_self, ← ha hv, hdata]
  · rw [Function.update_of_ne (R.slot_ne w (by omega))]
    exact h.data j b hb

/-- Such a write replaces the top just when the top is the same already and the oldest entry of a
full stack is too. -/
theorem Holds.overwrite_iff (h : Holds R w valid data st) (hd : 1 < d) :
    Holds R w valid (Function.update data w a) (replace a st) ↔
      valid (R.prev w) = true ∧ data (R.prev w) = a ∧ (valid w = true → data w = a) := by
  have hne : R.prev w ≠ w := R.slot_ne w hd
  constructor
  · intro h'
    have hv : valid (R.prev w) = true := h'.top_valid (by omega)
    have ht : Function.update data w a (R.prev w) = a := h'.top_data rfl
    rw [Function.update_of_ne hne] at ht
    refine ⟨hv, ht, fun hvw => ?_⟩
    -- the write has made the oldest entry `a`, and a replacement keeps it
    obtain ⟨k, rfl⟩ : ∃ k, d = k + 2 := ⟨d - 2, by omega⟩
    have hw : R.slot w (k + 1) = w := R.slot_last w rfl
    rw [← hw, h.valid (k + 1) (by omega)] at hvw
    have hlen := of_decide_eq_true hvw
    have hk := List.getElem?_eq_getElem hlen
    have hold := h.data (k + 1) _ hk
    have hnew := h'.data (k + 1) st[k + 1] (by rw [← hk, replace_succ])
    rw [hw] at hold hnew
    rw [Function.update_self] at hnew
    rw [hold, hnew]
  · rintro ⟨hv, ht, ha⟩
    have hst : st.head? = some a := by
      cases st with
      | nil =>
        rw [h.top_valid (by omega)] at hv
        cases hv
      | cons b st =>
        rw [← ht]
        exact congrArg some (h.top_data rfl).symm
    rw [replace_of_head hst]
    exact h.overwrite ha

end Operations

end RingStack
