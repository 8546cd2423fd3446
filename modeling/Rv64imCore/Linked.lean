import Mathlib.Data.List.Nodup
import Mathlib.Logic.Function.Basic

/-! Null-terminated lists threaded through an array of nodes. -/

namespace Linked
set_option autoImplicit true

/-- The pointer `p` starts the list of nodes `l`. -/
def Chain (next : ι → Option ι) : Option ι → List ι → Prop
  | p, [] => p = none
  | p, i :: l => p = some i ∧ Chain next (next i) l

theorem Chain.head? (h : Chain next p l) : p = l.head? := by
  cases l with
  | nil => exact h
  | cons i l => exact h.1

/-- A pointer starts one list, so that no list comes back to itself. -/
theorem Chain.unique (h : Chain next p l) (h' : Chain next p l') : l = l' := by
  induction l generalizing p l' with
  | nil =>
    obtain rfl : p = none := h
    cases l' with
    | nil => rfl
    | cons j l' => cases h'.1
  | cons i l ih =>
    obtain ⟨rfl, hl⟩ := h
    cases l' with
    | nil => cases h'
    | cons j l' =>
      obtain ⟨hj, hl'⟩ := h'
      cases hj
      rw [ih hl hl']

theorem Chain.congr (h : Chain next p l) (hn : ∀ i ∈ l, next' i = next i) : Chain next' p l := by
  induction l generalizing p with
  | nil => exact h
  | cons i l ih =>
    refine ⟨h.1, ?_⟩
    rw [hn i List.mem_cons_self]
    exact ih h.2 fun j hj => hn j (List.mem_cons_of_mem i hj)

section Update
variable [DecidableEq ι] {next : ι → Option ι}

theorem Chain.update (h : Chain next p l) (hi : i ∉ l) (q : Option ι) :
    Chain (Function.update next i q) p l := by
  apply h.congr
  intro j hj
  have hji : j ≠ i := by
    rintro rfl
    exact hi hj
  exact Function.update_of_ne hji q next

theorem Chain.push (h : Chain next p l) (hi : i ∉ l) :
    Chain (Function.update next i p) (some i) (i :: l) := by
  refine ⟨rfl, ?_⟩
  rw [Function.update_self]
  exact h.update hi p

theorem Chain.unlink (h : Chain next p (l ++ j :: i :: r)) (hd : (l ++ j :: i :: r).Nodup) :
    Chain (Function.update next j (next i)) p (l ++ j :: r) := by
  induction l generalizing p with
  | nil =>
    obtain ⟨rfl, -, hr⟩ := h
    have hj : j ∉ i :: r := (List.nodup_cons.mp hd).1
    refine ⟨rfl, ?_⟩
    rw [Function.update_self]
    exact hr.update (fun hm => hj (List.mem_cons_of_mem i hm)) (next i)
  | cons k l ih =>
    obtain ⟨rfl, hl⟩ := h
    obtain ⟨hk, hd⟩ := List.nodup_cons.mp hd
    have hkj : k ≠ j := by
      rintro rfl
      exact hk (List.mem_append_right l List.mem_cons_self)
    refine ⟨rfl, ?_⟩
    rw [Function.update_of_ne hkj]
    exact ih hl hd

end Update

end Linked
