import Mathlib.Logic.Function.Basic

/-! Write-back caching in general: slots that hold copies of lines over a backing store. -/

namespace WriteBack
set_option autoImplicit true

/-- The slots of a cache. Slot `x` may hold the line `line x`, word by word. -/
structure Slots (ι Λ κ β : Type) where
  valid : ι → Prop
  line : ι → Λ
  dirty : ι → Prop
  word : ι → κ → β

/-- Slots and backing store together hold the contents `flat`. The slots in `out` are being
replaced: nothing is said of their words, and they excuse no word of the backing store. -/
structure Coherent (s : Slots ι Λ κ β) (back flat : Λ → κ → β) (out : ι → Prop) : Prop where
  distinct : ∀ x y, s.valid x → s.valid y → s.line x = s.line y → x = y
  words : ∀ x c, s.valid x → ¬out x → s.word x c = flat (s.line x) c
  backing : ∀ l c, (∀ x, s.valid x → ¬out x → s.line x = l → ¬s.dirty x) → back l c = flat l c

variable {s s' : Slots ι Λ κ β} {back back' flat flat' : Λ → κ → β} {out : ι → Prop}

theorem Coherent.empty (hv : ∀ x, ¬s.valid x) : Coherent s back back fun _ => False where
  distinct := fun x _ hx => absurd hx (hv x)
  words := fun x _ hx => absurd hx (hv x)
  backing := fun _ _ _ => rfl

/-- The words of slots that are being replaced do not matter. -/
theorem Coherent.frame (h : Coherent s back flat out) (hv : s'.valid = s.valid)
    (hl : s'.line = s.line) (hd : s'.dirty = s.dirty)
    (hw : ∀ x c, ¬out x → s'.word x c = s.word x c) : Coherent s' back flat out where
  distinct := by rw [hv, hl]; exact h.distinct
  words := by
    intro x c hx ho
    rw [hw x c ho, hl]
    exact h.words x c (hv ▸ hx) ho
  backing := by rw [hv, hl, hd]; exact h.backing

theorem Coherent.store (h : Coherent s back flat fun _ => False) {x : ι} (hx : s.valid x)
    (c : κ) (v : β) (hv : s'.valid = s.valid) (hl : s'.line = s.line)
    (hd : ∀ y, s.dirty y → s'.dirty y) (hdx : s'.dirty x)
    (hwx : s'.word x c = v) (hw : ∀ y b, ¬(y = x ∧ b = c) → s'.word y b = s.word y b)
    (hfx : flat' (s.line x) c = v)
    (hf : ∀ l b, ¬(l = s.line x ∧ b = c) → flat' l b = flat l b) :
    Coherent s' back flat' fun _ => False where
  distinct := by rw [hv, hl]; exact h.distinct
  words := by
    intro y b hy _
    rw [hv] at hy
    rw [hl]
    by_cases hyx : y = x ∧ b = c
    · rw [hyx.1, hyx.2, hwx, hfx]
    · have hly : ¬(s.line y = s.line x ∧ b = c) :=
        fun h' => hyx ⟨h.distinct y x hy hx h'.1, h'.2⟩
      rw [hw y b hyx, hf _ _ hly]
      exact h.words y b hy fun h => h
  backing := by
    intro l b hclean
    rw [hv, hl] at hclean
    by_cases hlx : l = s.line x
    · exact absurd hdx (hclean x hx (fun h => h) hlx.symm)
    · rw [hf l b fun h' => hlx h'.1]
      exact h.backing l b fun y hy ho hly hdy => hclean y hy ho hly (hd y hdy)

theorem Coherent.writeBack (h : Coherent s back flat out) (l : Λ) (c : κ)
    (hb : back' l c = flat l c) (hb' : ∀ m b, ¬(m = l ∧ b = c) → back' m b = back m b) :
    Coherent s back' flat out where
  distinct := h.distinct
  words := h.words
  backing := by
    intro m b hclean
    by_cases hm : m = l ∧ b = c
    · rw [hm.1, hm.2, hb]
    · rw [hb' m b hm]
      exact h.backing m b hclean

/-- A slot may be replaced when it is clean or has been written back. -/
theorem Coherent.evict (h : Coherent s back flat fun _ => False) (x : ι)
    (hx : s.valid x → s.dirty x → ∀ c, back (s.line x) c = flat (s.line x) c) :
    Coherent s back flat fun y => y = x where
  distinct := h.distinct
  words := fun y c hy _ => h.words y c hy fun h => h
  backing := by
    intro l c hclean
    by_cases hb : s.valid x ∧ s.dirty x ∧ s.line x = l
    · rw [← hb.2.2]
      exact hx hb.1 hb.2.1 c
    · apply h.backing l c
      intro y hy _ hly hdy
      by_cases hyx : y = x
      · exact hb ⟨hyx ▸ hy, hyx ▸ hdy, hyx ▸ hly⟩
      · exact hclean y hy hyx hly hdy

theorem Coherent.install {x : ι} {l : Λ} (h : Coherent s back flat fun y => y = x)
    (habs : ∀ y, s.valid y → s.line y ≠ l) (hvx : s'.valid x)
    (hv : ∀ y, y ≠ x → (s'.valid y ↔ s.valid y)) (hlx : s'.line x = l)
    (hl : ∀ y, y ≠ x → s'.line y = s.line y) (hd : ∀ y, y ≠ x → s.dirty y → s'.dirty y)
    (hwx : ∀ c, s'.word x c = flat' l c) (hw : ∀ y c, y ≠ x → s'.word y c = s.word y c)
    (hfx : ¬s'.dirty x → ∀ c, flat' l c = flat l c) (hf : ∀ m c, m ≠ l → flat' m c = flat m c) :
    Coherent s' back flat' fun _ => False where
  distinct := by
    intro y z hy hz hyz
    by_cases hyx : y = x
    · by_cases hzx : z = x
      · rw [hyx, hzx]
      · rw [hyx, hlx, hl z hzx] at hyz
        exact absurd hyz.symm (habs z ((hv z hzx).mp hz))
    · by_cases hzx : z = x
      · rw [hzx, hlx, hl y hyx] at hyz
        exact absurd hyz (habs y ((hv y hyx).mp hy))
      · rw [hl y hyx, hl z hzx] at hyz
        exact h.distinct y z ((hv y hyx).mp hy) ((hv z hzx).mp hz) hyz
  words := by
    intro y c hy _
    by_cases hyx : y = x
    · rw [hyx, hwx, hlx]
    · have hy' := (hv y hyx).mp hy
      rw [hw y c hyx, hl y hyx, hf _ _ (habs y hy')]
      exact h.words y c hy' hyx
  backing := by
    intro m c hclean
    by_cases hm : m = l
    · have hxc : ¬s'.dirty x := hclean x hvx (fun h => h) (hlx.trans hm.symm)
      rw [hm, hfx hxc]
      exact h.backing l c fun y hy _ hly => absurd hly (habs y hy)
    · rw [hf m c hm]
      refine h.backing m c fun y hy hyx hly hdy => ?_
      exact hclean y ((hv y hyx).mpr hy) (fun h => h) ((hl y hyx).trans hly) (hd y hyx hdy)

end WriteBack
