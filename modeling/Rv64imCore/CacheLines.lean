import Rv64imCore.DcacheControl
import Rv64imCore.WriteBack

/-! The lines of the cache of the top: 64 sets of four ways, four words a line. -/

namespace Rv64imCore
set_option autoImplicit true

namespace Ram

def word (r : State) (j : BitVec 6) (b : BitVec 2) : BitVec 64 := (r.banks b.toFin).mem j

theorem bankSel_getLsbD (b : BitVec 2) (f : Fin 4) : (1#4 <<< b).getLsbD f = (f == b.toFin) := by
  revert b f; decide

theorem orWays_onehot (v : Fin 4) (f : Fin 4 → BitVec w) :
    orWays (fun w => mask (w == v) (f w)) = f v := by
  rcases Dcache.way_cases v with rfl | rfl | rfl | rfl <;> simp [orWays]

/-- The word read is the one before a write of the same cycle. -/
theorem rdata_next (r : State) (j : BitVec 6) (b : BitVec 2) (wen : Bool) (m : BitVec 8)
    (d : BitVec 64) : rdata (next r true j (1#4 <<< b) wen m d) = word r j b := by
  simp only [rdata, next, Bool.true_and, reg_load, bankSel_getLsbD, orWays_onehot, Sram.next]
  simp [word]

theorem word_next (r : State) (cs : Bool) (j : BitVec 6) (b : BitVec 2) (wen : Bool) (m : BitVec 8)
    (d : BitVec 64) (j' : BitVec 6) (b' : BitVec 2) :
    word (next r cs j (1#4 <<< b) wen m d) j' b' =
      if cs && wen && j' == j && b' == b then Bytes.merge m d (word r j' b') else word r j' b' := by
  have hb : (b'.toFin == b.toFin) = (b' == b) := by
    by_cases h : b' = b
    · simp [h]
    · have : b'.toFin ≠ b.toFin := fun h' => h (BitVec.eq_of_toFin_eq h')
      simp [h, this]
  simp only [word, next, Sram.next, bankSel_getLsbD, hb]
  cases cs <;> cases wen <;> cases (b' == b) <;> simp

theorem word_read (r : State) (cs : Bool) (j : BitVec 6) (b : BitVec 2) (m : BitVec 8)
    (d : BitVec 64) (j' : BitVec 6) (b' : BitVec 2) :
    word (next r cs j (1#4 <<< b) false m d) j' b' = word r j' b' := by
  rw [word_next]; simp

end Ram

namespace Dcache

abbrev Line := BitVec 21 × BitVec 6

def wordOf (addr : BitVec 32) : BitVec 29 := addr.extractLsb' 3 29
def lineOf (addr : BitVec 32) : Line := (tagOf 6 addr, idxOf 6 addr)
def wordAt (l : Line) (b : BitVec 2) : BitVec 29 := l.1 ++ l.2 ++ b

theorem wordOf_eq (addr : BitVec 32) : wordOf addr = wordAt (lineOf addr) (bankOf addr) := by
  apply BitVec.eq_of_getLsbD_eq
  intro n hn
  simp only [wordOf, wordAt, lineOf, tagOf, idxOf, bankOf, BitVec.getLsbD_append,
    BitVec.getLsbD_extractLsb']
  grind

theorem wordAt_line (addr : BitVec 32) (b : BitVec 2) :
    wordOf (addr.extractLsb' 5 27 ++ b ++ 0#3) = wordAt (lineOf addr) b := by
  apply BitVec.eq_of_getLsbD_eq
  intro n hn
  simp only [wordOf, wordAt, lineOf, tagOf, idxOf, BitVec.getLsbD_append,
    BitVec.getLsbD_extractLsb']
  grind

theorem lineOf_append (t : BitVec 21) (j : BitVec 6) :
    lineOf (BitVec.setWidth 32 (t ++ j ++ 0#5)) = (t, j) := by
  refine Prod.ext ?_ ?_
  all_goals
    apply BitVec.eq_of_getLsbD_eq
    intro n hn
    simp only [lineOf, tagOf, idxOf, BitVec.getLsbD_append, BitVec.getLsbD_extractLsb',
      BitVec.getLsbD_setWidth]
    grind

theorem wordAt_inj {l l' : Line} {b b' : BitVec 2} (h : wordAt l b = wordAt l' b') :
    l = l' ∧ b = b' := by
  have hp : ∀ l b, (wordAt l b).extractLsb' 0 2 = b ∧ (wordAt l b).extractLsb' 2 6 = l.2 ∧
      (wordAt l b).extractLsb' 8 21 = l.1 := by
    intro l b
    refine ⟨?_, ?_, ?_⟩
    all_goals
      apply BitVec.eq_of_getLsbD_eq
      intro n hn
      simp only [wordAt, BitVec.getLsbD_append, BitVec.getLsbD_extractLsb']
      grind
  obtain ⟨h1, h2, h3⟩ := hp l b
  obtain ⟨g1, g2, g3⟩ := hp l' b'
  rw [h] at h1 h2 h3
  exact ⟨Prod.ext (h3.symm.trans g3) (h2.symm.trans g2), h1.symm.trans g1⟩

end Dcache

end Rv64imCore
