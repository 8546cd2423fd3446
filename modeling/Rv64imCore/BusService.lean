import Rv64imCore.Axi
import Rv64imCore.Clocked

/-! The bridge serves both masters, given a slave that takes and answers again and again what it is
offered. A read for nobody costs the second master one more response, and no more. -/

namespace Rv64imCore.Axi
set_option autoImplicit true

/-- The slave again and again takes or answers what it is offered. -/
structure Fair (s : Nat → State) (i : Nat → In) : Prop where
  ar : Clocked.Often fun n => arValid (s n) (i n) = true → (i n).arReady = true
  r : Clocked.Often fun n => rReady (s n) = true → (i n).rValid = true
  aw : Clocked.Often fun n => awValid (s n) (i n) = true → (i n).awReady = true
  w : Clocked.Often fun n => wValid (s n) (i n) = true → (i n).wReady = true
  b : Clocked.Often fun n => bReady (s n) = true → (i n).bValid = true

/-- What stands between a waiting read of the second master and its response: the address, the
response, and before them those of a read that is the first master's, or nobody's. -/
def readRank (s : State) : Nat :=
  if s.arOver then (if s.m0Rget then 3 else 1) else (if s.m0Rget then 4 else 2)

/-- What stands between a waiting write and its response. -/
def writeRank (s : State) : Nat := if s.awOver then (if s.wOver then 5 else 6) else 7

/-- What the second master waits for. -/
def rank (s : State) (wen : Bool) : Nat := if wen then writeRank s else readRank s

/-- The channel that a rank waits for goes on. -/
def Moves (s : State) (i : In) (r : Nat) : Prop :=
  if r = 1 ∨ r = 3 then rReady s = true → i.rValid = true
  else if r = 2 ∨ r = 4 then arValid s i = true → i.arReady = true
  else if r = 5 then bReady s = true → i.bValid = true
  else if r = 6 then wValid s i = true → i.wReady = true
  else awValid s i = true → i.awReady = true

theorem Fair.often_moves {s : Nat → State} {i : Nat → In} (h : Fair s i) (r : Nat) :
    Clocked.Often fun n => Moves (s n) (i n) r := by
  simp only [Moves]
  split
  · exact h.r
  · split
    · exact h.ar
    · split
      · exact h.b
      · split
        · exact h.w
        · exact h.aw

section Rank
variable {s : State} {i : In}

theorem readRank_next (hv : i.m1.valid = true) (hw : i.m1.wen = false) (hr : m1Rdy s i = false) :
    readRank (next s i) ≤ readRank s ∧
      (Moves s i (readRank s) → readRank (next s i) < readRank s) := by
  have h1 : m1Ren i = true := by rw [m1Ren, hv, hw]; rfl
  have hg : (next s i).m0Rget = if rOver s i then false else s.m0Rget := by
    simp only [next, h1, Bool.not_true, Bool.and_false, Bool.false_eq_true, if_false]
  cases ho : s.arOver with
  | false =>
    have hro : rOver s i = false := by rw [rOver, rReady, ho, Bool.and_false]
    have ha : arValid s i = true := by simp [arValid, h1, ho]
    have ho' : (next s i).arOver = i.arReady := by
      simp only [next, hro, ha, ho]
      cases i.arReady <;> rfl
    simp only [readRank, hg, hro, ho, ho', Moves, ha]
    cases i.arReady <;> cases s.m0Rget <;> simp
  | true =>
    have ha : arValid s i = false := by simp [arValid, ho]
    have hro : rOver s i = i.rValid := by rw [rOver, rReady, ho, Bool.and_true]
    have ho' : (next s i).arOver = !i.rValid := by
      simp only [next, hro, ha, ho]
      cases i.rValid <;> simp
    -- a response to the second master would have made it ready
    have hq : s.m0Rget = false → i.rValid = false := by
      intro hg'
      simp only [m1Rdy, m0Valid, h1, hg', hro, Bool.or_eq_false_iff] at hr
      simpa using hr.2
    simp only [readRank, hg, hro, ho, ho', Moves, rReady]
    cases hg' : s.m0Rget with
    | false => simp [hq hg']
    | true => cases i.rValid <;> simp

theorem writeRank_next (hv : i.m1.valid = true) (hw : i.m1.wen = true) (hr : m1Rdy s i = false) :
    writeRank (next s i) ≤ writeRank s ∧
      (Moves s i (writeRank s) → writeRank (next s i) < writeRank s) := by
  have h1 : m1Wen i = true := by rw [m1Wen, hv, hw]; rfl
  have hb : bOver s i = false := by
    rw [m1Rdy, Bool.or_eq_false_iff] at hr
    exact hr.1
  have ha' : (next s i).awOver = (s.awOver || i.awReady) := by
    simp only [next, hb, awValid, h1]
    cases s.awOver <;> cases i.awReady <;> rfl
  have hw' : (next s i).wOver = (s.wOver || i.wReady) := by
    simp only [next, hb, wValid, h1]
    cases s.wOver <;> cases i.wReady <;> rfl
  simp only [writeRank, ha', hw']
  cases ha : s.awOver with
  | false =>
    simp only [Moves, awValid, h1, ha]
    cases i.awReady <;> cases s.wOver <;> cases i.wReady <;> simp
  | true =>
    cases hd : s.wOver with
    | false =>
      simp only [Moves, wValid, h1, hd]
      cases i.wReady <;> simp
    | true =>
      have hv : i.bValid = false := by simpa [bOver, bReady, ha, hd] using hb
      simp [Moves, bReady, ha, hd, hv]

theorem rank_next (hv : i.m1.valid = true) (hr : m1Rdy s i = false) :
    rank (next s i) i.m1.wen ≤ rank s i.m1.wen ∧
      (Moves s i (rank s i.m1.wen) → rank (next s i) i.m1.wen < rank s i.m1.wen) := by
  cases hw : i.m1.wen with
  | false => exact readRank_next hv hw hr
  | true => exact writeRank_next hv hw hr

end Rank

section Run
variable {s : Nat → State} {i : Nat → In}

theorem Fair.serves_m1 (h : Fair s i) (hs : ∀ n, s (n + 1) = next (s n) (i n))
    (hk : ∀ n, (i n).m1.valid = true → m1Rdy (s n) (i n) = false →
      (i (n + 1)).m1.wen = (i n).m1.wen) :
    Clocked.Often fun n => (i n).m1.valid = true → m1Rdy (s n) (i n) = true := by
  intro n
  have hr : ∀ k, (i k).m1.valid = true ∧ m1Rdy (s k) (i k) = false →
      rank (s (k + 1)) (i (k + 1)).m1.wen = rank (next (s k) (i k)) (i k).m1.wen :=
    fun k hw => by rw [hs, hk k hw.1 hw.2]
  obtain ⟨m, hm, hw⟩ := Clocked.ends_of_often (fun r => h.often_moves r)
    (W := fun n => (i n).m1.valid = true ∧ m1Rdy (s n) (i n) = false)
    (fun n => rank (s n) (i n).m1.wen)
    (fun k hw => by
      rw [hr k hw]
      exact (rank_next hw.1 hw.2).1)
    (fun k hw hg => by
      rw [hr k hw]
      exact (rank_next hw.1 hw.2).2 hg) n
  exact ⟨m, hm, fun hv => Bool.of_not_eq_false fun hr => hw ⟨hv, hr⟩⟩

/-- What stands between a waiting read of the first master and its response, where the second one
is silent. -/
def soleRank (s : State) : Nat := if s.arOver then 1 else 2

theorem soleRank_next {s : State} {i : In} (h1 : i.m1.valid = false) (hv : i.m0.valid = true)
    (hw : i.m0.wen = false) (hr : m0Rdy s i = false) : soleRank (next s i) ≤ soleRank s ∧
      ((if soleRank s = 1 then rReady s = true → i.rValid = true
        else arValid s i = true → i.arReady = true) → soleRank (next s i) < soleRank s) := by
  have hm : m0Valid s i = true := by simp [m0Valid, m0Ren, m1Ren, hv, hw, h1]
  have ha : arValid s i = !s.arOver := by simp [arValid, m0Ren, hv, hw]
  have hro : rOver s i = false := by rwa [m0Rdy, hm, Bool.true_and] at hr
  have ho : (next s i).arOver = (s.arOver || i.arReady) := by
    simp only [next, hro, ha]
    cases i.arReady <;> cases s.arOver <;> rfl
  simp only [soleRank, ho, ha, rReady]
  cases hs : s.arOver with
  | false => cases i.arReady <;> simp
  | true =>
    have hv : i.rValid = false := by simpa [rOver, rReady, hs] using hro
    simp [hv]

theorem Fair.serves_m0 (h : Fair s i) (hs : ∀ n, s (n + 1) = next (s n) (i n))
    (hw : ∀ n, (i n).m0.wen = false) (hq : ∀ n, N ≤ n → (i n).m1.valid = false)
    (hn : N ≤ n) : ∃ m, n ≤ m ∧ ((i m).m0.valid = true → m0Rdy (s m) (i m) = true) := by
  have hr : ∀ k, N ≤ k ∧ (i k).m0.valid = true ∧ m0Rdy (s k) (i k) = false →
      soleRank (s (k + 1)) = soleRank (next (s k) (i k)) := fun k _ => by rw [hs]
  obtain ⟨m, hm, he⟩ := Clocked.ends_of_often
    (G := fun r n => if r = 1 then rReady (s n) = true → (i n).rValid = true
      else arValid (s n) (i n) = true → (i n).arReady = true)
    (fun r => by
      split
      · exact h.r
      · exact h.ar)
    (W := fun k => N ≤ k ∧ (i k).m0.valid = true ∧ m0Rdy (s k) (i k) = false)
    (fun k => soleRank (s k))
    (fun k hk => by
      rw [hr k hk]
      exact (soleRank_next (hq k hk.1) hk.2.1 (hw k) hk.2.2).1)
    (fun k hk hg => by
      rw [hr k hk]
      exact (soleRank_next (hq k hk.1) hk.2.1 (hw k) hk.2.2).2 hg) n
  exact ⟨m, hm, fun hv => Bool.of_not_eq_false fun hr => he ⟨Nat.le_trans hn hm, hv, hr⟩⟩

end Run

end Rv64imCore.Axi
