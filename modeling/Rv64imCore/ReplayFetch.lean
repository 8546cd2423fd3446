import Rv64imCore.ReplayTables

/-! The replay predicts every delivered branch in the direction that the fetch unit chooses. -/

namespace Rv64imCore
set_option autoImplicit true

namespace Replay.Predictor

structure FetchCycle where
  port : Ifu.In
  updateId : Nat

def ifu : Clocked.Machine Ifu.State FetchCycle where
  next s i := Ifu.next s i.port

def fetchSample (o : Observer) (s : Ifu.State) (i : FetchCycle) : Sample :=
  { lookupEvent := Ifu.addrShake s i.port, lookupPc := Ifu.pcNext s i.port, lookupId := o.lookups
    lookupValid := (ifu.next s i).satcnt.predVld, lookupCounter := (ifu.next s i).satcnt.cntVal
    fetchEvent := Ifu.instOk s i.port, fetchPc := Ifu.ifPc s i.port
    fetchConditional := Ifu.condBxx (Ifu.inst s i.port)
    fetchFallbackSign := (Ifu.inst s i.port).getLsbD 31
    fetchPredictedTaken := Ifu.dirbrnPt s (Ifu.inst s i.port), fetchId := o.lookups - 1
    updateEvent := i.port.bx.cond, updatePc := i.port.bx.pc, updateActualTaken := i.port.bx.pt
    updateId := i.updateId }

def fetchObserver (s : Ifu.State) (i : Nat → FetchCycle) (n : Nat) : Observer :=
  ifu.history .init (fun o s a => o.sample (fetchSample o s a)) s.reset i n

/-- A request is under way, or its instruction waits. -/
def Outstanding (s : Ifu.State) : Prop := s.rspRdy = true ∨ s.dataStallVld = true

/-- The latest lookup is that of the outstanding request. -/
structure Follows (t : State) (o : Observer) (s : Ifu.State) : Prop where
  tracks : Tracks t s.satcnt
  counted : Outstanding s → 0 < o.lookups
  latest : Outstanding s → indexOf s.pc < implementedEntries →
    Remembers t (o.lookups - 1) s.satcnt.predVld s.satcnt.cntVal

theorem outstanding_of_instOk (h : Ifu.instOk s i = true) : Outstanding s := by
  simp only [Ifu.instOk, Ifu.dataShake, Bool.and_eq_true, Bool.or_eq_true] at h
  rcases h.1.1 with h | h
  · exact .inl h.1
  · exact .inr h

theorem outstanding_of_next (h : Outstanding (Ifu.next s i)) (ha : Ifu.addrShake s i = false) :
    Outstanding s := by
  simp only [Outstanding, Ifu.next, ha, Ifu.dataShake] at h ⊢
  cases hr : s.rspRdy with
  | true => exact .inl rfl
  | false =>
    cases hd : s.dataStallVld with
    | true => exact .inr rfl
    | false => simp [hr, hd] at h

theorem next_lookup (h : Ifu.addrShake s i = true) : (Ifu.next s i).pc = Ifu.pcNext s i ∧
    (Ifu.next s i).satcnt.predVld = s.satcnt.cntVld (Satcnt.index (Ifu.pcNext s i)) ∧
    (Ifu.next s i).satcnt.cntVal = s.satcnt.satCnt (Satcnt.index (Ifu.pcNext s i)) := by
  simp [Ifu.next, Satcnt.next, h, reg]

theorem next_waiting (h : Ifu.addrShake s i = false) : (Ifu.next s i).pc = s.pc ∧
    (Ifu.next s i).satcnt.predVld = s.satcnt.predVld ∧
    (Ifu.next s i).satcnt.cntVal = s.satcnt.cntVal := by
  simp [Ifu.next, Satcnt.next, h, reg]

theorem prediction_eq (s : Ifu.State) {inst : BitVec 32} (h : Ifu.condBxx inst = true) :
    predictionFromState s.satcnt.predVld s.satcnt.cntVal.toNat (inst.getLsbD 31)
      = Ifu.dirbrnPt s inst := by
  rw [predictionFromState, Ifu.dirbrnPt, if_pos h, Ifu.condPt, h, counter_bit, Satcnt.predPt]
  cases s.satcnt.predVld <;> simp

theorem Follows.next {t : State} {o : Observer} {s : Ifu.State} (h : Follows t o s)
    (path : String) (i : FetchCycle) :
    ∃ t', (sampleRaw o.cycleCount (fetchSample o s i)).foldlM (step path) t = .ok t' ∧
      Follows t' (o.sample (fetchSample o s i)) (ifu.next s i) := by
  have hp : (fetchSample o s i).Shows s.satcnt i.port.bx := by
    exact ⟨⟨fun h => (next_lookup h).2.1, fun h => (next_lookup h).2.2⟩, rfl, rfl, rfl⟩
  have hid (hf : (Ifu.instOk s i.port && Ifu.condBxx (Ifu.inst s i.port)) = true) :
      o.lookups - 1 ≠ o.lookups := by
    rw [Bool.and_eq_true] at hf
    have := h.counted (outstanding_of_instOk hf.1)
    omega
  have hr (hf : (Ifu.instOk s i.port && Ifu.condBxx (Ifu.inst s i.port)) = true)
      (hi : indexOf (Ifu.ifPc s i.port) < implementedEntries) : ∃ valid counter,
      Remembers t (o.lookups - 1) valid counter ∧
      predictionFromState valid counter.toNat ((Ifu.inst s i.port).getLsbD 31)
        = Ifu.dirbrnPt s (Ifu.inst s i.port) := by
    rw [Bool.and_eq_true] at hf
    rw [Ifu.ifPc, if_pos hf.1] at hi
    exact ⟨_, _, h.latest (outstanding_of_instOk hf.1) hi, prediction_eq s hf.2⟩
  obtain ⟨t', hl, ht, ha⟩ := h.tracks.sample path o.cycleCount hp
    (fun hf _ => hid hf) hr (Ifu.pcNext s i.port) (Ifu.addrShake s i.port)
  refine ⟨t', hl, ht, fun ho => ?_, fun ho hi => ?_⟩
  · cases hs : Ifu.addrShake s i.port with
    | true => simp [Observer.sample, fetchSample, hs]
    | false =>
      exact Nat.lt_of_lt_of_le (h.counted (outstanding_of_next ho hs)) (Nat.le_add_right _ _)
  · cases hs : Ifu.addrShake s i.port with
    | true =>
      have hpc : (ifu.next s i).pc = Ifu.pcNext s i.port := (next_lookup hs).1
      have hn : (o.sample (fetchSample o s i)).lookups - 1 = o.lookups := by
        simp [Observer.sample, fetchSample, hs]
      rw [hpc] at hi
      rw [hn]
      exact ha.new hs hi
    | false =>
      obtain ⟨hpc, hv, hc⟩ := next_waiting hs
      have hn : (o.sample (fetchSample o s i)).lookups = o.lookups := by
        simp [Observer.sample, fetchSample, hs]
      have hne : (fetchSample o s i).lookupEvent = true → o.lookups - 1 ≠ o.lookups :=
        fun h' => absurd (hs.symm.trans h') (by decide)
      have hi : indexOf s.pc < implementedEntries := hpc ▸ hi
      change Remembers t' _ (Ifu.next s i.port).satcnt.predVld (Ifu.next s i.port).satcnt.cntVal
      rw [Remembers, hn, hv, hc, ha.old _ hne]
      exact h.latest (outstanding_of_next ho hs) hi

section Run
variable (s : Ifu.State) (i : Nat → FetchCycle)

theorem follows_run (path : String) (n : Nat) :
    ∃ t, (fetchObserver s i n).timeline.foldlM (step path) (.init .init) = .ok t ∧
      Follows t (fetchObserver s i n) (ifu.run s.reset i n) := by
  induction n with
  | zero =>
    refine ⟨_, rfl, Tracks.reset s.satcnt, fun ho => ?_, fun ho => ?_⟩
    · rcases ho with ho | ho <;> cases ho
    · rcases ho with ho | ho <;> cases ho
  | succ n ih =>
    obtain ⟨t, hl, ht⟩ := ih
    obtain ⟨t', hl', ht'⟩ := ht.next path (i n)
    exact ⟨t', sample_run hl hl', ht'⟩

/-- The registers of an outstanding request are those of the cycle that looked it up. -/
theorem lookup_of_outstanding (n : Nat) (ho : Outstanding (ifu.run s.reset i n)) :
    ∃ k, k < n ∧ Ifu.addrShake (ifu.run s.reset i k) (i k).port = true ∧
      (∀ j, k < j → j < n → Ifu.addrShake (ifu.run s.reset i j) (i j).port = false) ∧
      (ifu.run s.reset i n).pc = Ifu.pcNext (ifu.run s.reset i k) (i k).port ∧
      (ifu.run s.reset i n).satcnt.predVld
        = (ifu.run s.reset i k).satcnt.cntVld (Satcnt.index (ifu.run s.reset i n).pc) ∧
      (ifu.run s.reset i n).satcnt.cntVal
        = (ifu.run s.reset i k).satcnt.satCnt (Satcnt.index (ifu.run s.reset i n).pc) := by
  induction n with
  | zero => rcases ho with ho | ho <;> cases ho
  | succ n ih =>
    rw [Clocked.Machine.run_succ] at ho ⊢
    cases hs : Ifu.addrShake (ifu.run s.reset i n) (i n).port with
    | true =>
      obtain ⟨hpc, hv, hc⟩ := next_lookup hs
      refine ⟨n, Nat.lt_succ_self n, hs, fun j hj hjn => ?_, hpc, ?_, ?_⟩
      · exact absurd hj (Nat.not_lt.mpr (Nat.le_of_lt_succ hjn))
      · exact hv.trans (congrArg _ (congrArg _ hpc.symm))
      · exact hc.trans (congrArg _ (congrArg _ hpc.symm))
    | false =>
      obtain ⟨k, hk, hks, hlast, hpc, hv, hc⟩ := ih (outstanding_of_next ho hs)
      obtain ⟨hpc', hv', hc'⟩ := next_waiting hs
      have hpc' : (ifu.next (ifu.run s.reset i n) (i n)).pc = (ifu.run s.reset i n).pc := hpc'
      refine ⟨k, Nat.lt_succ_of_lt hk, hks, fun j hj hjn => ?_, ?_, ?_, ?_⟩
      · rcases Nat.lt_or_eq_of_le (Nat.le_of_lt_succ hjn) with hjn | rfl
        · exact hlast j hj hjn
        · exact hs
      · exact hpc'.trans hpc
      · exact (hv'.trans hv).trans (congrArg _ (congrArg _ hpc'.symm))
      · exact (hc'.trans hc).trans (congrArg _ (congrArg _ hpc'.symm))

end Run

/-- The whole replay of a run of the fetch unit finds no lookup and no prediction that differs. -/
theorem replay_fetch (path : String) (s : Ifu.State) (i : Nat → FetchCycle) (n : Nat) :
    ∃ r, replay path (trace (fetchObserver s i n).timeline) = .ok r ∧
      r.lookupStateMismatchCount = 0 ∧ r.predictionMismatchCount = 0 := by
  obtain ⟨t, hl, ht⟩ := follows_run s i path n
  refine ⟨_, replay_of_loops (loops_trace hl), ?_, ?_⟩
  · exact congrArg List.length ht.tracks.lookups
  · exact congrArg List.length ht.tracks.predictions

/-- From reset, whatever is looked up, delivered and trained in each cycle, the replay of the
observed events holds the tables of the counters at every entry but the last, agrees with every
lookup and prediction, and from the tables at its lookup predicts each delivered branch as the fetch
unit does. -/
theorem branch_replay_exact (path : String) :
    (∀ (s : Satcnt.State) (i : Nat → TableCycle) (n : Nat), ∃ t,
      loops path (trace (tableObserver s i n).timeline) = .ok (t, 0) ∧
      t.tables.Same (tables.run s.reset i n) ∧ t.lookupStateMismatches = []) ∧
    (∀ (s : Ifu.State) (i : Nat → FetchCycle) (n : Nat), ∃ t,
      loops path (trace (fetchObserver s i n).timeline) = .ok (t, 0) ∧
      t.tables.Same (ifu.run s.reset i n).satcnt ∧
      t.lookupStateMismatches = [] ∧ t.mismatches = []) ∧
    ∀ (s : Ifu.State) (i : Nat → FetchCycle) (n : Nat),
      let x := ifu.run s.reset i
      let inst := Ifu.inst (x n) (i n).port
      let pc := Ifu.ifPc (x n) (i n).port
      Ifu.instOk (x n) (i n).port = true → Ifu.condBxx inst = true →
      indexOf pc < implementedEntries →
      ∃ k, k < n ∧ Ifu.addrShake (x k) (i k).port = true ∧ Ifu.pcNext (x k) (i k).port = pc ∧
        (∀ j, k < j → j < n → Ifu.addrShake (x j) (i j).port = false) ∧
        ∃ t, loops path (trace (fetchObserver s i k).timeline) = .ok (t, 0) ∧
          predictionFromState (t.tables.valid (indexOf pc)) (t.tables.counters (indexOf pc))
            (inst.getLsbD 31) = Ifu.dirbrnPt (x n) inst := by
  refine ⟨fun s i n => ?_, fun s i n => ?_, ?_⟩
  · obtain ⟨t, hl, ht⟩ := tables_run path s i n
    exact ⟨t, loops_trace hl, ht.same, ht.lookups⟩
  · obtain ⟨t, hl, ht⟩ := follows_run s i path n
    exact ⟨t, loops_trace hl, ht.tracks.same, ht.tracks.lookups, ht.tracks.predictions⟩
  · intro s i n x inst pc hk hb hi
    obtain ⟨k, hkn, hs, hlast, hpc, hv, hc⟩ :=
      lookup_of_outstanding s i n (outstanding_of_instOk hk)
    obtain ⟨t, hl, ht⟩ := follows_run s i path k
    have hpc' : pc = (x n).pc := if_pos hk
    refine ⟨k, hkn, hs, hpc.symm.trans hpc'.symm, hlast, t, loops_trace hl, ?_⟩
    rw [indexOf_eq, hpc'] at hi ⊢
    obtain ⟨hct, hvt⟩ := ht.tracks.same _ hi
    rw [hvt, hct, ← hv, ← hc]
    exact prediction_eq _ hb

end Replay.Predictor

end Rv64imCore
