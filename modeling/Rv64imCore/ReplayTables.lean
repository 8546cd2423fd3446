import Rv64imCore.Clocked
import Rv64imCore.Ifu
import Rv64imCore.ReplayPredictor

/-! From the observed events alone the replay holds the tables of `rv64im_core_satcnt`. -/

namespace Rv64imCore
set_option autoImplicit true

namespace Replay.Predictor

/-- The replayed tables are those of the counters, at every entry that both have. -/
def Tables.Same (t : Tables) (s : Satcnt.State) : Prop :=
  ∀ k : BitVec 10, k.toNat < implementedEntries →
    t.counters k.toNat = (s.satCnt k).toNat ∧ t.valid k.toNat = s.cntVld k

theorem Tables.same_reset (s : Satcnt.State) : Tables.init.Same s.reset := by
  intro k hk
  have hg : Satcnt.generated k = true := by
    rw [Satcnt.generated, bne_iff_ne]
    rintro rfl
    exact absurd hk (by decide)
  simp only [Tables.init, Satcnt.State.reset, hg]
  exact ⟨rfl, rfl⟩

theorem generated_iff (k : BitVec 10) :
    Satcnt.generated k = true ↔ k.toNat < implementedEntries := by
  rw [Satcnt.generated, bne_iff_ne, Ne, ← BitVec.toNat_inj]
  have hk := k.isLt
  change ¬k.toNat = 1023 ↔ k.toNat < 1023
  omega

theorem indexOf_eq (pc : BitVec 64) : indexOf pc = (Satcnt.index pc).toNat := by
  rw [indexOf, Satcnt.index, BitVec.extractLsb'_toNat]
  exact Nat.and_two_pow_sub_one_eq_mod _ 10

theorem indexOf_le (pc : BitVec 64) : indexOf pc ≤ implementedEntries := Nat.and_le_right

theorem cntNext_toNat (c : BitVec 2) (taken : Bool) :
    (Satcnt.cntNext c taken).toNat = trained c.toNat taken := by
  revert c taken
  decide

theorem counter_bit (c : BitVec 2) : (c.toNat &&& 0b10 != 0) = c.getLsbD 1 := by
  revert c
  decide

section Step
variable {t : State} {s : Satcnt.State} {p : Sample} (path : String) (cycle : Nat)

theorem Tables.Same.update {t : Tables} (h : t.Same s) {bx : Bx} (hb : bx.cond = true)
    (predPc : BitVec 64) (predEn : Bool) :
    (t.train (indexOf bx.pc) bx.pt).Same (Satcnt.next s bx predPc predEn) := by
  intro k hk
  obtain ⟨hc, hv⟩ := h k hk
  have hi : k.toNat = indexOf bx.pc ↔ Satcnt.index bx.pc = k := by
    rw [indexOf_eq, ← BitVec.toNat_inj, eq_comm]
  simp only [Tables.train, Satcnt.next, (generated_iff k).mpr hk, hb, hi, Bool.true_and,
    Bool.and_true, beq_iff_eq, hc, hv]
  by_cases hk : Satcnt.index bx.pc = k <;> simp [hk, cntNext_toNat]

theorem Tables.Same.keep {t : Tables} (h : t.Same s) {bx : Bx} (hb : bx.cond = false)
    (predPc : BitVec 64) (predEn : Bool) : t.Same (Satcnt.next s bx predPc predEn) := by
  intro k hk
  simp only [Satcnt.next, hb, Bool.and_false]
  exact h k hk

/-- An update of the last entry is seen in no other. -/
theorem Tables.Same.of_train_last {t : Tables} {pc : BitVec 64}
    (h : (t.train (indexOf pc) taken).Same s) (hi : ¬indexOf pc < implementedEntries) :
    t.Same s := by
  intro k hk
  have hne : k.toNat ≠ indexOf pc := fun he => hi (he ▸ hk)
  have hk' := h k hk
  simp only [Tables.train, if_neg hne] at hk'
  exact hk'

/-- The replay agrees with the tables, and no observation has contradicted it. -/
structure Tracks (t : State) (s : Satcnt.State) : Prop where
  same : t.tables.Same s
  lookups : t.lookupStateMismatches = []
  predictions : t.mismatches = []

theorem Tracks.init {u : Tables} (h : u.Same s) : Tracks (.init u) s := ⟨h, rfl, rfl⟩

theorem Tracks.reset (s : Satcnt.State) : Tracks (.init .init) s.reset :=
  .init (Tables.same_reset s)

/-- The port of a sample shows what the tables hold at the looked-up pc. -/
structure Sample.ShowsLookup (p : Sample) (s : Satcnt.State) : Prop where
  valid : p.lookupEvent = true → p.lookupValid = s.cntVld (Satcnt.index p.lookupPc)
  counter : p.lookupEvent = true → p.lookupCounter = s.satCnt (Satcnt.index p.lookupPc)

/-- The state that a lookup remembers. -/
def Remembers (t : State) (id : Nat) (valid : Bool) (counter : BitVec 2) : Prop :=
  (t.lookups.lookup id).map (·.state) = some (valid, counter.toNat)

theorem step_eq {e : Event} {pc : BitVec 64} (he : e.index = indexOf pc) (hpc : e.pc = pc.toNat)
    (hi : indexOf pc < implementedEntries) :
    ¬e.index ≠ (e.pc >>> 2) &&& (depth - 1) ∧ ¬e.index = implementedEntries := by
  rw [he, hpc]
  exact ⟨fun h => h rfl, Nat.ne_of_lt hi⟩

theorem step_last {e : Event} {pc : BitVec 64} (he : e.index = indexOf pc) (hpc : e.pc = pc.toNat)
    (hi : ¬indexOf pc < implementedEntries) :
    step path t e = .ok { t with unsupported := t.unsupported + 1 } := by
  have h1 : ¬e.index ≠ (e.pc >>> 2) &&& (depth - 1) := by
    rw [he, hpc]
    exact fun h => h rfl
  have h2 : e.index = implementedEntries := by
    rw [he]
    exact Nat.le_antisymm (indexOf_le pc) (Nat.le_of_not_lt hi)
  rw [step, if_neg h1, if_pos h2]

theorem Tracks.lookup (h : Tracks t s) (hp : p.ShowsLookup s) (hl : p.lookupEvent = true) :
    ∃ t', step path t (p.lookup cycle) = .ok t' ∧ Tracks t' s ∧
      (indexOf p.lookupPc < implementedEntries →
        Remembers t' p.lookupId p.lookupValid p.lookupCounter) ∧
      ∀ id, id ≠ p.lookupId → t'.lookups.lookup id = t.lookups.lookup id := by
  by_cases hi : indexOf p.lookupPc < implementedEntries
  · obtain ⟨h1, h2⟩ := step_eq (e := p.lookup cycle) rfl rfl hi
    have hs : (t.tables.valid (p.lookup cycle).index, t.tables.counters (p.lookup cycle).index)
        = (p.lookupValid, p.lookupCounter.toNat) := by
      change (t.tables.valid (indexOf p.lookupPc), t.tables.counters (indexOf p.lookupPc)) = _
      rw [indexOf_eq] at hi ⊢
      obtain ⟨hc, hv⟩ := h.same _ hi
      rw [hc, hv, hp.valid hl, hp.counter hl]
    rw [step, if_neg h1, if_neg h2]
    refine ⟨_, rfl, ⟨h.same, ?_, h.predictions⟩, fun _ => ?_, fun id hid => ?_⟩
    · change (if _ ≠ (p.lookupValid, p.lookupCounter.toNat) then _ else _) = _
      rw [if_neg (not_not_intro hs)]
      exact h.lookups
    · change ((Dict.put _ p.lookupId _).lookup p.lookupId).map _ = _
      rw [Dict.lookup_put, if_pos rfl]
      exact congrArg some hs
    · exact (Dict.lookup_put _ _ _ _).trans (if_neg hid)
  · rw [step_last path (e := p.lookup cycle) rfl rfl hi]
    exact ⟨_, rfl, ⟨h.same, h.lookups, h.predictions⟩, fun hi' => absurd hi' hi, fun _ _ => rfl⟩

theorem Tracks.prediction (h : Tracks t s)
    (hr : indexOf p.fetchPc < implementedEntries → ∃ valid counter,
      Remembers t p.fetchId valid counter ∧
      predictionFromState valid counter.toNat p.fetchFallbackSign = p.fetchPredictedTaken) :
    ∃ t', step path t (p.prediction cycle) = .ok t' ∧ Tracks t' s ∧ t'.lookups = t.lookups := by
  by_cases hi : indexOf p.fetchPc < implementedEntries
  · obtain ⟨h1, h2⟩ := step_eq (e := p.prediction cycle) rfl rfl hi
    obtain ⟨valid, counter, hr, hd⟩ := hr hi
    obtain ⟨l, hl, hs⟩ := Option.map_eq_some_iff.mp hr
    rw [step, if_neg h1, if_neg h2]
    have hl' : t.lookups.lookup (p.prediction cycle).eventId = some l := hl
    simp only [Sample.prediction] at hl' ⊢
    rw [hl']
    refine ⟨_, rfl, ⟨h.same, h.lookups, ?_⟩, rfl⟩
    change (if (predictionFromState l.state.1 l.state.2 p.fetchFallbackSign
      != p.fetchPredictedTaken) = true then _ else _) = _
    rw [hs, hd, bne_self_eq_false]
    exact h.predictions
  · rw [step_last path (e := p.prediction cycle) rfl rfl hi]
    exact ⟨_, rfl, ⟨h.same, h.lookups, h.predictions⟩, rfl⟩

theorem Tracks.update (h : Tracks t s) {bx : Bx} (hb : bx.cond = true) (hpc : p.updatePc = bx.pc)
    (ht : p.updateActualTaken = bx.pt) (predPc : BitVec 64) (predEn : Bool) :
    ∃ t', step path t (p.update cycle) = .ok t' ∧
      Tracks t' (Satcnt.next s bx predPc predEn) ∧ t'.lookups = t.lookups := by
  have hs := h.same.update hb predPc predEn
  rw [← hpc, ← ht] at hs
  by_cases hi : indexOf p.updatePc < implementedEntries
  · obtain ⟨h1, h2⟩ := step_eq (e := p.update cycle) rfl rfl hi
    rw [step, if_neg h1, if_neg h2]
    exact ⟨_, rfl, ⟨hs, h.lookups, h.predictions⟩, rfl⟩
  · rw [step_last path (e := p.update cycle) rfl rfl hi]
    exact ⟨_, rfl, ⟨hs.of_train_last hi, h.lookups, h.predictions⟩, rfl⟩

/-- What a sample says about a cycle of the counters. -/
structure Sample.Shows (p : Sample) (s : Satcnt.State) (bx : Bx) : Prop
    extends p.ShowsLookup s where
  updateEvent : p.updateEvent = bx.cond
  updatePc : p.updatePc = bx.pc
  updateActualTaken : p.updateActualTaken = bx.pt

/-- The lookups of a sample are numbered: a new one is remembered and disturbs no other. -/
structure After (t t' : State) (p : Sample) : Prop where
  new : p.lookupEvent = true → indexOf p.lookupPc < implementedEntries →
    Remembers t' p.lookupId p.lookupValid p.lookupCounter
  old : ∀ id, (p.lookupEvent = true → id ≠ p.lookupId) →
    t'.lookups.lookup id = t.lookups.lookup id

theorem Tracks.sample (h : Tracks t s) {bx : Bx} (hp : p.Shows s bx)
    (hid : (p.fetchEvent && p.fetchConditional) = true → p.lookupEvent = true →
      p.fetchId ≠ p.lookupId)
    (hr : (p.fetchEvent && p.fetchConditional) = true →
      indexOf p.fetchPc < implementedEntries → ∃ valid counter,
      Remembers t p.fetchId valid counter ∧
      predictionFromState valid counter.toNat p.fetchFallbackSign = p.fetchPredictedTaken)
    (predPc : BitVec 64) (predEn : Bool) :
    ∃ t', (sampleRaw cycle p).foldlM (step path) t = .ok t' ∧
      Tracks t' (Satcnt.next s bx predPc predEn) ∧ After t t' p := by
  have hlook : ∃ t', (if p.lookupEvent then [p.lookup cycle]
      else []).foldlM (step path) t = .ok t' ∧ Tracks t' s ∧ After t t' p := by
    cases hl : p.lookupEvent with
    | false =>
      exact ⟨t, rfl, h, fun h' => absurd h' (by rw [hl]; decide), fun _ _ => rfl⟩
    | true =>
      obtain ⟨t', hs, ht, hn, ho⟩ := h.lookup path cycle
        hp.toShowsLookup hl
      exact ⟨t', by simp [hs], ht, fun _ => hn, fun id h' => ho id (h' hl)⟩
  obtain ⟨t₁, hs₁, ht₁, ha⟩ := hlook
  have hpred : ∃ t', (if p.fetchEvent && p.fetchConditional then [p.prediction cycle]
      else []).foldlM (step path) t₁ = .ok t' ∧ Tracks t' s ∧ t'.lookups = t₁.lookups := by
    cases hf : p.fetchEvent && p.fetchConditional with
    | false => exact ⟨t₁, rfl, ht₁, rfl⟩
    | true =>
      have hr' := hr hf
      simp only [Remembers, ← ha.old _ (hid hf)] at hr'
      obtain ⟨t', hs, ht, hk⟩ := ht₁.prediction path cycle hr'
      exact ⟨t', by simp [hs], ht, hk⟩
  obtain ⟨t₂, hs₂, ht₂, hk₂⟩ := hpred
  have hup : ∃ t', (if p.updateEvent then [p.update cycle]
      else []).foldlM (step path) t₂ = .ok t' ∧ Tracks t' (Satcnt.next s bx predPc predEn) ∧
        t'.lookups = t₂.lookups := by
    rw [hp.updateEvent]
    cases hb : bx.cond with
    | false => exact ⟨t₂, rfl, ⟨ht₂.same.keep hb _ _, ht₂.lookups, ht₂.predictions⟩, rfl⟩
    | true =>
      obtain ⟨t', hs, ht, hk⟩ := ht₂.update path cycle hb hp.updatePc
        hp.updateActualTaken predPc predEn
      exact ⟨t', by simp [hs], ht, hk⟩
  obtain ⟨t₃, hs₃, ht₃, hk₃⟩ := hup
  refine ⟨t₃, ?_, ht₃, ?_⟩
  · rw [sampleRaw, List.foldlM_append, hs₁]
    change List.foldlM _ _ _ = _
    rw [List.foldlM_append, hs₂]
    exact hs₃
  · have hk := hk₃.trans hk₂
    exact ⟨fun hl hi => by rw [Remembers, hk]; exact ha.new hl hi,
      fun id h' => by rw [hk]; exact ha.old id h'⟩

end Step

/-- The observer over a run: the ids of the lookups count them. -/
structure Observer where
  cycleCount : Nat
  lookups : Nat
  timeline : List Event

def Observer.init : Observer := { cycleCount := 0, lookups := 0, timeline := [] }

def Observer.sample (o : Observer) (p : Sample) : Observer :=
  { cycleCount := o.cycleCount + 1
    lookups := o.lookups + p.lookupEvent.toNat
    timeline := o.timeline ++ sampleRaw o.cycleCount p }

/-- A trace from reset on. -/
def trace (timeline : List Event) : Trace :=
  { schemaVersion := some "a2-raw-v4", timeline, warmup := [] }

theorem loops_trace {path : String} (h : l.foldlM (step path) (.init .init) = .ok t) :
    loops path (trace l) = .ok (t, 0) := by
  rw [loops, if_neg fun hne => hne rfl]
  change (l.foldlM (step path) (.init .init) >>= fun s => .ok (s, 0)) = _
  rw [h]
  rfl

theorem sample_run {path : String} {o : Observer} {t₀ t t' : State} {p : Sample}
    (ht : o.timeline.foldlM (step path) t₀ = .ok t)
    (hp : (sampleRaw o.cycleCount p).foldlM (step path) t = .ok t') :
    (o.sample p).timeline.foldlM (step path) t₀ = .ok t' := by
  rw [Observer.sample, List.foldlM_append, ht]
  exact hp

structure TableCycle where
  bx : Bx
  predPc : BitVec 64
  predEn : Bool
  updateId : Nat

def tables : Clocked.Machine Satcnt.State TableCycle where
  next s i := Satcnt.next s i.bx i.predPc i.predEn

def tableSample (o : Observer) (s : Satcnt.State) (i : TableCycle) : Sample :=
  { lookupEvent := i.predEn, lookupPc := i.predPc, lookupId := o.lookups
    lookupValid := (tables.next s i).predVld, lookupCounter := (tables.next s i).cntVal
    fetchEvent := false, fetchPc := 0, fetchConditional := false, fetchFallbackSign := false
    fetchPredictedTaken := false, fetchId := 0
    updateEvent := i.bx.cond, updatePc := i.bx.pc, updateActualTaken := i.bx.pt
    updateId := i.updateId }

def tableObserver (s : Satcnt.State) (i : Nat → TableCycle) (n : Nat) : Observer :=
  tables.history .init (fun o s a => o.sample (tableSample o s a)) s.reset i n

/-- The observer of a region of interest that starts from these tables. -/
def regionObserver (x : Satcnt.State) (i : Nat → TableCycle) (n : Nat) : Observer :=
  tables.history .init (fun o s a => o.sample (tableSample o s a)) x i n

theorem region_run (path : String) {u : Tables} {x : Satcnt.State} (h : u.Same x)
    (i : Nat → TableCycle) (n : Nat) :
    ∃ t, (regionObserver x i n).timeline.foldlM (step path) (.init u) = .ok t ∧
      Tracks t (tables.run x i n) := by
  induction n with
  | zero => exact ⟨_, rfl, .init h⟩
  | succ n ih =>
    obtain ⟨t, hl, ht⟩ := ih
    let o := regionObserver x i n
    let y := tables.run x i n
    have hp : (tableSample o y (i n)).Shows y (i n).bx := by
      refine ⟨⟨fun h => ?_, fun h => ?_⟩, rfl, rfl, rfl⟩
      · have h : (i n).predEn = true := h
        simp [tableSample, tables, Satcnt.next, h, reg]
      · have h : (i n).predEn = true := h
        simp [tableSample, tables, Satcnt.next, h, reg]
    obtain ⟨t', hl', ht', -⟩ := ht.sample path o.cycleCount hp
      (fun h => Bool.noConfusion h) (fun h => Bool.noConfusion h) (i n).predPc (i n).predEn
    exact ⟨t', sample_run hl hl', ht'⟩

theorem tables_run (path : String) (s : Satcnt.State) (i : Nat → TableCycle) (n : Nat) :
    ∃ t, (tableObserver s i n).timeline.foldlM (step path) (.init .init) = .ok t ∧
      Tracks t (tables.run s.reset i n) := region_run path (Tables.same_reset s) i n

/-- The warm-up updates of the first cycles, numbered as `perf_observer_sample_raw` numbers them
before the region of interest starts. -/
def warmupUpdates (s : Satcnt.State) (i : Nat → TableCycle) (n : Nat) : List WarmupUpdate :=
  tables.history [] (fun l _ a => if a.bx.cond
    then l ++ [{ sequence := l.length, pc := a.bx.pc.toNat, actualTaken := a.bx.pt }] else l)
    s.reset i n

theorem warmupStep_tables {w : Warmup} {s : Satcnt.State} (h : w.tables.Same s) {bx : Bx}
    (hb : bx.cond = true) (path : String) (predPc : BitVec 64) (predEn : Bool) :
    ∃ w', warmupStep path w { sequence := w.expectedSequence, pc := bx.pc.toNat
                              actualTaken := bx.pt } = .ok w' ∧
      w'.expectedSequence = w.expectedSequence + 1 ∧
      w'.tables.Same (Satcnt.next s bx predPc predEn) := by
  have hs := h.update hb predPc predEn
  rw [warmupStep, if_neg (not_not_intro rfl)]
  by_cases hi : indexOf bx.pc < implementedEntries
  · have hne : ¬bx.pc.toNat >>> 2 &&& (depth - 1) = implementedEntries := Nat.ne_of_lt hi
    simp only [if_neg hne]
    exact ⟨_, rfl, rfl, hs⟩
  · have he : bx.pc.toNat >>> 2 &&& (depth - 1) = implementedEntries :=
      Nat.le_antisymm (indexOf_le bx.pc) (Nat.le_of_not_lt hi)
    simp only [if_pos he]
    exact ⟨_, rfl, rfl, hs.of_train_last hi⟩

/-- The warm-up brings the replay to the tables that the region of interest starts from. -/
theorem warmup_run (path : String) (s : Satcnt.State) (i : Nat → TableCycle) (n : Nat) :
    ∃ w, (warmupUpdates s i n).foldlM (warmupStep path)
        { tables := .init, expectedSequence := 0, unsupported := 0 } = .ok w ∧
      w.expectedSequence = (warmupUpdates s i n).length ∧
      w.tables.Same (tables.run s.reset i n) := by
  induction n with
  | zero => exact ⟨_, rfl, rfl, Tables.same_reset s⟩
  | succ n ih =>
    obtain ⟨w, hl, hn, hw⟩ := ih
    have hlist : warmupUpdates s i (n + 1) = if (i n).bx.cond then warmupUpdates s i n ++
        [{ sequence := (warmupUpdates s i n).length, pc := (i n).bx.pc.toNat
           actualTaken := (i n).bx.pt }] else warmupUpdates s i n := rfl
    rw [hlist]
    cases hb : (i n).bx.cond with
    | false => exact ⟨w, hl, hn, hw.keep hb _ _⟩
    | true =>
      obtain ⟨w', hs, hn', hw'⟩ := warmupStep_tables hw hb path (i n).predPc (i n).predEn
      refine ⟨w', ?_, ?_, hw'⟩
      · rw [if_pos rfl, List.foldlM_append, hl, ← hn]
        change List.foldlM _ _ _ = _
        simp [hs]
      · rw [hn', hn, if_pos rfl, List.length_append]
        rfl

theorem replay_of_loops {path : String} {d : Trace} (h : loops path d = .ok (t, k)) :
    replay path d = .ok (report d t k) := by
  rw [replay, h]
  rfl

/-- The whole replay of a run of the counters, whose region of interest starts after `n` cycles,
finds no lookup that differs. -/
theorem replay_region (path : String) (s : Satcnt.State) (i : Nat → TableCycle) (n m : Nat) :
    ∃ r, replay path
        { schemaVersion := some "a2-raw-v4"
          timeline := (regionObserver (tables.run s.reset i n) (fun k => i (n + k)) m).timeline
          warmup := warmupUpdates s i n } = .ok r ∧
      r.warmupUpdateEvents = (warmupUpdates s i n).length ∧
      r.lookupStateMismatchCount = 0 ∧ r.predictionMismatchCount = 0 := by
  obtain ⟨w, hw, -, hs⟩ := warmup_run path s i n
  obtain ⟨t, ht, hk⟩ := region_run path hs (fun k => i (n + k)) m
  refine ⟨_, replay_of_loops (t := t) (k := w.unsupported) ?_, rfl, ?_, ?_⟩
  · rw [loops, if_neg fun hne => hne rfl, hw]
    change (List.foldlM (step path) (.init w.tables) _ >>= fun s => .ok (s, w.unsupported)) = _
    rw [ht]
    rfl
  · exact congrArg List.length hk.lookups
  · exact congrArg List.length hk.predictions

end Replay.Predictor

end Rv64imCore
