import Mathlib.Logic.Function.Basic

/-! `replay` of `replay_p0_conditional_predictor.py`, and what a cycle adds to its trace. -/

namespace Rv64imCore
set_option autoImplicit true

namespace Replay.Predictor

def bits : Nat := 10
def depth : Nat := 1 <<< bits
def implementedEntries : Nat := depth - 1

def predictionFromState (valid : Bool) (counter : Nat) (fallbackSign : Bool) : Bool :=
  if valid then counter &&& 0b10 != 0 else fallbackSign

inductive Kind where
  | lookup
  | prediction
  | update
  | other (kind : String)
  deriving DecidableEq

/-- An entry of `predictor_timeline_observations`. -/
structure Event where
  cycle : Nat
  eventId : Nat
  kind : Kind
  pc : Nat
  index : Nat
  valid : Bool
  counter : Nat
  fallbackSign : Bool
  predictedTaken : Bool
  actualTaken : Bool
  deriving DecidableEq

/-- An entry of `predictor_warmup_updates`. -/
structure WarmupUpdate where
  sequence : Nat
  pc : Nat
  actualTaken : Bool

/-- The text of a pc in the trace, `0x%016llx`. -/
def pcText (pc : Nat) : String :=
  "0x" ++ String.ofList (List.leftpad 16 '0' (Nat.toDigits 16 pc))

/-- A dictionary with its keys in the order of their insertion. -/
abbrev Dict (α : Type) := List (Nat × α)

def Dict.put : Dict α → Nat → α → Dict α
  | [], k, v => [(k, v)]
  | (k', v') :: d, k, v => if k' = k then (k, v) :: d else (k', v') :: Dict.put d k v

theorem Dict.lookup_put (d : Dict α) (k k' : Nat) (v : α) :
    (Dict.put d k v).lookup k' = if k' = k then some v else d.lookup k' := by
  have hcons (x : Nat × α) (d : Dict α) :
      List.lookup k' (x :: d) = if k' = x.1 then some x.2 else d.lookup k' := by
    rw [List.lookup_cons]
    by_cases hk : k' = x.1
    · rw [hk, beq_self_eq_true, if_pos rfl]
    · rw [beq_eq_false_iff_ne.mpr hk, if_neg hk]
  induction d with
  | nil => exact hcons (k, v) []
  | cons x d ih =>
    rw [Dict.put]
    by_cases hx : x.1 = k
    · rw [if_pos hx, hcons, hcons, hx]
      by_cases hk : k' = k
      · rw [if_pos hk, if_pos hk]
      · rw [if_neg hk, if_neg hk, if_neg hk]
    · rw [if_neg hx, hcons, hcons, ih]
      by_cases hk : k' = k
      · rw [if_neg fun h => hx (h.symm.trans hk), if_pos hk, if_pos hk]
      · rw [if_neg hk, if_neg hk]

/-- The lists `counters` and `valid`. -/
structure Tables where
  counters : Nat → Nat
  valid : Nat → Bool

def Tables.init : Tables := { counters := fun _ => 2, valid := fun _ => false }

def trained (counter : Nat) (taken : Bool) : Nat :=
  if taken && counter != 3 then counter + 1
  else if !taken && counter != 0 then counter - 1
  else counter

/-- The update of one entry, in the warm-up and in the timeline. -/
def Tables.train (t : Tables) (index : Nat) (taken : Bool) : Tables :=
  { counters := fun j => if j = index then trained (t.counters j) taken else t.counters j
    valid := fun j => if j = index then true else t.valid j }

structure Lookup where
  cycle : Nat
  state : Bool × Nat

structure Result where
  eventId : Nat
  cycle : Nat
  pc : Nat
  rtlPredictedTaken : Bool
  replayPredictedTaken : Bool
  predictionMismatch : Bool

structure Update where
  pc : Nat
  index : Nat
  actualTaken : Bool

structure State where
  tables : Tables
  lookups : Dict Lookup
  predictions : Dict Result
  updates : Dict Update
  mismatches : List Result
  lookupStateMismatches : List Event
  unsupported : Nat

def State.init (tables : Tables) : State :=
  { tables, lookups := [], predictions := [], updates := [], mismatches := []
    lookupStateMismatches := [], unsupported := 0 }

section Replay
variable (path : String)

structure Warmup where
  tables : Tables
  expectedSequence : Nat
  unsupported : Nat

/-- One round of the loop through the warm-up. -/
def warmupStep (w : Warmup) (e : WarmupUpdate) : Except String Warmup :=
  if e.sequence ≠ w.expectedSequence then .error s!"{path}: non-contiguous warm-up sequence"
  else
    let w := { w with expectedSequence := w.expectedSequence + 1 }
    let index := (e.pc >>> 2) &&& (depth - 1)
    if index = implementedEntries then .ok { w with unsupported := w.unsupported + 1 }
    else .ok { w with tables := w.tables.train index e.actualTaken }

/-- One round of the loop through the timeline. -/
def step (s : State) (e : Event) : Except String State :=
  if e.index ≠ (e.pc >>> 2) &&& (depth - 1) then
    .error s!"{path}: inconsistent predictor index for {pcText e.pc}"
  else if e.index = implementedEntries then .ok { s with unsupported := s.unsupported + 1 }
  else
    match e.kind with
    | .lookup =>
      let softwareState := (s.tables.valid e.index, s.tables.counters e.index)
      .ok { s with
        lookupStateMismatches := if softwareState ≠ (e.valid, e.counter)
          then s.lookupStateMismatches ++ [e] else s.lookupStateMismatches
        lookups := Dict.put s.lookups e.eventId { cycle := e.cycle, state := softwareState } }
    | .prediction =>
      match s.lookups.lookup e.eventId with
      | none => .error s!"{path}: prediction has no lookup id {e.eventId}"
      | some l =>
        let replayPrediction := predictionFromState l.state.1 l.state.2 e.fallbackSign
        let result : Result :=
          { eventId := e.eventId, cycle := e.cycle, pc := e.pc
            rtlPredictedTaken := e.predictedTaken, replayPredictedTaken := replayPrediction
            predictionMismatch := replayPrediction != e.predictedTaken }
        .ok { s with
          predictions := Dict.put s.predictions e.eventId result
          mismatches := if result.predictionMismatch then s.mismatches ++ [result]
            else s.mismatches }
    | .update =>
      .ok { s with
        updates := Dict.put s.updates e.eventId
          { pc := e.pc, index := e.index, actualTaken := e.actualTaken }
        tables := s.tables.train e.index e.actualTaken }
    | .other kind => .error s!"{path}: unknown predictor timeline kind {kind}"

structure Trace where
  schemaVersion : Option String
  timeline : List Event
  warmup : List WarmupUpdate

/-- Both loops: the state behind the timeline and the unsupported warm-up updates. -/
def loops (d : Trace) : Except String (State × Nat) :=
  if d.schemaVersion ≠ some "a2-raw-v4" then .error s!"{path}: expected schema_version a2-raw-v4"
  else do
    let w ← d.warmup.foldlM (warmupStep path)
      { tables := .init, expectedSequence := 0, unsupported := 0 }
    let s ← d.timeline.foldlM (step path) (.init w.tables)
    .ok (s, w.unsupported)

/-- The counts that `replay` reports; the percentage and what it passes on from the trace are left
out. -/
structure Report where
  lookupEvents : Nat
  predictionEvents : Nat
  updateEvents : Nat
  resolvedPredictionEvents : Nat
  unresolvedPredictionEvents : Nat
  carryInUpdateEvents : Nat
  warmupUpdateEvents : Nat
  unsupportedWarmupIndex1023Events : Nat
  unsupportedIndex1023Events : Nat
  lookupStateMismatchCount : Nat
  predictionMismatchCount : Nat
  resolvedReplayDirectionErrorCount : Nat
  predictionOnlyEventIds : List Nat
  updateOnlyEventIds : List Nat

def report (d : Trace) (s : State) (unsupportedWarmup : Nat) : Report :=
  let predicted := (s.predictions.map Prod.fst).mergeSort
  let updated := (s.updates.map Prod.fst).mergeSort
  let resolvedIds := predicted.filter updated.contains
  let unresolvedIds := predicted.filter fun k => !updated.contains k
  let carryInIds := updated.filter fun k => !predicted.contains k
  { lookupEvents := d.timeline.countP fun e => e.kind == .lookup
    predictionEvents := s.predictions.length
    updateEvents := s.updates.length
    resolvedPredictionEvents := resolvedIds.length
    unresolvedPredictionEvents := unresolvedIds.length
    carryInUpdateEvents := carryInIds.length
    warmupUpdateEvents := d.warmup.length
    unsupportedWarmupIndex1023Events := unsupportedWarmup
    unsupportedIndex1023Events := s.unsupported
    lookupStateMismatchCount := s.lookupStateMismatches.length
    predictionMismatchCount := s.mismatches.length
    resolvedReplayDirectionErrorCount := resolvedIds.countP fun k =>
      (s.predictions.lookup k).map (·.replayPredictedTaken)
        != (s.updates.lookup k).map (·.actualTaken)
    predictionOnlyEventIds := unresolvedIds
    updateOnlyEventIds := carryInIds }

def replay (d : Trace) : Except String Report := do
  let (s, unsupportedWarmup) ← loops path d
  .ok (report d s unsupportedWarmup)

end Replay

/-- The predictor's arguments of `perf_observer_sample_raw`. -/
structure Sample where
  lookupEvent : Bool
  lookupPc : BitVec 64
  lookupId : Nat
  lookupValid : Bool
  lookupCounter : BitVec 2
  fetchEvent : Bool
  fetchPc : BitVec 64
  fetchConditional : Bool
  fetchFallbackSign : Bool
  fetchPredictedTaken : Bool
  fetchId : Nat
  updateEvent : Bool
  updatePc : BitVec 64
  updateActualTaken : Bool
  updateId : Nat

def indexOf (pc : BitVec 64) : Nat := (pc.toNat >>> 2) &&& 0x3ff

section Events
variable (cycle : Nat) (p : Sample)

def Sample.lookup : Event :=
  { cycle, eventId := p.lookupId, kind := .lookup, pc := p.lookupPc.toNat
    index := indexOf p.lookupPc, valid := p.lookupValid, counter := p.lookupCounter.toNat
    fallbackSign := false, predictedTaken := false, actualTaken := false }

def Sample.prediction : Event :=
  { cycle, eventId := p.fetchId, kind := .prediction, pc := p.fetchPc.toNat
    index := indexOf p.fetchPc, valid := false, counter := 0
    fallbackSign := p.fetchFallbackSign, predictedTaken := p.fetchPredictedTaken
    actualTaken := false }

def Sample.update : Event :=
  { cycle, eventId := p.updateId, kind := .update, pc := p.updatePc.toNat
    index := indexOf p.updatePc, valid := false, counter := 0, fallbackSign := false
    predictedTaken := false, actualTaken := p.updateActualTaken }

/-- What `perf_observer_sample_raw` adds to the timeline. -/
def sampleRaw : List Event :=
  (if p.lookupEvent then [p.lookup cycle] else []) ++
    ((if p.fetchEvent && p.fetchConditional then [p.prediction cycle] else []) ++
      (if p.updateEvent then [p.update cycle] else []))

end Events

end Replay.Predictor

end Rv64imCore
