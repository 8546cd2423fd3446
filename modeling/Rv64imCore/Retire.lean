import Rv64imCore.SimTop
import Rv64imCore.Training

/-! The trace of the write-back against the instructions that pass through WB. -/

namespace Rv64imCore.Sim
set_option autoImplicit true

/-- An instruction in MEM or WB, with its number in the order of delivery. -/
structure Tag where
  number : Nat
  pc : BitVec 64
  deriving DecidableEq

/-- The instructions in the pipeline, and those that have passed through WB un-killed. A trap
instruction passes on though MEM receives nothing of it; an interrupt kills the one in EX. -/
structure Stages where
  front : Core.Passage
  mem : Option Tag
  wb : Option Tag
  retired : List Tag

def Stages.start : Stages := { front := .start, mem := none, wb := none, retired := [] }

/-- The trace starts when this one is in MEM. -/
def atStart (t : Option Tag) : Bool := t.any (·.pc == 0x80000004)

section Wires
variable (g : Stages) (w : Trace) (s : Core.State) (i : Core.In)

def Stages.issuing : Option Tag :=
  if asyncIntr s i then none
  else g.front.ex.map fun k => { number := k, pc := s.exu.idAlu.pc }

def Stages.retiring : Option Tag := if wbWait s i then none else g.wb

def Stages.update : Stages :=
  { front := g.front.update s i
    mem := if wbWait s i then (if Core.flushMem s i then none else g.mem) else g.issuing s i
    wb := if wbWait s i then g.wb else g.mem
    retired := g.retired ++ (g.retiring s i).toList }

/-- The trace starts while nothing leaves WB. -/
def Stages.strobed : Bool := atStart g.mem && (g.retiring s i).isNone

/-- An instruction leaves WB before the trace has started, or with the pc of a bubble. -/
def Stages.unseen : Bool :=
  (g.retiring s i).any fun t => !atStart g.mem && (!w.wbBuff || t.pc == 0)

/-- A trap over a division clears MEM in a cycle that holds the pipeline. -/
def Stages.cleared : Bool :=
  wbWait s i && Core.flushMem s i
    && g.mem.any fun t => t.pc != 0 && (w.wbBuff || t.pc == 0x80000004)

def Stages.fault : Bool := g.strobed s i || g.unseen w s i || g.cleared w s i

/-- The event of a cycle. -/
def event : List (BitVec 64) := if wbSign w s i then [wbPc w] else []

end Wires

/-- The trace holds the pcs of MEM and WB; before it has started, a bubble may have any other. -/
structure Mirror (g : Stages) (w : Trace) (s : Core.State) : Prop where
  front : g.front.Holds s
  mem : ∀ t, g.mem = some t → w.memPc = t.pc
  memBubble : g.mem = none → w.memPc = 0 ∨ (w.wbBuff = false ∧ w.memPc ≠ 0x80000004)
  wb : ∀ t, g.wb = some t → w.wbuPc = t.pc
  wbBubble : g.wb = none → w.wbBuff = true → w.wbuPc = 0

theorem Mirror.reset (s : Core.State) : Mirror .start .reset s.reset where
  front := Core.Passage.Holds.reset s
  mem := fun _ h => nomatch h
  memBubble := fun _ => .inr ⟨rfl, by decide⟩
  wb := fun _ h => nomatch h
  wbBubble := fun _ h => nomatch h

section Step
variable {g : Stages} {w : Trace} {s : Core.State} {i : Core.In}

theorem Mirror.wbStart_eq (h : Mirror g w s) : wbStart w = atStart g.mem := by
  rw [wbStart]
  cases hm : g.mem with
  | some t =>
    rw [h.mem t hm]
    rfl
  | none =>
    rw [atStart, Option.any_none, beq_eq_false_iff_ne]
    rcases h.memBubble hm with h0 | h0
    · rw [h0]
      decide
    · exact h0.2

theorem fault_cases (h : g.fault w s i = false) :
    g.strobed s i = false ∧ g.unseen w s i = false ∧ g.cleared w s i = false := by
  simp only [Stages.fault, Bool.or_eq_false_iff] at h
  exact ⟨h.1.1, h.1.2, h.2⟩

/-- The events of a cycle are the retirements just when nothing is strobed or unseen. -/
theorem Mirror.event_eq_iff (h : Mirror g w s) :
    event w s i = (g.retiring s i).toList.map (·.pc) ↔
      g.strobed s i = false ∧ g.unseen w s i = false := by
  rw [event, wbSign, h.wbStart_eq, Stages.strobed, Stages.unseen, Stages.retiring, wbPc]
  cases hw : wbWait s i with
  | true => cases atStart g.mem <;> simp
  | false =>
    cases hb : g.wb with
    | none =>
      cases ha : atStart g.mem with
      | true => simp
      | false =>
        cases hs : w.wbBuff with
        | false => simp
        | true => simp [h.wbBubble hb hs]
    | some t =>
      rw [h.wb t hb]
      cases ha : atStart g.mem <;> cases hs : w.wbBuff <;> simp

theorem next_trace_of_wait (hw : wbWait s i = true) :
    (w.next s i).memPc = w.memPc ∧ (w.next s i).wbuPc = w.wbuPc := by
  rw [Trace.next, hw]
  exact ⟨rfl, rfl⟩

theorem next_trace_of_move (hw : wbWait s i = false) :
    (w.next s i).memPc = (if asyncIntr s i then 0 else s.exu.idAlu.pc) ∧
      (w.next s i).wbuPc = w.memPc := by
  rw [Trace.next, hw]
  exact ⟨rfl, rfl⟩

theorem next_wbBuff : (w.next s i).wbBuff = (wbStart w || w.wbBuff) := rfl

theorem Mirror.next_memBubble (h : Mirror g w s) (hf : g.fault w s i = false)
    (hn : (g.update s i).mem = none) :
    (w.next s i).memPc = 0 ∨
      ((w.next s i).wbBuff = false ∧ (w.next s i).memPc ≠ 0x80000004) := by
  rw [next_wbBuff, h.wbStart_eq]
  cases hw : wbWait s i with
  | false =>
    rw [(next_trace_of_move hw).1]
    rw [Stages.update, hw] at hn
    have hn : g.issuing s i = none := hn
    rw [Stages.issuing] at hn
    cases ha : asyncIntr s i with
    | true => exact .inl rfl
    | false =>
      rw [ha] at hn
      have hx : g.front.ex = none := Option.map_eq_none_iff.mp hn
      exact .inl (h.front.exBubble hx).2
  | true =>
    rw [(next_trace_of_wait hw).1]
    cases hm : g.mem with
    | none =>
      rcases h.memBubble hm with h0 | h0
      · exact .inl h0
      · exact .inr ⟨by rw [h0.1]; rfl, h0.2⟩
    | some t =>
      -- the trap has cleared it
      obtain ⟨-, -, hc⟩ := fault_cases hf
      rw [Stages.update, hw, hm] at hn
      have hfl : Core.flushMem s i = true := by
        cases hfl : Core.flushMem s i with
        | true => rfl
        | false => rw [hfl] at hn; cases hn
      rw [Stages.cleared, hw, hfl, hm] at hc
      rw [h.mem t hm]
      by_cases h0 : t.pc = 0
      · exact .inl h0
      · have h1 : (t.pc != 0) = true := bne_iff_ne.mpr h0
        simp only [Option.any_some, h1, Bool.true_and, Bool.or_eq_false_iff] at hc
        refine .inr ⟨?_, beq_eq_false_iff_ne.mp hc.2⟩
        rw [atStart, Option.any_some, hc.1, hc.2]
        rfl

theorem Mirror.next (h : Mirror g w s) (hf : g.fault w s i = false) :
    Mirror (g.update s i) (w.next s i) (Core.next s i) := by
  refine ⟨h.front.next i, ?_, h.next_memBubble hf, ?_, ?_⟩
  · intro t ht
    rw [Stages.update] at ht
    cases hw : wbWait s i with
    | true =>
      rw [hw] at ht
      rw [(next_trace_of_wait hw).1]
      cases hfl : Core.flushMem s i with
      | true => rw [hfl] at ht; cases ht
      | false => rw [hfl] at ht; exact h.mem t ht
    | false =>
      rw [hw] at ht
      have ht : g.issuing s i = some t := ht
      rw [(next_trace_of_move hw).1]
      rw [Stages.issuing] at ht
      cases ha : asyncIntr s i with
      | true => rw [ha] at ht; cases ht
      | false =>
        rw [ha] at ht
        obtain ⟨k, -, rfl⟩ := Option.map_eq_some_iff.mp ht
        rfl
  · intro t ht
    rw [Stages.update] at ht
    cases hw : wbWait s i with
    | true =>
      rw [hw] at ht
      rw [(next_trace_of_wait hw).2]
      exact h.wb t ht
    | false =>
      rw [hw] at ht
      rw [(next_trace_of_move hw).2]
      exact h.mem t ht
  · intro hn hb
    rw [next_wbBuff, h.wbStart_eq] at hb
    rw [Stages.update] at hn
    cases hw : wbWait s i with
    | true =>
      rw [hw] at hn
      rw [(next_trace_of_wait hw).2]
      have ha : atStart g.mem = false := by
        have hs := (fault_cases hf).1
        rw [Stages.strobed, Stages.retiring, hw] at hs
        simpa using hs
      rw [ha] at hb
      exact h.wbBubble hn hb
    | false =>
      rw [hw] at hn
      have hm : g.mem = none := hn
      rw [(next_trace_of_move hw).2]
      rcases h.memBubble hm with h0 | h0
      · exact h0
      · rw [hm, h0.1] at hb
        cases hb

/-! A cleared MEM: its pc still comes through the trace. -/

theorem stallExu_eq_false (hm : Alu.memReq s.exu.idAlu.info = false)
    (hd : Alu.divOp s.exu.idAlu.info = false) (hq : s.lsu.mem.req = false) :
    Core.stallExu s i = false := by
  rw [Core.stallExu_eq, Core.exuStall_eq_false hm hd, Core.memStall, Lsu.dataStall, hq]
  rfl

theorem wbWait_eq : wbWait s i = Core.stallExu s i := Core.stallWbu_eq

/-- EX, MEM and the next instruction of EX are bubbles. -/
structure Empty (s : Core.State) : Prop where
  id : s.idu.ifId = Idu.IfId.bubble
  ex : s.exu.idAlu = IdAlu.bubble
  mem : s.lsu.mem = Lsu.MemReg.bubble

theorem Empty.wbWait (h : Empty s) : wbWait s i = false := by
  rw [wbWait_eq]
  refine stallExu_eq_false ?_ ?_ ?_
  · rw [h.ex]; decide
  · rw [h.ex]; decide
  · rw [h.mem]; rfl

/-- The numbers of the instructions, oldest first. -/
def Stages.numbers (g : Stages) : List Nat :=
  g.retired.map (·.number) ++ (g.wb.toList.map (·.number) ++ (g.mem.toList.map (·.number)
    ++ (g.front.ex.toList ++ g.front.id.toList)))

structure Stages.Ordered (g : Stages) : Prop where
  order : g.numbers.Pairwise (· < ·)
  bound : ∀ k, k ∈ g.numbers → k < g.front.delivered

theorem Stages.Ordered.start : Stages.start.Ordered where
  order := List.Pairwise.nil
  bound := fun _ h => nomatch h

theorem number_issuing : ((g.issuing s i).toList.map (·.number)).Sublist g.front.ex.toList := by
  rw [Stages.issuing]
  cases asyncIntr s i <;> cases g.front.ex <;> simp

theorem Stages.numbers_next :
    (g.update s i).numbers.Sublist (g.numbers ++ (g.front.arriving s i).toList) := by
  simp only [Stages.numbers, Stages.update, Stages.retiring, List.append_assoc]
  cases hw : wbWait s i with
  | true =>
    have hf := Core.Passage.front_next (g := g.front) (s := s) (i := i)
      (List.nil_sublist g.front.ex.toList) fun _ => rfl
    have hm : ((if Core.flushMem s i then none else g.mem).toList.map (·.number)).Sublist
        (g.mem.toList.map (·.number)) := by
      cases Core.flushMem s i with
      | true => exact List.nil_sublist _
      | false => exact List.Sublist.refl _
    simp only [if_true, Option.toList_none, List.append_nil]
    exact List.Sublist.append_left (List.Sublist.append_left (hm.append hf) _) _
  | false =>
    have hf := Core.Passage.front_next (g := g.front) (s := s) (i := i)
      (number_issuing (g := g) (s := s) (i := i)) fun hs => by
        rw [← wbWait_eq, hw] at hs
        cases hs
    simp only [Bool.false_eq_true, if_false, List.map_append, List.append_assoc]
    exact List.Sublist.append_left (List.Sublist.append_left
      (List.Sublist.append_left hf _) _) _

theorem Stages.Ordered.next (h : g.Ordered) : (g.update s i).Ordered := by
  obtain ⟨ho, hb⟩ := Core.numbers_kept h.order h.bound (Stages.numbers_next (s := s) (i := i))
  exact ⟨ho, hb⟩

end Step

/-- What the trace has shown so far, and what `exec_once` has made of it. -/
structure Record where
  stages : Stages
  events : List (BitVec 64)
  wbNum : Nat
  calls : List Difftest

def Record.start : Record := { stages := .start, events := [], wbNum := 0, calls := [] }

section Cycle
variable (r : Record) (s : State) (i : In)

def Record.update : Record :=
  { stages := r.stages.update s.top.sys.core (coreIn s i)
    events := r.events ++ event s.trace s.top.sys.core (coreIn s i)
    wbNum := (execOnce s.trace s.top.sys.core (coreIn s i) r.wbNum).1
    calls := r.calls ++ (execOnce s.trace s.top.sys.core (coreIn s i) r.wbNum).2 }

def Record.fault : Bool := r.stages.fault s.trace s.top.sys.core (coreIn s i)

end Cycle

theorem execOnce_eq (w : Trace) (s : Core.State) (i : Core.In) (k : Nat) :
    (execOnce w s i k).1 = k + (event w s i).length ∧
      (execOnce w s i k).2.count .step = if k = 0 then 0 else (event w s i).length := by
  rw [execOnce, event]
  cases wbSign w s i with
  | false => simp
  | true =>
    by_cases hk : k = 0
    · simp [hk]
    · cases wbIntr w s <;> cases wbDevice w <;> simp [hk]

structure Record.Counted (r : Record) : Prop where
  wbNum : r.wbNum = r.events.length
  steps : r.calls.count .step = r.events.length - 1

theorem Record.Counted.next {r : Record} (h : r.Counted) (s : State) (i : In) :
    (r.update s i).Counted := by
  obtain ⟨hn, hc⟩ := execOnce_eq s.trace s.top.sys.core (coreIn s i) r.wbNum
  have hl : (event s.trace s.top.sys.core (coreIn s i)).length ≤ 1 := by
    rw [event]
    split
    · exact Nat.le_refl 1
    · exact Nat.zero_le 1
  constructor
  · rw [Record.update, hn, h.wbNum, List.length_append]
  · rw [Record.update, List.count_append, h.steps, hc, List.length_append, ← h.wbNum]
    split <;> omega

section Run
variable (s : State) (i : Nat → In)

def record : Nat → Record := machine.history .start Record.update s.reset i

theorem mirror_run {n : Nat}
    (hn : ∀ k, k < n → (record s i k).fault (machine.run s.reset i k) (i k) = false) :
    Mirror (record s i n).stages (machine.run s.reset i n).trace
      (machine.run s.reset i n).top.sys.core := by
  induction n with
  | zero => exact Mirror.reset s.top.sys.core
  | succ n ih => exact (ih fun k hk => hn k (Nat.lt_succ_of_lt hk)).next (hn n (Nat.lt_succ_self n))

end Run

end Rv64imCore.Sim
