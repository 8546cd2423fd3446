import Rv64imCore.Redirect

/-! What the direction table and the return-address stack are told, against the instructions that
leave EX. -/

namespace Rv64imCore.Core
set_option autoImplicit true

def machine : Clocked.Machine State In := { next := next }

/-- An entry of the direction table is trained with a pc and a direction. -/
abbrev Update := BitVec 64 × Bool

/-- A cycle of the return-address stack that pushes or pops. -/
structure StackOp where
  push : Bool
  pop : Bool
  tgt : BitVec 64
  deriving DecidableEq

/-- An instruction that leaves EX un-killed, with its number in the order of delivery. -/
structure Departure where
  number : Nat
  pc : BitVec 64
  inst : BitVec 32
  taken : Bool

/-- What a departure has to train the direction table with. -/
def Departure.update (d : Departure) : Option Update :=
  if Ifu.condBxx d.inst then some (d.pc, d.taken) else none

/-- What it has to do to the return-address stack. -/
def Departure.stackOp (d : Departure) : Option StackOp :=
  if Alu.isCall d.inst || Alu.isReturn d.inst then
    some { push := Alu.isCall d.inst, pop := Alu.isReturn d.inst, tgt := d.pc + 4 }
  else none

/-- The numbers of the instructions in ID and EX, and those that have left EX un-killed. -/
structure Passage where
  delivered : Nat
  id : Option Nat
  ex : Option Nat
  departed : List Departure

def Passage.start : Passage := { delivered := 0, id := none, ex := none, departed := [] }

section Wires
variable (g : Passage) (s : State) (i : In)

def departure (number : Nat) : Departure :=
  { number, pc := s.exu.idAlu.pc, inst := s.exu.idAlu.inst
    taken := Alu.taken (Id.fun3 s.exu.idAlu.inst) (aluRs1Data s i.toEarly)
      (aluRs2Data s i.toEarly) }

def Passage.departing : List Departure :=
  if !stallExu s i && !intrFlush s i.toEarly then g.ex.toList.map (departure s i) else []

def Passage.arriving : Option Nat :=
  if Ifu.instOk s.ifu (ifuIn s i) then some g.delivered else none

def Passage.update : Passage :=
  { delivered := g.delivered + (Ifu.instOk s.ifu (ifuIn s i)).toNat
    id := reg (flushIdu s i) none (!stallIdu s i) (g.arriving s i) g.id
    ex := reg (flushExu s i) none (!stallExu s i) g.id g.ex
    departed := g.departed ++ g.departing s i }

/-- The update that the table sees in a cycle. -/
def tableUpdate : List Update :=
  if (ifuIn s i).bx.cond then [((ifuIn s i).bx.pc, (ifuIn s i).bx.pt)] else []

/-- The push or pop that the stack sees in a cycle. -/
def stackOp : List StackOp :=
  if (ifuIn s i).bx.push || (ifuIn s i).bx.pop then
    [{ push := (ifuIn s i).bx.push, pop := (ifuIn s i).bx.pop, tgt := Ifu.pushTgt (ifuIn s i) }]
  else []

/-- A branch, call or return in EX raises its strobes while memory holds it or a trap kills it. -/
def disturbed : Bool :=
  (Alu.bxIfCond s.exu.idAlu || Alu.bxIfPush s.exu.idAlu || Alu.bxIfPop s.exu.idAlu)
    && (memStall s i.toEarly || intrFlush s i.toEarly)

end Wires

/-- The instructions between delivery and EX, oldest first, behind those that have left. -/
def Passage.numbers (g : Passage) : List Nat :=
  g.departed.map (·.number) ++ (g.ex.toList ++ g.id.toList)

structure Passage.Holds (g : Passage) (s : State) : Prop where
  core : Inv s
  idBubble : g.id = none → s.idu.ifId = Idu.IfId.bubble
  exBubble : g.ex = none → s.exu.idAlu.inst = instNop ∧ s.exu.idAlu.pc = 0
  order : g.numbers.Pairwise (· < ·)
  bound : ∀ k, k ∈ g.numbers → k < g.delivered

theorem Passage.Holds.reset (s : State) : Passage.start.Holds s.reset where
  core := Inv.reset s
  idBubble := fun _ => rfl
  exBubble := fun _ => ⟨rfl, rfl⟩
  order := List.Pairwise.nil
  bound := fun _ h => nomatch h

section Step
variable {g : Passage} {s : State} {i : In}

/-- ID and EX only move on, with the newly delivered number behind, and what EX gives away is what
it held, in a cycle that does not hold it. -/
theorem Passage.front_next {out : List Nat} (ho : out.Sublist g.ex.toList)
    (hs : stallExu s i = true → out = []) :
    (out ++ ((g.update s i).ex.toList ++ (g.update s i).id.toList)).Sublist
      (g.ex.toList ++ (g.id.toList ++ (g.arriving s i).toList)) := by
  simp only [Passage.update]
  rcases front_cases s i with ⟨-, hd, hx⟩ | ⟨-, hd, -, hs', hx⟩ | ⟨-, hd, -, hs', hx, hx'⟩
  · rw [hd, hx]
    exact (ho.append (List.Sublist.refl [])).trans
      (List.Sublist.append_left (List.nil_sublist _) _)
  · rw [hd, hs']
    rcases hx with hx | ⟨hx, hx'⟩
    · rw [hx]
      exact ho.append (List.sublist_append_left _ _)
    · rw [hs hx', hx, hx']
      exact List.Sublist.append_left (List.sublist_append_left _ _) g.ex.toList
  · rw [hd, hs', hx, hx']
    exact ho.append (List.Sublist.refl _)

theorem number_departing : ((g.departing s i).map (·.number)).Sublist g.ex.toList ∧
    (stallExu s i = true → (g.departing s i).map (·.number) = []) := by
  rw [Passage.departing]
  cases stallExu s i <;> cases intrFlush s i.toEarly <;> cases g.ex <;> simp [departure]

theorem Passage.numbers_next :
    (g.update s i).numbers.Sublist (g.numbers ++ (g.arriving s i).toList) := by
  have hfront := Passage.front_next (g := g) (s := s) (i := i) number_departing.1
    number_departing.2
  simp only [Passage.numbers, List.append_assoc]
  have hd : (g.update s i).departed.map (·.number)
      = g.departed.map (·.number) ++ (g.departing s i).map (·.number) := List.map_append
  rw [hd, List.append_assoc]
  exact List.Sublist.append_left hfront _

theorem idBubble_next (h : g.Holds s) (hn : (g.update s i).id = none) :
    (next s i).idu.ifId = Idu.IfId.bubble := by
  rw [next_ifId]
  simp only [Passage.update] at hn
  cases hd : flushIdu s i with
  | true => rfl
  | false =>
    rw [hd] at hn
    cases hs : stallIdu s i with
    | true =>
      rw [hs] at hn
      exact h.idBubble hn
    | false =>
      rw [hs] at hn
      refine ifIdNs_of_not_instOk ?_
      cases hk : Ifu.instOk s.ifu (ifuIn s i) with
      | false => rfl
      | true =>
        have hn : g.arriving s i = none := hn
        rw [Passage.arriving, hk] at hn
        cases hn

theorem exBubble_next (h : g.Holds s) (hn : (g.update s i).ex = none) :
    (next s i).exu.idAlu.inst = instNop ∧ (next s i).exu.idAlu.pc = 0 := by
  rw [next_idAlu]
  simp only [Passage.update] at hn
  cases hx : flushExu s i with
  | true => exact ⟨rfl, rfl⟩
  | false =>
    rw [hx] at hn
    cases hs : stallExu s i with
    | true =>
      rw [hs] at hn
      exact h.exBubble hn
    | false =>
      rw [hs] at hn
      change s.idu.ifId.inst = instNop ∧ s.idu.ifId.pc = 0
      rw [h.idBubble hn]
      exact ⟨rfl, rfl⟩

theorem numbers_kept {l l' : List Nat} (ho : l.Pairwise (· < ·)) (hb : ∀ k, k ∈ l → k < g.delivered)
    (hl : l'.Sublist (l ++ (g.arriving s i).toList)) :
    l'.Pairwise (· < ·) ∧ ∀ k, k ∈ l' → k < (g.update s i).delivered := by
  have hn : ∀ k, k ∈ (g.arriving s i).toList →
      k = g.delivered ∧ (g.update s i).delivered = g.delivered + 1 := by
    intro k hk
    rw [Passage.arriving] at hk
    cases ho : Ifu.instOk s.ifu (ifuIn s i) with
    | false => simp [ho] at hk
    | true =>
      simp only [ho, if_true, Option.toList_some, List.mem_singleton] at hk
      exact ⟨hk, by rw [Passage.update, ho]; rfl⟩
  constructor
  · refine List.Pairwise.sublist hl (List.pairwise_append.mpr ⟨ho, ?_, fun a ha b hb' => ?_⟩)
    · cases g.arriving s i with
      | none => exact List.Pairwise.nil
      | some k => exact List.pairwise_singleton _ _
    · rw [(hn b hb').1]
      exact hb a ha
  · intro k hk
    rcases List.mem_append.mp (hl.subset hk) with hk | hk
    · exact Nat.lt_of_lt_of_le (hb k hk) (Nat.le_add_right _ _)
    · rw [(hn k hk).2, (hn k hk).1]
      exact Nat.lt_succ_self _

theorem Passage.Holds.next (h : g.Holds s) (i : In) : (g.update s i).Holds (Core.next s i) := by
  obtain ⟨ho, hb⟩ := numbers_kept h.order h.bound (Passage.numbers_next (s := s) (i := i))
  exact ⟨h.core.next i, idBubble_next h, exBubble_next h, ho, hb⟩

theorem transfers_of_stackOp {inst : BitVec 32}
    (h : (Alu.isCall inst || Alu.isReturn inst) = true) : Alu.transfers inst = true := by
  simp only [Alu.isCall, Alu.isReturn, Bool.or_eq_true, Bool.and_eq_true] at h
  simp only [Alu.transfers, Id.decJal, Id.decJalr, Bool.or_eq_true, Bool.and_eq_true]
  rcases h with ⟨h | h, -⟩ | ⟨⟨h, -⟩, -⟩
  · exact .inl (.inr h)
  · exact .inr h
  · exact .inr h

theorem bxIfCond_of_decoded (hd : s.exu.idAlu.Decoded) :
    Alu.bxIfCond s.exu.idAlu = Ifu.condBxx s.exu.idAlu.inst := by
  rcases hd with ⟨hi, -⟩ | hb
  · exact Alu.bxIfCond_eq hi
  · rw [hb]
    decide

/-- An undisturbed branch, call or return departs. -/
theorem Passage.Holds.departs (h : g.Holds s) (hx : g.ex = some k)
    (ht : Alu.transfers s.exu.idAlu.inst = true)
    (hn : (memStall s i.toEarly || intrFlush s i.toEarly) = false) :
    g.departing s i = [departure s i k] := by
  rw [Bool.or_eq_false_iff] at hn
  rw [Passage.departing, stallExu_eq, (transfers_wires h.core.decoded ht).1, hn.1, hn.2, hx]
  rfl

theorem departing_cases (g : Passage) (s : State) (i : In) :
    g.departing s i = [] ∨ ∃ k, g.departing s i = [departure s i k] := by
  rw [Passage.departing]
  split
  · cases g.ex with
    | none => exact .inl rfl
    | some k => exact .inr ⟨k, rfl⟩
  · exact .inl rfl

theorem Passage.Holds.ex_of_transfers (h : g.Holds s)
    (ht : Alu.transfers s.exu.idAlu.inst = true) : ∃ k, g.ex = some k := by
  cases hx : g.ex with
  | none =>
    rw [(h.exBubble hx).1] at ht
    exact absurd ht (by decide)
  | some k => exact ⟨k, rfl⟩

theorem Passage.Holds.tableUpdate_eq (h : g.Holds s) (hn : disturbed s i = false) :
    tableUpdate s i = (g.departing s i).filterMap Departure.update := by
  have hc : (ifuIn s i).bx.cond = Ifu.condBxx s.exu.idAlu.inst :=
    bxIfCond_of_decoded h.core.decoded
  rw [tableUpdate, hc]
  cases hi : Ifu.condBxx s.exu.idAlu.inst with
  | false =>
    rcases departing_cases g s i with hd | ⟨k, hd⟩
    · rw [hd]
      rfl
    · rw [hd]
      simp [Departure.update, departure, hi]
  | true =>
    have ht : Alu.transfers s.exu.idAlu.inst = true := by rw [Alu.transfers, hi]; rfl
    obtain ⟨k, hx⟩ := h.ex_of_transfers ht
    have hw : (memStall s i.toEarly || intrFlush s i.toEarly) = false := by
      rw [disturbed, bxIfCond_of_decoded h.core.decoded, hi] at hn
      exact hn
    have hpt : (ifuIn s i).bx.pt = (departure s i k).taken :=
      Alu.jumpRes_eq_taken (i := aluIn s i.toEarly)
        (Alu.decoded_of_transfers h.core.decoded ht).1 hi
    rw [h.departs hx ht hw, hpt]
    simp [Departure.update, departure, hi, ifuIn, bx]

theorem Passage.Holds.stackOp_eq (h : g.Holds s) (hn : disturbed s i = false) :
    stackOp s i = (g.departing s i).filterMap Departure.stackOp := by
  have hp : ((ifuIn s i).bx.push || (ifuIn s i).bx.pop)
      = (Alu.isCall s.exu.idAlu.inst || Alu.isReturn s.exu.idAlu.inst) := rfl
  rw [stackOp, hp]
  cases hi : Alu.isCall s.exu.idAlu.inst || Alu.isReturn s.exu.idAlu.inst with
  | false =>
    rcases departing_cases g s i with hd | ⟨k, hd⟩
    · rw [hd]
      rfl
    · rw [hd]
      simp only [List.filterMap_cons, Departure.stackOp, departure, hi]
      rfl
  | true =>
    have ht := transfers_of_stackOp hi
    obtain ⟨k, hx⟩ := h.ex_of_transfers ht
    have hw : (memStall s i.toEarly || intrFlush s i.toEarly) = false := by
      rw [disturbed, Bool.or_assoc, Alu.bxIfPush, Alu.bxIfPop, hi, Bool.or_true] at hn
      exact hn
    rw [h.departs hx ht hw]
    simp only [List.filterMap_cons, Departure.stackOp, departure, hi]
    rfl

/-- A disturbed cycle tells the table or the stack of an instruction that does not depart. -/
theorem told_of_disturbed (h : disturbed s i = true) : g.departing s i = [] ∧
    (tableUpdate s i ≠ [] ∨ stackOp s i ≠ []) := by
  simp only [disturbed, Bool.and_eq_true, Bool.or_eq_true] at h
  constructor
  · rw [Passage.departing, stallExu_eq]
    rcases h.2 with hm | hm <;> simp [hm]
  · rcases h.1 with (hc | hc) | hc
    · exact .inl (by simp [tableUpdate, ifuIn, bx, hc])
    · exact .inr (by simp [stackOp, ifuIn, bx, hc])
    · exact .inr (by simp [stackOp, ifuIn, bx, hc])

end Step

/-- What the table and the stack have been told so far. -/
structure Told where
  updates : List Update
  stackOps : List StackOp

section Run
variable (s : State) (i : Nat → In)

def passage : Nat → Passage := machine.history .start Passage.update s.reset i

def told : Nat → Told :=
  machine.history { updates := [], stackOps := [] }
    (fun t s a =>
      { updates := t.updates ++ tableUpdate s a, stackOps := t.stackOps ++ stackOp s a })
    s.reset i

/-- The predictors are trained once by each branch, call and return that leaves EX un-killed, in
the order of delivery, and by nothing else. -/
structure TrainedOnce : Prop where
  order : ∀ n, ((passage s i n).departed.map (·.number)).Pairwise (· < ·)
  updates : ∀ n, (told s i n).updates = (passage s i n).departed.filterMap Departure.update
  stackOps : ∀ n, (told s i n).stackOps = (passage s i n).departed.filterMap Departure.stackOp

theorem passage_run (n : Nat) : (passage s i n).Holds (machine.run s.reset i n) :=
  machine.history_induction _ _ (P := fun s g => Passage.Holds g s) (C := fun _ _ => True)
    (Passage.Holds.reset s) (fun _ _ a _ h => h.next a) fun _ _ => trivial

theorem departed_succ (n : Nat) : (passage s i (n + 1)).departed = (passage s i n).departed
    ++ (passage s i n).departing (machine.run s.reset i n) (i n) := rfl

theorem told_run (hn : ∀ n, disturbed (machine.run s.reset i n) (i n) = false) (n : Nat) :
    (told s i n).updates = (passage s i n).departed.filterMap Departure.update ∧
      (told s i n).stackOps = (passage s i n).departed.filterMap Departure.stackOp := by
  induction n with
  | zero => exact ⟨rfl, rfl⟩
  | succ n ih =>
    have h := passage_run s i n
    have hu : (told s i (n + 1)).updates
        = (told s i n).updates ++ tableUpdate (machine.run s.reset i n) (i n) := rfl
    have ho : (told s i (n + 1)).stackOps
        = (told s i n).stackOps ++ stackOp (machine.run s.reset i n) (i n) := rfl
    rw [hu, ho, departed_succ, ih.1, ih.2, List.filterMap_append, List.filterMap_append,
      h.tableUpdate_eq (hn n), h.stackOp_eq (hn n)]
    exact ⟨rfl, rfl⟩

/-- That is so in just the runs in which no branch, call or return is held in EX by memory or
killed there by a trap. -/
theorem trained_once_iff :
    TrainedOnce s i ↔ ∀ n, disturbed (machine.run s.reset i n) (i n) = false := by
  refine ⟨fun h n => ?_, fun h => ⟨fun n => ?_, fun n => (told_run s i h n).1,
    fun n => (told_run s i h n).2⟩⟩
  · rw [Bool.eq_false_iff]
    intro hd
    obtain ⟨hno, hto⟩ := told_of_disturbed (g := passage s i n) hd
    have hd : (passage s i (n + 1)).departed = (passage s i n).departed := by
      rw [departed_succ, hno, List.append_nil]
    have hu := h.updates (n + 1)
    have ho := h.stackOps (n + 1)
    rw [hd, ← h.updates n] at hu
    rw [hd, ← h.stackOps n] at ho
    rcases hto with ht | ht
    · exact ht (List.append_right_eq_self.mp hu)
    · exact ht (List.append_right_eq_self.mp ho)
  · exact ((passage_run s i n).order.sublist (List.sublist_append_left _ _))

end Run

/-- A branch behind a load that waits two cycles for its data: it leaves EX once and trains the
table three times. -/
theorem branch_trains_thrice :
    ¬∀ (s : State) (i : Nat → In), TrainedOnce s i := by
  intro h
  let i : Nat → In := fun n =>
    { rsp := { vld := n == 6, rdata := 0 }, intr := 0, lsuReqRdy := true, lsuReqHit := false
      ifuReqRdy := true, ifuRspVld := true, ifuRdata := 0x0000046300003083 }
  have hu := (h default i).updates 7
  have ht : (told default i 7).updates =
      [(0x80000004, true), (0x80000004, true), (0x80000004, true)] := by decide +kernel
  have hd : (passage default i 7).departed.filterMap Departure.update = [(0x80000004, true)] := by
    decide +kernel
  rw [ht, hd] at hu
  revert hu
  decide

end Rv64imCore.Core
