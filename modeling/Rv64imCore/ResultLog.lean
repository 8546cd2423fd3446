import Rv64imCore.Pipeline

/-! Operand delivery: the results of the instructions that have left EX, as a log in program order,
and where the pipeline keeps them. -/

namespace Rv64imCore.Core
set_option autoImplicit true

/-- The result of an instruction: a value, or what a load will take from the answer to its access.
-/
inductive Result where
  | value (v : BitVec 64)
  | load (addr : BitVec 64) (len : BitVec 5) (access : Nat)

def Result.eval (answers : List (BitVec 64)) : Result → Option (BitVec 64)
  | .value v => some v
  | .load addr len access => answers[access]?.map (Ls.format addr len)

structure Entry where
  rd : BitVec 5
  result : Result

/-- The register writes of the instructions that left EX without being killed, youngest first; the
number of data accesses made; and the words that answered them, in order. -/
structure Log where
  entries : List Entry
  accesses : Nat
  answers : List (BitVec 64)

def Log.empty : Log := { entries := [], accesses := 0, answers := [] }

/-- The result of the youngest instruction that writes `r`, or the reset value. -/
def Log.youngest (g : Log) (r : BitVec 5) : Option (BitVec 64) :=
  match g.entries.find? (·.rd == r) with
  | some e => e.result.eval g.answers
  | none => some 0

/-- The log with the data response of the cycle. -/
def Log.answer (g : Log) (s : State) (e : Early) : Log :=
  { g with answers := if Lsu.dataShake s.lsu e.rsp then g.answers ++ [e.rsp.rdata] else g.answers }

/-- The instruction in EX leaves it, and no trap kills it. -/
def leaves (s : State) (i : In) : Bool :=
  !intrFlush s i.toEarly && (!stallExu s i || flushExu s i)

def writesRd (n : Info) : Bool :=
  Alu.aluReq n || Alu.jal n || Alu.jalr n || Alu.csrReq n || Alu.divOp n || Alu.mulOp n
    || Alu.memRwCtrl n

/-- The result of the instruction in EX; a multiply adds its two partial sums in MEM. -/
def exResult (s : State) (i : In) (access : Nat) : Result :=
  if Alu.memRwCtrl s.exu.idAlu.info then
    .load (Alu.memAddr (aluIn s i.toEarly)) (Alu.memRwLen s.exu.idAlu.info) access
  else if Alu.mulOp s.exu.idAlu.info then
    .value (Ls.mulSelect (Alu.mulMode s.exu.idAlu.info) (Alu.mulCasRes1 (aluIn s i.toEarly))
      (Alu.mulCasRes2 (aluIn s i.toEarly)))
  else .value (exuRdData s i)

def Log.update (g : Log) (s : State) (i : In) : Log :=
  { entries := if leaves s i && writesRd s.exu.idAlu.info then
      ⟨s.exu.idAlu.rdIndex, exResult s i g.accesses⟩ :: g.entries else g.entries
    accesses := g.accesses + (addrShake s i).toNat
    answers := (g.answer s i.toEarly).answers }

/-- Where the pipeline has the youngest result for `r` at the start of a cycle; `none` while the
load in MEM is not answered. -/
def held (s : State) (r : BitVec 5) : Option (BitVec 64) :=
  if s.lsu.mem.rdWen && s.lsu.mem.rdIndex == r then
    if s.lsu.mem.req then
      if s.lsu.rspRdy then none else some (Ls.format s.lsu.mem.addr s.lsu.mem.rwLen s.lsu.rdataR)
    else some (Lsu.alutordData s.lsu)
  else if s.wbu.wen && s.wbu.index == r then some s.wbu.data
  else some (s.idu.regs r)

/-- The same within the cycle, with its data response. -/
def heldNow (s : State) (e : Early) (r : BitVec 5) : Option (BitVec 64) :=
  if s.lsu.mem.rdWen && s.lsu.mem.rdIndex == r then
    if memStall s e then none else some (Lsu.iduData s.lsu e.rsp)
  else if s.wbu.wen && s.wbu.index == r then some s.wbu.data
  else some (s.idu.regs r)

/-- MEM holds a load to `r`. -/
def loadInMem (s : State) (r : BitVec 5) : Prop :=
  s.lsu.mem.req = true ∧ s.lsu.mem.rwCtrl = true ∧ s.lsu.mem.rdIndex = r

/-- The stored operand of one source of EX is the youngest result, or a load in MEM will replace
it. -/
def OperandOk (s : State) (g : Log) (use : Bool) (r : BitVec 5) (data : BitVec 64) : Prop :=
  use = true → r ≠ 0 → loadInMem s r ∨ g.youngest r = some data

structure Delivers (s : State) (g : Log) : Prop where
  inv : Inv s
  memWen : s.lsu.mem.req = true → s.lsu.mem.rdWen = s.lsu.mem.rwCtrl
  count : g.accesses = g.answers.length + s.lsu.rspRdy.toNat
  made : ∀ e ∈ g.entries, ∀ a l k, e.result = .load a l k → k < g.accesses
  open_ : ∀ e ∈ g.entries, ∀ a l, e.result = .load a l g.answers.length →
    a = s.lsu.mem.addr ∧ l = s.lsu.mem.rwLen
  agrees : ∀ r, r ≠ 0 → g.youngest r = held s r
  rs1 : OperandOk s g (Regfile.useRs1 s.exu.idAlu.inst) (Id.rs1 s.exu.idAlu.inst)
    s.exu.idAlu.rs1Data
  rs2 : OperandOk s g (Regfile.useRs2 s.exu.idAlu.inst) (Id.rs2 s.exu.idAlu.inst)
    s.exu.idAlu.rs2Data

theorem Result.eval_append {r : Result} (h : r.eval as = some v) (w : BitVec 64) :
    r.eval (as ++ [w]) = some v := by
  cases r with
  | value => exact h
  | load a l k =>
    simp only [Result.eval, Option.map_eq_some_iff] at h ⊢
    obtain ⟨x, hx, rfl⟩ := h
    exact ⟨x, by rw [List.getElem?_append_left (List.getElem?_eq_some_iff.mp hx).1, hx], rfl⟩

theorem Log.youngest_append {g : Log} (h : g.youngest r = some v) (w : BitVec 64) :
    Log.youngest { g with answers := g.answers ++ [w] } r = some v := by
  simp only [youngest] at h ⊢
  cases hf : g.entries.find? (·.rd == r) with
  | none => rw [hf] at h; exact h
  | some e => rw [hf] at h; exact Result.eval_append h w

theorem Log.answer_length (g : Log) (s : State) (e : Early) :
    (g.answer s e).answers.length = g.answers.length + (s.lsu.rspRdy && e.rsp.vld).toNat := by
  rw [answer, show (s.lsu.rspRdy && e.rsp.vld) = Lsu.dataShake s.lsu e.rsp from rfl]
  cases Lsu.dataShake s.lsu e.rsp <;> simp

section Answer
variable {s : State} {g : Log} {e : Early}

theorem Delivers.memStall_eq (h : Delivers s g) (e : Early) :
    Core.memStall s e = (s.lsu.rspRdy && !e.rsp.vld) := by
  cases hr : s.lsu.rspRdy with
  | false => simp [Core.memStall, Lsu.dataStall, hr]
  | true => simp [Core.memStall, Lsu.dataStall, hr, h.inv.outstanding hr]

theorem Delivers.iduData (h : Delivers s g) (hq : s.lsu.mem.req = true) :
    Lsu.iduData s.lsu e.rsp = Ls.format s.lsu.mem.addr s.lsu.mem.rwLen
      (if s.lsu.rspRdy then e.rsp.rdata else s.lsu.rdataR) := by
  rw [Lsu.iduData, if_pos hq, Lsu.memtordData, h.inv.addrFf hq, Lsu.memRdata]
  cases hr : s.lsu.rspRdy with
  | true => simp [h.inv.unanswered hr]
  | false => simp [h.inv.answered hq hr]

/-- The unanswered load is the youngest one to write its register. -/
theorem Delivers.youngest_open (h : Delivers s g) (hy : g.youngest r = none) (w : BitVec 64) :
    Log.youngest { g with answers := g.answers ++ [w] } r =
      some (Ls.format s.lsu.mem.addr s.lsu.mem.rwLen w) := by
  simp only [Log.youngest] at hy ⊢
  cases hf : g.entries.find? (·.rd == r) with
  | none => rw [hf] at hy; cases hy
  | some e =>
    rw [hf] at hy
    have hm := List.mem_of_find?_eq_some hf
    cases he : e.result with
    | value v => simp [he, Result.eval] at hy
    | load a l k =>
      simp only [he, Result.eval, Option.map_eq_none_iff, List.getElem?_eq_none_iff] at hy ⊢
      have hk := h.made e hm a l k he
      have hc := h.count
      have hkl : k = g.answers.length := by
        cases hr : s.lsu.rspRdy <;> simp [hr] at hc <;> omega
      subst hkl
      obtain ⟨rfl, rfl⟩ := h.open_ e hm a l he
      simp

theorem Delivers.youngest_now (h : Delivers s g) (e : Early) (hr : r ≠ 0) :
    (g.answer s e).youngest r = heldNow s e r := by
  have hy := h.agrees r hr
  cases hs : Lsu.dataShake s.lsu e.rsp with
  | false =>
    rw [Log.answer, hs, if_neg (by decide)]
    change g.youngest r = _
    rw [hy, Core.held, Core.heldNow]
    split
    · cases hq : s.lsu.mem.req with
      | false => simp [Core.memStall, Lsu.dataStall, Lsu.iduData, hq]
      | true =>
        rw [h.memStall_eq, h.iduData hq]
        cases hy : s.lsu.rspRdy with
        | false => rfl
        | true =>
          have hv : e.rsp.vld = false := by simpa [Lsu.dataShake, hy] using hs
          simp [hv]
    · rfl
  | true =>
    rw [Log.answer, hs, if_pos rfl]
    simp only [Lsu.dataShake, Bool.and_eq_true] at hs
    have hq := h.inv.outstanding hs.1
    have hm : Core.memStall s e = false := by rw [h.memStall_eq, hs.1, hs.2]; rfl
    rw [Core.heldNow, hm, h.iduData hq, hs.1]
    rw [Core.held, hq, hs.1] at hy
    split at hy
    · rename_i hw
      rw [h.youngest_open (by simpa using hy), if_pos hw]
      rfl
    · rename_i hw
      rw [if_neg hw]
      split at hy
      · rename_i hb; rw [if_pos hb]; exact Log.youngest_append hy _
      · rename_i hb; rw [if_neg hb]; exact Log.youngest_append hy _

/-- Only the register of a load in MEM changes its result by the answer. -/
theorem Delivers.answer_of_not_load (h : Delivers s g) (hr : r ≠ 0) (hl : ¬loadInMem s r) :
    (g.answer s e).youngest r = g.youngest r := by
  rw [h.youngest_now e hr, h.agrees r hr, Core.heldNow, Core.held]
  split
  · rename_i hw
    cases hq : s.lsu.mem.req with
    | false => simp [Core.memStall, Lsu.dataStall, Lsu.iduData, hq]
    | true =>
      simp only [Bool.and_eq_true, beq_iff_eq, h.memWen hq] at hw
      exact absurd ⟨hq, hw.1, hw.2⟩ hl
  · rfl

end Answer

end Rv64imCore.Core
