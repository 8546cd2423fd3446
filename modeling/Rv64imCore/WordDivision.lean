import Mathlib.Data.Int.GCD
import Rv64imCore.CarrySave
import Rv64imCore.Division
import Rv64imCore.Exu

/-! The word forms of division. The EXU hands the divider the whole registers and sign-extends the
low half of what it answers. -/

namespace Rv64imCore
set_option autoImplicit true

inductive WordDivOp where
  | divw
  | divuw
  | remw
  | remuw
  deriving DecidableEq

namespace WordDivOp

/-- The `funct3` of the instruction; its opcode is OP-32 and its `funct7` one. -/
def fun3 : WordDivOp → BitVec 3
  | divw => 0b100#3
  | divuw => 0b101#3
  | remw => 0b110#3
  | remuw => 0b111#3

def encodes (op : WordDivOp) (inst : BitVec 32) : Bool :=
  Id.opcode inst == 0b0111011#7 && Id.fun3 inst == op.fun3 && Id.fun7 inst == 0b0000001#7

def isSigned : WordDivOp → Bool
  | divw | remw => true
  | divuw | remuw => false
def isDiv : WordDivOp → Bool
  | divw | divuw => true
  | remw | remuw => false

/-- What the architecture makes of the low halves. -/
def word (op : WordDivOp) (a b : BitVec 32) : BitVec 32 :=
  match op with
  | divw =>
    if b = 0#32 then BitVec.allOnes 32
    else if a = BitVec.intMin 32 ∧ b = BitVec.allOnes 32 then BitVec.intMin 32
    else BitVec.ofInt 32 (a.toInt.tdiv b.toInt)
  | divuw => if b = 0#32 then BitVec.allOnes 32 else BitVec.ofNat 32 (a.toNat / b.toNat)
  | remw =>
    if b = 0#32 then a
    else if a = BitVec.intMin 32 ∧ b = BitVec.allOnes 32 then 0#32
    else BitVec.ofInt 32 (a.toInt.tmod b.toInt)
  | remuw => if b = 0#32 then a else BitVec.ofNat 32 (a.toNat % b.toNat)

def result (op : WordDivOp) (a b : BitVec 64) : BitVec 64 :=
  (op.word (a.setWidth 32) (b.setWidth 32)).signExtend 64

/-- The request the EXU makes of the divider, and the answer it takes from it. -/
def request (op : WordDivOp) (a b : BitVec 64) : Div.In :=
  { rs1 := a, rs2 := b, isSigned := op.isSigned, divReq := true, stall := true }
def wide (op : WordDivOp) (a b : BitVec 64) : BitVec 64 :=
  if op.isDiv then Div.quotient (op.request a b) else Div.remainder (op.request a b)

/-- The instruction with `a1` and `a2` as sources and `a0` as destination. -/
def inst (op : WordDivOp) : BitVec 32 :=
  0b0000001#7 ++ 12#5 ++ 11#5 ++ op.fun3 ++ 10#5 ++ 0b0111011#7

/-! When the missing truncation makes no difference. -/

/-- The register is its low half, extended as the instruction reads it. -/
def extended (op : WordDivOp) (x : BitVec 64) : Bool :=
  x == if op.isSigned then (x.setWidth 32).signExtend 64 else (x.setWidth 32).setWidth 64

/-- Divisors that are right for every extended dividend: beside the extended ones, for a remainder
those whose low half is 0, and for REMW also `2^31`, which leaves the remainders of `-2^31`. -/
def divisorFits : WordDivOp → BitVec 64 → Bool
  | divw, b => extended divw b
  | divuw, b => extended divuw b
  | remw, b => extended remw b || b.setWidth 32 == 0#32 || b == 0x80000000#64
  | remuw, b => extended remuw b || b.setWidth 32 == 0#32

/-- A divisor that answers the same for every dividend with the same low half. -/
def zeroFits (op : WordDivOp) (b : BitVec 64) : Bool :=
  if op.isDiv then b == 0#64 else b.setWidth 32 == 0#32

def fits (op : WordDivOp) (a b : BitVec 64) : Bool :=
  zeroFits op b || (extended op a && divisorFits op b)

variable {op : WordDivOp} {inst : BitVec 32}

theorem encodes_iff : op.encodes inst = true ↔
    Id.opcode inst = 0b0111011#7 ∧ Id.fun3 inst = op.fun3 ∧ Id.fun7 inst = 0b0000001#7 := by
  simp [encodes, and_assoc]

theorem muldivOp_of_encodes (h : op.encodes inst = true) : Id.muldivOp inst = true := by
  obtain ⟨ho, -, h7⟩ := encodes_iff.mp h
  rw [Id.muldivOp, Id.decMd, Id.decMdw, ho, h7]
  rfl

theorem wires (h : op.encodes inst = true) :
    Alu.divOp (Id.info inst) = true ∧
      (Alu.div (Id.info inst) || Alu.rem (Id.info inst)) = op.isSigned ∧
      (Alu.div (Id.info inst) || Alu.divu (Id.info inst)) = op.isDiv ∧
      (Alu.rem (Id.info inst) || Alu.remu (Id.info inst)) = (!op.isDiv) ∧
      Alu.mdSextW (Id.info inst) = true := by
  have hm := muldivOp_of_encodes h
  obtain ⟨-, -, -, -, h0, h1, h2, h3, hw⟩ := Alu.muldiv_wires inst hm
  obtain ⟨ho, hf, h7⟩ := encodes_iff.mp h
  rw [Alu.divOp, h0, h1, h2, h3, hw, Id.div, Id.divu, Id.rem, Id.remu, hm, Id.mdSextW, Id.decMdw,
    ho, hf, h7]
  cases op <;> exact ⟨rfl, rfl, rfl, rfl, rfl⟩

end WordDivOp

namespace Exu

/-- Cycle `t` of the run is the first of a word division with the operands `a` and `b`; it stays
in EX until cycle `u`, where the divider answers and its result goes to `rd`. -/
structure Executes (op : WordDivOp) (a b : BitVec 64) (x : Core.Exu) (i : Nat → In) (t u : Nat) :
    Prop where
  le : t ≤ u
  encodes : op.encodes (machine.run (reset x) i t).idAlu.inst = true
  rs1 : aluRs1Data (machine.run (reset x) i t) (i t) = a
  rs2 : aluRs2Data (machine.run (reset x) i t) (i t) = b
  free : (machine.run (reset x) i t).div.busy = false
  stays : ∀ v, t ≤ v → v < u → (i v).stall = true
  kept : ∀ v, t ≤ v → v ≤ u → (i v).flush = false
  ack : Div.ack (divNow (machine.run (reset x) i u) (i u)) = true

theorem phase_div (x : Core.Exu) (i : Nat → In) (n : Nat) :
    Div.Phase (machine.run (reset x) i n).div :=
  machine.run_invariant (P := fun x => Div.Phase x.div) (.inl (Div.idle_reset x.div))
    (fun _ a h => h.next a.flush _) n

namespace Executes

section Facts
variable {op : WordDivOp} {a b : BitVec 64} {x : Core.Exu} {i : Nat → In} {t u : Nat}

theorem info (h : Executes op a b x i t u) : (machine.run (reset x) i t).idAlu.info
    = Id.info (machine.run (reset x) i t).idAlu.inst := by
  rcases decoded_run (x := reset x) (.inr rfl) i t with hd | hb
  · exact hd.1
  · have he := h.encodes
    rw [hb] at he
    cases op <;> cases he

theorem idAlu_eq (h : Executes op a b x i t u) (htv : t ≤ v) (hvu : v ≤ u) :
    (machine.run (reset x) i v).idAlu = (machine.run (reset x) i t).idAlu := by
  apply Clocked.kept (P := fun v => (machine.run (reset x) i v).idAlu
    = (machine.run (reset x) i t).idAlu) htv rfl
  intro w htw hwv hw
  rw [Clocked.Machine.run_succ, ← hw]
  change reg (i w).flush _ (!(i w).stall) _ _ = _
  rw [h.kept w htw (by omega), h.stays w htw (by omega)]
  rfl

theorem div_phase (h : Executes op a b x i t u) (htv : t + 1 ≤ v) (hvu : v ≤ u) :
    (∃ k, Div.Working (op.request a b) k (machine.run (reset x) i v).div) ∨
      Div.Answered (op.request a b) (machine.run (reset x) i v).div := by
  have hstep (w : Nat) (htw : t ≤ w) (hwu : w < u) : (machine.run (reset x) i (w + 1)).div
      = Div.next false (machine.run (reset x) i w).div
        (Alu.divIn (aluIn (machine.run (reset x) i w) (i w)) (i w).stall) := by
    rw [Clocked.Machine.run_succ]
    change Div.next (i w).flush _ _ = _
    rw [h.kept w htw (by omega)]
  have hreq : Alu.divIn (aluIn (machine.run (reset x) i t) (i t)) (i t).stall
      = op.request a b := by
    obtain ⟨hd, hs, -⟩ := WordDivOp.wires h.encodes
    rw [Alu.divIn, h.stays t (Nat.le_refl t) (by omega)]
    change Div.In.mk (aluRs1Data _ _) (aluRs2Data _ _)
      (Alu.div (machine.run (reset x) i t).idAlu.info
        || Alu.rem (machine.run (reset x) i t).idAlu.info)
      (Alu.divOp (machine.run (reset x) i t).idAlu.info) true = _
    rw [h.rs1, h.rs2, h.info, hd, hs]
    rfl
  have hidle : Div.Idle (machine.run (reset x) i t).div := by
    have hf := h.free
    rcases phase_div x i t with hp | ⟨j, k, hp⟩ | ⟨j, hp⟩
    · exact hp
    · rw [hp.busy] at hf; cases hf
    · rw [hp.busy] at hf; cases hf
  apply Clocked.kept (P := fun v => (∃ k, Div.Working (op.request a b) k
    (machine.run (reset x) i v).div) ∨ Div.Answered (op.request a b)
      (machine.run (reset x) i v).div) htv
  · rw [hstep t (Nat.le_refl t) (by omega), hreq]
    exact .inl ⟨0, hidle.next_start rfl⟩
  · intro w htw hwv hw
    rw [hstep w (by omega) (by omega)]
    rcases hw with ⟨k, hw⟩ | hw
    · rcases Nat.lt_or_eq_of_le hw.le with hk | hk
      · exact .inl ⟨k + 1, hw.next_step hk⟩
      · exact .inr (hw.next_done hk)
    · exact .inr (hw.next_stall (h.stays w (by omega) (by omega)))

theorem answered (h : Executes op a b x i t u) :
    Div.Answered (op.request a b) (divNow (machine.run (reset x) i u) (i u)) := by
  have hset : divNow (machine.run (reset x) i u) (i u) = (machine.run (reset x) i u).div := by
    rw [divNow, h.kept u h.le (Nat.le_refl u)]
    rfl
  have hack := h.ack
  rw [hset] at hack ⊢
  rcases Nat.eq_or_lt_of_le h.le with rfl | hlt
  · have hf := h.free
    rcases phase_div x i t with hp | ⟨j, k, hp⟩ | ⟨j, hp⟩
    · rw [Div.ack, hp.ready] at hack; cases hack
    · rw [hp.busy] at hf; cases hf
    · rw [hp.busy] at hf; cases hf
  · rcases h.div_phase hlt (Nat.le_refl u) with ⟨k, hw⟩ | hw
    · rw [Div.ack, hw.ready] at hack; cases hack
    · exact hw

/-- What goes to `rd`: the low half of the divider's answer for the whole registers. -/
theorem rdData_eq (h : Executes op a b x i t u) : rdData (machine.run (reset x) i u) (i u)
    = ((op.wide a b).setWidth 32).signExtend 64 := by
  have hx := h.idAlu_eq h.le (Nat.le_refl u)
  have hinfo : (machine.run (reset x) i u).idAlu.info
      = Id.info (machine.run (reset x) i t).idAlu.inst := by rw [hx]; exact h.info
  obtain ⟨hd, -, hq, hr, hw⟩ := WordDivOp.wires h.encodes
  have hm : Alu.muldivReq (Id.info (machine.run (reset x) i t).idAlu.inst) = true := by
    rw [Alu.muldivReq_info, WordDivOp.muldivOp_of_encodes h.encodes]
  obtain ⟨ha, -, hb, -, hc⟩ := (Alu.classes_info _).muldiv hm
  have hans := h.answered
  have hjump : Alu.bjpToRdWe (aluIn (machine.run (reset x) i u) (i u)) = false := by
    change (Alu.jal (machine.run (reset x) i u).idAlu.info
      || Alu.jalr (machine.run (reset x) i u).idAlu.info) = false
    rw [hinfo, Alu.jal, Alu.jalr, hb]
    rfl
  have hwe : Alu.muldivToRdWe (aluIn (machine.run (reset x) i u) (i u))
      (Div.ack (divNow (machine.run (reset x) i u) (i u))) = true := by
    rw [Alu.muldivToRdWe, h.ack]
    change (Alu.divOp (machine.run (reset x) i u).idAlu.info && true || _) = true
    rw [hinfo, hd]
    rfl
  have hres : Alu.muldivToRdData (aluIn (machine.run (reset x) i u) (i u))
      (divNow (machine.run (reset x) i u) (i u)) = ((op.wide a b).setWidth 32).signExtend 64 := by
    rw [Alu.muldivToRdData, Alu.muldivRes]
    change Alu.sextW (Alu.mdSextW (machine.run (reset x) i u).idAlu.info)
      (mask (Alu.div (machine.run (reset x) i u).idAlu.info
        || Alu.divu (machine.run (reset x) i u).idAlu.info) _
      ||| mask (Alu.rem (machine.run (reset x) i u).idAlu.info
        || Alu.remu (machine.run (reset x) i u).idAlu.info) _) = _
    rw [hinfo, hw, hq, hr, hans.res, hans.rem, Alu.sextW, if_pos rfl, Bits.fill_append_low,
      BitVec.setWidth_eq_extractLsb' (by decide), WordDivOp.wide]
    cases op.isDiv <;> simp
  rw [rdData, Alu.rdWdata, hjump, hwe, hres]
  change mask (Alu.aluReq (machine.run (reset x) i u).idAlu.info) _ ||| _ ||| _
    ||| mask (Alu.csrReq (machine.run (reset x) i u).idAlu.info) _ = _
  rw [hinfo, ha, hc]
  simp

end Facts

end Executes

section Execution
variable (op : WordDivOp) (a b : BitVec 64)

/-- The instruction comes from ID with its operands, and then waits for the divider. -/
def issue : In :=
  { inst := op.inst, pc := 0x80000000, predictPt := false, rs1Data := a, rs2Data := b
    loadBypassVld := false, loadBypassRd := 0, loadBypassData := 0, flush := false, stall := false
    intr := 0 }
def wait : In := { issue op a b with stall := true }
def issueThenWait (n : Nat) : In := if n = 0 then issue op a b else wait op a b

theorem executes_issueThenWait :
    Executes op a b default (issueThenWait op a b) 1 (1 + Div.latency (op.request a b)) := by
  have henc : op.encodes op.inst = true := by cases op <;> decide
  have hidle : Div.Idle (machine.run (reset default) (issueThenWait op a b) 1).div := by
    have hb : (aluIn (reset default) (issue op a b)).info = IdAlu.bubble.info := rfl
    have hn : (Alu.divIn (aluIn (reset default) (issue op a b)) false).divReq = false := by
      rw [Alu.divIn, hb]
      rfl
    exact Div.Idle.next_none (Div.idle_reset _) hn
  have hstall : ∀ v, 1 ≤ v → (issueThenWait op a b v).stall = true := by
    intro v hv
    rw [issueThenWait, if_neg (by omega)]
    rfl
  have hflush : ∀ v, (issueThenWait op a b v).flush = false := by
    intro v
    rw [issueThenWait]
    split <;> rfl
  have hreq : Alu.divIn (aluIn (machine.run (reset default) (issueThenWait op a b) 1)
      (issueThenWait op a b 1)) (issueThenWait op a b 1).stall = op.request a b := by
    obtain ⟨hd, hs, -⟩ := WordDivOp.wires henc
    change Div.In.mk a b (Alu.div (Id.info op.inst) || Alu.rem (Id.info op.inst))
      (Alu.divOp (Id.info op.inst)) true = _
    rw [hd, hs]
    rfl
  refine ⟨by omega, henc, rfl, rfl, hidle.busy, fun v hv _ => hstall v hv, fun v _ _ => hflush v,
    ?_⟩
  have ha := Div.answered_of_idle
    (d := fun v => (machine.run (reset default) (issueThenWait op a b) v).div)
    (e := fun v => Alu.divIn (aluIn (machine.run (reset default) (issueThenWait op a b) v)
      (issueThenWait op a b v)) (issueThenWait op a b v).stall) hidle (by rw [hreq]; rfl)
    (fun v _ _ => by
      change Div.next (issueThenWait op a b v).flush _ _ = _
      rw [hflush])
  rw [hreq] at ha
  rw [divNow, hflush]
  exact ha.ready

/-- In every run the EXU delivers the architecture's result for these operands. -/
def Correct : Prop :=
  ∀ x i t u, Executes op a b x i t u → rdData (machine.run (reset x) i u) (i u) = op.result a b

theorem setWidth_signExtend (y : BitVec 32) : (y.signExtend 64).setWidth 32 = y := by
  apply BitVec.eq_of_getLsbD_eq
  intro k hk
  have hk' : k < 64 := by omega
  rw [BitVec.getLsbD_setWidth, BitVec.getLsbD_signExtend]
  simp [hk, hk']

theorem correct_iff : Correct op a b ↔
    (op.wide a b).setWidth 32 = op.word (a.setWidth 32) (b.setWidth 32) := by
  constructor
  · intro h
    have he := executes_issueThenWait op a b
    have hr := h _ _ _ _ he
    rw [he.rdData_eq, WordDivOp.result] at hr
    rw [← setWidth_signExtend ((op.wide a b).setWidth 32), hr, setWidth_signExtend]
  · intro h x i t u he
    rw [he.rdData_eq, h, WordDivOp.result]

end Execution

end Exu

end Rv64imCore
