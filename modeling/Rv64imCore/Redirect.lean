import Rv64imCore.Branch
import Rv64imCore.DataBus
import Rv64imCore.FetchStream

/-! The pc that follows a branch or jump through EX. -/

namespace Rv64imCore
set_option autoImplicit true

namespace Core

/-- Which of ID and EX hold an instruction that was fetched and not killed, and where the fetch
goes on. The pc alone does not tell: a bubble carries the pc zero. -/
structure Flow where
  idVld : Bool
  exVld : Bool
  target : BitVec 64

def Flow.start : Flow := { idVld := false, exVld := false, target := Ifu.pcResetAddr + 4 }

def Flow.update (g : Flow) (s : State) (i : In) : Flow :=
  { idVld := reg (flushIdu s i) false (!stallIdu s i) (Ifu.instOk s.ifu (ifuIn s i)) g.idVld
    exVld := reg (flushExu s i) false (!stallExu s i) g.idVld g.exVld
    target := Ifu.target g.target s.ifu (ifuIn s i) }

/-- The pc of the next instruction to enter EX, unless a flush comes first. -/
def Flow.due (g : Flow) (s : State) : BitVec 64 := if g.idVld then s.idu.ifId.pc else g.target

/-- The fetch went on at `nxt` as the prediction says; after a return it may go anywhere. -/
def Follows (pc : BitVec 64) (inst : BitVec 32) (p : Bool) (nxt : BitVec 64) : Prop :=
  (Ifu.uncondJump inst = true → p = true) ∧
    (Alu.isReturn inst = true ∨ nxt = if p then pc + Ifu.pcOffset inst else pc + 4)

/-- What the flow keeps of the pipeline. -/
structure Flow.Holds (g : Flow) (s : State) : Prop where
  core : Inv s
  path : Ifu.OnPath s.ifu g.target
  idBubble : g.idVld = false → s.idu.ifId = Idu.IfId.bubble
  exBubble : g.exVld = false → s.exu.idAlu.inst = instNop ∧ s.exu.idAlu.pc = 0
  id : g.idVld = true →
    Follows s.idu.ifId.pc s.idu.ifId.inst s.idu.ifId.predictPt g.target
  ex : g.exVld = true →
    Follows s.exu.idAlu.pc s.exu.idAlu.inst s.exu.predictPt (g.due s)

theorem Flow.Holds.reset (s : State) : Flow.start.Holds s.reset where
  core := Inv.reset s
  path := Ifu.OnPath.reset s.ifu
  idBubble := fun _ => rfl
  exBubble := fun _ => ⟨rfl, rfl⟩
  id := fun h => Bool.noConfusion h
  ex := fun h => Bool.noConfusion h

section Wires
variable {s : State} {i : In} {g : Flow}

theorem Flow.Holds.quiet_ex (h : g.Holds s) (hx : g.exVld = false) :
    intrFlush s i.toEarly = false ∧ exuFlush s i.toEarly = false ∧ iduPipeStall s i = false := by
  obtain ⟨hn, hp⟩ := h.exBubble hx
  have hc : Alu.bjpReq s.exu.idAlu.info = false ∧ Alu.sysReq s.exu.idAlu.info = false ∧
      Alu.memReq s.exu.idAlu.info = false ∧ Alu.muldivReq s.exu.idAlu.info = false := by
    rcases h.core.decoded with ⟨hi, -⟩ | hb
    · rw [hi, hn]; decide
    · rw [hb]; decide
  exact ⟨intrFlush_of_pc_zero hp hc.2.1, Alu.flush_eq_false (i := aluIn s i.toEarly) hc.1 _ _,
    iduPipeStall_eq_false hc.2.2.1 hc.2.2.2⟩

theorem follows_succPc (s : Ifu.State) (i : Ifu.In) (inst : BitVec 32) :
    Follows s.pc inst (Ifu.dirbrnPt s inst) (Ifu.succPc s i inst) := by
  constructor
  · intro h
    have hc : Ifu.condBxx inst = false := by
      have ho : Id.opcode inst = 0b1101111#7 := by simpa [Ifu.uncondJump] using h
      simp [Ifu.condBxx, ho]
    rw [Ifu.dirbrnPt, hc, if_neg (by decide), h]
  · cases hr : Alu.isReturn inst with
    | true => exact .inl rfl
    | false => exact .inr (by rw [Ifu.succPc, hr]; rfl)

theorem ifIdNs_of_not_instOk (h : Ifu.instOk s.ifu (ifuIn s i) = false) :
    Idu.ifIdNs (Ifu.fetched s.ifu (ifuIn s i)) = Idu.IfId.bubble := by
  simp only [Idu.ifIdNs, Ifu.fetched, h, Ifu.inst]
  rfl

theorem ifIdNs_of_instOk (h : Ifu.instOk s.ifu (ifuIn s i) = true) :
    Idu.ifIdNs (Ifu.fetched s.ifu (ifuIn s i)) =
      { inst := Ifu.inst s.ifu (ifuIn s i), pc := s.ifu.pc
        predictPt := Ifu.dirbrnPt s.ifu (Ifu.inst s.ifu (ifuIn s i)) } := by
  simp only [Idu.ifIdNs, Ifu.fetched, h, if_true, Ifu.ifPc]

/-- A cycle of the front end: a flush, a hold of ID (EX is held with it or gets a bubble), or a
move of ID to EX. -/
theorem front_cases (s : State) (i : In) :
    (flushIfu s i = true ∧ flushIdu s i = true ∧ flushExu s i = true) ∨
    (flushIfu s i = false ∧ flushIdu s i = false ∧ stallIfu s i = true ∧ stallIdu s i = true ∧
      (flushExu s i = true ∨ (flushExu s i = false ∧ stallExu s i = true))) ∨
    (flushIfu s i = false ∧ flushIdu s i = false ∧ stallIfu s i = false ∧ stallIdu s i = false ∧
      flushExu s i = false ∧ stallExu s i = false) := by
  rw [flushIfu_eq, flushIdu_eq, flushExu_eq, stallIfu_eq, stallIdu_eq, stallExu_eq]
  cases intrFlush s i.toEarly <;> cases exuFlush s i.toEarly <;> cases memStall s i.toEarly <;>
    cases iduPipeStall s i <;> cases exuStall s i <;> decide

end Wires

section Step
variable {s : State} {i : In} {g : Flow}

theorem next_of_flush (hd : flushIdu s i = true) (hx : flushExu s i = true) :
    (next s i).idu.ifId = Idu.IfId.bubble ∧ (next s i).exu.idAlu = IdAlu.bubble ∧
      (g.update s i).idVld = false ∧ (g.update s i).exVld = false := by
  rw [next_ifId, next_idAlu, hd, hx]
  refine ⟨rfl, rfl, ?_, ?_⟩
  · rw [Flow.update, hd]; rfl
  · rw [Flow.update, hx]; rfl

theorem target_of_stall (hf : flushIfu s i = false) (hs : stallIfu s i = true) :
    (g.update s i).target = g.target := by
  simp only [Flow.update, Ifu.target]
  rw [show (ifuIn s i).flush = false from hf, Ifu.instOk_of_stall (i := ifuIn s i) hs]
  rfl

theorem next_of_hold (hd : flushIdu s i = false) (hs : stallIdu s i = true) :
    (next s i).idu.ifId = s.idu.ifId ∧ (g.update s i).idVld = g.idVld := by
  rw [next_ifId, Flow.update, hd, hs]
  exact ⟨rfl, rfl⟩

theorem next_of_move (hd : flushIdu s i = false) (hs : stallIdu s i = false)
    (hx : flushExu s i = false) (hs' : stallExu s i = false) :
    (next s i).idu.ifId = Idu.ifIdNs (Ifu.fetched s.ifu (ifuIn s i)) ∧
      (g.update s i).idVld = Ifu.instOk s.ifu (ifuIn s i) ∧
      (next s i).exu.idAlu = idAluNs s i ∧
      (next s i).exu.predictPt = s.idu.ifId.predictPt ∧ (g.update s i).exVld = g.idVld := by
  have hp : (next s i).exu.predictPt =
    reg (flushExu s i) false (!stallExu s i) s.idu.ifId.predictPt s.exu.predictPt := rfl
  rw [next_ifId, next_idAlu, hp, Flow.update, hd, hs, hx, hs']
  exact ⟨rfl, rfl, rfl, rfl, rfl⟩

theorem Flow.Holds.due_of_move (h : g.Holds s) (hf : flushIfu s i = false)
    (hd : flushIdu s i = false) (hs : stallIdu s i = false) (hx : flushExu s i = false)
    (hs' : stallExu s i = false) : (g.update s i).due (next s i) = g.target := by
  obtain ⟨hi, hv, -, -, -⟩ := next_of_move (g := g) hd hs hx hs'
  rw [due, hi, hv]
  cases hk : Ifu.instOk s.ifu (ifuIn s i) with
  | true =>
    rw [if_pos rfl, ifIdNs_of_instOk hk, ← h.path.ifPc hk, Ifu.ifPc, if_pos hk]
  | false =>
    simp only [Flow.update, Ifu.target, hk]
    rw [show (ifuIn s i).flush = false from hf]
    rfl

theorem Flow.Holds.next (h : g.Holds s) (hr : Ifu.Ready s.ifu (ifuIn s i)) :
    (g.update s i).Holds (Core.next s i) := by
  have hc := h.core.next i
  have hp : Ifu.OnPath (Core.next s i).ifu (g.update s i).target := h.path.next hr
  rcases front_cases s i with ⟨-, hd, hx⟩ | ⟨hf, hd, hs, hs', hx⟩ | ⟨hf, hd, hs, hs', hx, hx'⟩
  · obtain ⟨h1, h2, h3, h4⟩ := next_of_flush (g := g) hd hx
    refine ⟨hc, hp, fun _ => h1, fun _ => by rw [h2]; exact ⟨rfl, rfl⟩, fun h' => ?_, fun h' => ?_⟩
    · rw [h3] at h'; cases h'
    · rw [h4] at h'; cases h'
  · obtain ⟨h1, h2⟩ := next_of_hold (g := g) hd hs'
    have ht := target_of_stall (g := g) hf hs
    have hid := h.id
    rw [← h1, ← h2, ← ht] at hid
    have hdue : (g.update s i).due (Core.next s i) = g.due s := by rw [due, due, h1, h2, ht]
    rcases hx with hx | ⟨hx, hx'⟩
    · have h3 : (Core.next s i).exu.idAlu = IdAlu.bubble := by rw [next_idAlu, hx]; rfl
      have h4 : (g.update s i).exVld = false := by rw [Flow.update, hx]; rfl
      refine ⟨hc, hp, fun h' => ?_, fun _ => by rw [h3]; exact ⟨rfl, rfl⟩, hid, fun h' => ?_⟩
      · rw [h1]; exact h.idBubble (h2 ▸ h')
      · rw [h4] at h'; cases h'
    · have h3 : (Core.next s i).exu.idAlu = s.exu.idAlu := by rw [next_idAlu, hx, hx']; rfl
      have h4 : (g.update s i).exVld = g.exVld := by rw [Flow.update, hx, hx']; rfl
      have h5 : (Core.next s i).exu.predictPt = s.exu.predictPt := by
        have : (Core.next s i).exu.predictPt =
          reg (flushExu s i) false (!stallExu s i) s.idu.ifId.predictPt s.exu.predictPt := rfl
        rw [this, hx, hx']; rfl
      refine ⟨hc, hp, fun h' => ?_, fun h' => ?_, hid, fun h' => ?_⟩
      · rw [h1]; exact h.idBubble (h2 ▸ h')
      · rw [h3]; exact h.exBubble (h4 ▸ h')
      · rw [h3, h5, hdue]; exact h.ex (h4 ▸ h')
  · obtain ⟨h1, h2, h3, h4, h5⟩ := next_of_move (g := g) hd hs' hx hx'
    refine ⟨hc, hp, fun h' => ?_, fun h' => ?_, fun h' => ?_, fun h' => ?_⟩
    · rw [h1]; exact ifIdNs_of_not_instOk (h2 ▸ h')
    · rw [h3]
      have hb := h.idBubble (h5 ▸ h')
      simp only [idAluNs, hb]
      exact ⟨rfl, rfl⟩
    · have hk := h2 ▸ h'
      have ht : (g.update s i).target =
          Ifu.succPc s.ifu (ifuIn s i) (Ifu.inst s.ifu (ifuIn s i)) := by
        simp only [Flow.update, Ifu.target, hk, (Ifu.instOk_cases hk).1]
        rfl
      rw [h1, ifIdNs_of_instOk hk, ht]
      exact follows_succPc ..
    · rw [h3, h4, h.due_of_move hf hd hs' hx hx']
      exact h.id (h5 ▸ h')

end Step

/-- A branch or jump leaves EX, and no trap takes its place. -/
def Flow.leaves (g : Flow) (s : State) (i : In) : Bool :=
  g.exVld && Alu.transfers s.exu.idAlu.inst && !stallExu s i && !intrFlush s i.toEarly

/-- The instruction in ID enters EX. -/
def Flow.enters (g : Flow) (s : State) (i : In) : Bool :=
  g.idVld && !flushExu s i && !stallExu s i

/-- A `jalr` to address zero looks at a bubble in ID while the fetch is on its way elsewhere. -/
def Flow.zeroJalr (g : Flow) (s : State) (i : In) : Bool :=
  Id.decJalr s.exu.idAlu.inst && Alu.successor (aluIn s i.toEarly) == 0 && !g.idVld
    && g.target != 0

/-- The pc that follows a branch or jump into EX. -/
def Flow.resolved (g : Flow) (s : State) (i : In) : BitVec 64 :=
  if exuFlush s i.toEarly then Alu.successor (aluIn s i.toEarly) else g.due s

/-- EX holds a bubble and the next instruction is to come from `N`. -/
structure Flow.Awaits (g : Flow) (s : State) (N : BitVec 64) : Prop where
  ex : g.exVld = false
  due : g.due s = N

section Transfer
variable {s : State} {i : In} {g : Flow}

theorem enters_due (h : g.enters s i = true) : s.idu.ifId.pc = g.due s := by
  simp only [Flow.enters, Bool.and_eq_true] at h
  rw [Flow.due, if_pos h.1.1]

theorem Flow.Awaits.next (ha : g.Awaits s N) (h : g.Holds s) (hn : g.enters s i = false) :
    (g.update s i).Awaits (Core.next s i) N := by
  obtain ⟨hi, he, hz⟩ := h.quiet_ex (i := i) ha.ex
  have hf : flushIfu s i = false := by rw [flushIfu_eq, hi, he]; rfl
  rcases front_cases s i with ⟨hf', -⟩ | ⟨-, hd, hs, hs', hx⟩ | ⟨-, hd, hs, hs', hx, hx'⟩
  · rw [hf] at hf'; cases hf'
  · obtain ⟨h1, h2⟩ := next_of_hold (g := g) hd hs'
    refine ⟨?_, ?_⟩
    · rcases hx with hx | ⟨hx, hx'⟩
      · rw [Flow.update, hx]; rfl
      · rw [Flow.update, hx, hx']; exact ha.ex
    · rw [← ha.due, Flow.due, Flow.due, h1, h2, target_of_stall hf hs]
  · have hv : g.idVld = false := by simpa [Flow.enters, hx, hx'] using hn
    refine ⟨?_, ?_⟩
    · rw [(next_of_move (g := g) hd hs' hx hx').2.2.2.2, hv]
    · rw [h.due_of_move hf hd hs' hx hx', ← ha.due, Flow.due, hv]
      rfl

theorem decJalr_of_isReturn {inst : BitVec 32} (h : Alu.isReturn inst = true) :
    Id.decJalr inst = true := by
  simp only [Alu.isReturn, Bool.and_eq_true] at h
  simp only [Id.decJalr, h.1.1.1, h.1.1.2, Bool.and_self]

theorem transfers_wires (hd : s.exu.idAlu.Decoded) (ht : Alu.transfers s.exu.idAlu.inst = true) :
    exuStall s i = false ∧ iduPipeStall s i = false := by
  have hb : Alu.bjpReq s.exu.idAlu.info = true := by
    rw [(Alu.decoded_of_transfers hd ht).1, Alu.bjpReq_info, Id.bjpOp]
    rcases Alu.transfers_cases ht with ⟨h, -⟩ | ⟨-, h, -⟩ | ⟨-, -, h⟩
    · simp [h]
    · simp [h]
    · simp [(Alu.condBxx_cases h).1]
  obtain ⟨-, hm, hmd, -⟩ := hd.classes.bjp hb
  exact ⟨exuStall_eq_false hm (Alu.divOp_eq_false hmd), iduPipeStall_eq_false hm hmd⟩

theorem aluIn_decoded (hd : s.exu.idAlu.Decoded) (ht : Alu.transfers s.exu.idAlu.inst = true) :
    (aluIn s e).Decoded := by
  rcases hd with hd | hd
  · exact .inl hd
  · rw [hd] at ht; exact absurd ht (by decide)

/-- Without a redirect, what the fetch chose was right, but for a `jalr` to zero. -/
theorem Flow.Holds.due_eq_iff (h : g.Holds s) (hx : g.exVld = true)
    (ht : Alu.transfers s.exu.idAlu.inst = true) (hf : exuFlush s i.toEarly = false) :
    g.due s = Alu.successor (aluIn s i.toEarly) ↔ g.zeroJalr s i = false := by
  have hdec := aluIn_decoded (e := i.toEarly) h.core.decoded ht
  rcases Alu.successor_of_not_flush hdec ht hf with ⟨hj, hpc⟩ | ⟨hj, hN⟩
  · rw [Flow.due, Flow.zeroJalr, show Id.decJalr s.exu.idAlu.inst = true from hj, ← hpc]
    cases hv : g.idVld with
    | true => simp
    | false => simp [h.idBubble hv, Idu.IfId.bubble]
  · obtain ⟨hu, hr⟩ := h.ex hx
    have hd : g.due s = Alu.successor (aluIn s i.toEarly) := by
      rcases hr with hr | hr
      · exact absurd ((decJalr_of_isReturn hr).symm.trans hj) (by decide)
      · exact hr.trans (hN hu).symm
    simp [hd, Flow.zeroJalr, show Id.decJalr s.exu.idAlu.inst = false from hj]

/-- A `jalr` to zero above a bubble is not redirected. -/
theorem Flow.Holds.exuFlush_of_zeroJalr (h : g.Holds s)
    (ht : Alu.transfers s.exu.idAlu.inst = true) (hz : g.zeroJalr s i = true) :
    exuFlush s i.toEarly = false := by
  simp only [Flow.zeroJalr, Bool.and_eq_true, beq_iff_eq, Bool.not_eq_true'] at hz
  obtain ⟨⟨⟨hj, hN⟩, hv⟩, -⟩ := hz
  have hdec := aluIn_decoded (e := i.toEarly) h.core.decoded ht
  have hc : Ifu.condBxx s.exu.idAlu.inst = false := by
    rcases Alu.transfers_cases ht with ⟨-, -, h3⟩ | ⟨h1, -⟩ | ⟨h1, -⟩
    · exact h3
    · rw [hj] at h1; cases h1
    · rw [hj] at h1; cases h1
  have hb : Alu.bxIfCond (aluIn s i.toEarly) = false :=
    (Alu.bxIfCond_eq (Alu.decoded_of_transfers hdec ht).1).trans hc
  simp [exuFlush, Alu.flush, Alu.condErr, hb, Alu.jalrErr, Alu.jalrTgt_eq hdec ht hj, hN,
    h.idBubble hv, Idu.IfId.bubble]

theorem Flow.Holds.resolved_eq_iff (h : g.Holds s) (hl : g.leaves s i = true) :
    g.resolved s i = Alu.successor (aluIn s i.toEarly) ↔ g.zeroJalr s i = false := by
  simp only [Flow.leaves, Bool.and_eq_true, Bool.not_eq_true'] at hl
  obtain ⟨⟨⟨hx, ht⟩, -⟩, -⟩ := hl
  cases hf : exuFlush s i.toEarly with
  | true =>
    rw [Flow.resolved, if_pos hf]
    refine ⟨fun _ => Bool.eq_false_iff.mpr fun hz => ?_, fun _ => rfl⟩
    rw [h.exuFlush_of_zeroJalr ht hz] at hf
    cases hf
  | false =>
    rw [Flow.resolved, hf]
    exact h.due_eq_iff hx ht hf

/-- A branch or jump that leaves EX is followed by the instruction it resolves to, at once or
later. -/
theorem Flow.Holds.leave (h : g.Holds s) (hl : g.leaves s i = true) :
    if g.enters s i then s.idu.ifId.pc = g.resolved s i
    else (g.update s i).Awaits (Core.next s i) (g.resolved s i) := by
  simp only [Flow.leaves, Bool.and_eq_true, Bool.not_eq_true'] at hl
  obtain ⟨⟨⟨-, ht⟩, hs⟩, hi⟩ := hl
  obtain ⟨he, hp⟩ := transfers_wires (i := i) h.core.decoded ht
  have hm := memStall_of_stallExu hs
  have hfx : flushExu s i = exuFlush s i.toEarly := by rw [flushExu_eq, hi, hm, hp]; simp
  have hfi : flushIfu s i = exuFlush s i.toEarly := by rw [flushIfu_eq, hi, hm]; simp
  have hfd : flushIdu s i = exuFlush s i.toEarly := by rw [flushIdu_eq, hi, hm]; simp
  have hsd : stallIdu s i = false := by rw [stallIdu_eq, he, hm, hp]; rfl
  rw [Flow.resolved]
  cases hf : exuFlush s i.toEarly with
  | true =>
    rw [hf] at hfx hfi hfd
    have hn : g.enters s i = false := by simp [Flow.enters, hfx]
    obtain ⟨-, -, h3, h4⟩ := next_of_flush (g := g) hfd hfx
    have ha : (ifuIn s i).flushAddr = Alu.successor (aluIn s i.toEarly) := by
      change PipeCtrl.flushAddr _ _ _ _ = _
      rw [PipeCtrl.flushAddr, hi, hf]
      exact Alu.jumpAddr_of_flush (aluIn_decoded h.core.decoded ht) ht hf
    rw [hn, if_neg (by decide), if_pos rfl]
    refine ⟨h4, ?_⟩
    rw [Flow.due, h3, if_neg (by decide), Flow.update, ← ha]
    exact if_pos hfi
  | false =>
    rw [hf] at hfx hfi hfd
    cases hn : g.enters s i with
    | true => exact enters_due hn
    | false =>
      have hv : g.idVld = false := by simpa [Flow.enters, hfx, hs] using hn
      rw [if_neg (by decide), if_neg (by decide)]
      refine ⟨?_, ?_⟩
      · rw [(next_of_move (g := g) hfd hsd hfx hs).2.2.2.2, hv]
      · rw [h.due_of_move hfi hfd hsd hfx hs, Flow.due, hv]
        rfl

end Transfer

end Core

namespace Top

def coreIn (s : State) (i : In) : Core.In := Sys.coreIn s.sys (sysIn s i)

/-- The fetch unit and the I-cache agree on what is outstanding. -/
structure FetchInv (s : State) : Prop where
  icache : Dcache.Control s.icache
  busy : Dcache.busy s.icache = s.sys.core.ifu.rspRdy

theorem FetchInv.reset (s : State) : FetchInv s.reset where
  icache := Dcache.control_reset s.icache
  busy := rfl

section Fetch
variable {s : State} {i : In}

theorem FetchInv.ready (h : FetchInv s) :
    Ifu.Ready s.sys.core.ifu (Core.ifuIn s.sys.core (coreIn s i)) := by
  intro hr
  change Dcache.memReqRdy s.icache s.sys.core.ifu.rspRdy = true
  rw [h.icache.memReqRdy, h.busy]
  rcases hr with hr | hr
  · rw [hr]; rfl
  · have hb := (Dcache.busy_of_rsp hr).symm.trans h.busy
    rw [← hb, show s.icache.vldC1 = true from hr]; rfl

theorem FetchInv.next (h : FetchInv s) (i : In) : FetchInv (Top.next s i) where
  icache := h.icache.next (icacheIn s i)
  busy := by
    have hn : (Top.next s i).sys.core.ifu.rspRdy =
        (Ifu.addrShake s.sys.core.ifu (ifuIn s i)
          || (s.sys.core.ifu.rspRdy && !(ifuIn s i).rspVld)) := by
      change (if Ifu.addrShake s.sys.core.ifu (ifuIn s i) then true
        else if Ifu.dataShake s.sys.core.ifu (ifuIn s i) then false
        else s.sys.core.ifu.rspRdy) = _
      rw [Ifu.dataShake]
      cases Ifu.addrShake s.sys.core.ifu (ifuIn s i) <;> cases s.sys.core.ifu.rspRdy <;>
        cases (ifuIn s i).rspVld <;> rfl
    have hq : Dcache.reqVld s.icache (icacheIn s i) =
        Ifu.addrShake s.sys.core.ifu (ifuIn s i) := Bool.and_comm ..
    change Dcache.busy (Dcache.next s.icache (icacheIn s i)) = _
    rw [h.icache.busy_next, hq, hn, h.busy]
    change (_ || (s.sys.core.ifu.rspRdy && !(s.icache.vldC1 && s.sys.core.ifu.rspRdy))) =
      (_ || (s.sys.core.ifu.rspRdy && !s.icache.vldC1))
    cases s.sys.core.ifu.rspRdy <;> simp

end Fetch

/-- The flow of instructions through a run. -/
def flow (s₀ : State) (i : Nat → In) : Nat → Core.Flow :=
  machine.history Core.Flow.start (fun g s a => g.update s.sys.core (coreIn s a)) s₀.reset i

theorem flow_holds (s₀ : State) (i : Nat → In) (n : Nat) :
    FetchInv (machine.run s₀.reset i n) ∧
      (flow s₀ i n).Holds (machine.run s₀.reset i n).sys.core :=
  machine.history_induction _ _
    (P := fun s g => FetchInv s ∧ Core.Flow.Holds g s.sys.core) (C := fun _ _ => True)
    ⟨FetchInv.reset s₀, Core.Flow.Holds.reset s₀.sys.core⟩
    (fun _ _ a _ h => ⟨h.1.next a, h.2.next h.1.ready⟩) (fun _ _ => trivial)

/-- In every run, a branch or jump that leaves EX without a trap is followed into EX by the
instruction at its successor, exactly when it is no `jalr` to zero above a bubble in ID with the
fetch on its way elsewhere. -/
theorem control_flow_corrected_iff (s₀ : State) (i : Nat → In) (n m : Nat) :
    let s := fun k => (machine.run s₀.reset i k).sys.core
    let a := fun k => coreIn (machine.run s₀.reset i k) (i k)
    let g := flow s₀ i
    n ≤ m → (g n).leaves (s n) (a n) = true → (g m).enters (s m) (a m) = true →
      (∀ k, n ≤ k → k < m → (g k).enters (s k) (a k) = false) →
      ((s m).idu.ifId.pc = Alu.successor (Core.aluIn (s n) (a n).toEarly) ↔
        (g n).zeroJalr (s n) (a n) = false) := by
  intro s a g hnm hl hm hq
  have hn := (flow_holds s₀ i n).2
  rw [← hn.resolved_eq_iff hl]
  have hl' := hn.leave hl
  suffices hpc : (s m).idu.ifId.pc = (g n).resolved (s n) (a n) by rw [hpc]
  rcases Nat.eq_or_lt_of_le hnm with rfl | hlt
  · rwa [if_pos hm] at hl'
  · rw [if_neg (by rw [hq n (Nat.le_refl n) hlt]; decide)] at hl'
    have hwait : (g m).Awaits (s m) ((g n).resolved (s n) (a n)) := by
      refine Clocked.kept (P := fun k => (g k).Awaits (s k) ((g n).resolved (s n) (a n))) hlt hl' ?_
      intro k hnk hkm h
      exact h.next (flow_holds s₀ i k).2 (hq k (Nat.le_of_succ_le hnk) hkm)
    rw [Core.enters_due hm, hwait.due]

/-- A `jal` at the reset vector, over an AXI slave that answers in two cycles. -/
theorem control_flow_corrected_jal :
    let i : Nat → In := fun n =>
      { awReady := true, wReady := true, bValid := false, arReady := true, rValid := true
        rData := if n = 2 then 0x0000001301C0006f else 0x0000001300000013 }
    let s := fun k => (machine.run (default : State).reset i k).sys.core
    let a := fun k => coreIn (machine.run (default : State).reset i k) (i k)
    (flow default i 11).leaves (s 11) (a 11) = true ∧
      (s 11).idu.ifId.pc = Alu.successor (Core.aluIn (s 11) (a 11).toEarly) :=
  ⟨by decide +kernel, (control_flow_corrected_iff default _ 11 11 (Nat.le_refl 11)
    (by decide +kernel) (by decide +kernel) (fun _ h h' => absurd h' (Nat.not_lt.mpr h))).mpr
    (by decide +kernel)⟩

/-- A `jal` to the last word of its line, and there a `jalr` to zero. The next line misses, so the
`jalr` sees a bubble in ID, takes its pc for its own target and falls through. -/
theorem zero_jalr_falls_through :
    ¬∀ (s₀ : State) (i : Nat → In) (n m : Nat),
      let s := fun k => (machine.run s₀.reset i k).sys.core
      let a := fun k => coreIn (machine.run s₀.reset i k) (i k)
      let g := flow s₀ i
      n ≤ m → (g n).leaves (s n) (a n) = true → (g m).enters (s m) (a m) = true →
        (∀ k, k < m → n ≤ k → (g k).enters (s k) (a k) = false) →
        (s m).idu.ifId.pc = Alu.successor (Core.aluIn (s n) (a n).toEarly) := by
  intro h
  have h := h default (fun n =>
    { awReady := true, wReady := true, bValid := false, arReady := true, rValid := true
      rData := if n = 2 then 0x0000001301C0006f else if n = 8 then 0x0000006700000013
        else 0x0000001300000013 }) 12 20 (by decide) (by decide +kernel) (by decide +kernel)
    (by decide +kernel)
  revert h
  decide +kernel

end Top

end Rv64imCore
