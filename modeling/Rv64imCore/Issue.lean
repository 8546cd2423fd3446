import Rv64imCore.Progress

/-! How a memory instruction leaves EX: it makes one request, and not more than one. -/

namespace Rv64imCore.Sys
set_option autoImplicit true

def intrFlush (s : State) (i : In) : Bool := Core.intrFlush s.core (early s i)
def stallExu (s : State) (i : In) : Bool := Core.stallExu s.core (coreIn s i)
def flushExu (s : State) (i : In) : Bool := Core.flushExu s.core (coreIn s i)

/-- The instruction in EX with the operands it sees. -/
def exInst (s : State) (i : In) : IdAlu := Core.aluIn s.core (early s i)

/-- The request a memory instruction stands for. -/
def ownRequest (x : IdAlu) : Req :=
  { vld := true
    wen := !Alu.memRwCtrl x.info
    addr := ((Alu.memAddr x).extractLsb' 3 61 ++ 0#3).extractLsb' 0 32
    wdata := Ls.wdata (Alu.memAddr x) x.rs2Data (Alu.memRwLen x.info)
    wmask := Ls.wmask (Alu.memAddr x) (Alu.memRwLen x.info) }

/-- The request is refused in a cycle in which the instruction in ID raises a hazard. -/
def refusedUnderHazard (s : State) (i : In) : Bool :=
  Core.refusedUnderHazard s.core (coreIn s i)

/-- One slave, and no other, takes the request of the instruction in EX, and MEM takes the
instruction. -/
structure Issues (s : State) (i : In) : Prop where
  leaves : stallExu s i = false
  slave : ∃ k, (taken s i = fun j => j == k) ∧ req s i k = ownRequest (exInst s i)
  mem : (next s i).core.lsu.mem = Core.memNs s.core (coreIn s i)
  memReq : (next s i).core.lsu.mem.req = true
  memAddr : (next s i).core.lsu.mem.addr = Alu.memAddr (exInst s i)

/-- From cycle `t` on the instruction in EX waits there without an accepted request, until a trap
kills it or it is issued. -/
def IssuedOnce (s : State) (i : Nat → In) (t : Nat) : Prop :=
  let S := machine.run s i
  ∃ u, t ≤ u ∧
    (∀ j, t ≤ j → j < u → addrShake (S j) (i j) = false ∧ intrFlush (S j) (i j) = false ∧
      (S (j + 1)).core.exu.idAlu = (S j).core.exu.idAlu) ∧
    (intrFlush (S u) (i u) = true ∧ addrShake (S u) (i u) = false ∨
      intrFlush (S u) (i u) = false ∧ addrShake (S u) (i u) = true ∧ Issues (S u) (i u))

section Step
variable {s : State} {i : In}

theorem addrShake_eq : addrShake s i = (lsuReqRdy s i && lsuReqVld s i) := rfl

theorem Inv.issues (h : Inv s) (ha : addrShake s i = true) :
    Alu.memReq s.core.exu.idAlu.info = true ∧ intrFlush s i = false ∧ Issues s i := by
  have hq : lsuReqVld s i = true := by
    rw [addrShake_eq, Bool.and_eq_true] at ha
    exact ha.2
  obtain ⟨hm, -, -, hf⟩ := Core.lsuReqVld_cases h.core.decoded hq
  have hmem := h.core.next_mem_of_addrShake ha
  refine ⟨hm, hf, (Core.addrShake_cases h.core.decoded ha).1, ?_, hmem, ?_, ?_⟩
  · obtain ⟨k, hk⟩ := OneToN.cs_onehot (lsuAddr s i)
    change cs s i = _ at hk
    refine ⟨k, ?_, ?_⟩
    · funext j
      by_cases hj : j = k
      · subst hj; rw [← addrShake_eq_taken hk, ha]; simp
      · simp [taken_of_ne hk hj, hj]
    · simp only [req, ownRequest, hk, hq]
      simp only [lsuAddr, Core.lsuAddr, Core.lsuWen, Core.lsuWdata, Core.lsuWmask, exInst,
        Core.aluIn, beq_self_eq_true, Bool.and_self]
  · exact (congrArg Lsu.MemReg.req hmem).trans (Core.memNs_req_of_addrShake ha)
  · exact congrArg Lsu.MemReg.addr hmem

theorem lsuReqVld_of_memReq (hm : Alu.memReq s.core.exu.idAlu.info = true)
    (hf : intrFlush s i = false) (hs : memStall s i = false) : lsuReqVld s i = true := by
  change Core.intrFlush s.core (coreIn s i).toEarly = false at hf
  change Core.memStall s.core (coreIn s i).toEarly = false at hs
  have hi : Core.aluIntr s.core (coreIn s i).toEarly = false := by
    rw [Bool.eq_false_iff]
    intro h
    rw [Core.aluIntr_intrFlush h] at hf
    cases hf
  rw [lsuReqVld, Core.lsuReqVld_eq, Core.exuMemReq, Alu.memReqOut, hm, hi, hs, Core.flushMem_eq,
    hf]
  rfl

/-- A memory instruction that neither goes nor is killed stays, unless it is refused under a
hazard. -/
theorem Inv.stays (h : Inv s) (hm : Alu.memReq s.core.exu.idAlu.info = true)
    (hf : intrFlush s i = false) (ha : addrShake s i = false)
    (hd : refusedUnderHazard s i = false) :
    (Sys.next s i).core.exu.idAlu = s.core.exu.idAlu := by
  change Core.intrFlush s.core (coreIn s i).toEarly = false at hf
  have hx : Core.exuFlush s.core (coreIn s i).toEarly = false :=
    Core.exuFlush_of_memReq h.core.decoded hm
  have hn : (Sys.next s i).core.exu.idAlu = reg (Core.flushExu s.core (coreIn s i)) IdAlu.bubble
    (!Core.stallExu s.core (coreIn s i)) (Core.idAluNs s.core (coreIn s i)) s.core.exu.idAlu := rfl
  rw [hn, Core.flushExu_eq, hf, hx, Core.stallExu_eq, Core.exuStall_of_memReq h.core.decoded hm]
  cases hs : Sys.memStall s i with
  | true =>
    change Core.memStall s.core (coreIn s i).toEarly = true at hs
    simp [hs]
  | false =>
    have hq := lsuReqVld_of_memReq hm hf hs
    rw [addrShake_eq, hq, Bool.and_true] at ha
    have hst : Core.addrStall s.core (coreIn s i) = true := by
      rw [Core.addrStall_eq, show Core.lsuReqVld s.core (coreIn s i) = true from hq,
        show (coreIn s i).lsuReqRdy = false from ha]
      rfl
    have hp : Core.iduPipeStall s.core (coreIn s i) = false := by
      simpa [refusedUnderHazard, Core.refusedUnderHazard, hst] using hd
    simp [hst, hp]

/-- After a refusal every slave is free. -/
theorem Inv.free_after_refusal (h : Inv s) (hq : lsuReqVld s i = true)
    (ha : addrShake s i = false) : (Sys.next s i).core.lsu.rspRdy = false := by
  rw [next_rspRdy, ha]
  cases hr : s.core.lsu.rspRdy with
  | false => rfl
  | true => simp [h.rsp_of_reqVld hq hr]

theorem Inv.rdy_of_free (h : Inv s) (hr : s.core.lsu.rspRdy = false) : lsuReqRdy s i = true := by
  have hb : ∀ k, sBusy s k = false := fun k => by rw [h.busy, sRspRdy, hr, Bool.and_false]
  obtain ⟨k, hk⟩ := OneToN.cs_onehot (lsuAddr s i)
  rw [lsuReqRdy, OneToN.reqRdy, show cs s i = _ from hk, OneToN.anySel_onehot]
  have hbk := hb k
  rcases OneToN.slave_cases k with rfl | rfl | rfl
  · simpa [sReqRdy, slaves, h.dcache.memReqRdy, sBusy] using .inl hbk
  · simpa [sReqRdy, slaves, Clint.reqRdy, sBusy] using hbk
  · simpa [sReqRdy, slaves, sBusy] using hbk

end Step

/-- In a run without a refusal under a hazard, and over a bus that is ready again and again, every
memory instruction that occupies EX is issued exactly once or killed by a trap; and every accepted
request is such an issue. -/
theorem memory_operation_issued_once (s₀ : State) (i : Nat → In)
    (hbus : Clocked.Often fun n => (i n).busReady = true)
    (hcond : ∀ n, refusedUnderHazard (machine.run s₀.reset i n) (i n) = false) :
    let S := machine.run s₀.reset i
    (∀ t, Alu.memReq (S t).core.exu.idAlu.info = true → IssuedOnce s₀.reset i t) ∧
    ∀ t, addrShake (S t) (i t) = true → Alu.memReq (S t).core.exu.idAlu.info = true ∧
      intrFlush (S t) (i t) = false ∧ Issues (S t) (i t) := by
  intro S
  have hinv : ∀ n, Inv (S n) := run_inv s₀ i
  have hstay : ∀ n, Alu.memReq (S n).core.exu.idAlu.info = true → intrFlush (S n) (i n) = false →
      addrShake (S n) (i n) = false → (S (n + 1)).core.exu.idAlu = (S n).core.exu.idAlu :=
    fun n hm hf ha => (hinv n).stays hm hf ha (hcond n)
  refine ⟨fun t hm => ?_, fun t ha => (hinv t).issues ha⟩
  -- while neither a trap nor an acceptance happens, the instruction is still in EX
  have hkeep : ∀ u, t ≤ u → (∀ j, t ≤ j → j < u →
      intrFlush (S j) (i j) = false ∧ addrShake (S j) (i j) = false) →
      Alu.memReq (S u).core.exu.idAlu.info = true := by
    intro u hu hj
    refine Clocked.kept (P := fun k => Alu.memReq (S k).core.exu.idAlu.info = true) hu hm ?_
    intro k htk hku hk
    obtain ⟨hf, ha⟩ := hj k htk hku
    rw [hstay k hk hf ha]
    exact hk
  have hends : ∃ u, t ≤ u ∧ (intrFlush (S u) (i u) = true ∨ addrShake (S u) (i u) = true) := by
    by_contra hno
    have hq : ∀ u, t ≤ u → intrFlush (S u) (i u) = false ∧ addrShake (S u) (i u) = false := by
      intro u hu
      constructor <;> rw [Bool.eq_false_iff] <;> intro h
      · exact hno ⟨u, hu, .inl h⟩
      · exact hno ⟨u, hu, .inr h⟩
    have hmr : ∀ u, t ≤ u → Alu.memReq (S u).core.exu.idAlu.info = true :=
      fun u hu => hkeep u hu fun j h1 _ => hq j h1
    -- the first free cycle refuses, and the one after it cannot
    obtain ⟨u, hu, hs, -⟩ := memStall_ends (Inv.reset s₀) hbus t
    have hv := lsuReqVld_of_memReq (hmr u hu) (hq u hu).1 hs
    have hfree := (hinv u).free_after_refusal hv (hq u hu).2
    change (S (u + 1)).core.lsu.rspRdy = false at hfree
    have hs' : memStall (S (u + 1)) (i (u + 1)) = false := by
      rw [(hinv (u + 1)).memStall, hfree]; rfl
    have hv' := lsuReqVld_of_memReq (hmr (u + 1) (by omega)) (hq (u + 1) (by omega)).1 hs'
    have ha := (hq (u + 1) (by omega)).2
    rw [addrShake_eq, hv', (hinv (u + 1)).rdy_of_free hfree] at ha
    cases ha
  obtain ⟨u, hu, hp, hb⟩ := Clocked.exists_first hends
  have hb' : ∀ j, t ≤ j → j < u →
      intrFlush (S j) (i j) = false ∧ addrShake (S j) (i j) = false := by
    intro j h1 h2
    simpa [not_or] using hb j h1 h2
  refine ⟨u, hu, fun j h1 h2 => ⟨(hb' j h1 h2).2, (hb' j h1 h2).1, ?_⟩, ?_⟩
  · apply hstay j _ (hb' j h1 h2).1 (hb' j h1 h2).2
    exact hkeep j h1 fun l h3 h4 => hb' l h3 (by omega)
  · cases ha : addrShake (S u) (i u) with
    | true =>
      obtain ⟨-, hf, hi⟩ := (hinv u).issues ha
      exact .inr ⟨hf, rfl, hi⟩
    | false =>
      rcases hp with hp | hp
      · exact .inl ⟨hp, rfl⟩
      · rw [hp] at ha; cases ha

/-- `lui x1, 0x20004; ld x2, 0(x1); ld x3, 0(x1); add x4, x3, x0`: the second access to the CLINT
is refused while the first one is answered. -/
def backToBackClint (n : Nat) : In :=
  { ifuReqRdy := true, ifuRspVld := true
    ifuRdata := ([0, 0x0000b103200040b7, 0x0000b103200040b7, 0x000182330000b183,
      0x000182330000b183] : List (BitVec 64)).getD n 0x0000001300000013
    busRdata := 0, busReady := true }

/-- The refused load is cleared from EX by the hazard of its consumer and never issued. -/
theorem refused_load_dropped :
    (Clocked.Often fun n => (backToBackClint n).busReady = true) ∧
    Alu.memReq (machine.run (default : State).reset backToBackClint 5).core.exu.idAlu.info = true ∧
    ¬IssuedOnce (default : State).reset backToBackClint 5 := by
  refine ⟨fun n => ⟨n, Nat.le_refl n, rfl⟩, by decide +kernel, ?_⟩
  rintro ⟨u, hu, hw, he⟩
  by_cases h5 : u = 5
  · subst h5
    have ha : addrShake (machine.run (default : State).reset backToBackClint 5)
        (backToBackClint 5) = false := by decide +kernel
    have hf : intrFlush (machine.run (default : State).reset backToBackClint 5)
        (backToBackClint 5) = false := by decide +kernel
    rw [ha, hf] at he
    simp at he
  · have hh := (hw 5 (by omega) (by omega)).2.2
    exact absurd (congrArg IdAlu.inst hh) (by decide +kernel)

/-- `lui x1, 0x20004; ld x2, 0(x1); ld x3, 0(x1); nop; add x4, x3, x0`: the consumer keeps its
distance from the refused load. -/
def nopBeforeConsumer (n : Nat) : In :=
  { ifuReqRdy := true, ifuRspVld := decide (n ≤ 8)
    ifuRdata := ([0, 0x0000b103200040b7, 0x0000b103200040b7, 0x000000130000b183,
      0x000000130000b183] : List (BitVec 64)).getD n 0x0000001300018233
    busRdata := 0, busReady := true }

theorem memory_operation_issued_once_two_loads :
    let S := machine.run (default : State).reset nopBeforeConsumer
    addrShake (S 5) (nopBeforeConsumer 5) = false ∧
    (S 6).core.exu.idAlu.inst = (S 5).core.exu.idAlu.inst ∧
    addrShake (S 6) (nopBeforeConsumer 6) = true ∧
    ∀ t ∈ [4, 5], Alu.memReq (S t).core.exu.idAlu.info = true ∧
      IssuedOnce (default : State).reset nopBeforeConsumer t := by
  intro S
  have hm : ∀ t ∈ [4, 5], Alu.memReq (S t).core.exu.idAlu.info = true := by decide +kernel
  have hq : Core.Quiet (S 12).core := by constructor <;> decide +kernel
  have hc : ∀ n, refusedUnderHazard (S n) (nopBeforeConsumer n) = false := by
    intro n
    by_cases hn : n < 12
    · revert n; decide +kernel
    · have hq' := quiet_run hq (fun n hn => by simp [nopBeforeConsumer]; omega) n (by omega)
      simp [refusedUnderHazard, Core.refusedUnderHazard, Core.addrStall, Lsu.addrStall,
        Core.exuMemReq, Alu.memReqOut, S, hq'.mem]
  refine ⟨by decide +kernel, by decide +kernel, by decide +kernel, fun t ht => ⟨hm t ht, ?_⟩⟩
  exact (memory_operation_issued_once default nopBeforeConsumer (fun n => ⟨n, Nat.le_refl n, rfl⟩)
    hc).1 t (hm t ht)

end Rv64imCore.Sys
