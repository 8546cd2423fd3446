import Rv64imCore.Ledger
import Rv64imCore.Training

/-! A load gets the response to its own request, whatever holds the pipeline meanwhile. -/

namespace Rv64imCore.Core
set_option autoImplicit true

section Wires
variable (s : State) (i : In)

/-- The request a cycle hands over: its address and length. -/
def request : List (BitVec 64 × BitVec 5) :=
  if addrShake s i then [(Alu.memAddr (aluIn s i.toEarly), Alu.memRwLen s.exu.idAlu.info)] else []

/-- The response a cycle takes. -/
def response : List (BitVec 64) := if Lsu.dataShake s.lsu i.rsp then [i.rsp.rdata] else []

/-- The instruction in MEM is there for the last time: it is cleared or it makes room. -/
def leavesMem : Bool := flushMem s i || !stallMem s i

end Wires

section Step
variable {s : State} {i : In}

theorem Inv.addrShake_free (h : Inv s) (ha : addrShake s i = true) :
    (s.lsu.rspRdy && !i.rsp.vld) = false := by
  rw [addrShake, Bool.and_eq_true] at ha
  rw [← h.memStall (i := i)]
  exact (lsuReqVld_cases h.decoded ha.2).2.2.1

theorem Inv.balance (h : Inv s) (i : In) : s.lsu.rspRdy.toNat + (request s i).length =
    (response s i).length + (Core.next s i).lsu.rspRdy.toNat := by
  rw [next_rspRdy, request, response, Lsu.dataShake]
  cases ha : addrShake s i with
  | true =>
    have hf := h.addrShake_free ha
    revert hf
    cases s.lsu.rspRdy <;> cases i.rsp.vld <;> simp
  | false => cases s.lsu.rspRdy <;> cases i.rsp.vld <;> simp

theorem Inv.answered_of_leaves (h : Inv s) (hl : leavesMem s i = true)
    (hr : s.lsu.rspRdy = true) : i.rsp.vld = true := by
  rw [← Bool.not_eq_false]
  intro hv
  have hm : Core.memStall s i.toEarly = true := by rw [h.memStall, hr, hv]; rfl
  rw [leavesMem, flushMem_of_memStall hm, stallMem_eq, stallExu_of_memStall hm] at hl
  cases hl

end Step

section Run
variable (s : State) (i : Nat → In)

abbrev requests (n : Nat) : List (BitVec 64 × BitVec 5) := machine.trace request s.reset i n
abbrev responses (n : Nat) : List (BitVec 64) := machine.trace response s.reset i n

/-- The instruction in MEM in cycle `n` handed its request over in cycle `t`. -/
structure IssuedAt (t n : Nat) : Prop where
  before : t < n
  shake : addrShake (machine.run s.reset i t) (i t) = true
  stays : ∀ k, t < k → k ≤ n →
    (machine.run s.reset i k).lsu.mem = memNs (machine.run s.reset i t) (i t)

/-- Its response came in cycle `d` and is kept. -/
structure KeptFrom (t d n : Nat) : Prop where
  after : t < d
  before : d < n
  shake : Lsu.dataShake (machine.run s.reset i d).lsu (i d).rsp = true
  own : (responses s i d).length = (requests s i t).length
  rdataR : (machine.run s.reset i n).lsu.rdataR = (i d).rsp.rdata

/-- Either the response is still to come, and will be the next, or it is kept. -/
def Tracked (t n : Nat) : Prop :=
  ((machine.run s.reset i n).lsu.rspRdy = true ∧
    (responses s i n).length = (requests s i t).length) ∨
  ((machine.run s.reset i n).lsu.rspRdy = false ∧ ∃ d, KeptFrom s i t d n)

variable {s i}

theorem inv_run (n : Nat) : Inv (machine.run s.reset i n) :=
  machine.run_invariant (Inv.reset s) (fun _ a h => h.next a) n

theorem requests_length (n : Nat) : (requests s i n).length =
    (responses s i n).length + (machine.run s.reset i n).lsu.rspRdy.toNat := by
  induction n with
  | zero => rfl
  | succ n ih =>
    have hb := (inv_run n).balance (s := machine.run s.reset i n) (i n)
    change (requests s i n ++ request _ _).length = (responses s i n ++ response _ _).length +
      (Core.next (machine.run s.reset i n) (i n)).lsu.rspRdy.toNat
    rw [List.length_append, List.length_append, ih]
    omega

theorem IssuedAt.succ (h : IssuedAt s i t n)
    (hs : (machine.run s.reset i (n + 1)).lsu.mem = (machine.run s.reset i n).lsu.mem) :
    IssuedAt s i t (n + 1) := by
  refine ⟨Nat.lt_succ_of_lt h.before, h.shake, fun k hk hkn => ?_⟩
  rcases Nat.lt_or_eq_of_le hkn with hkn | rfl
  · exact h.stays k hk (Nat.le_of_lt_succ hkn)
  · rw [hs, h.stays n h.before (Nat.le_refl n)]

/-- While the instruction stays in MEM, the next response is its own, and then it is kept. -/
theorem Tracked.succ (h : Tracked s i t n) (ht : t < n)
    (ha : addrShake (machine.run s.reset i n) (i n) = false) : Tracked s i t (n + 1) := by
  have hy : (machine.run s.reset i (n + 1)).lsu.rspRdy =
      ((machine.run s.reset i n).lsu.rspRdy && !(i n).rsp.vld) := by
    have hn := next_rspRdy (s := machine.run s.reset i n) (i := i n)
    rw [ha, Bool.false_or] at hn
    exact hn
  have hd : (machine.run s.reset i (n + 1)).lsu.rdataR =
      if Lsu.dataShake (machine.run s.reset i n).lsu (i n).rsp then (i n).rsp.rdata
      else (machine.run s.reset i n).lsu.rdataR :=
    next_rdataR (s := machine.run s.reset i n) (i := i n)
  rcases h with ⟨hr, hc⟩ | ⟨hr, d, hk⟩
  · cases hv : (i n).rsp.vld with
    | false =>
      refine .inl ⟨by rw [hy, hr, hv]; rfl, ?_⟩
      rw [responses, Clocked.Machine.trace_succ, response, Lsu.dataShake, hr, hv, ← hc]
      simp
    | true =>
      have hs : Lsu.dataShake (machine.run s.reset i n).lsu (i n).rsp = true := by
        rw [Lsu.dataShake, hr, hv]
        rfl
      refine .inr ⟨by rw [hy, hr, hv]; rfl, n, ht, Nat.lt_succ_self n, hs, hc, ?_⟩
      rw [hd, if_pos hs]
  · have hs : Lsu.dataShake (machine.run s.reset i n).lsu (i n).rsp = false := by
      rw [Lsu.dataShake, hr]
      rfl
    refine .inr ⟨by rw [hy, hr]; rfl, d, hk.after, Nat.lt_succ_of_lt hk.before, hk.shake,
      hk.own, ?_⟩
    rw [hd, hs]
    exact hk.rdataR

theorem tracked_run (n : Nat) : (machine.run s.reset i n).lsu.mem.req = true →
    ∃ t, IssuedAt s i t n ∧ Tracked s i t n := by
  induction n with
  | zero => exact fun h => Bool.noConfusion h
  | succ n ih =>
    intro hq
    have hm := next_mem_cases (machine.run s.reset i n) (i n)
    change (_ ∧ (machine.run s.reset i (n + 1)).lsu.mem = _) ∨
      (_ ∧ _ ∧ (machine.run s.reset i (n + 1)).lsu.mem = _) ∨
      (_ ∧ _ ∧ (machine.run s.reset i (n + 1)).lsu.mem = _) at hm
    rcases hm with ⟨-, hb⟩ | ⟨-, hs, hh⟩ | ⟨hf, hs, hn⟩
    · rw [hb] at hq
      cases hq
    · rw [hh] at hq
      obtain ⟨t, hi, ht⟩ := ih hq
      have ha : addrShake (machine.run s.reset i n) (i n) = false := by
        rw [Bool.eq_false_iff]
        intro ha
        rw [(addrShake_cases (inv_run n).decoded ha).1] at hs
        cases hs
      exact ⟨t, hi.succ hh, ht.succ hi.before ha⟩
    · rw [hn] at hq
      have ha := addrShake_of_advance hq hs hf
      refine ⟨n, ⟨Nat.lt_succ_self n, ha, fun k hk hkn => ?_⟩, .inl ⟨?_, ?_⟩⟩
      · rw [Nat.le_antisymm hkn hk, hn]
      · have hy := next_rspRdy (s := machine.run s.reset i n) (i := i n)
        rw [ha, Bool.true_or] at hy
        exact hy
      · have hfree := (inv_run n).addrShake_free ha
        rw [responses, Clocked.Machine.trace_succ, List.length_append, response, Lsu.dataShake,
          requests_length n]
        revert hfree
        cases (machine.run s.reset i n).lsu.rspRdy <;> cases (i n).rsp.vld <;> simp

end Run

/-- Over any run from reset, when a load leaves MEM: it handed its request over in some cycle `t`
and has been in MEM ever since, the response of the same number came in a later cycle `d` that has
been reached, and WB and ID are given the word of that response, formatted for the load's own
address and length. -/
theorem load_keeps_response (s : State) (i : Nat → In) (n : Nat)
    (hq : (machine.run s.reset i n).lsu.mem.req = true)
    (hl : leavesMem (machine.run s.reset i n) (i n) = true) :
    let r := machine.run s.reset i
    ∃ t d, IssuedAt s i t n ∧ t < d ∧ d ≤ n ∧
      Lsu.dataShake (r d).lsu (i d).rsp = true ∧
      (responses s i d).length = (requests s i t).length ∧
      (wbNs (r n) (i n)).data = Ls.format (Alu.memAddr (aluIn (r t) (i t).toEarly))
        (Alu.memRwLen (r t).exu.idAlu.info) (i d).rsp.rdata ∧
      (Lsu.iduPort (r n).lsu (i n).rsp).data = (wbNs (r n) (i n)).data := by
  intro r
  obtain ⟨t, hi, ht⟩ := tracked_run n hq
  have hmem : (r n).lsu.mem = memNs (r t) (i t) := hi.stays n hi.before (Nat.le_refl n)
  have haddr : (r n).lsu.addrFf = Alu.memAddr (aluIn (r t) (i t).toEarly) := by
    rw [(inv_run n).addrFf hq, hmem]
    rfl
  have hlen : (r n).lsu.mem.rwLen = Alu.memRwLen (r t).exu.idAlu.info := by
    rw [hmem]
    rfl
  have hdata : (wbNs (r n) (i n)).data = Ls.format (Alu.memAddr (aluIn (r t) (i t).toEarly))
      (Alu.memRwLen (r t).exu.idAlu.info) (Lsu.memRdata (r n).lsu (i n).rsp) := by
    rw [← haddr, ← hlen]
    exact if_pos hq
  rcases ht with ⟨hr, hc⟩ | ⟨hr, d, hk⟩
  · have hv := (inv_run n).answered_of_leaves hl hr
    have hu : (r n).lsu.dataShakeDone = false := (inv_run n).unanswered hr
    refine ⟨t, n, hi, hi.before, Nat.le_refl n, ?_, hc, ?_, rfl⟩
    · rw [Lsu.dataShake, hr, hv]
      rfl
    · rw [hdata, Lsu.memRdata, hu]
      rfl
  · have hd : (r n).lsu.dataShakeDone = true := (inv_run n).answered hq hr
    refine ⟨t, d, hi, hk.after, Nat.le_of_lt hk.before, hk.shake, hk.own, ?_, rfl⟩
    rw [hdata, Lsu.memRdata, hd, if_pos rfl, hk.rdataR]

/-- `lw x5, 0(x0)` at every address: the first is answered in cycle 9, and the second is refused up
to cycle 12. -/
def lateLoads (n : Nat) : In :=
  { rsp := { vld := n == 9, rdata := if n = 9 then 0x80000000 else BitVec.ofNat 64 n }, intr := 0
    lsuReqRdy := n < 8 || 12 < n, lsuReqHit := false, ifuReqRdy := true, ifuRspVld := true
    ifuRdata := 0x00002283#32 ++ 0x00002283#32 }

theorem load_keeps_response_lw :
    let r := machine.run (default : State).reset lateLoads
    (∀ n, n < 13 → 9 ≤ n → leavesMem (r n) (lateLoads n) = false) ∧
    ∃ t, IssuedAt default lateLoads t 13 ∧ t < 9 ∧
      (responses default lateLoads 9).length = (requests default lateLoads t).length ∧
      (wbNs (r 13) (lateLoads 13)).data =
        Ls.format (Alu.memAddr (aluIn (r t) (lateLoads t).toEarly))
          (Alu.memRwLen (r t).exu.idAlu.info) 0x80000000 ∧
      (Lsu.iduPort (r 13).lsu (lateLoads 13).rsp).data = (wbNs (r 13) (lateLoads 13)).data := by
  intro r
  refine ⟨by decide +kernel, ?_⟩
  obtain ⟨t, d, hi, ht, hd, hs, hown, hdata⟩ :=
    load_keeps_response default lateLoads 13 (by decide +kernel) (by decide +kernel)
  obtain rfl : d = 9 := by
    rw [Lsu.dataShake, Bool.and_eq_true] at hs
    simpa [lateLoads] using hs.2
  exact ⟨t, hi, ht, hown, hdata⟩

end Rv64imCore.Core
