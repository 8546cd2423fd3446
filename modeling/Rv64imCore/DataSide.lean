import Rv64imCore.CacheRefines
import Rv64imCore.Lockstep
import Rv64imCore.Progress

/-! The data side of the core as a memory: the D-cache and what lies behind it hold what the core
has stored, and a load is answered from there. -/

namespace Rv64imCore
set_option autoImplicit true

namespace OneToN

/-- The decoder does not look at the offset in a word. -/
theorem cs_aligned (a : BitVec 64) : cs (a.extractLsb' 3 61 ++ 0#3) = cs a := by
  have h : (a.extractLsb' 3 61 ++ 0#3).extractLsb' 28 4 = a.extractLsb' 28 4 := by
    apply BitVec.eq_of_getLsbD_eq
    intro k hk
    have h1 : ¬28 + k < 3 := by omega
    have h2 : 28 + k - 3 < 61 := by omega
    simp only [BitVec.getLsbD_extractLsb', BitVec.getLsbD_append, h1, if_false]
    simp [h2, show 3 + (28 + k - 3) = 28 + k by omega]
  funext k
  rcases slave_cases k with rfl | rfl | rfl <;> simp only [cs, h]

end OneToN

namespace Dcache

/-- What the bus carries during a write does not matter. -/
theorem Control.next_of_write {s : State k} {i : In} (h : Control s) (hw : abrWen s = true)
    (d : BitVec 64) : Dcache.next s i = Dcache.next s { i with abrRdata := d } := by
  have hp : WritingBack s := by
    rcases h with h | h | h
    · rw [abrWen, h.isWbus] at hw; cases hw
    · exact h
    · rw [abrWen, h.isWbus] at hw; cases hw
  cases he : s.wbusEnFf with
  | true =>
    rw [hp.next_first he]
    exact (hp.next_first (i := { i with abrRdata := d }) he).symm
  | false =>
    by_cases hr : i.abrReady = true
    · by_cases hc : s.wcnt = 3
      · rw [hp.next_last he hr hc]
        exact (hp.next_last (i := { i with abrRdata := d }) he hr hc).symm
      · rw [hp.next_beat he hr hc]
        exact (hp.next_beat (i := { i with abrRdata := d }) he hr hc).symm
    · rw [Bool.not_eq_true] at hr
      rw [hp.next_wait he hr]
      exact (hp.next_wait (i := { i with abrRdata := d }) he hr).symm

theorem wordOf_low (a : BitVec 64) : wordOf (a.extractLsb' 0 32) = Ls.wordOf a := by
  apply BitVec.eq_of_getLsbD_eq
  intro k hk
  simp only [wordOf, Ls.wordOf, BitVec.getLsbD_extractLsb', hk, show 3 + k < 32 by omega,
    decide_true, Bool.true_and, Nat.zero_add]

theorem Serving.answering_of_vldC1 {s : State 6} (h : Serving s m f a) (hv : s.vldC1 = true) :
    Answering s m f a := by
  cases h with
  | cleaning v h => rw [h.phase.vldC1] at hv; cases hv
  | filling v h => rw [h.phase.vldC1] at hv; cases hv
  | answering h => exact h

end Dcache

namespace Sys
open Rv64im (Platform)

/-- The D-cache between the decoder and the memory bus. -/
def port (s : State) (i : In) : Dcache.Port :=
  { reqVld := (req s i 0).vld, wen := (req s i 0).wen, addr := (req s i 0).addr
    wdata := (req s i 0).wdata, wmask := (req s i 0).wmask, rspRdy := sRspRdy s 0
    abrReady := m1Rdy s i, noise := m1Rdata s i }

/-- What a run has shown: of the core, of the memory behind the D-cache, and of the requests to
it. -/
structure Seen where
  core : Core.Shown
  back : Bytes.Mem 29
  cache : Dcache.Log

def Seen.start (m : Bytes.Mem 29) : Seen :=
  { core := Core.Shown.start m, back := m, cache := Dcache.Log.empty }

def Seen.backed (g : Seen) (s : State) : Dcache.Backed := { cache := s.dcache, mem := g.back }

def Seen.update (P : Platform) (g : Seen) (s : State) (i : In) : Seen :=
  { core := g.core.update P s.core (coreIn s i)
    back := Dcache.backing s.dcache g.back (m1Rdy s i)
    cache := g.cache.update (g.backed s) (port s i) }

/-- A word that the D-cache reads over the bus is the one of the memory. -/
def Seen.Reads (g : Seen) (s : State) (i : In) : Prop :=
  m1Rdy s i = true → Dcache.abrWen s.dcache = false →
    m1Rdata s i = g.back.read (Dcache.wordOf (Dcache.abrAddr s.dcache))

/-- The answer to a load outside the memory has the number that the platform knows it by. -/
def Seen.Names (P : Platform) (g : Seen) (s : State) (i : In) : Prop :=
  dataShake s i = true → s.core.lsu.mem.rwCtrl = true → P.ram s.core.lsu.mem.addr = false →
    (rsp s i).rdata = P.device g.core.log.answers.length

instance {P : Platform} {g : Seen} {s : State} {i : In} : Decidable (g.Names P s i) :=
  inferInstanceAs (Decidable (_ → _ → _ → _))

/-- The D-cache serves the accesses to the memory, in order, and the decoder keeps to the slave of
the open access. -/
structure Holding (P : Platform) (m₀ : Bytes.Mem 29) (s : State) (g : Seen) : Prop where
  inv : Inv s
  refines : Dcache.Refines m₀ (g.backed s) g.cache
  flat : Dcache.flat m₀ g.cache.requests = g.core.mem
  select : s.core.lsu.rspRdy = true → s.csFf = OneToN.cs s.core.lsu.mem.addr
  last : s.core.lsu.rspRdy = true → s.csFf 0 = true → ∃ rs a, g.cache.requests = rs ++ [a] ∧
    Dcache.wordOf a.addr = Ls.wordOf s.core.lsu.mem.addr ∧ a.wen = !s.core.lsu.mem.rwCtrl

theorem Holding.reset (P : Platform) (m₀ : Bytes.Mem 29) (s : State) :
    Holding P m₀ s.reset (Seen.start m₀) where
  inv := Inv.reset s
  refines := Dcache.Refines.reset s.dcache m₀
  flat := rfl
  select := fun h => Bool.noConfusion h
  last := fun h => Bool.noConfusion h

section Step
variable {P : Platform} {m₀ : Bytes.Mem 29} {s : State} {g : Seen} {i : In}

theorem cs_memAddr : cs s i = OneToN.cs (Alu.memAddr (Core.aluIn s.core (early s i))) :=
  OneToN.cs_aligned _

/-- On the read data that the memory gives, the D-cache is the one with the memory behind it. -/
theorem backed_next (h : Dcache.Control s.dcache) (hb : g.Reads s i) :
    (g.backed s).next (port s i) = (g.update P s i).backed (next s i) := by
  have hn : Dcache.next s.dcache ((g.backed s).input (port s i)) =
      Dcache.next s.dcache (dcacheIn s i) := by
    cases hr : m1Rdy s i with
    | false =>
      have hi : (g.backed s).input (port s i) = dcacheIn s i := by
        simp [Dcache.Backed.input, port, dcacheIn, hr]
      rw [hi]
    | true =>
      cases hw : Dcache.abrWen s.dcache with
      | true => exact h.next_of_write hw _
      | false =>
        have hi : (g.backed s).input (port s i) = dcacheIn s i := by
          simp [Dcache.Backed.input, port, dcacheIn, hr, hb hr hw, Seen.backed]
        rw [hi]
  rw [Dcache.Backed.next, show (g.backed s).cache = s.dcache from rfl, hn]
  rfl

theorem stored_eq (hP : ∀ a, P.ram a = OneToN.cs a 0) (m : Bytes.Mem 29) :
    Core.stored P m s.core (coreIn s i) =
      if taken s i 0 then ((g.backed s).input (port s i)).access.apply m else m := by
  have hram : P.ram (Alu.memAddr (Core.aluIn s.core (coreIn s i).toEarly)) = cs s i 0 := by
    rw [hP, cs_memAddr]
    rfl
  have hw : Ls.wordOf (Core.lsuAddr s.core (coreIn s i).toEarly) =
      Dcache.wordOf ((lsuAddr s i).extractLsb' 0 32) := (Dcache.wordOf_low _).symm
  obtain ⟨k, hk⟩ := OneToN.cs_onehot (lsuAddr s i)
  change cs s i = _ at hk
  rw [Core.stored, hram, hw]
  by_cases h0 : (0 : Fin 3) = k
  · subst h0
    rw [show Core.addrShake s.core (coreIn s i) = taken s i 0 from addrShake_eq_taken hk,
      show cs s i 0 = true by simp [hk], Bool.and_true]
    cases taken s i 0 with
    | false => rfl
    | true => rfl
  · rw [taken_of_ne hk h0, show cs s i 0 = false by simp [hk, h0], Bool.and_false]
    rfl

theorem Seen.update_requests : (g.update P s i).cache.requests =
    if taken s i 0 then g.cache.requests ++ [((g.backed s).input (port s i)).access]
    else g.cache.requests := rfl

theorem Inv.next_open (h : Inv s) (hr : s.core.lsu.rspRdy = true) (hv : (rsp s i).vld = false) :
    (Sys.next s i).csFf = s.csFf ∧ (Sys.next s i).core.lsu.mem = s.core.lsu.mem ∧
      taken s i 0 = false := by
  have hq : lsuReqVld s i = false := by
    rw [Bool.eq_false_iff]
    intro hq
    rw [h.rsp_of_reqVld hq hr] at hv
    cases hv
  refine ⟨by rw [next_csFf, hq]; rfl, h.core.next_mem_of_waiting (i := coreIn s i) hr hv,
    taken_of_not_reqVld hq 0⟩

theorem Inv.next_made (h : Inv s) (ha : addrShake s i = true) :
    (Sys.next s i).csFf = cs s i ∧
      (Sys.next s i).core.lsu.mem = Core.memNs s.core (coreIn s i) ∧
      taken s i 0 = cs s i 0 := by
  have hq : lsuReqVld s i = true := by
    simp only [addrShake, Core.addrShake, Bool.and_eq_true] at ha
    exact ha.2
  obtain ⟨k, hk⟩ := OneToN.cs_onehot (lsuAddr s i)
  change cs s i = _ at hk
  refine ⟨by rw [next_csFf, hq]; rfl, h.core.next_mem_of_addrShake ha, ?_⟩
  by_cases h0 : (0 : Fin 3) = k
  · subst h0
    rw [← addrShake_eq_taken hk, ha, hk]
    rfl
  · rw [taken_of_ne hk h0, hk]
    simp [h0]

theorem Holding.next (h : Holding P m₀ s g) (hP : ∀ a, P.ram a = OneToN.cs a 0)
    (hb : g.Reads s i) : Holding P m₀ (Sys.next s i) (g.update P s i) where
  inv := h.inv.next i
  refines := by
    rw [← backed_next h.inv.dcache hb]
    exact h.refines.next (port s i)
  flat := by
    change _ = Core.stored P g.core.mem s.core (coreIn s i)
    rw [stored_eq (g := g) hP, Seen.update_requests, ← h.flat]
    cases taken s i 0 with
    | false => rfl
    | true => exact Dcache.flat_concat ..
  select := by
    intro hr
    rw [next_rspRdy, Bool.or_eq_true] at hr
    rcases hr with ha | hr
    · obtain ⟨hc, hm, -⟩ := h.inv.next_made ha
      rw [hc, hm, cs_memAddr]
      rfl
    · simp only [Bool.and_eq_true, Bool.not_eq_true'] at hr
      obtain ⟨hc, hm, -⟩ := h.inv.next_open hr.1 hr.2
      rw [hc, hm]
      exact h.select hr.1
  last := by
    intro hr hs
    rw [next_rspRdy, Bool.or_eq_true] at hr
    rcases hr with ha | hr
    · obtain ⟨hc, hm, ht⟩ := h.inv.next_made ha
      rw [hc] at hs
      rw [hm, Seen.update_requests, ht, hs]
      refine ⟨_, _, rfl, ?_, rfl⟩
      exact (Dcache.wordOf_low _).trans (Core.wordOf_lsuAddr s.core (early s i))
    · simp only [Bool.and_eq_true, Bool.not_eq_true'] at hr
      obtain ⟨hc, hm, ht⟩ := h.inv.next_open hr.1 hr.2
      rw [hc] at hs
      rw [hm, Seen.update_requests, ht]
      exact h.last hr.1 hs

theorem Holding.answer (h : Holding P m₀ s g) (hs : dataShake s i = true)
    (hc : s.csFf 0 = true) (hw : s.core.lsu.mem.rwCtrl = true) :
    (rsp s i).rdata = Ls.wordAt g.core.mem s.core.lsu.mem.addr := by
  simp only [dataShake, Lsu.dataShake, Bool.and_eq_true] at hs
  obtain ⟨rs, a, hr, ha, hwen⟩ := h.last hs.1 hc
  have hsel : s.csFf = fun j => j == 0 := by
    obtain ⟨k, hk⟩ := h.inv.select hs.1
    rw [hk] at hc
    obtain rfl : (0 : Fin 3) = k := by simpa using hc
    exact hk
  have hv := hs.2
  rw [rsp_of_dcache hsel] at hv ⊢
  rcases h.refines.state with ⟨-, hf⟩ | ⟨rs', a', hr', -, hs'⟩
  · rw [show s.dcache.vldC1 = false from hf.vldC1] at hv
    cases hv
  · rw [hr] at hr'
    obtain ⟨rfl, hab⟩ := List.append_inj' hr' rfl
    obtain rfl : a = a' := by simpa using hab
    rw [hw] at hwen
    have hd := (hs'.answering_of_vldC1 hv).data hwen
    have hf : Dcache.flat m₀ rs = g.core.mem := by
      rw [← h.flat, hr, Dcache.flat_concat, Dcache.Access.apply_load hwen]
    rw [hf, ha] at hd
    exact hd

end Step

/-! A load whose hazard was waived has its answer at hand for as long as its consumer is in EX. -/

/-- Register `r` is a source of the instruction in EX. -/
def Needs (s : Core.State) (r : BitVec 5) : Prop :=
  (Regfile.useRs1 s.exu.idAlu.inst = true ∧ Id.rs1 s.exu.idAlu.inst = r) ∨
  (Regfile.useRs2 s.exu.idAlu.inst = true ∧ Id.rs2 s.exu.idAlu.inst = r)

def Ahead (s : State) : Prop :=
  ∀ r, r ≠ 0 → Needs s.core r → Core.loadInMem s.core r → ∃ w, Bypassing s r w

theorem Ahead.reset (s : State) : Ahead s.reset := fun _ _ _ h => nomatch h.1

theorem intrFlush_of_flushExu {s : State} {i : In} (h : flushExu s i = false) :
    Core.intrFlush s.core (early s i) = false := by
  have h' : Core.flushExu s.core (coreIn s i) = false := h
  rw [Core.flushExu_eq] at h'
  simp only [Bool.or_eq_false_iff] at h'
  exact h'.1.1

theorem next_idAlu {s : State} {i : In} : (next s i).core.exu.idAlu = reg (flushExu s i)
    IdAlu.bubble (!stallExu s i) (Core.idAluNs s.core (coreIn s i)) s.core.exu.idAlu :=
  Core.next_idAlu

theorem next_mem {s : State} {i : In} (h : flushExu s i = false) :
    (next s i).core.lsu.mem = if stallExu s i then s.core.lsu.mem
      else Core.memNs s.core (coreIn s i) := by
  have hf : Core.flushMem s.core (coreIn s i) = false := by
    rw [Core.flushMem_eq, show Core.intrFlush s.core (coreIn s i).toEarly = false from
      intrFlush_of_flushExu h]
    rfl
  refine Core.next_mem.trans ?_
  rw [hf, show Core.stallExu s.core (coreIn s i) = stallExu s i from rfl]
  cases stallExu s i <;> rfl

/-- An instruction that moves to EX behind a load to one of its sources was let through by a hit. -/
theorem hitWaives_of_needs {s : State} {i : In} (hs : stallExu s i = false)
    (hf : flushExu s i = false) (hr : r ≠ 0) (hn : Needs (next s i).core r)
    (hl : Core.loadInMem (next s i).core r) :
    HitWaives s i ∧ s.core.exu.idAlu.rdIndex = r := by
  have hi := intrFlush_of_flushExu hf
  rw [Core.loadInMem, next_mem hf, hs, if_neg (by decide)] at hl
  rw [Needs, next_idAlu, hf, hs] at hn
  obtain ⟨-, hw, hrd⟩ := hl
  change Alu.memRwCtrl s.core.exu.idAlu.info = true at hw
  have hrd' : s.core.exu.idAlu.rdIndex = r := by
    rw [← hrd]
    refine (if_pos ?_).symm
    refine (Core.exuRdWen_of_advance (i := coreIn s i) hs hi).trans ?_
    rw [Core.writesRd, hw, Bool.or_true]
  have hz : Core.loadUseHazard s.core (early s i) = true := by
    refine Core.hazard_of_use (i := coreIn s i) hi (by rw [Alu.iduLoad, hw]; rfl)
      (by rw [hrd']; exact hr) ?_
    rw [hrd']
    rcases hn with ⟨hu, hn⟩ | ⟨hu, hn⟩
    · change Regfile.useRs1 s.core.idu.ifId.inst = true at hu
      change Id.rs1 s.core.idu.ifId.inst = r at hn
      simp [hu, hn]
    · change Regfile.useRs2 s.core.idu.ifId.inst = true at hu
      change Id.rs2 s.core.idu.ifId.inst = r at hn
      simp [hu, hn]
  have hhit : lsuReqHit s i = true := by
    have hf' : Core.flushExu s.core (coreIn s i) = false := hf
    rw [Core.flushExu_eq, Core.memStall_of_stallExu (i := coreIn s i) hs] at hf'
    simp only [Bool.or_eq_false_iff, Bool.not_false, Bool.and_true, Core.iduPipeStall,
      show Core.loadUseHazard s.core (coreIn s i).toEarly = true from hz, Bool.true_and,
      Bool.not_eq_false'] at hf'
    exact hf'.2
  exact ⟨⟨hw, hz, hhit, hs, hf⟩, hrd'⟩

theorem Ahead.next {s : State} {i : In} (h : Ahead s) (hi : Inv s) : Ahead (Sys.next s i) := by
  intro r hr hn hl
  cases hf : flushExu s i with
  | true =>
    -- a bubble reads nothing but x0
    rw [Needs, next_idAlu, hf] at hn
    rcases hn with ⟨-, hn⟩ | ⟨-, hn⟩
    · exact absurd (hn.symm.trans (by decide : Id.rs1 IdAlu.bubble.inst = 0)) hr
    · exact absurd (hn.symm.trans (by decide : Id.rs2 IdAlu.bubble.inst = 0)) hr
  | false =>
    cases hs : stallExu s i with
    | true =>
      rw [Needs, next_idAlu, hf, hs] at hn
      rw [Core.loadInMem, next_mem hf, hs, if_pos rfl] at hl
      obtain ⟨w, hb⟩ := h r hr hn hl
      exact ⟨w, hb.next hi.core hs hf⟩
    | false =>
      obtain ⟨hw, hrd⟩ := hitWaives_of_needs hs hf hr hn hl
      have hb := hw.bypassing hi
      rw [hrd] at hb
      exact ⟨_, hb⟩

/-- A division that waits for its operands does not wait for a load. -/
theorem Ahead.division {s : State} {i : In} (h : Ahead s) (hi : Inv s)
    (hd : Alu.divOp s.core.exu.idAlu.info = true) (hm : memStall s i = true) (r : BitVec 5)
    (hr : r ≠ 0) (hs : r = Id.rs1 s.core.exu.idAlu.inst ∨ r = Id.rs2 s.core.exu.idAlu.inst) :
    ¬Core.loadInMem s.core r := by
  intro hl
  have hu : Id.muldivOp s.core.exu.idAlu.inst = true := by
    rcases hi.core.decoded with ⟨hinfo, -, -⟩ | hb
    · rw [← Alu.muldivReq_info, ← hinfo, Alu.divOp_muldivReq hd]
    · rw [hb] at hd
      cases hd
  obtain ⟨h1, h2⟩ := Core.use_of_muldivOp hu
  have hn : Needs s.core r := by
    rcases hs with hs | hs
    · exact .inl ⟨h1, hs.symm⟩
    · exact .inr ⟨h2, hs.symm⟩
  obtain ⟨w, hb⟩ := h r hr hn hl
  rw [hb.memStall hi.core] at hm
  cases hm

/-- With the program text at its instruction port and the memory behind its D-cache, the core is
served. -/
theorem Holding.serves {P : Platform} {m₀ : Bytes.Mem 29} {s : State} {g : Seen} {i : In}
    (h : Holding P m₀ s g) (ha : Ahead s) (hP : ∀ a, P.ram a = OneToN.cs a 0)
    (hr : Ifu.Ready s.core.ifu (Core.ifuIn s.core (coreIn s i)))
    (ht : Core.FetchesText P s.core (coreIn s i)) (hn : g.Names P s i) :
    Core.Serves P g.core s.core (coreIn s i) where
  ready := hr
  text := ht
  load := by
    intro hs hw
    have hsel := h.select (Bool.and_eq_true_iff.mp hs).1
    rw [Core.wordFor, hP]
    cases hc : OneToN.cs s.core.lsu.mem.addr 0 with
    | true => exact h.answer hs (by rw [hsel]; exact hc) hw
    | false => exact hn hs hw (by rw [hP]; exact hc)
  hit := fun hd hm r h0 hs => ha.division h.inv hd hm r h0 hs

end Sys

end Rv64imCore
