import Rv64imCore.MemoryBus
import Rv64imCore.Program
import Rv64imCore.TextCache

/-! The whole top on an AXI slave with a memory: what the two caches, the bridges and the slave keep
of the memory of a hart. -/

namespace Rv64imCore.Top
set_option autoImplicit true
open Rv64im (Platform)

/-- What a run has shown of the core and its data side, and what the slave has made of it. -/
structure Seen where
  sys : Sys.Seen
  slave : Axi.Slave

def Seen.start (m : Bytes.Mem 29) : Seen :=
  { sys := Sys.Seen.start m, slave := Axi.Slave.start m }

def Seen.update (P : Platform) (g : Seen) (s : State) (i : In) : Seen :=
  { sys := g.sys.update P s.sys (sysIn s i), slave := g.slave.update s.axi (axiIn s i) }

/-- The slave answers from its memory, and outside it as the platform knows. -/
structure Serves (P : Platform) (g : Seen) (s : State) (i : In) : Prop where
  memory : g.slave.Answers s.axi (axiIn s i)
  device : g.sys.Names P s.sys (sysIn s i)

instance : Decidable (Serves P g s i) :=
  decidable_of_iff (g.slave.Answers s.axi (axiIn s i) ∧ g.sys.Names P s.sys (sysIn s i))
    ⟨fun ⟨h₁, h₂⟩ => ⟨h₁, h₂⟩, fun ⟨h₁, h₂⟩ => ⟨h₁, h₂⟩⟩

/-- None of the known faults happens in the cycle: none of those of the core, and the I-cache is not
answered from an address that it does not ask for. -/
structure Sound (g : Seen) (s : State) (i : In) : Prop where
  core : Core.Sound g.sys.core.flow s.sys.core (coreIn s i)
  fresh : Axi.m0Rdy s.axi (axiIn s i) = true → (m0 s).valid = true →
    g.slave.ar = some (m0 s).addr

instance : Decidable (Sound g s i) :=
  decidable_of_iff (Core.Sound g.sys.core.flow s.sys.core (coreIn s i) ∧
      (Axi.m0Rdy s.axi (axiIn s i) = true → (m0 s).valid = true →
        g.slave.ar = some (m0 s).addr))
    ⟨fun ⟨h₁, h₂⟩ => ⟨h₁, h₂⟩, fun ⟨h₁, h₂⟩ => ⟨h₁, h₂⟩⟩

/-- The words of the program text. -/
def textOf (P : Platform) (m : Bytes.Mem 29) (a : BitVec 29) : Option (BitVec 64) :=
  if P.text a then some (m.read a) else none

/-- The address that the fetch unit waits for. -/
def fetching (f : Ifu.State) : Option (BitVec 32) :=
  if f.rspRdy then some ((f.pc.extractLsb' 2 62 ++ 0#2).extractLsb' 0 32) else none

/-- What the top keeps beside the core itself: the D-cache over the memory of the slave holds what
has been stored, the I-cache the program text. -/
structure Joined (P : Platform) (m₀ : Bytes.Mem 29) (s : State) (g : Seen) : Prop where
  data : Sys.Holding P m₀ s.sys g.sys
  ahead : Sys.Ahead s.sys
  apart : Sys.Apart s.sys
  slave : g.slave.Routed s.axi (Sys.m3 s.sys)
  back : g.slave.mem = g.sys.back
  kept : Dcache.KeepsText P m₀ g.sys.cache.requests
  text : P.SameText m₀ g.sys.back
  fetch : FetchInv s
  clean : Dcache.Clean s.icache
  icache : Dcache.TextState (textOf P m₀) s.icache (fetching s.sys.core.ifu)
  parked : s.sys.core.ifu.dataStallVld = true → ∀ w, P.code s.sys.core.ifu.pc = some w →
    s.sys.core.ifu.instOfStall = w

section Data
variable {P : Platform} {m₀ : Bytes.Mem 29} {s : State} {g : Seen} {i : In}

theorem Joined.reset (P : Platform) (m₀ : Bytes.Mem 29) (s : State) :
    Joined P m₀ s.reset (Seen.start m₀) where
  data := Sys.Holding.reset P m₀ s.sys
  ahead := Sys.Ahead.reset s.sys
  apart := Sys.Apart.reset s.sys
  slave := Axi.Slave.Routed.reset m₀ _
  back := rfl
  kept := .empty
  text := .refl m₀
  fetch := FetchInv.reset s
  clean := ⟨fun _ _ => rfl, rfl, rfl⟩
  icache := ⟨⟨rfl, rfl, rfl, rfl, rfl, rfl, rfl, fun h => h⟩, rfl, Dcache.HoldsText.reset _⟩
  parked := fun h => Bool.noConfusion h

theorem axiIn_m1 : (axiIn s i).m1 = Sys.m3 s.sys := rfl
theorem busReady_eq : (sysIn s i).busReady = Axi.m1Rdy s.axi (axiIn s i) := rfl
theorem busRdata_eq : (sysIn s i).busRdata = Axi.m1Rdata (axiIn s i) := rfl

theorem Joined.routed (h : Joined P m₀ s g) (i : In) :
    g.slave.Routed s.axi (axiIn s i).m1 := by
  rw [axiIn_m1]
  exact h.slave

theorem Joined.dcache_on_bus (h : Joined P m₀ s g) (hv : (Sys.m1 s.sys).valid = true) (i : In) :
    (axiIn s i).m1 = Sys.m1 s.sys ∧
      Sys.m1Rdy s.sys (sysIn s i) = Axi.m1Rdy s.axi (axiIn s i) ∧
      Axi.isRam (Sys.m1 s.sys).addr = true := by
  have h2 : (Sys.m2 s.sys).valid = false := by simpa [hv] using h.data.inv.not_m1_m2
  refine ⟨axiIn_m1.trans (Sys.m3_of_dcache hv h2), ?_, ?_⟩
  · rw [Sys.m1Rdy, TwoToOne.ready, hv, if_pos rfl, busReady_eq]
  · exact Dcache.InRam.abrAddr (b := g.sys.backed s.sys) h.apart.dcache h.data.refines hv

theorem m1Rdy_of_not_valid (hv : (Sys.m1 s.sys).valid = false) :
    Sys.m1Rdy s.sys (sysIn s i) = false := by
  rw [Sys.m1Rdy, TwoToOne.ready, hv]
  rfl

theorem Joined.reads (h : Joined P m₀ s g) (ha : g.slave.Answers s.axi (axiIn s i)) :
    g.sys.Reads s.sys (sysIn s i) := by
  intro hr hw
  cases h1 : (Sys.m1 s.sys).valid with
  | false =>
    rw [m1Rdy_of_not_valid h1] at hr
    cases hr
  | true =>
    obtain ⟨he, hrdy, hram⟩ := h.dcache_on_bus h1 i
    have hro := (h.routed i).read (hrdy.symm.trans hr) (by rw [he, h1]) (by rw [he]; exact hw)
    rw [he] at hro
    obtain ⟨hro, har, hd, hc⟩ := hro
    have hm := ha hro _ har hram
    rw [hc, or_self, h.back] at hm
    rw [Sys.m1Rdata, TwoToOne.rdata, h1, if_pos rfl, busRdata_eq, hd, hm]
    rfl

/-- The memory of the slave is the one behind the D-cache. -/
theorem Joined.back_next (h : Joined P m₀ s g) :
    (if Axi.bOver s.axi (axiIn s i) then g.slave.commit else g.slave.mem) =
      Dcache.backing s.sys.dcache g.sys.back (Sys.m1Rdy s.sys (sysIn s i)) := by
  cases hb : Axi.bOver s.axi (axiIn s i) with
  | true =>
    have hw := (h.routed i).write hb
    rw [if_pos rfl]
    cases h1 : (Sys.m1 s.sys).valid with
    | true =>
      obtain ⟨he, hrdy, hram⟩ := h.dcache_on_bus h1 i
      rw [he] at hw
      obtain ⟨-, hw, hr, hc⟩ := hw
      rw [hc, hram, if_pos rfl, h.back, hrdy, hr, Dcache.backing,
        show Dcache.abrValid s.sys.dcache = true from h1,
        show Dcache.abrWen s.sys.dcache = true from hw]
      rfl
    | false =>
      rw [axiIn_m1] at hw
      obtain ⟨hv, -, -, hc⟩ := hw
      rcases h.data.inv.m3_cases hv with ⟨h1', -⟩ | ⟨-, h2, he⟩
      · rw [h1] at h1'
        cases h1'
      · have hram : Axi.isRam (Sys.m2 s.sys).addr = false := h.apart.device h2
        rw [hc, he, hram, if_neg Bool.false_ne_true, h.back, m1Rdy_of_not_valid h1,
          Dcache.backing, Bool.and_false, Bool.false_and, if_neg Bool.false_ne_true]
  | false =>
    rw [if_neg Bool.false_ne_true, h.back, Dcache.backing, if_neg]
    simp only [Bool.and_eq_true]
    rintro ⟨⟨h1, hr⟩, hw⟩
    obtain ⟨he, hrdy, -⟩ := h.dcache_on_bus h1 i
    rw [hrdy, (h.routed i).m1Rdy_of_write (by rw [he]; exact hw), hb] at hr
    cases hr

theorem Joined.commit_text (h : Joined P m₀ s g) (i : In) : P.SameText m₀ g.slave.commit := by
  rcases (h.routed i).commit_cases with hc | hc
  · rw [hc, h.back]
    exact h.text
  · cases h1 : (Sys.m1 s.sys).valid with
    | true =>
      obtain ⟨he, -, -⟩ := h.dcache_on_bus h1 i
      rw [he] at hc
      obtain ⟨-, hw, -, hc⟩ := hc
      have hb : g.slave.commit = Dcache.backing s.sys.dcache g.sys.back true := by
        rw [hc, h.back, Dcache.backing, show Dcache.abrValid s.sys.dcache = true from h1,
          show Dcache.abrWen s.sys.dcache = true from hw]
        rfl
      rw [hb]
      exact h.data.refines.backing_text h.kept h.text true
    | false =>
      rw [axiIn_m1] at hc
      obtain ⟨hv, -, hram, -⟩ := hc
      rcases h.data.inv.m3_cases hv with ⟨h1', -⟩ | ⟨-, h2, he⟩
      · rw [h1] at h1'
        cases h1'
      · rw [he, show Axi.isRam (Sys.m2 s.sys).addr = false from h.apart.device h2] at hram
        cases hram

end Data

section Fetch
variable {P : Platform} {m₀ : Bytes.Mem 29} {s : State} {g : Seen} {i : In}

theorem isRam_of_text (hP : P.Image m₀) {a : BitVec 32} (ht : P.text (Dcache.wordOf a) = true) :
    Axi.isRam a = true := by
  have h : (Dcache.wordOf a).extractLsb' 25 4 = a.extractLsb' 28 4 := by
    apply BitVec.eq_of_getLsbD_eq
    intro k hk
    simp only [Dcache.wordOf, BitVec.getLsbD_extractLsb', hk]
    grind
  rw [Axi.isRam, ← h, hP.textRam _ ht]
  rfl

theorem Joined.fetched (h : Joined P m₀ s g) (hP : P.Image m₀)
    (ha : g.slave.Answers s.axi (axiIn s i))
    (hf : Axi.m0Rdy s.axi (axiIn s i) = true → (m0 s).valid = true →
      g.slave.ar = some (m0 s).addr)
    (hr : Axi.m0Rdy s.axi (axiIn s i) = true) (hv : (m0 s).valid = true) (w : BitVec 64)
    (hw : textOf P m₀ (Dcache.wordOf (m0 s).addr) = some w) : Axi.m0Rdata (axiIn s i) = w := by
  rw [textOf] at hw
  split at hw
  · rename_i ht
    obtain rfl := Option.some.inj hw
    have hro : Axi.rOver s.axi (axiIn s i) = true := by
      rw [Axi.m0Rdy, Bool.and_eq_true] at hr
      exact hr.2
    have hd : Axi.m0Rdata (axiIn s i) = i.rData := by
      have hren : Axi.m0Ren (axiIn s i) = true := by
        have hwen : (m0 s).wen = false := h.clean.state
        rw [Axi.m0Ren, show (axiIn s i).m0 = m0 s from rfl, hv, hwen]
        rfl
      rw [Axi.m0Rdata, hren]
      rfl
    rw [hd]
    rcases ha hro _ (hf hr hv) (isRam_of_text hP ht) with hm | hm
    · rw [h.back] at hm
      exact hm.trans (h.text _ ht)
    · exact hm.trans (h.commit_text i _ ht)
  · cases hw

theorem icache_reqVld : Dcache.reqVld s.icache (icacheIn s i) =
    Ifu.addrShake s.sys.core.ifu (ifuIn s i) := Bool.and_comm ..

theorem openNext_eq : Dcache.openNext s.icache (icacheIn s i) (fetching s.sys.core.ifu) =
    fetching (Top.next s i).sys.core.ifu := by
  rw [Dcache.openNext, icache_reqVld]
  change _ = fetching (Ifu.next s.sys.core.ifu (ifuIn s i))
  rw [fetching, fetching]
  cases ha : Ifu.addrShake s.sys.core.ifu (ifuIn s i) with
  | true =>
    simp only [Ifu.next, ha]
    rfl
  | false =>
    have hd : Ifu.dataShake s.sys.core.ifu (ifuIn s i) =
        (Dcache.memRspVld s.icache && (icacheIn s i).rspRdy) := Bool.and_comm ..
    rw [← hd]
    cases hs : Ifu.dataShake s.sys.core.ifu (ifuIn s i) with
    | true =>
      simp only [Ifu.next, ha, hs]
      rfl
    | false =>
      simp only [Ifu.next, ha, hs]
      rfl

theorem Joined.icache_next (h : Joined P m₀ s g) (hP : P.Image m₀)
    (ha : g.slave.Answers s.axi (axiIn s i))
    (hf : Axi.m0Rdy s.axi (axiIn s i) = true → (m0 s).valid = true →
      g.slave.ar = some (m0 s).addr) :
    Dcache.TextState (textOf P m₀) (Top.next s i).icache
      (fetching (Top.next s i).sys.core.ifu) := by
  rw [← openNext_eq]
  exact h.icache.next h.clean rfl fun hr hv w hw => h.fetched hP ha hf hr hv w hw

theorem wordOf_fetch (pc : BitVec 64) :
    Dcache.wordOf ((pc.extractLsb' 2 62 ++ 0#2).extractLsb' 0 32) = Ls.wordOf pc := by
  apply BitVec.eq_of_getLsbD_eq
  intro k hk
  simp only [Dcache.wordOf, Ls.wordOf, BitVec.getLsbD_append, BitVec.getLsbD_extractLsb', hk]
  grind

theorem Joined.instOfCache (h : Joined P m₀ s g) (hP : P.Image m₀)
    (hd : Ifu.dataShake s.sys.core.ifu (ifuIn s i) = true)
    (hw : P.code s.sys.core.ifu.pc = some w) :
    Ifu.instOfCache s.sys.core.ifu (ifuIn s i) = w := by
  rw [Ifu.dataShake, Bool.and_eq_true] at hd
  have hs := h.icache
  rw [fetching, hd.1, if_pos rfl] at hs
  have ha := Dcache.TextServing.answering_of_vldC1 hs hd.2
  obtain ⟨ht, rfl⟩ := hP.code _ w hw
  have hm := ha.data (m₀.read (Ls.wordOf s.sys.core.ifu.pc)) (by
    rw [wordOf_fetch, textOf, if_pos ht])
  rw [Ifu.instOfCache, show (ifuIn s i).rdata = Dcache.memRdata s.icache from rfl, hm]

theorem Joined.fetchesText (h : Joined P m₀ s g) (hP : P.Image m₀) :
    Core.FetchesText P s.sys.core (coreIn s i) := by
  intro hk w hw
  rw [Ifu.inst, if_pos hk]
  cases hd : s.sys.core.ifu.dataStallVld with
  | true => exact h.parked hd w hw
  | false =>
    refine h.instOfCache (i := i) hP ?_ hw
    have hk : Ifu.instOk s.sys.core.ifu (ifuIn s i) = true := hk
    simp only [Ifu.instOk, hd, Bool.or_false, Bool.and_eq_true] at hk
    exact hk.1.1

theorem Joined.parked_next (h : Joined P m₀ s g) (hP : P.Image m₀)
    (hd : (Top.next s i).sys.core.ifu.dataStallVld = true)
    (hw : P.code (Top.next s i).sys.core.ifu.pc = some w) :
    (Top.next s i).sys.core.ifu.instOfStall = w := by
  change (Ifu.next s.sys.core.ifu (ifuIn s i)).dataStallVld = true at hd
  change P.code (Ifu.next s.sys.core.ifu (ifuIn s i)).pc = some w at hw
  change (Ifu.next s.sys.core.ifu (ifuIn s i)).instOfStall = w
  simp only [Ifu.next] at hd hw ⊢
  cases hs : Ifu.ifStall (ifuIn s i) with
  | false =>
    rw [hs] at hd
    revert hd
    cases s.sys.core.ifu.dataStallVld <;> simp
  | true =>
    rw [Ifu.addrShake_of_ifStall hs] at hw
    have hw : P.code s.sys.core.ifu.pc = some w := hw
    cases hv : Ifu.dataShake s.sys.core.ifu (ifuIn s i) with
    | true => exact h.instOfCache hP hv hw
    | false =>
      rw [hs, hv] at hd
      exact h.parked (by simpa using hd) w hw

end Fetch

section Run
variable {P : Platform} {m₀ : Bytes.Mem 29} {s : State} {g : Seen} {i : In}

theorem Joined.serves (h : Joined P m₀ s g) (hP : P.Image m₀) (hs : Serves P g s i) :
    Core.Serves P g.sys.core s.sys.core (coreIn s i) :=
  h.data.serves h.ahead hP.ram h.fetch.ready (h.fetchesText hP) hs.device

theorem Joined.next (h : Joined P m₀ s g) (hP : P.Image m₀) (hs : Serves P g s i)
    (hc : Sound g s i) (ht : P.SameText m₀ (g.update P s i).sys.core.mem) :
    Joined P m₀ (Top.next s i) (g.update P s i) where
  data := h.data.next hP.ram (h.reads hs.memory)
  ahead := h.ahead.next h.data.inv
  apart := h.apart.next h.data.inv
  slave := (h.routed i).next fun hv hr => h.data.inv.m3_stays hv hr
  back := h.back_next
  kept := by
    have hf := (h.data.next (i := sysIn s i) hP.ram (h.reads hs.memory)).flat
    rw [Sys.Seen.update_requests] at hf
    change Dcache.KeepsText P m₀ (g.sys.update P s.sys (sysIn s i)).cache.requests
    rw [Sys.Seen.update_requests]
    cases hk : Sys.taken s.sys (sysIn s i) 0 with
    | false => exact h.kept
    | true =>
      rw [hk] at hf
      refine h.kept.concat ?_
      rw [if_pos rfl] at hf
      rw [hf]
      exact ht
  text := h.data.refines.backing_text h.kept h.text _
  fetch := h.fetch.next i
  clean := h.clean.next fun _ => rfl
  icache := h.icache_next hP hs.memory hc.fresh
  parked := fun hd w hw => h.parked_next hP hd hw

end Run

end Rv64imCore.Top
