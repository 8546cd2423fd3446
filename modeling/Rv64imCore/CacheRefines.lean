import Rv64imCore.CacheMemory
import Rv64imCore.Progress

/-! Every run of the cache over a backing memory is a run of a flat memory. -/

namespace Rv64imCore.Dcache
set_option autoImplicit true

/-- The cache of the top and the memory behind it. -/
structure Backed where
  cache : State 6
  mem : Bytes.Mem 29

/-- What the two sides choose in a cycle; `noise` is on the bus when it is not ready. -/
structure Port where
  reqVld : Bool
  wen : Bool
  addr : BitVec 32
  wdata : BitVec 64
  wmask : BitVec 8
  rspRdy : Bool
  abrReady : Bool
  noise : BitVec 64

def Backed.input (s : Backed) (p : Port) : In :=
  { reqVld := p.reqVld, wen := p.wen, addr := p.addr, wdata := p.wdata, wmask := p.wmask
    rspRdy := p.rspRdy, abrReady := p.abrReady
    abrRdata := if p.abrReady then s.mem.read (wordOf (abrAddr s.cache)) else p.noise }

def Backed.next (s : Backed) (p : Port) : Backed :=
  { cache := Dcache.next s.cache (s.input p)
    mem := backing s.cache s.mem p.abrReady }

def backed : Clocked.Machine Backed Port where
  next := Backed.next

/-- The requests accepted and the responses taken so far. -/
structure Log where
  requests : List Access
  responses : List (BitVec 64)

def Log.empty : Log := { requests := [], responses := [] }

def Backed.accepts (s : Backed) (p : Port) : Bool := reqVld s.cache (s.input p)
def Backed.answers (s : Backed) (p : Port) : Bool := memRspVld s.cache && p.rspRdy

def Log.update (g : Log) (s : Backed) (p : Port) : Log :=
  { requests := if s.accepts p then g.requests ++ [(s.input p).access] else g.requests
    responses := if s.answers p then g.responses ++ [memRdata s.cache] else g.responses }

/-- The response to each load is the word of the flat memory all requests before it made. -/
def Log.Correct (m₀ : Bytes.Mem 29) (g : Log) : Prop :=
  ∀ j a d, g.requests[j]? = some a → g.responses[j]? = some d → a.wen = false →
    d = (flat m₀ (g.requests.take j)).read (wordOf a.addr)

theorem Log.Correct.request {m₀ : Bytes.Mem 29} {g : Log} (h : g.Correct m₀)
    (hl : g.responses.length ≤ g.requests.length) (b : Access) :
    Log.Correct m₀ { g with requests := g.requests ++ [b] } := by
  intro j a d ha hd hw
  obtain ⟨hj, -⟩ := List.getElem?_eq_some_iff.mp hd
  change j < g.responses.length at hj
  rw [List.getElem?_append_left (by omega)] at ha
  rw [List.take_append_of_le_length (by omega)]
  exact h j a d ha hd hw

theorem Log.Correct.respond {m₀ : Bytes.Mem 29} {g : Log} (h : g.Correct m₀)
    (hr : g.requests = rs ++ [b]) (hl : rs.length = g.responses.length)
    (hd : b.wen = false → d = (flat m₀ rs).read (wordOf b.addr)) :
    Log.Correct m₀ { g with responses := g.responses ++ [d] } := by
  intro j a e ha he hw
  by_cases hj : j < g.responses.length
  · rw [List.getElem?_append_left hj] at he
    exact h j a e ha he hw
  · obtain ⟨hj', -⟩ := List.getElem?_eq_some_iff.mp he
    have hjr : j = rs.length := by
      simp only [List.length_append, List.length_singleton] at hj'
      omega
    subst hjr
    have hab : a = b := by
      simpa [hr] using ha.symm
    have hed : e = d := by
      simpa [hl] using he.symm
    rw [hed, hr, List.take_left, hab]
    exact hd (hab ▸ hw)

/-- The cache holds no request; what it and the backing memory hold is the flat memory `f`. -/
structure Free (s : State 6) (m f : Bytes.Mem 29) : Prop where
  idle : Idle s
  vldC1 : s.vldC1 = false
  holds : Holds s m f

section Step
variable {s : State 6} {i : In}

theorem Idle.backing (h : Idle s) (m : Bytes.Mem 29) (r : Bool) : backing s m r = m := by
  simp [Dcache.backing, abrWen, h.isWbus]

theorem Holds.quiet (h : Holds s m f) (hi : Idle s) (hq : reqVld s i = false) :
    Holds (next s i) m f := by
  rw [hi.next_quiet hq]
  exact h

theorem Idle.quiet (h : Idle s) (hq : Dcache.reqVld s i = false) : Idle (Dcache.next s i) := by
  have hc := h.next i
  rw [h.next_quiet hq] at hc ⊢
  rcases hc with hc | hc | hc
  · exact hc
  · exact absurd (hc.state.symm.trans h.state) (by decide)
  · exact absurd (hc.state.symm.trans h.state) (by decide)

theorem Free.quiet (h : Free s m f) (hq : reqVld s i = false) : Free (next s i) m f where
  idle := h.idle.quiet hq
  vldC1 := by
    rw [h.idle.next_quiet hq]
    simp [stallC1, memRspVld, h.vldC1]
  holds := h.holds.quiet h.idle hq

theorem Answering.stall (h : Answering s m f a) (hr : i.rspRdy = false) :
    reqVld s i = false ∧ Answering (next s i) m f a := by
  have hs : stallC1 s i.rspRdy = true := by simp [stallC1, memRspVld, h.vldC1, hr]
  have hq : reqVld s i = false := by simp [reqVld, memReqRdy, hs]
  refine ⟨hq, h.idle.quiet hq, ?_, h.holds.quiet h.idle hq, ?_⟩
  · rw [h.idle.next_quiet hq, hs]
  · intro hw
    rw [h.idle.next_quiet hq, ← h.data hw]
    simp [memRdata, dataOfRam, hr]

theorem Answering.leave (h : Answering s m f a) (hr : i.rspRdy = true)
    (hq : reqVld s i = false) : Free (next s i) m (a.apply f) where
  idle := h.idle.quiet hq
  vldC1 := by
    rw [h.idle.next_quiet hq]
    simp [stallC1, hr]
  holds := h.holds.quiet h.idle hq

theorem Serving.busy (h : Serving s m f a) : busy s = true := by
  cases h with
  | cleaning v h => exact h.phase.busy
  | filling v h => exact h.phase.busy
  | answering h => rw [h.idle.busy, h.vldC1]

theorem Free.busy (h : Free s m f) : Dcache.busy s = false := by rw [h.idle.busy, h.vldC1]

end Step

/-- What the cache, the memory behind it and the log keep over every run. -/
structure Refines (m₀ : Bytes.Mem 29) (s : Backed) (g : Log) : Prop where
  correct : g.Correct m₀
  state : (g.requests.length = g.responses.length ∧ Free s.cache s.mem (flat m₀ g.requests)) ∨
    ∃ rs a, g.requests = rs ++ [a] ∧ rs.length = g.responses.length ∧
      Serving s.cache s.mem (flat m₀ rs) a

theorem Refines.reset (c : State 6) (m₀ : Bytes.Mem 29) :
    Refines m₀ { cache := c.reset, mem := m₀ } Log.empty where
  correct := fun j a d ha => by simp [Log.empty] at ha
  state := .inl ⟨rfl, ⟨rfl, rfl, rfl, rfl, rfl, rfl, rfl, fun h => h⟩, rfl, Holds.reset c m₀⟩

theorem Refines.count (h : Refines m₀ s g) :
    g.requests.length = g.responses.length + (busy s.cache).toNat := by
  rcases h.state with ⟨hl, hf⟩ | ⟨rs, a, hr, hl, hs⟩
  · rw [hf.busy, hl]; rfl
  · rw [hs.busy, hr, List.length_append, hl]; rfl

section Run
variable {s : Backed} {p : Port} {g : Log}

theorem Backed.next_eq (h : Idle s.cache) :
    s.next p = { cache := Dcache.next s.cache (s.input p), mem := s.mem } := by
  rw [Backed.next, h.backing]

theorem Log.update_idle (ha : s.accepts p = false) (hr : s.answers p = false) :
    g.update s p = g := by
  simp [Log.update, ha, hr]

/-- A request may follow a response in the same cycle: the log takes the response first. -/
theorem Refines.accept {m₀ : Bytes.Mem 29} {l : Log} (hi : Idle s.cache)
    (hh : Holds s.cache s.mem (flat m₀ l.requests)) (hg : l.Correct m₀)
    (hl : l.requests.length = l.responses.length) (ha : s.accepts p = true) :
    Refines m₀ (s.next p) { l with requests := l.requests ++ [(s.input p).access] } where
  correct := hg.request (by omega) _
  state := by
    rw [Backed.next_eq hi]
    exact .inr ⟨_, _, rfl, hl, hh.accept hi ha⟩

theorem Refines.next_free {m₀ : Bytes.Mem 29} (hg : g.Correct m₀)
    (hl : g.requests.length = g.responses.length)
    (h : Free s.cache s.mem (flat m₀ g.requests)) (p : Port) :
    Refines m₀ (s.next p) (g.update s p) := by
  have hr : s.answers p = false := by simp [Backed.answers, memRspVld, h.vldC1]
  cases ha : s.accepts p with
  | false =>
    rw [Log.update_idle ha hr, Backed.next_eq h.idle]
    exact ⟨hg, .inl ⟨hl, h.quiet ha⟩⟩
  | true =>
    have hu : g.update s p = { g with requests := g.requests ++ [(s.input p).access] } := by
      simp [Log.update, ha, hr]
    rw [hu]
    exact Refines.accept h.idle h.holds hg hl ha

theorem Refines.next_answering {m₀ : Bytes.Mem 29} (hg : g.Correct m₀)
    (hr : g.requests = rs ++ [a]) (hl : rs.length = g.responses.length)
    (h : Answering s.cache s.mem (flat m₀ rs) a) (p : Port) :
    Refines m₀ (s.next p) (g.update s p) := by
  cases hp : p.rspRdy with
  | false =>
    obtain ⟨hq, hn⟩ := h.stall (i := s.input p) hp
    rw [Log.update_idle hq (by simp [Backed.answers, hp]), Backed.next_eq h.idle]
    exact ⟨hg, .inr ⟨rs, a, hr, hl, .answering hn⟩⟩
  | true =>
    have hv : s.answers p = true := by simp [Backed.answers, memRspVld, h.vldC1, hp]
    have hg' := hg.respond hr hl h.data
    have hl' : g.requests.length = (g.responses ++ [memRdata s.cache]).length := by
      simp [hr, hl]
    have hf : a.apply (flat m₀ rs) = flat m₀ g.requests := by rw [hr, flat_concat]
    cases ha : s.accepts p with
    | false =>
      have hu : g.update s p = { g with responses := g.responses ++ [memRdata s.cache] } := by
        simp [Log.update, ha, hv]
      rw [hu, Backed.next_eq h.idle]
      exact ⟨hg', .inl ⟨hl', hf ▸ h.leave (i := s.input p) hp ha⟩⟩
    | true =>
      have hu : g.update s p = { requests := g.requests ++ [(s.input p).access]
                                 responses := g.responses ++ [memRdata s.cache] } := by
        simp [Log.update, ha, hv]
      rw [hu]
      exact Refines.accept (l := { g with responses := g.responses ++ [memRdata s.cache] })
        h.idle (hf ▸ h.holds) hg' hl' ha

theorem Refines.next {m₀ : Bytes.Mem 29} (h : Refines m₀ s g) (p : Port) :
    Refines m₀ (s.next p) (g.update s p) := by
  rcases h.state with ⟨hl, hf⟩ | ⟨rs, a, hr, hl, hs⟩
  · exact Refines.next_free h.correct hl hf p
  · cases hs with
    | cleaning v hc =>
      rw [Log.update_idle hc.phase.reqVld (by simp [Backed.answers, memRspVld, hc.phase.vldC1])]
      exact ⟨h.correct, .inr ⟨rs, a, hr, hl, hc.next (s.input p)⟩⟩
    | filling v hf =>
      rw [Log.update_idle hf.phase.reqVld (by simp [Backed.answers, memRspVld, hf.phase.vldC1])]
      exact ⟨h.correct, .inr ⟨rs, a, hr, hl, hf.next (s.input p) fun hp => if_pos hp⟩⟩
    | answering ha => exact Refines.next_answering h.correct hr hl ha p

theorem Log.update_requests : g.requests.length ≤ (g.update s p).requests.length := by
  simp only [Log.update]
  split
  · simp
  · exact Nat.le_refl _

end Run

section Runs

theorem refines_run (c : State 6) (m₀ : Bytes.Mem 29) (i : Nat → Port) (n : Nat) :
    Refines m₀ (backed.run { cache := c.reset, mem := m₀ } i n)
      (backed.history Log.empty Log.update { cache := c.reset, mem := m₀ } i n) :=
  backed.history_induction _ _ (C := fun _ _ => True) (Refines.reset c m₀)
    (fun _ _ p _ h => h.next p) (fun _ _ => trivial)

theorem requests_mono (s : Backed) (i : Nat → Port) {n m : Nat} (h : n ≤ m) :
    (backed.history Log.empty Log.update s i n).requests.length ≤
      (backed.history Log.empty Log.update s i m).requests.length := by
  induction h with
  | refl => exact Nat.le_refl _
  | step _ ih => exact Nat.le_trans ih Log.update_requests

theorem Refines.control (h : Refines m₀ s g) : Control s.cache := by
  rcases h.state with ⟨-, hf⟩ | ⟨rs, a, -, -, hs⟩
  · exact .inl hf.idle
  · cases hs with
    | cleaning v h => exact .inr (.inl h.phase)
    | filling v h => exact .inr (.inr h.phase)
    | answering h => exact .inl h.idle

theorem reqVld_of_not_norm {a : In} (h : stateIsNorm s = false) : reqVld s a = false := by
  simp [reqVld, memReqRdy, h]

theorem norm_again (c : State 6) (m₀ : Bytes.Mem 29) (i : Nat → Port)
    (hf : Clocked.Often fun n => (i n).abrReady = true) (n : Nat) :
    ∃ m, n ≤ m ∧ stateIsNorm (backed.run { cache := c.reset, mem := m₀ } i m).cache = true := by
  have hr := fun n => (refines_run c m₀ i n).control
  obtain ⟨m, hm, hw⟩ := hf.ends
    (W := fun n => stateIsNorm (backed.run { cache := c.reset, mem := m₀ } i n).cache = false)
    (fun n => rank (backed.run { cache := c.reset, mem := m₀ } i n).cache)
    (fun n hw => ((hr n).rank_next (reqVld_of_not_norm hw)).1)
    (fun n hw hg => ((hr n).rank_next (reqVld_of_not_norm hw)).2 hw fun _ => hg) n
  exact ⟨m, hm, by simpa using hw⟩

theorem vldC1_stays {s : Backed} {i : Nat → Port} (hv : (backed.run s i n).cache.vldC1 = true)
    (hm : n ≤ m) (hr : ∀ k, n ≤ k → k < m → ¬(i k).rspRdy = true) :
    (backed.run s i m).cache.vldC1 = true := by
  refine Clocked.kept (P := fun k => (backed.run s i k).cache.vldC1 = true) hm hv ?_
  intro k hk hkm hvk
  have hp : (i k).rspRdy = false := by simpa using hr k hk hkm
  change vldC1Ns (backed.run s i k).cache ((backed.run s i k).input (i k)) = true
  rw [vldC1Ns, if_pos (by simp [stallC1, memRspVld, hvk, Backed.input, hp]), hvk]

theorem answered (c : State 6) (m₀ : Bytes.Mem 29) (i : Nat → Port)
    (hf : Clocked.Often fun n => (i n).abrReady = true)
    (hr : Clocked.Often fun n => (i n).rspRdy = true) (n : Nat) :
    let g := backed.history Log.empty Log.update { cache := c.reset, mem := m₀ } i
    ∃ m, n ≤ m ∧ (g n).requests.length ≤ (g m).responses.length := by
  intro g
  have hc := fun k => (refines_run c m₀ i k).count
  obtain ⟨k, hk, hnorm⟩ := norm_again c m₀ i hf n
  have hnk := requests_mono { cache := c.reset, mem := m₀ } i hk
  cases hv : (backed.run { cache := c.reset, mem := m₀ } i k).cache.vldC1 with
  | false =>
    refine ⟨k, hk, Nat.le_trans hnk ?_⟩
    rw [hc k, busy, hnorm, hv]
    exact Nat.le_refl _
  | true =>
    obtain ⟨m, hm, hp, hfirst⟩ := Clocked.exists_first (hr k)
    have hv := vldC1_stays hv hm hfirst
    have ha : (g (m + 1)).responses.length = (g m).responses.length + 1 := by
      have : Backed.answers (backed.run { cache := c.reset, mem := m₀ } i m) (i m) = true := by
        simp [Backed.answers, memRspVld, hv, hp]
      change (Log.update (g m) _ _).responses.length = _
      rw [Log.update, this]
      simp
    refine ⟨m + 1, by omega, Nat.le_trans (Nat.le_trans hnk (requests_mono _ i hm)) ?_⟩
    rw [ha, hc m]
    exact Nat.add_le_add_left (Bool.toNat_le _) _

end Runs

/-- From reset, under any requests, any back-pressure and any bus latency: at most one request is
open, a response is offered only for an open request, response `j` answers request `j`, every load
returns the word of the flat memory, and no request waits forever. -/
theorem cache_is_memory (c : State 6) (m₀ : Bytes.Mem 29) (i : Nat → Port) :
    let s := backed.run { cache := c.reset, mem := m₀ } i
    let g := backed.history Log.empty Log.update { cache := c.reset, mem := m₀ } i
    (∀ n, (g n).requests.length = (g n).responses.length + (busy (s n).cache).toNat) ∧
    (∀ n, memRspVld (s n).cache = true → (g n).responses.length < (g n).requests.length) ∧
    (∀ n j a d, (g n).requests[j]? = some a → (g n).responses[j]? = some d → a.wen = false →
      d = (flat m₀ ((g n).requests.take j)).read (wordOf a.addr)) ∧
    (Clocked.Often (fun n => (i n).abrReady = true) →
      Clocked.Often (fun n => (i n).rspRdy = true) →
      ∀ n, ∃ m, n ≤ m ∧ (g n).requests.length ≤ (g m).responses.length) := by
  intro s g
  have hr := refines_run c m₀ i
  refine ⟨fun n => (hr n).count, fun n hv => ?_, fun n => (hr n).correct, answered c m₀ i⟩
  rw [(hr n).count, busy_of_rsp hv]
  exact Nat.lt_succ_self _

end Rv64imCore.Dcache
