import Rv64imCore.DataBus
import Rv64imCore.Ledger

/-! The device bridge behind the multiplexer of the memory bus: every request makes one transfer
and gets one response. -/

namespace Rv64imCore.AtoB
set_option autoImplicit true

/-- What the two sides of the bridge, the bus and its other master do in a cycle. -/
structure In where
  req : Req
  rspRdy : Bool
  other : Abr
  busRdata : BitVec 64
  busReady : Bool

structure Access where
  wen : Bool
  addr : BitVec 32
  wdata : BitVec 64
  wmask : BitVec 8
  deriving DecidableEq

section Wires
variable (s : State) (i : In)

/-- The side of `rv64im_core_2to1` that the bus sees. -/
def bus : Abr := TwoToOne.abr (abr s) i.other
def abrReady : Bool := TwoToOne.ready (abr s) i.busReady
def abrRdata : BitVec 64 := TwoToOne.rdata (abr s) i.busRdata

def behindMux : Clocked.Machine State In where
  next := fun s i => next s i.req i.rspRdy (abrReady s i) (abrRdata s i)

/-- The request a cycle accepts. -/
def accepted : List Access :=
  if i.req.vld && s.reqRdy then
    [{ wen := i.req.wen, addr := i.req.addr, wdata := i.req.wdata, wmask := i.req.wmask }]
  else []

/-- The transfer of the bridge that a cycle completes, as the bus sees it. -/
def transferred : List Access :=
  if s.valid && i.busReady then
    [{ wen := (bus s i).wen, addr := (bus s i).addr, wdata := (bus s i).wdata
       wmask := (bus s i).wmask }]
  else []

/-- The data of that transfer. -/
def transferData : List (BitVec 64) := if s.valid && i.busReady then [i.busRdata] else []

/-- The response a cycle takes. -/
def answered : List (BitVec 64) :=
  if rspVld s (abrReady s i) && i.rspRdy then [rspRdata s (abrReady s i) (abrRdata s i)] else []

/-- The other master keeps off the bus while the bridge is on it. -/
def Alone : Prop := s.valid = true → i.other.valid = false

/-- The access on the bus, and the data not taken yet. -/
def onBus : List Access :=
  if s.valid then [{ wen := s.wen, addr := s.addr, wdata := s.wdata, wmask := s.wmask }] else []
def saved : List (BitVec 64) := if !s.reqRdy && !s.valid then [s.rdata] else []

end Wires

/-- The bridge takes a request, works on one, or keeps the data of one. -/
inductive Phase (s : State) : Prop
  | idle (valid : s.valid = false) (reqRdy : s.reqRdy = true)
  | working (valid : s.valid = true) (reqRdy : s.reqRdy = false)
  | keeping (valid : s.valid = false) (reqRdy : s.reqRdy = false)

section Step
variable {s : State} {i : In}

theorem next_idle (hv : s.valid = false) (hr : s.reqRdy = true) : behindMux.next s i =
    if i.req.vld then
      { addr := i.req.addr, wdata := i.req.wdata, wmask := i.req.wmask, wen := i.req.wen
        reqRdy := false, valid := true, rdata := s.rdata }
    else s := by
  cases hq : i.req.vld with
  | false =>
    simp only [behindMux, next, rspVld, hq, hv, hr]
    cases s
    simp_all
  | true => simp [behindMux, next, hq, hv, hr]

theorem next_working (hv : s.valid = true) (hr : s.reqRdy = false) : behindMux.next s i =
    if i.busReady then { s with valid := false, reqRdy := i.rspRdy, rdata := i.busRdata }
    else s := by
  have hy : abrReady s i = i.busReady := by
    rw [abrReady, TwoToOne.ready, abr, hv, if_pos rfl]
  have hd : abrRdata s i = i.busRdata := by
    rw [abrRdata, TwoToOne.rdata, abr, hv, if_pos rfl]
  simp only [behindMux, hy, hd, next, rspVld, hv, hr]
  cases i.busReady with
  | false =>
    cases s
    simp_all
  | true => cases i.rspRdy <;> simp

theorem next_keeping (hv : s.valid = false) (hr : s.reqRdy = false) :
    behindMux.next s i = { s with reqRdy := i.rspRdy } := by
  simp only [behindMux, next, rspVld, hv, hr]
  cases i.rspRdy <;> cases s <;> simp_all

theorem Phase.next (h : Phase s) (i : In) : Phase (behindMux.next s i) := by
  cases h with
  | idle hv hr =>
    rw [next_idle hv hr]
    cases i.req.vld with
    | false => exact .idle hv hr
    | true => exact .working rfl rfl
  | working hv hr =>
    rw [next_working hv hr]
    cases i.busReady with
    | false => exact .working hv hr
    | true =>
      cases hp : i.rspRdy with
      | false => exact .keeping rfl rfl
      | true => exact .idle rfl rfl
  | keeping hv hr =>
    rw [next_keeping hv hr]
    cases hp : i.rspRdy with
    | false => exact .keeping hv rfl
    | true => exact .idle hv rfl

/-- What was on the bus and what is accepted has its transfer or is on the bus. -/
theorem Phase.access_balance (h : Phase s) (ha : Alone s i) :
    onBus s ++ accepted s i = transferred s i ++ onBus (behindMux.next s i) := by
  cases h with
  | idle hv hr =>
    rw [next_idle hv hr]
    cases hq : i.req.vld <;> simp [onBus, accepted, transferred, hv, hr, hq]
  | working hv hr =>
    rw [next_working hv hr]
    cases hb : i.busReady <;>
      simp [onBus, accepted, transferred, bus, TwoToOne.abr, abr, hv, hr, hb, ha hv]
  | keeping hv hr =>
    rw [next_keeping hv hr]
    simp [onBus, accepted, transferred, hv, hr]

theorem Phase.data_balance (h : Phase s) :
    saved s ++ transferData s i = answered s i ++ saved (behindMux.next s i) := by
  cases h with
  | idle hv hr =>
    rw [next_idle hv hr]
    cases i.req.vld <;> simp [saved, transferData, answered, rspVld, hv, hr]
  | working hv hr =>
    rw [next_working hv hr]
    cases hb : i.busReady <;> cases hp : i.rspRdy <;>
      simp [saved, transferData, answered, rspVld, rspRdata, abrReady, abrRdata, TwoToOne.ready,
        TwoToOne.rdata, abr, hv, hr, hb, hp]
  | keeping hv hr =>
    rw [next_keeping hv hr]
    cases hp : i.rspRdy <;>
      simp [saved, transferData, answered, rspVld, rspRdata, abrReady, TwoToOne.ready, abr, hv, hr,
        hp]

theorem Phase.idle_of_reqRdy (h : Phase s) (hr : s.reqRdy = true) :
    onBus s = [] ∧ saved s = [] := by
  cases h with
  | idle hv => simp [onBus, saved, hv, hr]
  | working hv hr' => exact absurd (hr.symm.trans hr') (by decide)
  | keeping hv hr' => exact absurd (hr.symm.trans hr') (by decide)

theorem onBus_length : (onBus s).length ≤ 1 := by
  rw [onBus]
  split <;> simp

theorem saved_length : (saved s).length ≤ 1 := by
  rw [saved]
  split <;> simp

/-- What stands between an accepted request and its response. -/
def rank (s : State) : Nat := s.valid.toNat + (!s.reqRdy).toNat

/-- The event that a rank waits for: the bus, and then the receiver. -/
def awaited (r : Nat) (i : In) : Bool := if r = 2 then i.busReady else i.rspRdy

theorem Phase.rank_next (h : Phase s) (hw : s.reqRdy = false) :
    rank (behindMux.next s i) ≤ rank s ∧
      (awaited (rank s) i = true → rank (behindMux.next s i) < rank s) := by
  cases h with
  | idle hv hr => exact absurd (hr.symm.trans hw) (by decide)
  | working hv hr =>
    rw [next_working hv hr]
    cases hb : i.busReady <;> cases hp : i.rspRdy <;> simp [rank, awaited, hv, hr, hb]
  | keeping hv hr =>
    rw [next_keeping hv hr]
    cases hp : i.rspRdy <;> simp [rank, awaited, hv, hr, hp]

end Step

section Runs
variable (s : State) (i : Nat → In)

theorem phase_run (n : Nat) : Phase (behindMux.run s.reset i n) :=
  behindMux.run_invariant (.idle rfl rfl) (fun _ a h => h.next a) n

theorem requests_eq (hx : ∀ n, Alone (behindMux.run s.reset i n) (i n)) (n : Nat) :
    behindMux.trace accepted s.reset i n =
      behindMux.trace transferred s.reset i n ++ onBus (behindMux.run s.reset i n) :=
  behindMux.ledger (P := Phase) (C := Alone) (.idle rfl rfl) rfl (fun _ a _ h => h.next a)
    (fun _ _ hC h => h.access_balance hC) (fun k _ => hx k)

theorem data_eq (n : Nat) : behindMux.trace transferData s.reset i n =
    behindMux.trace answered s.reset i n ++ saved (behindMux.run s.reset i n) :=
  behindMux.ledger (P := Phase) (C := fun _ _ => True) (.idle rfl rfl) rfl
    (fun _ a _ h => h.next a) (fun _ _ _ h => h.data_balance) (fun _ _ => trivial)

theorem data_length (n : Nat) : (behindMux.trace transferData s.reset i n).length =
    (behindMux.trace transferred s.reset i n).length := by
  apply Clocked.Machine.trace_length
  intro s a
  rw [transferData, transferred]
  split <;> rfl

theorem frees (hb : Clocked.Often fun n => (i n).busReady = true)
    (hr : Clocked.Often fun n => (i n).rspRdy = true) (n : Nat) :
    ∃ m, n ≤ m ∧ (behindMux.run s.reset i m).reqRdy = true := by
  have hG : ∀ r, Clocked.Often fun n => awaited r (i n) = true := by
    intro r
    by_cases h2 : r = 2
    · simpa [awaited, h2] using hb
    · simpa [awaited, h2] using hr
  obtain ⟨m, hm, hw⟩ := Clocked.ends_of_often hG
    (W := fun n => (behindMux.run s.reset i n).reqRdy = false)
    (fun n => rank (behindMux.run s.reset i n))
    (fun n hw => ((phase_run s i n).rank_next hw).1)
    (fun n hw hg => ((phase_run s i n).rank_next hw).2 hg) n
  exact ⟨m, hm, by simpa using hw⟩

/-- From reset, under any requests, any back-pressure and any latency of a bus whose other master
keeps off it meanwhile: the transfers are those of the requests, in order, with at most one to come;
the responses are the data of the transfers, in order, with at most one to come; a request is
accepted only when all before it have been transferred and answered; and under a bus and a receiver
that are ready again and again every request is answered. -/
theorem device_access_once (hx : ∀ n, Alone (behindMux.run s.reset i n) (i n)) :
    let r := behindMux.run s.reset i
    let requests := behindMux.trace accepted s.reset i
    let transfers := behindMux.trace transferred s.reset i
    let data := behindMux.trace transferData s.reset i
    let responses := behindMux.trace answered s.reset i
    (∀ n, transfers n <+: requests n ∧ (requests n).length ≤ (transfers n).length + 1) ∧
    (∀ n, (data n).length = (transfers n).length ∧ responses n <+: data n ∧
      (data n).length ≤ (responses n).length + 1) ∧
    (∀ n, accepted (r n) (i n) ≠ [] → transfers n = requests n ∧ responses n = data n) ∧
    (Clocked.Often (fun n => (i n).busReady = true) →
      Clocked.Often (fun n => (i n).rspRdy = true) →
      ∀ n, ∃ m, n ≤ m ∧ (requests n).length ≤ (responses m).length) := by
  intro r requests transfers data responses
  have hq : ∀ n, requests n = transfers n ++ onBus (r n) := requests_eq s i hx
  have hd : ∀ n, data n = responses n ++ saved (r n) := data_eq s i
  have hl : ∀ n, (data n).length = (transfers n).length := data_length s i
  have hfree : ∀ n, (r n).reqRdy = true → transfers n = requests n ∧ responses n = data n := by
    intro n hr
    obtain ⟨ho, hs⟩ := (phase_run s i n).idle_of_reqRdy hr
    rw [hq n, hd n, ho, hs, List.append_nil, List.append_nil]
    exact ⟨rfl, rfl⟩
  refine ⟨fun n => ⟨?_, ?_⟩, fun n => ⟨hl n, ?_, ?_⟩, fun n ha => ?_, fun hb hr n => ?_⟩
  · rw [hq n]
    exact List.prefix_append _ _
  · rw [hq n, List.length_append]
    exact Nat.add_le_add_left onBus_length _
  · rw [hd n]
    exact List.prefix_append _ _
  · rw [hd n, List.length_append]
    exact Nat.add_le_add_left saved_length _
  · refine hfree n ?_
    rw [accepted] at ha
    split at ha
    · rename_i h
      exact (Bool.and_eq_true_iff.mp h).2
    · exact absurd rfl ha
  · obtain ⟨m, hm, hf⟩ := frees s i hb hr n
    obtain ⟨ht, hs⟩ := hfree m hf
    refine ⟨m, hm, ?_⟩
    rw [hs, hl m, ht]
    exact (Clocked.Machine.trace_mono hm).length_le

end Runs

/-- Stores without a pause, on a slow bus and to a slow receiver. -/
def slowStores (n : Nat) : In :=
  { req := { vld := true, wen := true, addr := 0x10000000, wdata := BitVec.ofNat 64 n
             wmask := 0xff }
    rspRdy := n % 3 == 0
    other := { valid := false, wen := false, addr := 0, wdata := 0, wmask := 0 }
    busRdata := 0
    busReady := n % 4 == 2 }

theorem device_access_once_slow : ∃ m, 9 ≤ m ∧
    (behindMux.trace accepted (default : State).reset slowStores 9).length ≤
      (behindMux.trace answered (default : State).reset slowStores m).length := by
  refine (device_access_once default slowStores fun n _ => rfl).2.2.2 ?_ ?_ 9
  · intro n
    refine ⟨4 * n + 2, by omega, ?_⟩
    have h : (4 * n + 2) % 4 = 2 := by omega
    simp [slowStores, h]
  · intro n
    refine ⟨3 * n, by omega, ?_⟩
    have h : 3 * n % 3 = 0 := by omega
    simp [slowStores, h]

end Rv64imCore.AtoB

namespace Rv64imCore.Sys
set_option autoImplicit true

/-- The signals of the bridge in a cycle of the core with its data side. -/
def bridgeIn (s : State) (i : In) : AtoB.In :=
  { req := req s i 2, rspRdy := sRspRdy s 2, other := m1 s, busRdata := i.busRdata
    busReady := i.busReady }

/-- The bridge of the top is on the bus alone. -/
theorem bridge_alone (s : State) (i : Nat → In) (n : Nat) :
    AtoB.Alone (machine.run s.reset i n).atob
      (bridgeIn (machine.run s.reset i n) (i n)) := by
  intro hv
  rw [Bool.eq_false_iff]
  exact fun h1 => (run_inv s i n).not_m1_m2 ⟨h1, hv⟩

/-- Its run is one of the bridge behind the multiplexer. -/
theorem bridge_run (s : State) (i : Nat → In) (n : Nat) : (machine.run s.reset i n).atob =
    AtoB.behindMux.run s.atob.reset (fun k => bridgeIn (machine.run s.reset i k) (i k)) n := by
  induction n with
  | zero => rfl
  | succ n ih =>
    rw [Clocked.Machine.run_succ, Clocked.Machine.run_succ, ← ih]
    rfl

end Rv64imCore.Sys
