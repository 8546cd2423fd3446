import Rv64imCore.Bytes
import Rv64imCore.Clocked
import Rv64imCore.Ifu

/-! The fetch unit delivers one stream of instructions, whatever stalls, flushes and cache latencies
it meets. -/

namespace Rv64imCore.Ifu
set_option autoImplicit true

/-- The cache takes a request whenever it is idle or responding. -/
def Ready (s : State) (i : In) : Prop := s.rspRdy = false ∨ i.rspVld = true → i.reqRdy = true

/-- Where the stream goes on after a cycle: at the address of a flush, else behind the instruction
delivered, else where it was to go on before. -/
def target (t : BitVec 64) (s : State) (i : In) : BitVec 64 :=
  if i.flush then i.flushAddr else if instOk s i then succPc s i (inst s i) else t

/-- The unit is about to deliver the instruction at `t`. -/
structure OnPath (s : State) (t : BitVec 64) : Prop where
  flush : s.flush = true → s.flushAddr = t
  path : s.flush = false → (s.rspRdy || s.dataStallVld) = true → s.pc = t
  /-- Only reset leaves the unit with nothing under way. -/
  start : s.flush = false → s.rspRdy = false → s.dataStallVld = false → s.pc + 4 = t
  one : s.dataStallVld = true → s.rspRdy = false

theorem OnPath.reset (s : State) : OnPath s.reset (pcResetAddr + 4) where
  flush := fun h => Bool.noConfusion h
  path := fun _ h => Bool.noConfusion h
  start := fun _ _ _ => rfl
  one := fun h => Bool.noConfusion h

section Step
variable {s : State} {i : In}

theorem addrShake_eq (h : Ready s i) : addrShake s i = reqVld s i := by
  cases hq : reqVld s i with
  | false => rw [addrShake, hq, Bool.and_false]
  | true =>
    have hr : i.reqRdy = true := by
      apply h
      simp only [reqVld, Bool.and_eq_true, Bool.not_eq_true'] at hq
      revert hq
      cases s.rspRdy <;> cases i.rspVld <;> simp
    rw [addrShake, hq, hr]; rfl

theorem succPc_nop (h : instOk s i = false) : succPc s i (inst s i) = s.pc + 4 := by
  have hr : Alu.isReturn instNop = false := by decide
  have hd : dirbrnPt s instNop = false := by
    simp only [dirbrnPt, show condBxx instNop = false by decide,
      show uncondJump instNop = false by decide]
    rfl
  simp [inst, h, succPc, hr, hd]

theorem next_of_flush (hf : i.flush = true) :
    (next s i).flush = true ∧ (next s i).flushAddr = i.flushAddr ∧
      (next s i).dataStallVld = false := by
  have ha : addrShake s i = false := by simp [addrShake, reqVld, hf]
  simp [next, ha, hf, ifStall]

theorem next_of_stall (hf : i.flush = false) (hs : i.stall = true) :
    next s i = { s with
      instOfStall := if dataShake s i then instOfCache s i else s.instOfStall
      dataStallVld := dataShake s i || s.dataStallVld
      rspRdy := s.rspRdy && !i.rspVld
      satcnt := Satcnt.next s.satcnt i.bx (pcNext s i) false
      ras := Ras.next s.ras i.bx.push i.bx.pop (pushTgt i) } := by
  have ha : addrShake s i = false := by simp [addrShake, reqVld, hs]
  simp only [next, ha, hf, hs, ifStall]
  cases hd : dataShake s i <;> simp_all [dataShake, reg]

theorem next_of_wait (hf : i.flush = false) (hr : s.rspRdy = true)
    (hv : i.rspVld = false) (hd : s.dataStallVld = false) :
    next s i = { s with
      satcnt := Satcnt.next s.satcnt i.bx (pcNext s i) false
      ras := Ras.next s.ras i.bx.push i.bx.pop (pushTgt i) } := by
  have ha : addrShake s i = false := by simp [addrShake, reqVld, hr, hv]
  simp [next, ha, hf, hd, dataShake, hv]

theorem next_of_request (hc : Ready s i) (hf : i.flush = false) (hs : i.stall = false)
    (hr : s.rspRdy = false ∨ i.rspVld = true) :
    next s i = { s with
      pc := pcNext s i
      flush := false
      dataStallVld := false
      rspRdy := true
      satcnt := Satcnt.next s.satcnt i.bx (pcNext s i) true
      ras := Ras.next s.ras i.bx.push i.bx.pop (pushTgt i) } := by
  have ha : addrShake s i = true := by
    rw [addrShake_eq hc]
    rcases hr with hr | hr <;> simp [reqVld, hr, hf, hs]
  simp [next, ha, hf, hs, ifStall]

/-- The four kinds of cycles: a flush, a stall, a wait for the cache, and a request. -/
theorem cycle_cases (s : State) (i : In) : i.flush = true ∨
    (i.flush = false ∧ i.stall = true) ∨
    (i.flush = false ∧ i.stall = false ∧ s.rspRdy = true ∧ i.rspVld = false) ∨
    (i.flush = false ∧ i.stall = false ∧ (s.rspRdy = false ∨ i.rspVld = true)) := by
  cases i.flush <;> cases i.stall <;> cases s.rspRdy <;> cases i.rspVld <;> simp

theorem instOk_of_stall (h : i.stall = true) : instOk s i = false := by simp [instOk, h]

theorem OnPath.instOk_of_wait (h : OnPath s t) (hr : s.rspRdy = true) (hv : i.rspVld = false) :
    instOk s i = false ∧ s.dataStallVld = false := by
  have hd : s.dataStallVld = false := by
    rw [Bool.eq_false_iff]
    intro hd
    rw [h.one hd] at hr
    cases hr
  exact ⟨by simp [instOk, dataShake, hv, hd], hd⟩

theorem OnPath.pcNext (h : OnPath s t) (hf : i.flush = false) (hs : i.stall = false)
    (hr : s.rspRdy = false ∨ i.rspVld = true) : pcNext s i = target t s i := by
  have ht : target t s i = if instOk s i then succPc s i (inst s i) else t := by
    rw [target, hf]; rfl
  cases hp : s.flush with
  | true =>
    have hk : instOk s i = false := by simp [instOk, hp]
    rw [ht, hk, Ifu.pcNext, hp, h.flush hp]; rfl
  | false =>
    have hn : Ifu.pcNext s i = succPc s i (inst s i) := by rw [Ifu.pcNext, hp]; rfl
    cases hk : instOk s i with
    | true => rw [ht, hk, hn]; rfl
    | false =>
      -- nothing to deliver, nothing under way: the first request
      have hu : s.rspRdy = false ∧ s.dataStallVld = false := by
        simp only [instOk, dataShake, hf, hs, hp] at hk
        rcases hr with hr | hr <;> simpa [hr] using hk
      rw [ht, hk, hn, succPc_nop hk, h.start hp hu.1 hu.2]; rfl

theorem OnPath.next (h : OnPath s t) (hc : Ready s i) : OnPath (next s i) (target t s i) := by
  rcases cycle_cases s i with hf | ⟨hf, hs⟩ | ⟨hf, hs, hr, hv⟩ | ⟨hf, hs, hr⟩
  · obtain ⟨hp, ha, hd⟩ := next_of_flush (s := s) hf
    refine ⟨fun _ => ?_, fun h' => ?_, fun h' => ?_, fun h' => ?_⟩
    · rw [ha, target, if_pos hf]
    · rw [hp] at h'; cases h'
    · rw [hp] at h'; cases h'
    · rw [hd] at h'; cases h'
  · have ht : target t s i = t := by rw [target, hf, instOk_of_stall hs]; rfl
    rw [next_of_stall hf hs, ht]
    refine ⟨h.flush, fun hp h' => h.path hp ?_, fun hp hr' hd => ?_, fun h' => ?_⟩
    · revert h'
      simp only [dataShake]
      cases s.rspRdy <;> cases i.rspVld <;> cases s.dataStallVld <;> decide
    · simp only [Bool.or_eq_false_iff, dataShake] at hd hr'
      refine h.start hp ?_ hd.2
      revert hr' hd
      cases s.rspRdy <;> cases i.rspVld <;> simp
    · have ho := h.one
      revert h' ho
      simp only [dataShake]
      cases s.rspRdy <;> cases i.rspVld <;> cases s.dataStallVld <;> decide
  · obtain ⟨hk, hd⟩ := h.instOk_of_wait hr hv
    have ht : target t s i = t := by rw [target, hf, hk]; rfl
    rw [next_of_wait hf hr hv hd, ht]
    exact { h with }
  · rw [next_of_request hc hf hs hr]
    refine ⟨fun h' => Bool.noConfusion h', fun _ _ => h.pcNext hf hs hr, fun _ h' => ?_,
      fun h' => Bool.noConfusion h'⟩
    cases h'

theorem instOk_cases (h : instOk s i = true) : i.flush = false ∧ i.stall = false ∧
    s.flush = false ∧ (dataShake s i = true ∨ s.dataStallVld = true) := by
  simp only [instOk, Bool.and_eq_true, Bool.or_eq_true, Bool.not_eq_true',
    Bool.or_eq_false_iff] at h
  exact ⟨h.2.1, h.1.2, h.2.2, h.1.1⟩

theorem OnPath.ifPc (h : OnPath s t) (hk : instOk s i = true) : ifPc s i = t := by
  obtain ⟨-, -, hp, hd⟩ := instOk_cases hk
  rw [Ifu.ifPc, if_pos hk]
  refine h.path hp ?_
  rcases hd with hd | hd
  · simp only [dataShake, Bool.and_eq_true] at hd
    rw [hd.1]; rfl
  · rw [hd, Bool.or_true]

end Step

/-! The unit with a cache of any latency over a byte memory. -/

/-- The instruction at `pc`: the 32-bit word of memory, little endian, its low two bits dropped. -/
def instAt (m : Bytes.Mem 61) (pc : BitVec 64) : BitVec 32 :=
  m (pc.extractLsb' 2 62 ++ 3#2) ++ m (pc.extractLsb' 2 62 ++ 2#2)
    ++ m (pc.extractLsb' 2 62 ++ 1#2) ++ m (pc.extractLsb' 2 62 ++ 0#2)

/-- The fetch unit and the request its cache holds. -/
structure Fetch where
  ifu : State
  pending : Option (BitVec 64)

/-- What the pipeline and the cache choose in a cycle. The cache answers the request it holds or
not; without an answer `noise` is on its data port, and it may be `eager` to take a request even
when it is neither idle nor responding. -/
structure Env where
  flush : Bool
  flushAddr : BitVec 64
  stall : Bool
  bx : Bx
  respond : Bool
  noise : BitVec 64
  eager : Bool

section Wires
variable (m : Bytes.Mem 61) (f : Fetch) (e : Env)

def Fetch.rspVld : Bool := f.pending.isSome && e.respond

def Fetch.rdata : BitVec 64 :=
  match f.pending with
  | some a => if e.respond then m.read (a.extractLsb' 3 61) else e.noise
  | none => e.noise

def Fetch.input : In :=
  { flush := e.flush, flushAddr := e.flushAddr, stall := e.stall
    reqRdy := f.pending.isNone || f.rspVld e || e.eager
    rspVld := f.rspVld e
    rdata := f.rdata m e
    bx := e.bx }

def Fetch.next : Fetch :=
  { ifu := Ifu.next f.ifu (f.input m e)
    pending := if addrShake f.ifu (f.input m e) then some (addr f.ifu (f.input m e))
      else if dataShake f.ifu (f.input m e) then none
      else f.pending }

end Wires

def Fetch.reset (s : State) : Fetch := { ifu := s.reset, pending := none }

def fetch (m : Bytes.Mem 61) : Clocked.Machine Fetch Env where
  next := Fetch.next m

theorem byteAddr_eq {pc : BitVec 64} {b : Bool} (hb : pc.getLsbD 2 = b) (j : BitVec 2) :
    pc.extractLsb' 2 62 ++ j = pc.extractLsb' 3 61 ++ (BitVec.ofBool b ++ j) := by
  apply BitVec.eq_of_getLsbD_eq
  intro k hk
  simp only [BitVec.getLsbD_append, BitVec.getLsbD_extractLsb', BitVec.getLsbD_ofBool]
  rw [← hb]
  by_cases h2 : k < 2
  · simp [h2, show k < 1 + 2 by omega]
  · by_cases h3 : k = 2
    · subst h3; simp
    · have h1 : ¬k < 1 + 2 := by omega
      simp only [h1, h2, if_false]
      rw [show 2 + (k - 2) = k by omega, show 3 + (k - (1 + 2)) = k by omega]
      simp only [show k - 2 < 62 by omega, show k - (1 + 2) < 61 by omega]

theorem instAt_eq (m : Bytes.Mem 61) (pc : BitVec 64) :
    (if pc.getLsbD 2 then (m.read (pc.extractLsb' 3 61)).extractLsb' 32 32
      else (m.read (pc.extractLsb' 3 61)).extractLsb' 0 32) = instAt m pc := by
  cases hb : pc.getLsbD 2 with
  | true =>
    rw [if_pos rfl, Bytes.Mem.read, Bytes.ofBytes_high]
    simp only [instAt, byteAddr_eq hb]
    rfl
  | false =>
    rw [if_neg (by decide), Bytes.Mem.read, Bytes.ofBytes_low]
    simp only [instAt, byteAddr_eq hb]
    rfl

/-- What the fetch unit and its cache keep, with the stream about to go on at `t`. -/
structure Fetch.Inv (m : Bytes.Mem 61) (f : Fetch) (t : BitVec 64) : Prop where
  path : OnPath f.ifu t
  pending : f.pending = if f.ifu.rspRdy then some (f.ifu.pc.extractLsb' 2 62 ++ 0#2) else none
  parked : f.ifu.dataStallVld = true → f.ifu.instOfStall = instAt m f.ifu.pc

theorem Fetch.Inv.reset (m : Bytes.Mem 61) (s : State) :
    Fetch.Inv m (Fetch.reset s) (pcResetAddr + 4) where
  path := OnPath.reset s
  pending := rfl
  parked := fun h => Bool.noConfusion h

section Run
variable {m : Bytes.Mem 61} {f : Fetch} {t : BitVec 64} {e : Env}

theorem Fetch.Inv.ready (h : f.Inv m t) : Ready f.ifu (f.input m e) := by
  intro hr
  have hp := h.pending
  simp only [Fetch.input] at hr ⊢
  rcases hr with hr | hr
  · rw [hr] at hp
    simp [hp]
  · simp [hr]

/-- The word the cache answers with holds the instruction at the pc. -/
theorem Fetch.Inv.instOfCache (h : f.Inv m t) (hd : dataShake f.ifu (f.input m e) = true) :
    instOfCache f.ifu (f.input m e) = instAt m f.ifu.pc := by
  simp only [dataShake, Bool.and_eq_true] at hd
  have hp := h.pending
  rw [hd.1, if_pos rfl] at hp
  have hr : e.respond = true := by
    have := hd.2
    simp only [Fetch.input, Fetch.rspVld, Bool.and_eq_true] at this
    exact this.2
  have hw : (f.input m e).rdata = m.read (f.ifu.pc.extractLsb' 3 61) := by
    have ha : (f.ifu.pc.extractLsb' 2 62 ++ 0#2).extractLsb' 3 61 = f.ifu.pc.extractLsb' 3 61 := by
      apply BitVec.eq_of_getLsbD_eq
      intro k hk
      simp only [BitVec.getLsbD_append, BitVec.getLsbD_extractLsb']
      grind
    simp only [Fetch.input, Fetch.rdata, hp, hr, if_true, ha]
  rw [Ifu.instOfCache, hw, instAt_eq]

theorem Fetch.Inv.inst (h : f.Inv m t) (hk : instOk f.ifu (f.input m e) = true) :
    Ifu.inst f.ifu (f.input m e) = instAt m (Ifu.ifPc f.ifu (f.input m e)) := by
  rw [Ifu.inst, Ifu.ifPc, if_pos hk, if_pos hk]
  cases hd : f.ifu.dataStallVld with
  | true => rw [if_pos rfl, h.parked hd]
  | false =>
    rw [if_neg (by decide)]
    refine h.instOfCache ((instOk_cases hk).2.2.2.resolve_right ?_)
    rw [hd]; decide

theorem addrShake_of_ifStall {s : State} {i : In} (h : ifStall i = true) :
    addrShake s i = false := by
  simp only [ifStall, Bool.and_eq_true] at h
  simp [addrShake, reqVld, h.1]

theorem Fetch.Inv.next (h : f.Inv m t) (e : Env) :
    Fetch.Inv m (f.next m e) (target t f.ifu (f.input m e)) where
  path := h.path.next h.ready
  pending := by
    change (if _ then _ else _) = if (Ifu.next f.ifu (f.input m e)).rspRdy then
      some ((Ifu.next f.ifu (f.input m e)).pc.extractLsb' 2 62 ++ 0#2) else none
    cases ha : addrShake f.ifu (f.input m e) with
    | true => simp [Ifu.next, ha, addr]
    | false =>
      cases hd : dataShake f.ifu (f.input m e) with
      | true => simp [Ifu.next, ha, hd]
      | false => simp [Ifu.next, ha, hd, h.pending]
  parked := by
    intro hd
    simp only [Fetch.next, Ifu.next] at hd ⊢
    cases hs : ifStall (f.input m e) with
    | false =>
      rw [hs] at hd
      revert hd
      cases f.ifu.dataStallVld <;> simp
    | true =>
      rw [addrShake_of_ifStall hs]
      cases hv : dataShake f.ifu (f.input m e) with
      | true => exact h.instOfCache hv
      | false =>
        rw [hs, hv] at hd
        exact h.parked (by simpa using hd)

end Run

/-- The pc of the next delivery, as flushes and deliveries of a run set it. -/
def targetAt (m : Bytes.Mem 61) (s : State) (e : Nat → Env) : Nat → BitVec 64 :=
  (fetch m).history (pcResetAddr + 4) (fun t f a => target t f.ifu (f.input m a)) (Fetch.reset s) e

theorem fetch_run (m : Bytes.Mem 61) (s : State) (e : Nat → Env) (n : Nat) :
    Fetch.Inv m ((fetch m).run (Fetch.reset s) e n) (targetAt m s e n) :=
  (fetch m).history_induction _ _ (C := fun _ _ => True) (Fetch.Inv.reset m s)
    (fun _ _ a _ h => h.next a) (fun _ _ => trivial)

/-- Nothing is delivered and no flush comes from cycle `k` up to cycle `n`. -/
def Quiet (m : Bytes.Mem 61) (s : State) (e : Nat → Env) (k n : Nat) : Prop :=
  ∀ j, k ≤ j → j < n → (e j).flush = false ∧
    instOk ((fetch m).run (Fetch.reset s) e j).ifu
      (((fetch m).run (Fetch.reset s) e j).input m (e j)) = false

theorem targetAt_quiet {m : Bytes.Mem 61} {s : State} {e : Nat → Env} {k n : Nat} (hkn : k ≤ n)
    (hq : Quiet m s e k n) : targetAt m s e n = targetAt m s e k := by
  refine Clocked.kept (P := fun j => targetAt m s e j = targetAt m s e k) hkn rfl ?_
  intro j hkj hjn hj
  obtain ⟨hf, hd⟩ := hq j hkj hjn
  change target (targetAt m s e j) _ _ = _
  rw [target, hd, show Ifu.In.flush _ = false from hf, ← hj]
  rfl

/-- Every delivered instruction is the word at its pc. With no delivery before it the pc is the
reset vector plus four, or the address of the latest flush; after a delivery it is the chosen
successor, or the address of the latest flush since. -/
theorem fetch_stream (m : Bytes.Mem 61) (s : State) (e : Nat → Env) (n : Nat) :
    let f := (fetch m).run (Fetch.reset s) e
    let i := fun k => (f k).input m (e k)
    instOk (f n).ifu (i n) = true →
      inst (f n).ifu (i n) = instAt m (ifPc (f n).ifu (i n)) ∧
      (Quiet m s e 0 n → ifPc (f n).ifu (i n) = pcResetAddr + 4) ∧
      (∀ k, k < n → (e k).flush = true → Quiet m s e (k + 1) n →
        ifPc (f n).ifu (i n) = (e k).flushAddr) ∧
      (∀ k, k < n → instOk (f k).ifu (i k) = true → Quiet m s e (k + 1) n →
        ifPc (f n).ifu (i n) = succPc (f k).ifu (i k) (inst (f k).ifu (i k))) := by
  intro f i hk
  have hi := fetch_run m s e n
  have hpc := hi.path.ifPc hk
  refine ⟨hi.inst hk, fun hq => ?_, fun k hkn hf hq => ?_, fun k hkn hd hq => ?_⟩
  · rw [hpc, targetAt_quiet (Nat.zero_le n) hq]
    rfl
  · rw [hpc, targetAt_quiet hkn hq]
    exact if_pos hf
  · rw [hpc, targetAt_quiet hkn hq]
    change target (targetAt m s e k) (f k).ifu (i k) = _
    rw [target, if_pos hd, (instOk_cases hd).1]
    rfl

/-- The first two instructions with nothing in their way: a `jal` back to itself. -/
theorem fetch_stream_jal :
    let m : Bytes.Mem 61 := fun a => if a.getLsbD 0 || a.getLsbD 1 then 0 else 0x6f
    let e : Nat → Env := fun _ =>
      { flush := false, flushAddr := 0, stall := false
        bx := { cond := false, pc := 0, pt := false, push := false, pop := false }
        respond := true, noise := 0, eager := false }
    let f := (fetch m).run (Fetch.reset default) e
    ifPc (f 1).ifu ((f 1).input m (e 1)) = 0x80000000 ∧
      ifPc (f 2).ifu ((f 2).input m (e 2)) = 0x80000000 := by
  intro m e f
  have h₁ := fetch_stream m default e 1 (by decide +kernel)
  have h₂ := fetch_stream m default e 2 (by decide +kernel)
  constructor
  · refine h₁.2.1 fun j _ hj => ?_
    rw [show j = 0 by omega]
    decide +kernel
  · refine (h₂.2.2.2 1 (by decide) (by decide +kernel) fun j h hj => absurd hj (by omega)).trans ?_
    decide +kernel

/-- A flush that comes before anything has been delivered: the stream does not begin behind the
reset vector. -/
theorem flush_before_first_delivery :
    ¬∀ (m : Bytes.Mem 61) (s : State) (e : Nat → Env) (n : Nat),
      let f := (fetch m).run (Fetch.reset s) e
      let ok := fun k => instOk (f k).ifu ((f k).input m (e k))
      ok n = true → (∀ k, k < n → ok k = false) →
        ifPc (f n).ifu ((f n).input m (e n)) = pcResetAddr + 4 := by
  intro h
  have h := h (fun _ => 0) default (fun k =>
    { flush := k == 0, flushAddr := 0x100, stall := false
      bx := { cond := false, pc := 0, pt := false, push := false, pop := false }
      respond := true, noise := 0, eager := false }) 2 (by decide +kernel) (by decide +kernel)
  revert h
  decide +kernel

end Rv64imCore.Ifu
