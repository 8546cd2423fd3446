import Rv64imCore.Ledger
import Rv64imCore.ReplayDcache

/-! The bus transfers of a cache of any size are those its misses call for. -/

namespace Rv64imCore.Dcache
set_option autoImplicit true

inductive Beat where
  | write (addr : BitVec 32) (data : BitVec 64)
  | read (addr : BitVec 32)
  deriving DecidableEq

def Beat.isRead : Beat → Bool
  | write .. => false
  | read _ => true

/-- The words of a line from word `c` on. -/
def wordsFrom (c : BitVec 2) : List (BitVec 2) := [0#2, 1#2, 2#2, 3#2].drop c.toNat

/-- The byte address of word `b` of line `l`. -/
def busAddr (l : BitVec 27) (b : BitVec 2) : BitVec 32 := l ++ b ++ 0#3

def writesFrom (c : BitVec 2) (l : BitVec 27) (f : BitVec 2 → BitVec 64) : List Beat :=
  (wordsFrom c).map fun b => .write (busAddr l b) (f b)
def readsFrom (c : BitVec 2) (l : BitVec 27) : List Beat :=
  (wordsFrom c).map fun b => .read (busAddr l b)

/-- The way the PLRU bits point at. -/
def victimOf (p : BitVec 3) : Fin 4 :=
  if p.getLsbD 0 then (if p.getLsbD 2 then ⟨3, by decide⟩ else ⟨2, by decide⟩)
  else (if p.getLsbD 1 then ⟨1, by decide⟩ else ⟨0, by decide⟩)

section Calls
variable (s : State k)

/-- The line in way `w` of set `j`, and its words. -/
def lineIn (w : Fin 4) (j : BitVec k) : BitVec 27 := BitVec.setWidth 27 (s.tagArry w j ++ j)
def contents (w : Fin 4) (j : BitVec k) (b : BitVec 2) : BitVec 64 :=
  Ram.word (s.ram w) (BitVec.setWidth 6 j) b

def victim (addr : BitVec 32) : Fin 4 := victimOf (s.plruArry (idxOf k addr))

/-- The transfers an accepted request calls for: none for a hit, the victim's words if it is valid
and dirty and then those of the missed line for a miss. -/
def calledFor (i : In) : List Beat :=
  let v := victim s i.addr
  let j := idxOf k i.addr
  if reqMiss s i then
    (if s.vldArry v j && s.dryArry v j then writesFrom 0 (lineIn s v j) (contents s v j) else [])
      ++ readsFrom 0 (i.addr.extractLsb' 5 27)
  else []

/-- The transfer a cycle completes. -/
def transfer (i : In) : List Beat :=
  if abrValid s && i.abrReady then
    [if abrWen s then .write (abrAddr s) (abrWdata s) else .read (abrAddr s)]
  else []

/-- The transfers still to come for the miss in progress. -/
def toCome : List Beat :=
  if stateIsWbus s then
    writesFrom s.wcnt (s.vicAddrFf.extractLsb' 5 27)
        (fun b => orWays fun w => mask (s.wayVicFf w) (contents s w (idxOf k s.vicAddrFf) b))
      ++ readsFrom 0 (s.addrFf.extractLsb' 5 27)
  else if stateIsRbus s then readsFrom s.rcnt (s.addrFf.extractLsb' 5 27)
  else []

end Calls

theorem wordsFrom_succ {c : BitVec 2} (h : c ≠ 3) : wordsFrom c = c :: wordsFrom (c + 1) := by
  revert c; decide

theorem writesFrom_succ {c : BitVec 2} (h : c ≠ 3) (l : BitVec 27) (f : BitVec 2 → BitVec 64) :
    writesFrom c l f = .write (busAddr l c) (f c) :: writesFrom (c + 1) l f := by
  rw [writesFrom, wordsFrom_succ h]
  rfl

theorem readsFrom_succ {c : BitVec 2} (h : c ≠ 3) (l : BitVec 27) :
    readsFrom c l = .read (busAddr l c) :: readsFrom (c + 1) l := by
  rw [readsFrom, wordsFrom_succ h]
  rfl

section Victim
variable {s : State k} {i : In}

theorem wayVic_eq (addr : BitVec 32) : wayVic s addr = fun w => w == victim s addr := by
  have h : ∀ p w, plruVic p w = (w == victimOf p) := by decide
  exact funext fun w => h _ w

theorem vicDry_eq (addr : BitVec 32) : vicDry s addr =
    (s.vldArry (victim s addr) (idxOf k addr) && s.dryArry (victim s addr) (idxOf k addr)) := by
  simp only [vicDry, wayVic_eq, wayDry, wayVld, anyWay]
  rcases way_cases (victim s addr) with h | h | h | h <;> simp [h, Bool.and_comm]

theorem vicAddr_eq : vicAddr s i =
    BitVec.setWidth 32 (s.tagArry (victim s i.addr) (idxOf k i.addr) ++ idxOf k i.addr ++ 0#5) := by
  simp only [vicAddr, vicTag, wayVic_eq, Ram.orWays_onehot]

theorem vicAddr_line : (vicAddr s i).extractLsb' 5 27 =
    lineIn s (victim s i.addr) (idxOf k i.addr) := by
  rw [vicAddr_eq, lineIn]
  apply BitVec.eq_of_getLsbD_eq
  intro n hn
  simp only [BitVec.getLsbD_extractLsb', BitVec.getLsbD_setWidth, BitVec.getLsbD_append]
  grind

theorem vicAddr_idx : idxOf k (vicAddr s i) = idxOf k i.addr := by
  rw [vicAddr_eq]
  apply BitVec.eq_of_getLsbD_eq
  intro n hn
  simp only [idxOf, BitVec.getLsbD_extractLsb', BitVec.getLsbD_setWidth, BitVec.getLsbD_append]
  by_cases h : 5 + n < 32
  · grind
  · have hge : i.addr.getLsbD (5 + n) = false := BitVec.getLsbD_of_ge _ _ (by omega)
    simp [h, hge]

end Victim

/-- The word on its way out is the one the beat counter names. -/
def Fetched (s : State k) : Prop :=
  WritingBack s → s.wbusEnFf = false → ∀ w, s.wayVicFf w = true →
    Ram.rdata (s.ram w) = contents s w (idxOf k s.vicAddrFf) s.wcnt

section Step
variable {s : State k} {i : In}

theorem Idle.toCome (h : Idle s) : toCome s = [] := by
  simp [Dcache.toCome, h.isWbus, h.isRbus]

theorem WritingBack.toCome (h : WritingBack s) : toCome s =
    writesFrom s.wcnt (s.vicAddrFf.extractLsb' 5 27)
        (fun b => orWays fun w => mask (s.wayVicFf w) (contents s w (idxOf k s.vicAddrFf) b))
      ++ readsFrom 0 (s.addrFf.extractLsb' 5 27) := by
  rw [Dcache.toCome, h.isWbus, if_pos rfl]

theorem Refilling.toCome (h : Refilling s) :
    toCome s = readsFrom s.rcnt (s.addrFf.extractLsb' 5 27) := by
  rw [Dcache.toCome, h.isWbus, h.isRbus]
  rfl

theorem Idle.transfer (h : Idle s) : transfer s i = [] := by
  simp [Dcache.transfer, abrValid, h.isWbus, h.rbusVld]

theorem calledFor_of_reqVld (h : Dcache.reqVld s i = false) : calledFor s i = [] := by
  simp [calledFor, reqMiss, h]

theorem Idle.balance (h : Idle s) : calledFor s i = Dcache.toCome (Dcache.next s i) := by
  cases hq : Dcache.reqVld s i with
  | false =>
    rw [calledFor_of_reqVld hq, h.next_quiet hq, Dcache.toCome]
    simp [stateIsWbus, stateIsRbus, h.state, norm, wbus, rbus]
  | true =>
    cases hh : anyWay (wayHit s i.addr) with
    | true =>
      rw [h.next_hit hq hh, Dcache.toCome]
      simp [calledFor, reqMiss, hh, stateIsWbus, stateIsRbus, h.state, norm, wbus, rbus]
    | false =>
      have hm : reqMiss s i = true := by rw [reqMiss, hq, hh]; rfl
      rw [calledFor, if_pos hm, ← vicDry_eq, h.next_miss hq hh, Dcache.toCome]
      cases hv : vicDry s i.addr with
      | true =>
        simp only [stateIsWbus, if_true, beq_self_eq_true, h.wcnt, vicAddr_line, vicAddr_idx,
          wayVic_eq, Ram.orWays_onehot]
        rfl
      | false => simp [stateIsWbus, stateIsRbus, wbus, rbus, h.rcnt]

/-- The SRAM after a fetch of the victim's word `b`. -/
def fetchRam (s : State k) (i : In) (b : BitVec 2) (w : Fin 4) : Ram.State :=
  Ram.next (s.ram w) (s.wayVicFf w) (BitVec.setWidth 6 (idxOf k s.vicAddrFf)) (1#4 <<< b) false
    i.wmask i.wdata

theorem fetchRam_word (b : BitVec 2) (w : Fin 4) (j : BitVec 6) (c : BitVec 2) :
    Ram.word (fetchRam s i b w) j c = Ram.word (s.ram w) j c := Ram.word_read ..

theorem fetchRam_rdata (b : BitVec 2) {w : Fin 4} (h : s.wayVicFf w = true) :
    Ram.rdata (fetchRam s i b w) = contents s w (idxOf k s.vicAddrFf) b := by
  rw [fetchRam, h, Ram.rdata_next]
  rfl

theorem WritingBack.rramCnt (h : WritingBack s) (he : s.wbusEnFf = false) :
    s.rramCnt = s.wcnt + 1 := by
  rcases h.beat with hb | hb
  · rw [he] at hb
    cases hb.1
  · exact hb.2.2

theorem WritingBack.transfer_wait (h : WritingBack s)
    (hr : s.wbusVld = false ∨ i.abrReady = false) : transfer s i = [] := by
  rcases hr with hr | hr <;> simp [Dcache.transfer, abrValid, h.isWbus, hr]

theorem WritingBack.transfer_beat (h : WritingBack s) (hf : Fetched s) (he : s.wbusEnFf = false)
    (hr : i.abrReady = true) : transfer s i = [.write
      (busAddr (s.vicAddrFf.extractLsb' 5 27) s.wcnt)
      (orWays fun w => mask (s.wayVicFf w) (contents s w (idxOf k s.vicAddrFf) s.wcnt))] := by
  have hd : wbusData s = orWays fun w =>
      mask (s.wayVicFf w) (contents s w (idxOf k s.vicAddrFf) s.wcnt) := by
    refine congrArg orWays (funext fun w => ?_)
    cases hw : s.wayVicFf w with
    | false => rw [mask_false, mask_false]
    | true => rw [hf h he w hw]
  have hb := h.wbusVld_of_en he
  simp [Dcache.transfer, abrValid, abrWen, abrAddr, abrWdata, h.isWbus, hb, hr, hd, wbusAddr,
    busAddr]

theorem toCome_fetch (b c : BitVec 2) (t : State k) (ht : t.state = wbus) (hw : t.wcnt = c)
    (hv : t.wayVicFf = s.wayVicFf) (ha : t.vicAddrFf = s.vicAddrFf)
    (hx : t.addrFf = s.addrFf) (hm : t.ram = fetchRam s i b) :
    Dcache.toCome t = writesFrom c (s.vicAddrFf.extractLsb' 5 27)
        (fun b => orWays fun w => mask (s.wayVicFf w) (contents s w (idxOf k s.vicAddrFf) b))
      ++ readsFrom 0 (s.addrFf.extractLsb' 5 27) := by
  have hc (w : Fin 4) (j : BitVec k) (c : BitVec 2) : contents t w j c = contents s w j c := by
    rw [contents, hm, fetchRam_word]
    rfl
  have hs : stateIsWbus t = true := by simp [stateIsWbus, ht]
  simp only [Dcache.toCome, hs, if_true, hw, hv, ha, hx, hc]

theorem WritingBack.balance (h : WritingBack s) (hf : Fetched s) :
    Dcache.toCome s = Dcache.transfer s i ++ Dcache.toCome (Dcache.next s i) := by
  cases he : s.wbusEnFf with
  | true =>
    have hv : s.wbusVld = false := by
      rcases h.beat with hb | hb
      · exact hb.2.1
      · rw [he] at hb
        cases hb.1
    have hn := h.next_first (i := i) he
    have ht := toCome_fetch (s := s) (i := i) s.rramCnt s.wcnt (Dcache.next s i)
      (by rw [hn, h.state]) (by rw [hn]) (by rw [hn]) (by rw [hn]) (by rw [hn]) (by rw [hn]; rfl)
    rw [h.transfer_wait (.inl hv), List.nil_append, h.toCome, ht]
  | false =>
    cases hr : i.abrReady with
    | false => rw [h.transfer_wait (.inr hr), h.next_wait he hr, List.nil_append]
    | true =>
      rw [h.transfer_beat hf he hr, h.toCome]
      by_cases hc : s.wcnt = 3
      · rw [h.next_last he hr hc, hc]
        simp [Dcache.toCome, stateIsWbus, stateIsRbus, wbus, rbus, h.rcnt]
        rfl
      · have hn := h.next_beat he hr hc
        have ht := toCome_fetch (s := s) (i := i) s.rramCnt (s.wcnt + 1) (Dcache.next s i)
          (by rw [hn, h.state]) (by rw [hn]) (by rw [hn]) (by rw [hn]) (by rw [hn])
          (by rw [hn]; rfl)
        rw [writesFrom_succ hc, ht]
        rfl

theorem Refilling.transfer_beat (h : Refilling s) (hr : i.abrReady = true) :
    Dcache.transfer s i = [.read (busAddr (s.addrFf.extractLsb' 5 27) s.rcnt)] := by
  simp [Dcache.transfer, abrValid, abrWen, abrAddr, h.isWbus, h.rbusVld, hr, rbusAddr, busAddr]

theorem Refilling.balance (h : Refilling s) :
    Dcache.toCome s = Dcache.transfer s i ++ Dcache.toCome (Dcache.next s i) := by
  cases hr : i.abrReady with
  | false =>
    have ht : Dcache.transfer s i = [] := by simp [Dcache.transfer, hr]
    rw [ht, h.next_wait hr, List.nil_append]
  | true =>
    rw [h.transfer_beat hr, h.toCome]
    by_cases hc : s.rcnt = 3
    · rw [h.next_last hr hc, hc]
      simp [Dcache.toCome, stateIsWbus, stateIsRbus, wbus, rbus, norm]
      rfl
    · rw [readsFrom_succ hc, h.next_beat hr hc]
      simp [Dcache.toCome, stateIsWbus, stateIsRbus, h.state, wbus, rbus]

/-- In every phase: what was to come and what a new request calls for is made or still to come. -/
theorem Control.balance (h : Control s) (hf : Fetched s) (i : In) :
    Dcache.toCome s ++ calledFor s i = Dcache.transfer s i ++ Dcache.toCome (Dcache.next s i) := by
  rcases h with h | h | h
  · rw [h.toCome, h.transfer, List.nil_append, List.nil_append, h.balance]
  · rw [calledFor_of_reqVld h.reqVld, List.append_nil, h.balance hf]
  · rw [calledFor_of_reqVld h.reqVld, List.append_nil, h.balance]

theorem rbus_ne_wbus : rbus ≠ wbus := by decide
theorem norm_ne_wbus : norm ≠ wbus := by decide

theorem fetched_of_state (h : s.state ≠ wbus) : Fetched s := fun hw => absurd hw.state h

theorem fetched_fetch (b : BitVec 2) (t : State k) (hv : t.wayVicFf = s.wayVicFf)
    (ha : t.vicAddrFf = s.vicAddrFf) (hm : t.ram = fetchRam s i b) (hb : b = t.wcnt) :
    Fetched t := by
  intro _ _ w hw
  rw [hv] at hw
  rw [hm, fetchRam_rdata b hw, ha, ← hb, contents, contents, hm, fetchRam_word]

theorem Idle.fetched_next (h : Idle s) (i : In) : Fetched (Dcache.next s i) := by
  intro hw he
  have hs := hw.state
  cases hq : Dcache.reqVld s i with
  | false =>
    rw [h.next_quiet hq] at hs
    exact absurd (hs.symm.trans h.state) (by decide)
  | true =>
    cases hh : anyWay (wayHit s i.addr) with
    | true =>
      rw [h.next_hit hq hh] at hs
      exact absurd (hs.symm.trans h.state) (by decide)
    | false =>
      rw [h.next_miss hq hh] at hs he
      cases hv : vicDry s i.addr with
      | true =>
        rw [hv] at he
        cases he
      | false =>
        simp only [hv] at hs
        exact absurd hs (by decide)

theorem WritingBack.fetched_next (h : WritingBack s) (hf : Fetched s) (i : In) :
    Fetched (Dcache.next s i) := by
  cases he : s.wbusEnFf with
  | true =>
    have hb : s.rramCnt = s.wcnt := by
      rcases h.beat with hb | hb
      · rw [hb.2.2.1, hb.2.2.2]
      · rw [he] at hb
        cases hb.1
    have hn := h.next_first (i := i) he
    exact fetched_fetch (s := s) (i := i) s.rramCnt _ (by rw [hn]) (by rw [hn])
      (by rw [hn]; rfl) (by rw [hn, hb])
  | false =>
    cases hr : i.abrReady with
    | false => rwa [h.next_wait he hr]
    | true =>
      by_cases hc : s.wcnt = 3
      · refine fetched_of_state ?_
        rw [h.next_last he hr hc]
        exact rbus_ne_wbus
      · have hn := h.next_beat he hr hc
        exact fetched_fetch (s := s) (i := i) s.rramCnt _ (by rw [hn]) (by rw [hn])
          (by rw [hn]; rfl) (by rw [hn, h.rramCnt he])

theorem Refilling.fetched_next (h : Refilling s) (i : In) : Fetched (Dcache.next s i) := by
  apply fetched_of_state
  cases hr : i.abrReady with
  | false =>
    rw [h.next_wait hr, h.state]
    decide
  | true =>
    by_cases hc : s.rcnt = 3
    · rw [h.next_last hr hc]
      exact norm_ne_wbus
    · rw [h.next_beat hr hc]
      exact h.state ▸ rbus_ne_wbus

theorem Control.fetched_next (h : Control s) (hf : Fetched s) (i : In) :
    Fetched (Dcache.next s i) := by
  rcases h with h | h | h
  · exact h.fetched_next i
  · exact h.fetched_next hf i
  · exact h.fetched_next i

theorem Control.next_wait (h : Control s) (hv : abrValid s = true) (hr : i.abrReady = false) :
    Dcache.next s i = s := by
  rcases h with h | h | h
  · simp [abrValid, h.isWbus, h.rbusVld] at hv
  · have he : s.wbusEnFf = false := by
      rcases h.beat with hb | hb
      · simp [abrValid, h.isWbus, hb.2.1] at hv
      · exact hb.1
    exact h.next_wait he hr
  · exact h.next_wait hr

/-- A cache back in its first state has put its counters back and has nothing to come. -/
theorem Control.settled (h : Control s) (hn : stateIsNorm s = true) :
    s.wcnt = 0 ∧ s.rramCnt = 0 ∧ s.rcnt = 0 ∧ Dcache.toCome s = [] := by
  rcases h with h | h | h
  · exact ⟨h.wcnt, h.rramCnt, h.rcnt, h.toCome⟩
  · rw [h.isNorm] at hn
    cases hn
  · rw [h.isNorm] at hn
    cases hn

end Step

/-- No line is dirty, and nothing is on its way to memory. -/
structure Clean (s : State k) : Prop where
  dry : ∀ w j, s.dryArry w j = false
  wenFf : s.wenFf = false
  state : stateIsWbus s = false

theorem Clean.next {s : State k} {i : In} (h : Clean s)
    (hw : reqVld s i = true → i.wen = false) : Clean (next s i) := by
  have hr : reqW s i = false := by
    rw [reqW]
    cases hq : reqVld s i with
    | false => rfl
    | true => rw [hw hq]; rfl
  have hv : wbusEn s i = false := by simp [wbusEn, vicDry, anyWay, wayDry, h.dry]
  refine ⟨fun w j => ?_, ?_, ?_⟩
  · simp [Dcache.next, signArryUpEn1, hr, h.wenFf, h.dry]
  · change reg false false (reqMiss s i) i.wen s.wenFf = false
    cases hm : reqMiss s i with
    | false => exact h.wenFf
    | true =>
      refine hw ?_
      rw [reqMiss, Bool.and_eq_true] at hm
      exact hm.1
  · have hn : stateNs s i ≠ wbus := by
      rw [stateNs, hv]
      cases normEn s i <;> cases rbusEn s i <;> decide
    change (reg false 0 (stateEn s i) (stateNs s i) s.state == wbus) = false
    cases stateEn s i with
    | false => exact h.state
    | true => simpa [reg] using hn

section Runs
variable (s : State k) (i : Nat → In)

/-- What the requests called for has been made, but for what is still to come. -/
theorem called_eq (n : Nat) : (machine k).trace calledFor s.reset i n =
    (machine k).trace transfer s.reset i n ++ toCome ((machine k).run s.reset i n) :=
  (machine k).ledger (P := fun s => Control s ∧ Fetched s) (C := fun _ _ => True)
    ⟨control_reset s, fetched_of_state norm_ne_wbus⟩ rfl
    (fun _ a _ h => ⟨h.1.next a, h.1.fetched_next h.2 a⟩)
    (fun _ a _ h => h.1.balance h.2 a) (fun _ _ => trivial)

theorem clean_run (hw : ∀ n, reqVld ((machine k).run s.reset i n) (i n) = true →
    (i n).wen = false) (n : Nat) : Clean ((machine k).run s.reset i n) :=
  (machine k).run_induction (C := fun s a => reqVld s a = true → a.wen = false)
    ⟨fun _ _ => rfl, rfl, rfl⟩ (fun _ _ hC h => h.next hC) (fun n _ => hw n)

/-- From reset, under any requests, any back-pressure and any bus: the transfers made are those
called for, in order; whenever the cache is ready all of them have been made and the counters are
back at zero; a transfer that is not taken stays as it is; under a bus that is ready again and
again every transfer called for is made; and a cache that is never written never writes. -/
theorem bus_traffic_exact (s : State k) (i : Nat → In) :
    let r := (machine k).run s.reset i
    let called := (machine k).trace calledFor s.reset i
    let made := (machine k).trace transfer s.reset i
    (∀ n, made n <+: called n) ∧
    (∀ n, memReqRdy (r n) (i n).rspRdy = true →
      made n = called n ∧ (r n).wcnt = 0 ∧ (r n).rramCnt = 0 ∧ (r n).rcnt = 0) ∧
    (∀ n, abrValid (r n) = true → (i n).abrReady = false →
      abrValid (r (n + 1)) = true ∧ abrAddr (r (n + 1)) = abrAddr (r n) ∧
      abrWen (r (n + 1)) = abrWen (r n) ∧ abrWdata (r (n + 1)) = abrWdata (r n)) ∧
    (Clocked.Often (fun n => (i n).abrReady = true) → ∀ n, ∃ m, n ≤ m ∧ called n <+: made m) ∧
    ((∀ n, reqVld (r n) (i n) = true → (i n).wen = false) →
      ∀ n, ∀ b ∈ made n, b.isRead = true) := by
  intro r called made
  have heq : ∀ n, called n = made n ++ toCome (r n) := called_eq s i
  have hset : ∀ n, stateIsNorm (r n) = true → made n = called n := by
    intro n hn
    rw [heq n, ((control_run s i n).settled hn).2.2.2, List.append_nil]
  refine ⟨fun n => ?_, fun n hr => ?_, fun n hv hr => ?_, fun hf n => ?_, fun hw n b hb => ?_⟩
  · rw [heq n]
    exact List.prefix_append _ _
  · have hn : stateIsNorm (r n) = true := by
      rw [memReqRdy, Bool.and_eq_true] at hr
      exact hr.1
    obtain ⟨h1, h2, h3, -⟩ := (control_run s i n).settled hn
    exact ⟨hset n hn, h1, h2, h3⟩
  · have hs : r (n + 1) = r n := (control_run s i n).next_wait hv hr
    rw [hs]
    exact ⟨hv, rfl, rfl, rfl⟩
  · obtain ⟨m, hm, hn, -⟩ := completes s hf n
    refine ⟨m, hm, ?_⟩
    rw [hset m hn]
    exact Clocked.Machine.trace_mono hm
  · obtain ⟨j, -, hj⟩ := Clocked.Machine.mem_trace.mp hb
    have hc : abrWen (r j) = false := (clean_run s i hw j).state
    change b ∈ transfer (r j) (i j) at hj
    rw [transfer, hc] at hj
    split at hj
    · rw [List.mem_singleton.mp hj]
      rfl
    · cases hj

end Runs

end Rv64imCore.Dcache

namespace Rv64imCore.Top
set_option autoImplicit true

/-- The I-cache of the top never writes to the bus. -/
theorem icache_only_reads (s : State) (i : Nat → In) (n : Nat) :
    Dcache.abrWen (machine.run s.reset i n).icache = false := by
  have h : Dcache.Clean (machine.run s.reset i n).icache :=
    machine.run_invariant (P := fun s => Dcache.Clean s.icache)
      ⟨fun _ _ => rfl, rfl, rfl⟩ (fun s a h => h.next fun _ => rfl) n
  exact h.state

end Rv64imCore.Top
