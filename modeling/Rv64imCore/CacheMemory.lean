import Rv64imCore.CacheLines

/-! The cache of the top is a memory: what its lines and the backing memory hold together. -/

namespace Rv64imCore.Dcache
set_option autoImplicit true
open WriteBack (Slots Coherent)

structure Access where
  wen : Bool
  addr : BitVec 32
  wdata : BitVec 64
  wmask : BitVec 8
  deriving DecidableEq

/-- What a request does to a flat byte memory. -/
def Access.apply (m : Bytes.Mem 29) (a : Access) : Bytes.Mem 29 :=
  if a.wen then m.store (wordOf a.addr) a.wmask a.wdata else m

/-- A flat byte memory after the requests, in order. -/
def flat (m : Bytes.Mem 29) (as : List Access) : Bytes.Mem 29 := as.foldl Access.apply m

theorem flat_concat (m : Bytes.Mem 29) (as : List Access) (a : Access) :
    flat m (as ++ [a]) = a.apply (flat m as) := by
  simp [flat]

def words (m : Bytes.Mem 29) (l : Line) (b : BitVec 2) : BitVec 64 := m.read (wordAt l b)

theorem words_store (m : Bytes.Mem 29) (l : Line) (b : BitVec 2) (bm : BitVec 8) (d : BitVec 64) :
    words (m.store (wordAt l b) bm d) l b = Bytes.merge bm d (words m l b) :=
  Bytes.Mem.read_store_same ..

theorem words_store_ne (m : Bytes.Mem 29) {l l' : Line} {b b' : BitVec 2}
    (h : ¬(l' = l ∧ b' = b)) (bm : BitVec 8) (d : BitVec 64) :
    words (m.store (wordAt l b) bm d) l' b' = words m l' b' :=
  Bytes.Mem.read_store_ne _ (fun h' => h (wordAt_inj h')) ..

theorem Access.apply_load {a : Access} (h : a.wen = false) (m : Bytes.Mem 29) : a.apply m = m := by
  simp [Access.apply, h]

theorem words_apply (a : Access) (m : Bytes.Mem 29) (b : BitVec 2) :
    words (a.apply m) (lineOf a.addr) b =
      if a.wen && b == bankOf a.addr then Bytes.merge a.wmask a.wdata (words m (lineOf a.addr) b)
      else words m (lineOf a.addr) b := by
  cases hw : a.wen with
  | false => simp [Access.apply_load hw]
  | true =>
    simp only [Access.apply, hw, if_true, wordOf_eq, Bool.true_and, beq_iff_eq]
    by_cases hb : b = bankOf a.addr
    · rw [if_pos hb, hb, words_store]
    · rw [if_neg hb, words_store_ne _ fun h => hb h.2]

theorem words_apply_ne (a : Access) (m : Bytes.Mem 29) {l : Line} (h : l ≠ lineOf a.addr)
    (b : BitVec 2) : words (a.apply m) l b = words m l b := by
  cases hw : a.wen with
  | false => rw [Access.apply_load hw]
  | true =>
    simp only [Access.apply, hw, if_true, wordOf_eq]
    exact words_store_ne _ (fun h' => h h'.1) ..

/-- The slot `(w, j)` is way `w` of set `j`. -/
def slots (s : State 6) : Slots (Fin 4 × BitVec 6) Line (BitVec 2) (BitVec 64) where
  valid := fun x => s.vldArry x.1 x.2 = true
  line := fun x => (s.tagArry x.1 x.2, x.2)
  dirty := fun x => s.dryArry x.1 x.2 = true
  word := fun x b => Ram.word (s.ram x.1) x.2 b

/-- The cache and the backing memory `m` hold the flat memory `f`. -/
def Holds (s : State 6) (m f : Bytes.Mem 29) : Prop :=
  Coherent (slots s) (words m) (words f) fun _ => False

theorem Holds.reset (s : State 6) (m : Bytes.Mem 29) : Holds s.reset m m :=
  Coherent.empty fun _ h => Bool.noConfusion h

theorem wayHit_iff {s : State 6} {a : BitVec 32} {w : Fin 4} : wayHit s a w = true ↔
    (slots s).valid (w, idxOf 6 a) ∧ (slots s).line (w, idxOf 6 a) = lineOf a := by
  simp only [wayHit, wayVld, Bool.and_eq_true, beq_iff_eq, slots, lineOf, Prod.mk.injEq, and_true]
  exact and_comm

theorem exists_of_anyWay {f : Fin 4 → Bool} (h : anyWay f = true) : ∃ w, f w = true := by
  simp only [anyWay, Bool.or_eq_true] at h
  rcases h with ((h | h) | h) | h
  · exact ⟨3, h⟩
  · exact ⟨2, h⟩
  · exact ⟨1, h⟩
  · exact ⟨0, h⟩

theorem anyWay_of {f : Fin 4 → Bool} {w : Fin 4} (h : f w = true) : anyWay f = true := by
  rcases way_cases w with rfl | rfl | rfl | rfl <;> simp [anyWay, h]

theorem plruVic_onehot (p : BitVec 3) : ∃ v, plruVic p = fun w => w == v := by
  have h : ∀ p, ∃ v, ∀ w, plruVic p w = (w == v) := by decide
  obtain ⟨v, hv⟩ := h p
  exact ⟨v, funext hv⟩

theorem Holds.wayHit_onehot {s : State 6} (h : Holds s m f) {a : BitVec 32}
    (hh : anyWay (wayHit s a) = true) : ∃ w, wayHit s a = fun x => x == w := by
  obtain ⟨w, hw⟩ := exists_of_anyWay hh
  refine ⟨w, funext fun x => ?_⟩
  by_cases hx : x = w
  · rw [hx, hw]; simp
  · have : wayHit s a x = false := by
      rw [Bool.eq_false_iff]
      intro hx'
      rw [wayHit_iff] at hw hx'
      have := h.distinct _ _ hx'.1 hw.1 (hx'.2.trans hw.2.symm)
      exact hx (congrArg Prod.fst this)
    rw [this]; simp [hx]

/-- The request a cycle presents. -/
def In.access (i : In) : Access :=
  { wen := i.wen, addr := i.addr, wdata := i.wdata, wmask := i.wmask }

/-- A response is being offered for request `a`, made when the flat memory was `f`. -/
structure Answering (s : State 6) (m f : Bytes.Mem 29) (a : Access) : Prop where
  idle : Idle s
  vldC1 : s.vldC1 = true
  holds : Holds s m (a.apply f)
  data : a.wen = false → memRdata s = f.read (wordOf a.addr)

section Hit
variable {s : State 6} {i : In}

theorem Holds.hit_word (h : Holds s m f) {w : Fin 4} (hw : wayHit s i.addr = fun x => x == w) :
    Ram.word (s.ram w) (idxOf 6 i.addr) (bankOf i.addr) = f.read (wordOf i.addr) := by
  have hh : wayHit s i.addr w = true := by simp [hw]
  rw [wayHit_iff] at hh
  rw [wordOf_eq, ← hh.2]
  exact h.words _ _ hh.1 fun h => h

theorem Holds.hit_load (h : Holds s m f) (hi : Idle s) (hq : reqVld s i = true)
    (hh : anyWay (wayHit s i.addr) = true) (hw : i.wen = false) :
    Holds (next s i) m f ∧ memRdata (next s i) = f.read (wordOf i.addr) := by
  obtain ⟨w, hws⟩ := h.wayHit_onehot hh
  rw [hi.next_hit hq hh, hw, BitVec.setWidth_eq]
  constructor
  · refine Coherent.frame h rfl rfl ?_ ?_
    · simp [slots]
    · intro x b _
      exact Ram.word_read ..
  · rw [← h.hit_word hws]
    simp only [memRdata, dataOfRam, hws]
    rw [if_neg (by decide), Ram.orWays_onehot]
    simp only [beq_self_eq_true, Ram.rdata_next]

theorem Holds.hit_store (h : Holds s m f) (hi : Idle s) (hq : reqVld s i = true)
    (hh : anyWay (wayHit s i.addr) = true) (hw : i.wen = true) :
    Holds (next s i) m (f.store (wordOf i.addr) i.wmask i.wdata) := by
  obtain ⟨w, hws⟩ := h.wayHit_onehot hh
  have hv : wayHit s i.addr w = true := by simp [hws]
  rw [wayHit_iff] at hv
  rw [hi.next_hit hq hh, hw, BitVec.setWidth_eq, wordOf_eq]
  refine Coherent.store h hv.1 (bankOf i.addr) _ rfl rfl ?_ ?_ rfl ?_ ?_ ?_
  · intro y hy
    simp only [slots] at hy ⊢
    by_cases hj : y.2 = idxOf 6 i.addr
    · simp [hj, ← hj ▸ hy]
    · simp [hj, hy]
  · simp [slots, hws]
  · intro y b hyb
    simp only [slots, hws, Ram.word_next]
    refine if_neg fun hc => hyb ?_
    simp only [Bool.and_eq_true, beq_iff_eq] at hc
    exact ⟨Prod.ext hc.1.1.1 hc.1.2, hc.2⟩
  · rw [hv.2, words_store]
    simp only [slots, hws, Ram.word_next]
    simp only [beq_self_eq_true, Bool.and_true, if_true, words, ← wordOf_eq, ← h.hit_word hws]
  · intro l b hlb
    exact words_store_ne _ (by rwa [hv.2] at hlb) ..

theorem Holds.hit (h : Holds s m f) (hi : Idle s) (hq : reqVld s i = true)
    (hh : anyWay (wayHit s i.addr) = true) : Answering (next s i) m f i.access where
  idle := by
    rw [hi.next_hit hq hh]
    exact { hi with done := fun _ => rfl }
  vldC1 := by rw [hi.next_hit hq hh]
  holds := by
    cases hw : i.wen with
    | false =>
      rw [Access.apply_load (show i.access.wen = false from hw)]
      exact (h.hit_load hi hq hh hw).1
    | true =>
      rw [Access.apply, show i.access.wen = true from hw, if_pos rfl]
      exact h.hit_store hi hq hh hw
  data := fun hw => (h.hit_load hi hq hh hw).2

end Hit

/-- The latched request `a`, which no way holds, and its victim `v`. -/
structure Missed (s : State 6) (a : Access) (v : Fin 4) : Prop where
  wen : s.wenFf = a.wen
  addr : s.addrFf = a.addr
  wmask : s.wmaskFf = a.wmask
  wdata : s.wdataFf = a.wdata
  victim : s.wayVicFf = fun w => w == v
  absent : ∀ y, (slots s).valid y → (slots s).line y ≠ lineOf a.addr

/-- The slot a miss of `a` replaces. -/
def Access.slot (a : Access) (v : Fin 4) : Fin 4 × BitVec 6 := (v, idxOf 6 a.addr)

/-- The victim is being written back: the words below `wcnt` are in the backing memory. -/
structure Cleaning (s : State 6) (m f : Bytes.Mem 29) (a : Access) (v : Fin 4) : Prop where
  phase : WritingBack s
  missed : Missed s a v
  holds : Holds s m f
  line : lineOf s.vicAddrFf = (slots s).line (a.slot v)
  valid : (slots s).valid (a.slot v)
  written : ∀ b, b.toNat < s.wcnt.toNat →
    words m ((slots s).line (a.slot v)) b = words f ((slots s).line (a.slot v)) b
  fetched : s.wbusEnFf = false → Ram.rdata (s.ram v) = (slots s).word (a.slot v) s.wcnt

/-- The line is being refilled: the words below `rcnt` are in the victim's place, the store of the
request already merged in. -/
structure Filling (s : State 6) (m f : Bytes.Mem 29) (a : Access) (v : Fin 4) : Prop where
  phase : Refilling s
  missed : Missed s a v
  holds : Coherent (slots s) (words m) (words f) fun y => y = a.slot v
  filled : ∀ b, b.toNat < s.rcnt.toNat →
    (slots s).word (a.slot v) b = words (a.apply f) (lineOf a.addr) b
  kept : a.wen = false → (bankOf a.addr).toNat < s.rcnt.toNat →
    s.dataOfBus = f.read (wordOf a.addr)

/-- Request `a` has been accepted and not yet answered. -/
inductive Serving (s : State 6) (m f : Bytes.Mem 29) (a : Access) : Prop
  | cleaning (v : Fin 4) (h : Cleaning s m f a v)
  | filling (v : Fin 4) (h : Filling s m f a v)
  | answering (h : Answering s m f a)

section Miss
variable {s : State 6} {i : In}

theorem missed_next (hi : Idle s) (hq : reqVld s i = true)
    (hh : anyWay (wayHit s i.addr) = false) (hv : wayVic s i.addr = fun w => w == v) :
    Missed (next s i) i.access v := by
  rw [hi.next_miss hq hh]
  refine ⟨rfl, rfl, rfl, rfl, hv, fun y hy hl => ?_⟩
  have hy₂ : y.2 = idxOf 6 i.addr := congrArg Prod.snd hl
  have hw : wayHit s i.addr y.1 = true := by
    rw [wayHit_iff, ← hy₂]
    exact ⟨hy, hl⟩
  rw [anyWay_of hw] at hh
  cases hh

theorem vicDry_onehot (hv : wayVic s a = fun w => w == v) :
    vicDry s a = (s.dryArry v (idxOf 6 a) && s.vldArry v (idxOf 6 a)) := by
  simp only [vicDry, hv, wayDry, wayVld, anyWay]
  rcases way_cases v with rfl | rfl | rfl | rfl <;> simp

theorem vicAddr_onehot (hv : wayVic s i.addr = fun w => w == v) :
    lineOf (vicAddr s i) = (slots s).line (i.access.slot v) := by
  rw [vicAddr, lineOf_append]
  simp only [vicTag, hv, Ram.orWays_onehot]
  rfl

theorem Holds.miss (h : Holds s m f) (hi : Idle s) (hq : reqVld s i = true)
    (hh : anyWay (wayHit s i.addr) = false) : Serving (next s i) m f i.access := by
  obtain ⟨v, hv⟩ := plruVic_onehot (s.plruArry (idxOf 6 i.addr))
  change wayVic s i.addr = _ at hv
  have hm := missed_next hi hq hh hv
  have hd := vicDry_onehot hv
  cases hvd : vicDry s i.addr with
  | true =>
    rw [hvd] at hd
    refine .cleaning v ⟨?_, hm, ?_, ?_, ?_, ?_, ?_⟩
    all_goals rw [hi.next_miss hq hh]
    · simp only [hvd]
      exact ⟨rfl, rfl, rfl, hi.rcnt, rfl, .inl ⟨rfl, hi.wbusVld, hi.wcnt, hi.rramCnt⟩⟩
    · exact h
    · exact vicAddr_onehot hv
    · exact (Bool.and_eq_true_iff.mp hd.symm).2
    · intro b hb
      simp only [hi.wcnt] at hb
      exact absurd hb (Nat.not_lt_zero _)
    · intro he
      simp only [hvd] at he
      cases he
  | false =>
    rw [hvd] at hd
    refine .filling v ⟨?_, hm, ?_, ?_, ?_⟩
    all_goals rw [hi.next_miss hq hh]
    · simp only [hvd]
      exact ⟨rfl, rfl, hi.wbusVld, rfl, hi.wcnt, hi.rramCnt, rfl, rfl⟩
    · refine Coherent.evict h _ fun hx hx' => ?_
      exact absurd (hd.trans (Bool.and_eq_true_iff.mpr ⟨hx', hx⟩)) (by decide)
    · intro b hb
      simp only [hi.rcnt] at hb
      exact absurd hb (Nat.not_lt_zero _)
    · intro _ hb
      simp only [hi.rcnt] at hb
      exact absurd hb (Nat.not_lt_zero _)

theorem Holds.accept (h : Holds s m f) (hi : Idle s) (hq : reqVld s i = true) :
    Serving (next s i) m f i.access := by
  cases hh : anyWay (wayHit s i.addr) with
  | true => exact .answering (h.hit hi hq hh)
  | false => exact h.miss hi hq hh

end Miss

/-! The backing memory: it takes or gives one word with every ready cycle of the bus. -/

def backing (s : State 6) (m : Bytes.Mem 29) (ready : Bool) : Bytes.Mem 29 :=
  if abrValid s && ready && abrWen s then m.store (wordOf (abrAddr s)) abrWmask (abrWdata s) else m

theorem lt_succ_cases {b c : BitVec 2} (h : b.toNat < (c + 1).toNat) :
    b.toNat < c.toNat ∨ b = c := by
  revert b c; decide

theorem lt_or_last (b : BitVec 2) : b.toNat < (3#2).toNat ∨ b = 3#2 := by
  revert b; decide

section WriteBack
variable {s : State 6} {i : In}

theorem WritingBack.backing_wait (h : WritingBack s) (m : Bytes.Mem 29)
    (hr : s.wbusVld = false ∨ i.abrReady = false) : backing s m i.abrReady = m := by
  rcases hr with hr | hr <;> simp [backing, abrValid, h.isWbus, hr]

/-- The word on the bus is the victim's word `wcnt`. -/
theorem Cleaning.backing_beat (h : Cleaning s m f a v) (he : s.wbusEnFf = false)
    (hr : i.abrReady = true) : backing s m i.abrReady =
      m.store (wordAt ((slots s).line (a.slot v)) s.wcnt) 0xff
        (words f ((slots s).line (a.slot v)) s.wcnt) := by
  have hd : abrWdata s = words f ((slots s).line (a.slot v)) s.wcnt := by
    rw [abrWdata, wbusData, h.missed.victim, Ram.orWays_onehot, h.fetched he]
    exact h.holds.words _ _ h.valid fun h => h
  rw [backing, abrValid, abrWen, abrAddr, h.phase.isWbus, hr, if_pos rfl, if_pos rfl,
    h.phase.wbusVld_of_en he, wbusAddr, wordAt_line, h.line, hd]
  rfl

theorem Cleaning.holds_beat (h : Cleaning s m f a v) (he : s.wbusEnFf = false)
    (hr : i.abrReady = true) : Holds s (backing s m i.abrReady) f := by
  rw [h.backing_beat he hr]
  refine Coherent.writeBack h.holds ((slots s).line (a.slot v)) s.wcnt ?_ ?_
  · rw [words_store, Bytes.merge_ones]
  · intro l b hlb
    exact words_store_ne _ hlb ..

theorem Cleaning.written_beat (h : Cleaning s m f a v) (he : s.wbusEnFf = false)
    (hr : i.abrReady = true) (hb : b.toNat < s.wcnt.toNat ∨ b = s.wcnt) :
    words (backing s m i.abrReady) ((slots s).line (a.slot v)) b =
      words f ((slots s).line (a.slot v)) b := by
  rw [h.backing_beat he hr]
  by_cases hc : b = s.wcnt
  · rw [hc, words_store, Bytes.merge_ones]
  · rw [words_store_ne _ fun h => hc h.2]
    exact h.written b (hb.resolve_right hc)

theorem Cleaning.idx (h : Cleaning s m f a v) :
    BitVec.setWidth 6 (idxOf 6 s.vicAddrFf) = (a.slot v).2 := by
  rw [BitVec.setWidth_eq]
  exact congrArg Prod.snd h.line

theorem Cleaning.fetch (h : Cleaning s m f a v) (b : BitVec 2) (bm : BitVec 8) (d : BitVec 64) :
    let r := fun w => Ram.next (s.ram w) (s.wayVicFf w) (BitVec.setWidth 6 (idxOf 6 s.vicAddrFf))
      (1#4 <<< b) false bm d
    (∀ w j c, Ram.word (r w) j c = Ram.word (s.ram w) j c) ∧
      Ram.rdata (r v) = (slots s).word (a.slot v) b := by
  refine ⟨fun w j c => Ram.word_read .., ?_⟩
  have hv : s.wayVicFf v = true := by simp [h.missed.victim]
  simp only [hv, Ram.rdata_next, h.idx]
  rfl

theorem Cleaning.next (h : Cleaning s m f a v) (i : In) :
    Serving (next s i) (backing s m i.abrReady) f a := by
  cases he : s.wbusEnFf with
  | true =>
    have hb : s.wbusVld = false ∧ s.wcnt = 0 ∧ s.rramCnt = 0 := by
      rcases h.phase.beat with hb | hb
      · exact hb.2
      · rw [hb.1] at he; cases he
    rw [h.phase.backing_wait m (.inl hb.1), h.phase.next_first he]
    obtain ⟨hf, hd⟩ := h.fetch s.rramCnt i.wmask i.wdata
    refine .cleaning v ⟨?_, { h.missed with }, ?_, h.line, h.valid, h.written, fun _ => ?_⟩
    · exact { h.phase with beat := .inr ⟨rfl, rfl, by simp [hb.2.1, hb.2.2]⟩ }
    · exact Coherent.frame h.holds rfl rfl rfl fun x b _ => hf x.1 x.2 b
    · have hc : s.rramCnt = s.wcnt := hb.2.2.trans hb.2.1.symm
      exact hd.trans ((congrArg _ hc).trans (hf _ _ _).symm)
  | false =>
    cases hr : i.abrReady with
    | false =>
      rw [← hr, h.phase.backing_wait m (.inr hr), h.phase.next_wait he hr]
      exact .cleaning v h
    | true =>
      have hw := fun b => h.written_beat (b := b) he hr
      have hh := h.holds_beat he hr
      rw [← hr]
      by_cases hc : s.wcnt = 3
      · rw [h.phase.next_last he hr hc]
        refine .filling v ⟨?_, { h.missed with }, ?_, ?_, ?_⟩
        · have hp := h.phase
          have hb : s.rramCnt = 0 := by
            rcases hp.beat with hb | hb
            · rw [hb.1] at he; cases he
            · rw [hb.2.2, hc]; rfl
          exact ⟨rfl, hp.vldC1, rfl, he, rfl, hb, rfl, hp.done⟩
        · refine Coherent.evict hh _ fun _ _ b => hw b ?_
          rw [hc]
          exact lt_or_last b
        · intro b hb
          simp only [h.phase.rcnt] at hb
          exact absurd hb (Nat.not_lt_zero _)
        · intro _ hb
          simp only [h.phase.rcnt] at hb
          exact absurd hb (Nat.not_lt_zero _)
      · rw [h.phase.next_beat he hr hc]
        obtain ⟨hf, hd⟩ := h.fetch s.rramCnt i.wmask i.wdata
        have hb : s.rramCnt = s.wcnt + 1 := by
          rcases h.phase.beat with hb | hb
          · rw [hb.1] at he; cases he
          · exact hb.2.2
        refine .cleaning v ⟨?_, { h.missed with }, ?_, h.line, h.valid, ?_, fun _ => ?_⟩
        · exact { h.phase with
            beat := .inr ⟨he, h.phase.wbusVld_of_en he, by rw [hb]⟩ }
        · exact Coherent.frame hh rfl rfl rfl fun x b _ => hf x.1 x.2 b
        · intro b hb
          exact hw b (lt_succ_cases hb)
        · exact hd.trans ((congrArg _ hb).trans (hf _ _ _).symm)

end WriteBack

section Refill
variable {s : State 6} {i : In}

theorem Refilling.backing (h : Refilling s) (m : Bytes.Mem 29) (r : Bool) :
    backing s m r = m := by
  simp [Dcache.backing, abrWen, h.isWbus]

/-- The word on the bus is the one of the flat memory: no line that counts holds it. -/
theorem Filling.rdata (h : Filling s m f a v) :
    m.read (wordOf (abrAddr s)) = words f (lineOf a.addr) s.rcnt := by
  rw [abrAddr, h.phase.isWbus, if_neg (by decide), rbusAddr, wordAt_line, h.missed.addr]
  exact h.holds.backing _ _ fun y hy _ hl => absurd hl (h.missed.absent y hy)

theorem Filling.rbusData (h : Filling s m f a v)
    (hd : i.abrRdata = words f (lineOf a.addr) s.rcnt) :
    rbusData s i = words (a.apply f) (lineOf a.addr) s.rcnt := by
  rw [words_apply, Dcache.rbusData, missWdata, bankOfMiss, h.missed.wen, h.missed.addr,
    h.missed.wmask, h.missed.wdata, hd]

theorem Filling.busWord (h : Filling s m f a v)
    (hd : i.abrRdata = words f (lineOf a.addr) s.rcnt) (hw : a.wen = false)
    (hb : (bankOf a.addr).toNat < s.rcnt.toNat ∨ bankOf a.addr = s.rcnt) :
    busWord s i = f.read (wordOf a.addr) := by
  rw [Dcache.busWord, bankOfMiss, h.missed.wen, h.missed.addr, hw]
  by_cases hc : bankOf a.addr = s.rcnt
  · rw [← hc, if_pos (by simp), hd, ← hc, wordOf_eq]
    rfl
  · rw [if_neg (by simpa using fun h' => hc h'.symm)]
    exact h.kept hw (hb.resolve_right hc)

/-- A refill beat writes word `rcnt` of the victim's slot and nothing else. -/
theorem Filling.refillRam (h : Filling s m f a v) (w : Fin 4) (j : BitVec 6) (b : BitVec 2) :
    Ram.word (refillRam s i w) j b =
      if (w, j) = a.slot v ∧ b = s.rcnt then Dcache.rbusData s i else Ram.word (s.ram w) j b := by
  rw [Dcache.refillRam, Ram.word_next, BitVec.setWidth_eq, idxFf, h.missed.victim, h.missed.addr,
    Bytes.merge_ones]
  simp only [Access.slot, Prod.mk.injEq, Bool.and_true, Bool.and_eq_true, beq_iff_eq, and_assoc]

theorem Filling.filled_beat (h : Filling s m f a v)
    (hd : i.abrRdata = words f (lineOf a.addr) s.rcnt)
    (hb : b.toNat < s.rcnt.toNat ∨ b = s.rcnt) :
    Ram.word (Dcache.refillRam s i v) (idxOf 6 a.addr) b =
      words (a.apply f) (lineOf a.addr) b := by
  rw [h.refillRam]
  by_cases hc : b = s.rcnt
  · rw [if_pos ⟨rfl, hc⟩, hc, h.rbusData hd]
  · rw [if_neg fun h' => hc h'.2]
    exact h.filled b (hb.resolve_right hc)

theorem Filling.frame_beat (h : Filling s m f a v) {x : Fin 4 × BitVec 6} (hx : x ≠ a.slot v)
    (b : BitVec 2) : Ram.word (Dcache.refillRam s i x.1) x.2 b = (slots s).word x b := by
  rw [h.refillRam, if_neg fun h' => hx h'.1]
  rfl

theorem Filling.beat (h : Filling s m f a v) (hr : i.abrReady = true) (hc : s.rcnt ≠ 3)
    (hd : i.abrRdata = words f (lineOf a.addr) s.rcnt) : Filling (next s i) m f a v := by
  rw [h.phase.next_beat hr hc]
  refine ⟨{ h.phase with }, { h.missed with }, ?_, ?_, ?_⟩
  · exact Coherent.frame h.holds rfl rfl rfl fun x b hx => h.frame_beat hx b
  · intro b hb
    exact h.filled_beat hd (lt_succ_cases hb)
  · intro hw hb
    exact h.busWord hd hw (lt_succ_cases hb)

theorem Filling.last (h : Filling s m f a v) (hr : i.abrReady = true) (hc : s.rcnt = 3)
    (hd : i.abrRdata = words f (lineOf a.addr) s.rcnt) : Answering (next s i) m f a := by
  have hlast : ∀ b : BitVec 2, b.toNat < s.rcnt.toNat ∨ b = s.rcnt := hc ▸ lt_or_last
  have hp := h.phase
  have hidx : idxFf s = idxOf 6 a.addr := by rw [idxFf, h.missed.addr]
  have htag : tagOf 6 s.addrFf = tagOf 6 a.addr := by rw [h.missed.addr]
  have hway : ∀ y : Fin 4 × BitVec 6, y.2 = idxOf 6 a.addr → y ≠ a.slot v → y.1 ≠ v :=
    fun y hy hne h' => hne (Prod.ext h' hy)
  rw [hp.next_last hr hc]
  refine ⟨?_, rfl, ?_, fun hw => h.busWord hd hw (hlast _)⟩
  · exact ⟨rfl, hp.wbusVld, hp.wbusEnFf, rfl, hp.wcnt, hp.rramCnt, rfl, fun _ => rfl⟩
  · refine Coherent.install h.holds (l := lineOf a.addr) h.missed.absent ?_ ?_ ?_ ?_ ?_ ?_ ?_ ?_ ?_
    · simp [slots, hidx, h.missed.victim, Access.slot]
    · intro y hy
      by_cases hj : y.2 = idxOf 6 a.addr
      · simp [slots, hidx, h.missed.victim, hj, hway y hj hy]
      · simp [slots, hidx, hj]
    · simp [slots, hidx, htag, h.missed.victim, Access.slot, lineOf]
    · intro y hy
      by_cases hj : y.2 = idxOf 6 a.addr
      · simp [slots, hidx, h.missed.victim, hj, hway y hj hy]
      · simp [slots, hidx, hj]
    · intro y hy hdy
      simp only [slots, hidx, h.missed.victim] at hdy ⊢
      by_cases hj : y.2 = idxOf 6 a.addr
      · simp [hj, ← hj ▸ hdy]
      · simp [hj, hdy]
    · intro b
      exact h.filled_beat hd (hlast b)
    · intro y b hy
      exact h.frame_beat hy b
    · intro hclean b
      have hw : a.wen = false := by
        rw [Bool.eq_false_iff]
        intro hw
        apply hclean
        simp [slots, hidx, h.missed.victim, h.missed.wen, hw, Access.slot]
      rw [Access.apply_load hw]
    · intro l b hl
      exact words_apply_ne a f hl b

theorem Filling.next (h : Filling s m f a v) (i : In)
    (hs : i.abrReady = true → i.abrRdata = m.read (wordOf (abrAddr s))) :
    Serving (Dcache.next s i) (Dcache.backing s m i.abrReady) f a := by
  rw [h.phase.backing]
  cases hr : i.abrReady with
  | false =>
    rw [h.phase.next_wait hr]
    exact .filling v h
  | true =>
    have hd := (hs hr).trans h.rdata
    by_cases hc : s.rcnt = 3
    · exact .answering (h.last hr hc hd)
    · exact .filling v (h.beat hr hc hd)

end Refill

end Rv64imCore.Dcache
