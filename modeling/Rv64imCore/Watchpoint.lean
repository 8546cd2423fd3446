import Mathlib.Data.List.FinRange
import Rv64imCore.Linked

/-! The watchpoint pool of the debugger: `watchpoint.cpp`, and `cmd_d` of `sdb.cpp`. -/

namespace Rv64imCore.Sdb
set_option autoImplicit true

open Linked

/-- A node of `wp_pool`; a pointer into the pool is the index of a node. -/
structure WP where
  no : Int
  next : Option (Fin 32)
  string : Option (List Char)
  value : BitVec 64

structure Pool where
  wpPool : Fin 32 → WP
  head : Option (Fin 32)
  free : Option (Fin 32)

/-- What stops the debugger: a failed assertion, a null pointer followed, a walk that never ends. -/
inductive Fault where
  | assertion
  | nullDeref
  | endless
  deriving DecidableEq

namespace Pool

def next (p : Pool) (i : Fin 32) : Option (Fin 32) := (p.wpPool i).next
def no (p : Pool) (i : Fin 32) : Int := (p.wpPool i).no

def setNext (p : Pool) (i : Fin 32) (q : Option (Fin 32)) : Pool :=
  { p with wpPool := Function.update p.wpPool i { p.wpPool i with next := q } }

@[simp] theorem next_setNext (p : Pool) (i : Fin 32) (q : Option (Fin 32)) :
    (p.setNext i q).next = Function.update p.next i q := by
  funext j
  by_cases h : j = i
  · subst h; simp [next, setNext]
  · simp [next, setNext, h]

@[simp] theorem no_setNext (p : Pool) (i : Fin 32) (q : Option (Fin 32)) :
    (p.setNext i q).no = p.no := by
  funext j
  by_cases h : j = i
  · subst h; simp [no, setNext]
  · simp [no, setNext, h]

@[simp] theorem head_setNext (p : Pool) (i : Fin 32) (q : Option (Fin 32)) :
    (p.setNext i q).head = p.head := rfl

@[simp] theorem free_setNext (p : Pool) (i : Fin 32) (q : Option (Fin 32)) :
    (p.setNext i q).free = p.free := rfl

def deref : Option (Fin 32) → Except Fault (Fin 32)
  | some i => .ok i
  | none => .error .nullDeref

end Pool

open Pool

def initWpPool : Pool where
  wpPool i :=
    { no := i.val, next := if h : i.val + 1 < 32 then some ⟨i.val + 1, h⟩ else none
      string := none, value := 0 }
  head := none
  free := some ⟨0, by decide⟩

def newWp (p : Pool) : Except Fault (Fin 32 × Pool) :=
  match p.free with
  | none => .error .assertion
  | some tmp => .ok (tmp, { p.setNext tmp p.head with head := some tmp, free := p.next tmp })

/-- The loop of `free_wp`, with `p2` one node behind `p1`. A walk over more nodes than there are
comes back to one of them and never ends. -/
def walk (p : Pool) (no : Int) : Nat → Fin 32 → Fin 32 → Except Fault (Fin 32 × Fin 32)
  | 0, _, _ => .error .endless
  | n + 1, p2, p1 =>
    if p.no p1 = no then .ok (p2, p1)
    else match p.next p1 with
      | none => .error .nullDeref
      | some q => walk p no n p1 q

/-- The node off the active list, and the pool without it. -/
def unlink (p : Pool) (wp : Fin 32) : Except Fault (Fin 32 × Pool) := do
  let h ← deref p.head
  if p.no h = p.no wp then .ok (h, { p with head := p.next h })
  else
    let (p2, p1) ← walk p (p.no wp) 32 h h
    .ok (p1, p.setNext p2 (p.next p1))

def freeWp (p : Pool) (wp : Fin 32) : Except Fault Pool := do
  let (p1, p) ← unlink p wp
  let f ← deref p.free
  -- the node goes in front of `free_->next`, not of `free_`
  .ok { p.setNext p1 (p.next f) with free := some p1 }

/-- The loop of `cmd_d`. -/
def search (p : Pool) (a : Int) : Nat → Option (Fin 32) → Except Fault (Option (Fin 32))
  | 0, _ => .error .endless
  | _ + 1, none => .ok none
  | n + 1, some ptr => if p.no ptr = a then .ok (some ptr) else search p a n (p.next ptr)

def cmdD (p : Pool) (a : Int) : Except Fault Pool := do
  match ← search p a 33 p.head with
  | some ptr => freeWp p ptr
  | none => .ok p

/-- The node is on the active list. -/
def Pool.Active (p : Pool) (i : Fin 32) : Prop := ∃ l, Chain p.next p.head l ∧ i ∈ l

/-- The two lists hold every node once. -/
def Pool.Holds (p : Pool) (act fr : List (Fin 32)) : Prop :=
  Chain p.next p.head act ∧ Chain p.next p.free fr ∧ (act ++ fr).Perm (List.finRange 32)

def Pool.Conserved (p : Pool) : Prop := ∃ act fr, p.Holds act fr

/-- Every node has its own number. -/
def Pool.Numbered (p : Pool) : Prop := ∀ i : Fin 32, p.no i = i.val

theorem initWpPool_holds : initWpPool.Holds [] (List.finRange 32) := by
  refine ⟨rfl, ?_, List.Perm.refl _⟩
  have h (n : Nat) : ∀ k (hk : k + n = 32), Chain initWpPool.next
      (if h : k < 32 then some ⟨k, h⟩ else none) ((List.finRange 32).drop k) := by
    induction n with
    | zero =>
      rintro k rfl
      rfl
    | succ n ih =>
      intro k hk
      have hlt : k < 32 := by omega
      rw [dif_pos hlt, List.drop_eq_getElem_cons (by simpa using hlt), List.getElem_finRange]
      exact ⟨rfl, ih (k + 1) (by omega)⟩
  exact h 32 0 rfl

theorem initWpPool_numbered : initWpPool.Numbered := fun _ => rfl

section Holds
variable {p : Pool}

theorem Pool.Holds.length (h : p.Holds act fr) : act.length + fr.length = 32 := by
  rw [← List.length_append, h.2.2.length_eq, List.length_finRange]

theorem Pool.Holds.nodup (h : p.Holds act fr) : (act ++ fr).Nodup :=
  h.2.2.nodup_iff.mpr (List.nodup_finRange 32)

theorem Pool.Numbered.no_eq (hn : p.Numbered) {i j : Fin 32} : p.no i = p.no j ↔ i = j := by
  rw [hn i, hn j, Int.natCast_inj, Fin.val_inj]

theorem newWp_holds (h : p.Holds act (i :: fr)) :
    ∃ p', newWp p = .ok (i, p') ∧ p'.Holds (i :: act) fr ∧ p'.no = p.no := by
  have hd := h.nodup
  have hi : i ∉ act ∧ i ∉ fr := by
    have hm := (List.nodup_middle.mp hd)
    rw [List.nodup_cons, List.mem_append, not_or] at hm
    exact hm.1
  obtain ⟨ha, ⟨hf, hfr⟩, hp⟩ := h
  refine ⟨{ p.setNext i p.head with head := some i, free := p.next i }, ?_, ⟨?_, ?_, ?_⟩, ?_⟩
  · simp only [newWp, hf]
  · have hc := ha.push hi.1
    rw [← next_setNext] at hc
    exact hc
  · have hc := hfr.update hi.2 p.head
    rw [← next_setNext] at hc
    exact hc
  · exact List.perm_middle.symm.trans hp
  · exact no_setNext p i p.head

theorem newWp_full (h : p.Holds act []) : newWp p = .error .assertion ∧ act.length = 32 :=
  ⟨by simp only [newWp, show p.free = none from h.2.1], h.length⟩

theorem walk_spec (hn : p.Numbered) (h : Chain p.next (some q) (l ++ j :: i :: r))
    (hd : (l ++ j :: i :: r).Nodup) (hl : l.length + 2 ≤ n) (q' : Fin 32) :
    walk p (p.no i) n q' q = .ok (j, i) := by
  induction l generalizing n q q' with
  | nil =>
    obtain ⟨hq, hj, -⟩ := h
    cases hq
    have hji : j ≠ i := by
      rintro rfl
      exact (List.nodup_cons.mp hd).1 List.mem_cons_self
    obtain ⟨n, rfl⟩ : ∃ m, n = m + 2 := ⟨n - 2, by simp at hl; omega⟩
    simp only [walk, if_neg (mt hn.no_eq.mp hji), hj, if_true]
  | cons k l ih =>
    obtain ⟨hq, hk⟩ := h
    cases hq
    obtain ⟨hkl, hd⟩ := List.nodup_cons.mp hd
    have hki : k ≠ i := by
      rintro rfl
      exact hkl (List.mem_append_right l (List.mem_cons_of_mem j List.mem_cons_self))
    obtain ⟨n, rfl⟩ : ∃ m, n = m + 1 := ⟨n - 1, by simp at hl; omega⟩
    obtain ⟨q'', hq''⟩ : ∃ q'', p.next k = some q'' := by
      rw [hk.head?]
      cases l with
      | nil => exact ⟨j, rfl⟩
      | cons x l => exact ⟨x, rfl⟩
    rw [walk, if_neg (mt hn.no_eq.mp hki), hq'']
    exact ih (hq'' ▸ hk) hd (by simp at hl; omega) k

theorem unlink_spec (hn : p.Numbered) (h : p.Holds (l ++ i :: r) fr) :
    ∃ p', unlink p i = .ok (i, p') ∧ Chain p'.next p'.head (l ++ r) ∧ Chain p'.next p'.free fr ∧
      p'.no = p.no := by
  have hd := h.nodup
  have hda : (l ++ i :: r).Nodup := hd.of_append_left
  have hlen := h.length
  obtain ⟨ha, hf, -⟩ := h
  rcases List.eq_nil_or_concat l with rfl | ⟨l, j, rfl⟩
  · obtain ⟨hh, hr⟩ := ha
    refine ⟨{ p with head := p.next i }, ?_, hr, hf, rfl⟩
    rw [unlink, hh]
    exact if_pos rfl
  · rw [List.concat_eq_append, List.append_assoc, List.singleton_append] at *
    obtain ⟨k, hk, hkl⟩ : ∃ k, p.head = some k ∧ k ∈ l ++ [j] := by
      rw [ha.head?]
      cases l with
      | nil => exact ⟨j, rfl, List.mem_cons_self⟩
      | cons x l => exact ⟨x, rfl, List.mem_cons_self⟩
    have hki : k ≠ i := by
      rintro rfl
      have hd' : (l ++ [j] ++ k :: r).Nodup := by simpa using hda
      exact List.disjoint_of_nodup_append hd' hkl List.mem_cons_self
    have hjf : j ∉ fr := by
      intro hm
      have hjl : j ∈ l ++ [j] := List.mem_append_right l List.mem_cons_self
      exact List.disjoint_of_nodup_append hd hjl (List.mem_append_right (i :: r) hm)
    have hw := walk_spec (n := 32) hn (hk ▸ ha) hda (by simp at hlen; omega) k
    refine ⟨p.setNext j (p.next i), ?_, ?_, ?_, no_setNext ..⟩
    · rw [unlink, hk]
      change (if p.no k = p.no i then _ else walk p (p.no i) 32 k k >>= _) = _
      rw [if_neg (mt hn.no_eq.mp hki), hw]
      rfl
    · rw [next_setNext, head_setNext]
      exact ha.unlink hda
    · rw [next_setNext, free_setNext]
      exact hf.update hjf (p.next i)

/-- With all nodes active `free_wp` follows a null pointer. -/
theorem freeWp_full (hn : p.Numbered) (h : p.Holds (l ++ i :: r) []) :
    freeWp p i = .error .nullDeref := by
  obtain ⟨p', hu, -, hf, -⟩ := unlink_spec hn h
  have hf : p'.free = none := hf
  rw [freeWp, hu]
  change (deref p'.free >>= _) = _
  rw [hf]
  rfl

/-- The released node takes the place of the first free node, which is on neither list any more. -/
theorem freeWp_links (hn : p.Numbered) (h : p.Holds (l ++ i :: r) (f :: fr)) :
    ∃ p', freeWp p i = .ok p' ∧ Chain p'.next p'.head (l ++ r) ∧
      Chain p'.next p'.free (i :: fr) := by
  obtain ⟨p', hu, ha, ⟨hf, hfr⟩, -⟩ := unlink_spec hn h
  have hd := h.nodup
  have hi : i ∉ l ++ r ∧ i ∉ fr := by
    rw [List.append_assoc, List.cons_append, List.nodup_middle, List.nodup_cons] at hd
    simp only [List.mem_append, List.mem_cons, not_or] at hd ⊢
    exact ⟨⟨hd.1.1, hd.1.2.1⟩, hd.1.2.2.2⟩
  refine ⟨{ p'.setNext i (p'.next f) with free := some i }, ?_, ?_, ?_⟩
  · rw [freeWp, hu]
    change (deref p'.free >>= _) = _
    rw [hf]
    rfl
  · have hc := ha.update hi.1 (p'.next f)
    rw [← next_setNext] at hc
    exact hc
  · have hc := hfr.push hi.2
    rw [← next_setNext] at hc
    exact hc

theorem freeWp_loses (hn : p.Numbered) (h : p.Holds act fr) (hi : i ∈ act)
    (hok : freeWp p i = .ok p') : ¬p'.Conserved := by
  rintro ⟨act', fr', h'⟩
  obtain ⟨l, r, rfl⟩ := List.append_of_mem hi
  have hlen := h.length
  have hlen' := h'.length
  cases fr with
  | nil => rw [freeWp_full hn h] at hok; cases hok
  | cons f fr =>
    obtain ⟨p'', hok', ha, hf⟩ := freeWp_links hn h
    obtain rfl : p'' = p' := Except.ok.inj (hok'.symm.trans hok)
    rw [h'.1.unique ha, h'.2.1.unique hf] at hlen'
    simp only [List.length_append, List.length_cons] at hlen hlen'
    omega

end Holds

/-- `cmd_d` releases the active watchpoint of the number it is given, if there is one. -/
theorem cmdD_eq (h : p.Conserved) (a : Int) :
    cmdD p a = .ok p ∨ ∃ i, p.Active i ∧ p.no i = a ∧ cmdD p a = freeWp p i := by
  obtain ⟨act, fr, h⟩ := h
  have hs : ∀ l n q, Chain p.next q l → l.length < n →
      search p a n q = .ok none ∨ ∃ i ∈ l, p.no i = a ∧ search p a n q = .ok (some i) := by
    intro l
    induction l with
    | nil =>
      rintro (_ | n) q hq hl
      · cases hl
      · exact .inl (by rw [show q = none from hq, search])
    | cons i l ih =>
      rintro (_ | n) q ⟨rfl, hq⟩ hl
      · cases hl
      · by_cases ha : p.no i = a
        · exact .inr ⟨i, List.mem_cons_self, ha, by rw [search, if_pos ha]⟩
        · rw [search, if_neg ha]
          rcases ih n _ hq (Nat.lt_of_succ_lt_succ hl) with hr | ⟨j, hj, hja, hr⟩
          · exact .inl hr
          · exact .inr ⟨j, List.mem_cons_of_mem i hj, hja, hr⟩
  have hlen := h.length
  rcases hs act 33 p.head h.1 (by omega) with hr | ⟨i, hi, ha, hr⟩
  · exact .inl (by rw [cmdD, hr]; rfl)
  · exact .inr ⟨i, ⟨act, h.1, hi⟩, ha, by rw [cmdD, hr]; rfl⟩

inductive Call where
  | newWp
  | freeWp (wp : Fin 32)
  deriving DecidableEq

def Pool.call (p : Pool) : Call → Except Fault Pool
  | .newWp => (newWp p).map Prod.snd
  | .freeWp wp => freeWp p wp

/-- `free_wp` is given active watchpoints, and a fault ends the sequence. -/
def Admissible (p : Pool) : List Call → Prop
  | [] => True
  | c :: cs => (∀ i, c = .freeWp i → p.Active i) ∧
      match p.call c with
      | .ok p' => Admissible p' cs
      | .error _ => cs = []

/-- Every pool reached has its nodes on the two lists, and the only fault is that of a `new_wp` with
32 watchpoints active. -/
def Conserves (p : Pool) : List Call → Prop
  | [] => p.Conserved
  | c :: cs => p.Conserved ∧
      match p.call c with
      | .ok p' => Conserves p' cs
      | .error _ => c = .newWp ∧ ∃ l, Chain p.next p.head l ∧ l.length = 32

theorem Conserves.first (h : Conserves p cs) : p.Conserved := by
  cases cs with
  | nil => exact h
  | cons c cs => exact h.1

theorem conserves_iff (hn : p.Numbered) (hp : p.Conserved) (ha : Admissible p cs) :
    Conserves p cs ↔ ∀ i, Call.freeWp i ∉ cs := by
  induction cs generalizing p with
  | nil => simpa [Conserves] using hp
  | cons c cs ih =>
    obtain ⟨act, fr, h⟩ := hp
    cases c with
    | newWp =>
      cases fr with
      | nil =>
        obtain ⟨he, hl⟩ := newWp_full h
        have hc : p.call .newWp = .error .assertion := by rw [Pool.call, he]; rfl
        obtain rfl : cs = [] := by simpa only [Admissible, hc] using ha.2
        simp only [Conserves, hc]
        simpa using ⟨⟨act, [], h⟩, act, h.1, hl⟩
      | cons i fr =>
        obtain ⟨p', hok, h', hno⟩ := newWp_holds h
        have hc : p.call .newWp = .ok p' := by rw [Pool.call, hok]; rfl
        have hn' : p'.Numbered := fun j => hno ▸ hn j
        have ha' : Admissible p' cs := by simpa only [Admissible, hc] using ha.2
        have hi := ih hn' ⟨_, _, h'⟩ ha'
        have hp : p.Conserved := ⟨act, i :: fr, h⟩
        simp only [Conserves, hc, hi]
        simp [hp]
    | freeWp i =>
      obtain ⟨l, hl, hi⟩ := ha.1 i rfl
      have hia : i ∈ act := h.1.unique hl ▸ hi
      refine ⟨fun hc => ?_, fun hc => absurd List.mem_cons_self (hc i)⟩
      obtain ⟨-, hc⟩ := hc
      cases hr : freeWp p i with
      | ok p' =>
        rw [show p.call (.freeWp i) = .ok p' from hr] at hc
        exact absurd hc.first (freeWp_loses hn h hia hr)
      | error f =>
        rw [show p.call (.freeWp i) = .error f from hr] at hc
        cases hc.1

/-- From `init_wp_pool` on, the pool keeps its nodes just as long as none is released. -/
theorem pool_conserved_iff (cs : List Call) (h : Admissible initWpPool cs) :
    Conserves initWpPool cs ↔ ∀ i, Call.freeWp i ∉ cs :=
  conserves_iff initWpPool_numbered ⟨_, _, initWpPool_holds⟩ h

/-- Two watchpoints set, then the older one deleted and a third one set. -/
def releaseOlder : List Call := [.newWp, .newWp, .freeWp ⟨0, by decide⟩, .newWp]

theorem pool_conserved_release :
    (Admissible initWpPool (releaseOlder.take 2) ∧ Conserves initWpPool (releaseOlder.take 2)) ∧
    Admissible initWpPool releaseOlder ∧ ¬Conserves initWpPool releaseOlder := by
  have ht : Admissible initWpPool (releaseOlder.take 2) :=
    ⟨fun _ hc => (by cases hc), fun _ hc => (by cases hc), trivial⟩
  have h : Admissible initWpPool releaseOlder := by
    refine ⟨fun _ hc => (by cases hc), fun _ hc => (by cases hc), fun j hj => ?_,
      fun _ hc => (by cases hc), trivial⟩
    cases hj
    refine ⟨[⟨1, by decide⟩, ⟨0, by decide⟩], ⟨rfl, ?_, ?_⟩, by decide⟩
    · decide
    · change _ = none
      decide
  refine ⟨⟨ht, (pool_conserved_iff _ ht).mpr (by simp [releaseOlder])⟩, h, fun hc => ?_⟩
  exact (pool_conserved_iff _ h).mp hc ⟨0, by decide⟩ (by decide)

/-- The first watchpoint set and deleted again. -/
theorem released_node_lost : ¬∀ cs, Admissible initWpPool cs → Conserves initWpPool cs := by
  intro h
  let i : Fin 32 := ⟨0, by decide⟩
  have ha : Admissible initWpPool [.newWp, .freeWp i] := by
    refine ⟨fun _ hc => (by cases hc), fun j hj => ?_, trivial⟩
    cases hj
    exact ⟨[i], ⟨rfl, rfl⟩, List.mem_cons_self⟩
  have hc := (conserves_iff initWpPool_numbered ⟨_, _, initWpPool_holds⟩ ha).mp (h _ ha)
  exact hc i (List.mem_cons_of_mem _ List.mem_cons_self)

end Rv64imCore.Sdb
