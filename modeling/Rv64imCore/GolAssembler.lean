import Rv64imCore.GolExec

/-! What `resolve` makes of a program: the words of every call, at the address of the call. -/

namespace Rv64imCore.Gol
set_option autoImplicit true

/-- A call of a method of `Asm`. -/
inductive Call (L : Type) where
  | label (n : L)
  | addi (rd rs : Reg) (imm : Int)
  | andi (rd rs : Reg) (imm : Int)
  | add (rd a b : Reg)
  | sub (rd a b : Reg)
  | xor (rd a b : Reg)
  | lbu (rd : Reg) (imm : Int) (rs : Reg)
  | sb (rs2 : Reg) (imm : Int) (rs1 : Reg)
  | sd (rs2 : Reg) (imm : Int) (rs1 : Reg)
  | csrrCycle (rd : Reg)
  | branch (kind : Kind) (a b : Reg) (label : L)
  | jal (rd : Reg) (label : L)
  | ret
  | li (rd : Reg) (val : Int)
  | mv (rd rs : Reg)

def Asm.call [DecidableEq L] (s : Asm L) : Call L → Asm L
  | .label n => s.label n
  | .addi rd rs imm => s.addi rd rs imm
  | .andi rd rs imm => s.andi rd rs imm
  | .add rd a b => s.add rd a b
  | .sub rd a b => s.sub rd a b
  | .xor rd a b => s.xor rd a b
  | .lbu rd imm rs => s.lbu rd imm rs
  | .sb rs2 imm rs1 => s.sb rs2 imm rs1
  | .sd rs2 imm rs1 => s.sd rs2 imm rs1
  | .csrrCycle rd => s.csrrCycle rd
  | .branch kind a b l => s.branch kind a b l
  | .jal rd l => s.jal rd l
  | .ret => s.ret
  | .li rd val => s.li rd val
  | .mv rd rs => s.mv rd rs

def Asm.calls [DecidableEq L] (s : Asm L) (cs : List (Call L)) : Asm L := cs.foldl Asm.call s

namespace Call

/-- The words that a call appends, before `resolve`. -/
def emitted : Call L → List Nat
  | label _ => []
  | addi rd rs imm => [itype imm (REG rs).toNat 0 (REG rd).toNat 0x13]
  | andi rd rs imm => [itype imm (REG rs).toNat 7 (REG rd).toNat 0x13]
  | add rd a b => [rtype 0 (REG b).toNat (REG a).toNat 0 (REG rd).toNat 0x33]
  | sub rd a b => [rtype 0x20 (REG b).toNat (REG a).toNat 0 (REG rd).toNat 0x33]
  | xor rd a b => [rtype 0 (REG b).toNat (REG a).toNat 4 (REG rd).toNat 0x33]
  | lbu rd imm rs => [itype imm (REG rs).toNat 4 (REG rd).toNat 0x03]
  | sb rs2 imm rs1 => [stype imm (REG rs2).toNat (REG rs1).toNat 0]
  | sd rs2 imm rs1 => [stype imm (REG rs2).toNat (REG rs1).toNat 3]
  | csrrCycle rd => [0xc00 <<< 20 ||| 0 <<< 15 ||| 2 <<< 12 ||| (REG rd).toNat <<< 7 ||| 0x73]
  | branch _ _ _ _ => [0]
  | jal _ _ => [0]
  | ret => [itype 0 (REG .ra).toNat 0 (REG .zero).toNat 0x67]
  | li rd val => liWords rd val
  | mv rd rs => [itype 0 (REG rs).toNat 0 (REG rd).toNat 0x13]

/-- What a call at word `k` leaves to `resolve`. -/
def fixAt (k : Nat) : Call L → Option (Fix L)
  | branch kind a b l => some { idx := k, kind := kind, label := l, a := REG a, b := REG b }
  | jal rd l => some { idx := k, kind := .jal, label := l, a := REG rd, b := 0 }
  | _ => none

def size (c : Call L) : Nat := c.emitted.length

def isLabel [DecidableEq L] (l : L) : Call L → Bool
  | label n => n = l
  | _ => false

end Call

theorem call_words [DecidableEq L] (s : Asm L) (c : Call L) :
    (s.call c).words = s.words ++ c.emitted.map (· &&& 0xffffffff) := by
  cases c
  case label => exact (List.append_nil _).symm
  case li rd val => rw [Asm.call, li_eq, emits_words]; rfl
  all_goals rfl

theorem call_length [DecidableEq L] (s : Asm L) (c : Call L) :
    (s.call c).words.length = s.words.length + c.size := by
  rw [call_words, List.length_append, List.length_map, Call.size]

theorem call_fix [DecidableEq L] (s : Asm L) (c : Call L) :
    (s.call c).fix = s.fix ++ (c.fixAt s.words.length).toList := by
  have he (ws : List Nat) (s : Asm L) : (ws.foldl Asm.emit s).fix = s.fix := by
    induction ws generalizing s with
    | nil => rfl
    | cons w ws ih => exact ih (s.emit w)
  cases c
  case branch => rfl
  case jal => rfl
  case li rd val => rw [Asm.call, li_eq, he]; exact (List.append_nil _).symm
  all_goals exact (List.append_nil _).symm

theorem call_labels [DecidableEq L] (s : Asm L) (c : Call L) (l : L) :
    (s.call c).labels l = if c.isLabel l then some s.pc else s.labels l := by
  have he (ws : List Nat) (s : Asm L) : (ws.foldl Asm.emit s).labels = s.labels := by
    induction ws generalizing s with
    | nil => rfl
    | cons w ws ih => exact ih (s.emit w)
  cases c
  case label n =>
    by_cases h : n = l
    · subst h
      simp [Asm.call, Asm.label, Call.isLabel]
    · simp [Asm.call, Asm.label, Call.isLabel, h, Function.update_of_ne (Ne.symm h)]
  case li rd val => rw [Asm.call, li_eq, he]; rfl
  all_goals rfl

/-- A branch whose label is at `lab`. -/
def Fix.word (lab : L → Nat) (f : Fix L) : Nat :=
  Asm.resolved f (lab f.label - (0x80000000 + 4 * f.idx))

/-- The words of a call that starts at word `k`. -/
def Call.words (lab : L → Nat) (k : Nat) (c : Call L) : List Nat :=
  match c.fixAt k with
  | some f => [f.word lab]
  | none => c.emitted.map (· &&& 0xffffffff)

theorem Call.words_length (lab : L → Nat) (k : Nat) (c : Call L) :
    (c.words lab k).length = c.size := by
  cases c
  case li => exact List.length_map _
  all_goals rfl

/-- The words of calls from word `k` on. -/
def assemble (lab : L → Nat) : Nat → List (Call L) → List Nat
  | _, [] => []
  | k, c :: cs => c.words lab k ++ assemble lab (k + c.size) cs

/-- The words with every branch written. -/
def patch (lab : L → Nat) (fix : List (Fix L)) (ws : List Nat) : List Nat :=
  fix.foldl (fun ws f => ws.set f.idx (f.word lab)) ws

theorem patch_length (lab : L → Nat) (fix : List (Fix L)) (ws : List Nat) :
    (patch lab fix ws).length = ws.length := by
  induction fix generalizing ws with
  | nil => rfl
  | cons f fix ih => exact (ih _).trans List.length_set

theorem patch_append (lab : L → Nat) {fix : List (Fix L)} {ws : List Nat}
    (h : ∀ f ∈ fix, f.idx < ws.length) (vs : List Nat) :
    patch lab fix (ws ++ vs) = patch lab fix ws ++ vs := by
  induction fix generalizing ws with
  | nil => rfl
  | cons f fix ih =>
    have hf := h f List.mem_cons_self
    have hs : (ws ++ vs).set f.idx (f.word lab) = ws.set f.idx (f.word lab) ++ vs :=
      List.set_append_left f.idx _ hf
    rw [patch, List.foldl_cons, hs]
    exact ih fun g hg => by
      rw [List.length_set]
      exact h g (List.mem_cons_of_mem f hg)

theorem resolve_eq {lab : L → Nat} {s : Asm L}
    (h : ∀ f ∈ s.fix, s.labels f.label = some (lab f.label)) :
    s.resolve = some { s with words := patch lab s.fix s.words } := by
  have hr : ∀ (fix : List (Fix L)) (ws : List Nat),
      (∀ f ∈ fix, s.labels f.label = some (lab f.label)) →
      fix.foldlM Asm.resolveOne { s with words := ws }
        = some { s with words := patch lab fix ws } := by
    intro fix
    induction fix with
    | nil => exact fun _ _ => rfl
    | cons f fix ih =>
      intro ws hf
      have ho : Asm.resolveOne { s with words := ws } f
          = some { s with words := ws.set f.idx (f.word lab) } := by
        rw [Asm.resolveOne, hf f List.mem_cons_self]
        rfl
      rw [List.foldlM_cons, ho]
      exact ih _ fun g hg => hf g (List.mem_cons_of_mem f hg)
  exact hr s.fix s.words h

/-- The words of calls. -/
def size (cs : List (Call L)) : Nat := (cs.map Call.size).sum

theorem size_cons (c : Call L) (cs : List (Call L)) : size (c :: cs) = c.size + size cs := rfl

theorem size_le (cs : List (Call L)) : size cs ≤ 2 * cs.length := by
  induction cs with
  | nil => rfl
  | cons c cs ih =>
    have hc : c.size ≤ 2 := by
      cases c
      case li rd val =>
        have h := liWords_length rd val
        simp only [Call.size, Call.emitted]
        omega
      all_goals exact Nat.le_of_ble_eq_true rfl
    rw [size_cons, List.length_cons]
    omega

theorem size_append (cs cs' : List (Call L)) : size (cs ++ cs') = size cs + size cs' := by
  rw [size, List.map_append, List.sum_append]
  rfl

theorem assemble_append (lab : L → Nat) (cs cs' : List (Call L)) (k : Nat) :
    assemble lab k (cs ++ cs') = assemble lab k cs ++ assemble lab (k + size cs) cs' := by
  induction cs generalizing k with
  | nil => rfl
  | cons c cs ih =>
    rw [List.cons_append, assemble, assemble, ih, size_cons, List.append_assoc, Nat.add_assoc]

theorem assemble_length (lab : L → Nat) (cs : List (Call L)) (k : Nat) :
    (assemble lab k cs).length = size cs := by
  induction cs generalizing k with
  | nil => rfl
  | cons c cs ih => rw [assemble, List.length_append, ih, Call.words_length, size_cons]

theorem assemble_at (lab : L → Nat) {c : Call L} (hs : c :: r <:+ prog) (hj : j < c.size) :
    (assemble lab 0 prog)[size prog - size (c :: r) + j]? =
      (c.words lab (size prog - size (c :: r)))[j]? := by
  obtain ⟨pre, rfl⟩ := hs
  have hk : size (pre ++ c :: r) - size (c :: r) = size pre := by rw [size_append]; omega
  rw [hk, assemble_append, Nat.zero_add,
    List.getElem?_append_right (by rw [assemble_length]; omega), assemble_length,
    Nat.add_sub_cancel_left, assemble,
    List.getElem?_append_left (by rw [Call.words_length]; exact hj)]

/-- The address of the first of the calls `r`, an end of the program. -/
def pcOf (prog r : List (Call L)) : Nat := 0x80000000 + 4 * (size prog - size r)

theorem pc_next {c : Call L} (hs : c :: r <:+ prog) :
    pcOf prog (c :: r) + 4 * c.size = pcOf prog r := by
  obtain ⟨pre, rfl⟩ := hs
  rw [pcOf, pcOf, size_append, size_cons]
  omega

section Program
variable [DecidableEq L]

/-- The calls after the last `label l`. -/
def after (l : L) : List (Call L) → Option (List (Call L))
  | [] => none
  | c :: cs => (after l cs).or (if c.isLabel l then some cs else none)

/-- Branches point back at words that are there. -/
def Asm.Closed (s : Asm L) : Prop := ∀ f ∈ s.fix, f.idx < s.words.length

theorem Asm.Closed.call {s : Asm L} (h : s.Closed) (c : Call L) : (s.call c).Closed := by
  intro f hf
  rw [call_words, List.length_append, List.length_map]
  rw [call_fix, List.mem_append] at hf
  rcases hf with hf | hf
  · exact Nat.lt_add_right _ (h f hf)
  · cases c <;> simp only [Call.fixAt, Option.toList_none, Option.toList_some, List.not_mem_nil,
      List.mem_singleton] at hf
    all_goals
      subst hf
      exact Nat.lt_succ_self _

theorem patch_call (lab : L → Nat) {s : Asm L} (h : s.Closed) (c : Call L) :
    patch lab (s.call c).fix (s.call c).words
      = patch lab s.fix s.words ++ c.words lab s.words.length := by
  have ha := patch_append lab h (c.emitted.map (· &&& 0xffffffff))
  have hp : patch lab (s.fix ++ (c.fixAt s.words.length).toList)
      (s.words ++ c.emitted.map (· &&& 0xffffffff)) = patch lab (c.fixAt s.words.length).toList
        (patch lab s.fix (s.words ++ c.emitted.map (· &&& 0xffffffff))) := List.foldl_append
  rw [call_fix, call_words, Call.words, hp, ha]
  cases hf : c.fixAt s.words.length with
  | none => rfl
  | some f =>
    have hi : f.idx = s.words.length ∧ c.emitted = [0] := by
      cases c <;> cases hf <;> exact ⟨rfl, rfl⟩
    have hs : patch lab [f] (patch lab s.fix s.words ++ [0])
        = (patch lab s.fix s.words ++ [0]).set f.idx (f.word lab) := rfl
    rw [hi.2, Option.toList_some, List.map_singleton, Nat.zero_and, hs, hi.1,
      ← patch_length lab s.fix s.words, List.set_append_right _ _ (Nat.le_refl _), Nat.sub_self]
    rfl

theorem patch_calls (lab : L → Nat) {s : Asm L} (h : s.Closed) (cs : List (Call L)) :
    patch lab (s.calls cs).fix (s.calls cs).words
      = patch lab s.fix s.words ++ assemble lab s.words.length cs := by
  induction cs generalizing s with
  | nil => exact (List.append_nil _).symm
  | cons c cs ih =>
    rw [Asm.calls, List.foldl_cons, ← Asm.calls, ih (h.call c), patch_call lab h, call_length,
      assemble, List.append_assoc]

theorem calls_labels (s : Asm L) (cs : List (Call L)) (l : L) :
    (s.calls cs).labels l = match after l cs with
      | some r => some (0x80000000 + 4 * (s.words.length + size cs - size r))
      | none => s.labels l := by
  induction cs generalizing s with
  | nil => rfl
  | cons c cs ih =>
    rw [Asm.calls, List.foldl_cons, ← Asm.calls, ih, after, call_length, size_cons, Nat.add_assoc]
    cases after l cs with
    | some r => rfl
    | none =>
      rw [call_labels]
      cases hl : c.isLabel l with
      | false => rfl
      | true =>
        have h0 : c.size = 0 := by cases c <;> first | rfl | cases hl
        have h : s.words.length + (c.size + size cs) - size cs = s.words.length := by omega
        simp [Asm.pc, h]

/-- The branches have their labels. -/
def Linked (cs : List (Call L)) : Prop :=
  ∀ c ∈ cs, ∀ k f, c.fixAt k = some f → (after f.label cs).isSome

/-- Where the label is. -/
def labelPc (cs : List (Call L)) (l : L) : Nat := pcOf cs ((after l cs).getD [])

theorem calls_fix (s : Asm L) (cs : List (Call L)) (f : Fix L) (h : f ∈ (s.calls cs).fix) :
    f ∈ s.fix ∨ ∃ c ∈ cs, ∃ k, c.fixAt k = some f := by
  induction cs generalizing s with
  | nil => exact .inl h
  | cons c cs ih =>
    rcases ih (s.call c) h with h | ⟨c', hc, k, hk⟩
    · rw [call_fix, List.mem_append] at h
      exact h.imp_right fun h => ⟨c, List.mem_cons_self, _, Option.mem_toList.mp h⟩
    · exact .inr ⟨c', List.mem_cons_of_mem c hc, k, hk⟩

theorem resolve_calls (cs : List (Call L)) (h : Linked cs) :
    (Asm.init.calls cs).resolve.map Asm.words
      = some (assemble (labelPc cs) 0 cs) := by
  have hf : ∀ f ∈ (Asm.init.calls cs).fix,
      (Asm.init.calls cs).labels f.label = some (labelPc cs f.label) := by
    intro f hf
    obtain hf | ⟨c, hc, k, hk⟩ := calls_fix Asm.init cs f hf
    · cases hf
    · obtain ⟨r, hr⟩ := Option.isSome_iff_exists.mp (h c hc k f hk)
      rw [calls_labels, labelPc, pcOf, hr]
      simp [Asm.init]
  rw [resolve_eq hf, Option.map_some, patch_calls _ (fun _ hf => by cases hf)]
  rfl

end Program

end Rv64imCore.Gol
