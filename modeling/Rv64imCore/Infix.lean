import Mathlib.Logic.Function.Basic
import Mathlib.Order.Defs.LinearOrder

/-! Infix expressions with parentheses, their tokens, and the operator that splits them. -/

namespace Infix
set_option autoImplicit true

inductive Tok (A O : Type) where
  | atom (a : A)
  | op (o : O)
  | lpar
  | rpar

def Tok.isAtom : Tok A O → Bool
  | atom _ => true
  | _ => false

inductive Expr (A O : Type) where
  | atom (a : A)
  | bin (o : O) (l r : Expr A O)
  | paren (e : Expr A O)

namespace Expr

def tokens : Expr A O → List (Tok A O)
  | atom a => [.atom a]
  | bin o l r => l.tokens ++ .op o :: r.tokens
  | paren e => .lpar :: (e.tokens ++ [.rpar])

/-- Each operator outside of parentheses binds as `Q` says. -/
def Outer (prec : O → P) (Q : P → Prop) : Expr A O → Prop
  | bin o _ _ => Q (prec o)
  | _ => True

/-- Operators of one precedence associate to the left. -/
def WellFormed [Preorder P] (prec : O → P) : Expr A O → Prop
  | atom _ => True
  | bin o l r => l.WellFormed prec ∧ r.WellFormed prec ∧ l.Outer prec (prec o ≤ ·) ∧
      r.Outer prec (prec o < ·)
  | paren e => e.WellFormed prec

def atoms : Expr A O → List A
  | atom a => [a]
  | bin _ l r => l.atoms ++ r.atoms
  | paren e => e.atoms

section Eval
variable (val : A → V) (app : O → V → V → V)

def eval : Expr A O → V
  | atom a => val a
  | bin o l r => app o l.eval r.eval
  | paren e => e.eval

/-- What holds of every operator and its operands. -/
def Each (Q : O → V → V → Prop) : Expr A O → Prop
  | atom _ => True
  | bin o l r => l.Each Q ∧ r.Each Q ∧ Q o (l.eval val app) (r.eval val app)
  | paren e => e.Each Q

variable {val app}

theorem eval_congr {val' : A → V} (e : Expr A O) (h : ∀ a ∈ e.atoms, val a = val' a) :
    e.eval val app = e.eval val' app := by
  induction e with
  | atom a => exact h a (List.mem_singleton_self a)
  | bin o l r ihl ihr =>
    rw [eval, eval, ihl fun a ha => h a (List.mem_append_left _ ha),
      ihr fun a ha => h a (List.mem_append_right _ ha)]
  | paren e ih => exact ih h

theorem Each.congr {val' : A → V} {Q : O → V → V → Prop} {e : Expr A O} (he : e.Each val app Q)
    (h : ∀ a ∈ e.atoms, val a = val' a) : e.Each val' app Q := by
  induction e with
  | atom a => trivial
  | bin o l r ihl ihr =>
    have hl : ∀ a ∈ l.atoms, val a = val' a := fun a ha => h a (List.mem_append_left _ ha)
    have hr : ∀ a ∈ r.atoms, val a = val' a := fun a ha => h a (List.mem_append_right _ ha)
    obtain ⟨hel, her, hq⟩ := he
    refine ⟨ihl hel hl, ihr her hr, ?_⟩
    rw [← eval_congr l hl, ← eval_congr r hr]
    exact hq
  | paren e ih => exact ih he h

theorem Each.imp₂ {Q R S : O → V → V → Prop} {e : Expr A O} (hq : e.Each val app Q)
    (hr : e.Each val app R) (h : ∀ o a b, Q o a b → R o a b → S o a b) : e.Each val app S := by
  induction e with
  | atom a => trivial
  | bin o l r ihl ihr => exact ⟨ihl hq.1 hr.1, ihr hq.2.1 hr.2.1, h _ _ _ hq.2.2 hr.2.2⟩
  | paren e ih => exact ih hq hr

end Eval

theorem Outer.mono {prec : O → P} {Q R : P → Prop} {e : Expr A O} (h : e.Outer prec Q)
    (hi : ∀ p, Q p → R p) : e.Outer prec R := by
  cases e with
  | bin o l r => exact hi _ h
  | atom a => trivial
  | paren e => trivial

theorem tokens_ne_nil (e : Expr A O) : e.tokens ≠ [] := by
  cases e with
  | atom a => exact List.cons_ne_nil _ _
  | bin o l r => exact List.append_ne_nil_of_right_ne_nil _ (List.cons_ne_nil _ _)
  | paren e => exact List.cons_ne_nil _ _

end Expr

theorem mem_atoms {e : Expr A O} (h : .atom a ∈ e.tokens) : a ∈ e.atoms := by
  induction e with
  | atom b =>
    cases List.mem_singleton.mp h
    exact List.mem_singleton_self a
  | bin o l r ihl ihr =>
    rcases List.mem_append.mp h with h | h
    · exact List.mem_append_left _ (ihl h)
    · rcases List.mem_cons.mp h with h | h
      · nomatch h
      · exact List.mem_append_right _ (ihr h)
  | paren e ih =>
    rcases List.mem_cons.mp h with h | h
    · nomatch h
    · rcases List.mem_append.mp h with h | h
      · exact ih h
      · nomatch List.mem_singleton.mp h

/-- No two atoms in a row. -/
def Apart : List (Tok A O) → Prop
  | [] => True
  | t :: ts => (t.isAtom = true → ∀ u ∈ ts.head?, u.isAtom = false) ∧ Apart ts

theorem apart_append (e : Expr A O) (h : Apart us) (hu : ∀ u ∈ us.head?, u.isAtom = false) :
    Apart (e.tokens ++ us) := by
  induction e generalizing us with
  | atom a => exact ⟨fun _ => hu, h⟩
  | bin o l r ihl ihr =>
    rw [Expr.tokens, List.append_assoc]
    exact ihl ⟨nofun, ihr h hu⟩ fun u hu => by cases hu; rfl
  | paren e ih =>
    rw [Expr.tokens, List.cons_append, List.append_assoc]
    exact ⟨nofun, ih ⟨nofun, h⟩ fun u hu => by cases hu; rfl⟩

theorem apart_tokens (e : Expr A O) : Apart e.tokens := by
  rw [← List.append_nil e.tokens]
  exact apart_append e trivial nofun

def depth : Nat → List (Tok A O) → Nat
  | n, [] => n
  | n, .lpar :: ts => depth (n + 1) ts
  | n, .rpar :: ts => depth (n - 1) ts
  | n, .atom _ :: ts => depth n ts
  | n, .op _ :: ts => depth n ts

theorem depth_append (n : Nat) (ts us : List (Tok A O)) :
    depth n (ts ++ us) = depth (depth n ts) us := by
  induction ts generalizing n with
  | nil => rfl
  | cons t ts ih => cases t <;> exact ih _

@[simp] theorem depth_tokens (n : Nat) (e : Expr A O) : depth n e.tokens = n := by
  induction e generalizing n with
  | atom a => rfl
  | bin o l r ihl ihr =>
    rw [Expr.tokens, depth_append, ihl]
    exact ihr n
  | paren e ih =>
    rw [Expr.tokens, depth, depth_append, ih]
    rfl

theorem starts_paren (e : Expr A O) (h : e.tokens = .lpar :: ts) :
    ∃ (e' : Expr A O) (us : List (Tok A O)), ts = e'.tokens ++ .rpar :: us ∧
      ∀ n, depth n us = n := by
  induction e generalizing ts with
  | atom a => nomatch h
  | bin o l r ihl ihr =>
    obtain ⟨t, ls, hl⟩ := List.exists_cons_of_ne_nil l.tokens_ne_nil
    rw [Expr.tokens, hl, List.cons_append, List.cons.injEq] at h
    obtain ⟨rfl, rfl⟩ := h
    obtain ⟨e', us, rfl, hus⟩ := ihl hl
    refine ⟨e', us ++ .op o :: r.tokens, by simp, fun n => ?_⟩
    rw [depth_append, hus]
    exact depth_tokens n r
  | paren e ih => exact ⟨e, [], (List.cons.inj h).2.symm, fun n => rfl⟩

theorem tokens_concat (e : Expr A O) :
    ∃ (ts : List (Tok A O)) (t : Tok A O), e.tokens = ts ++ [t] ∧ ∀ o, t ≠ .op o := by
  induction e with
  | atom a => exact ⟨[], .atom a, rfl, fun o => nofun⟩
  | bin o l r _ ihr =>
    obtain ⟨ts, t, hr, ht⟩ := ihr
    refine ⟨l.tokens ++ .op o :: ts, t, ?_, ht⟩
    rw [Expr.tokens, hr, List.append_assoc, List.cons_append]
  | paren e _ => exact ⟨.lpar :: e.tokens, .rpar, rfl, fun o => nofun⟩

theorem ends_paren (e : Expr A O) (h : e.tokens = ts ++ [.rpar]) :
    ∃ (us : List (Tok A O)) (e' : Expr A O), ts = us ++ .lpar :: e'.tokens ∧
      ∀ n, depth n us = n := by
  induction e generalizing ts with
  | atom a =>
    have h : [] ++ [.atom a] = ts ++ [.rpar] := h
    cases (List.append_inj' h rfl).2
  | bin o l r _ ihr =>
    obtain ⟨rs, t, hr, -⟩ := tokens_concat r
    rw [Expr.tokens, hr, ← List.cons_append, ← List.append_assoc] at h
    obtain ⟨rfl, ht⟩ := List.append_inj' h rfl
    obtain ⟨us, e', rfl, hus⟩ := ihr (hr.trans (congrArg (rs ++ ·) ht))
    refine ⟨l.tokens ++ .op o :: us, e', by simp, fun n => ?_⟩
    rw [depth_append, depth_tokens]
    exact hus n
  | paren e _ => exact ⟨[], e, (List.append_inj' h rfl).1.symm, fun n => rfl⟩

/-- An operator between two operands: no pair of parentheses is around the whole. -/
theorem depth_bin (o : O) (l r : Expr A O)
    (h : (Expr.bin o l r).tokens = .lpar :: (ts ++ [.rpar])) : depth 0 ts ≠ 0 := by
  obtain ⟨t, ls, hl⟩ := List.exists_cons_of_ne_nil l.tokens_ne_nil
  obtain ⟨rs, u, hr, -⟩ := tokens_concat r
  have hlr : (Expr.bin o l r).tokens = t :: ((ls ++ .op o :: rs) ++ [u]) := by
    rw [Expr.tokens, hl, hr, List.cons_append, List.append_assoc, List.cons_append]
  rw [hlr, List.cons.injEq] at h
  obtain ⟨rfl, h⟩ := h
  obtain ⟨rfl, hu⟩ := List.append_inj' h rfl
  obtain ⟨e₁, us₁, rfl, h₁⟩ := starts_paren l hl
  obtain ⟨us₂, e₂, rfl, h₂⟩ := ends_paren r (hr.trans (congrArg (rs ++ ·) hu))
  have hd : depth 0 (e₁.tokens ++ .rpar :: us₁ ++ .op o :: (us₂ ++ .lpar :: e₂.tokens)) = 1 := by
    rw [depth_append, depth_append, depth_tokens, depth, h₁, depth, depth_append, h₂, depth,
      depth_tokens]
  rw [hd]
  exact Nat.one_ne_zero

/-! The last operator of each precedence outside of parentheses. -/

structure Scan (P : Type) where
  depth : Int
  last : P → Nat

namespace Scan
variable [DecidableEq P] (prec : O → P)

def found (s : Scan P) (p : P) (i : Nat) : Scan P :=
  { s with last := Function.update s.last p i }

theorem found_last (s : Scan P) (p : P) (i : Nat) : (s.found p i).last p = i :=
  Function.update_self ..

theorem found_last_of_ne {s : Scan P} {p q : P} (h : q ≠ p) (i : Nat) :
    (s.found p i).last q = s.last q := Function.update_of_ne h ..

def step (i : Nat) (s : Scan P) : Tok A O → Scan P
  | .atom _ => s
  | .op o => if s.depth = 0 then s.found (prec o) i else s
  | .lpar => { s with depth := s.depth + 1 }
  | .rpar => { s with depth := s.depth - 1 }

def run (i : Nat) (s : Scan P) : List (Tok A O) → Scan P
  | [] => s
  | t :: ts => run (i + 1) (s.step prec i t) ts

variable {prec} {s : Scan P}

theorem run_append (i : Nat) (s : Scan P) (ts us : List (Tok A O)) :
    s.run prec i (ts ++ us) = (s.run prec i ts).run prec (i + ts.length) us := by
  induction ts generalizing i s with
  | nil => rfl
  | cons t ts ih =>
    rw [List.cons_append, run, ih, run, List.length_cons, Nat.succ_add_eq_add_succ]

theorem run_inside (e : Expr A O) (i : Nat) (h : 0 < s.depth) : s.run prec i e.tokens = s := by
  induction e generalizing i s with
  | atom a => rfl
  | bin o l r ihl ihr =>
    rw [Expr.tokens, run_append, ihl _ h, run, step, if_neg (Int.ne_of_gt h), ihr _ h]
  | paren e ih =>
    rw [Expr.tokens, run, run_append, step, ih _ (Int.lt_add_one_of_le (Int.le_of_lt h)), run, run,
      step]
    exact congrArg (Scan.mk · s.last) (Int.add_sub_cancel ..)

/-- Looser operators than those outside of parentheses are not found. -/
theorem run_outer [Preorder P] (e : Expr A O) (hw : e.WellFormed prec) (i : Nat)
    (h : s.depth = 0) : (s.run prec i e.tokens).depth = 0 ∧
      ∀ p, e.Outer prec (p < ·) → (s.run prec i e.tokens).last p = s.last p := by
  induction e generalizing i s with
  | atom a => exact ⟨h, fun p _ => rfl⟩
  | bin o l r ihl ihr =>
    obtain ⟨hl, hr, hlo, hro⟩ := hw
    obtain ⟨hdl, hll⟩ := ihl hl i h
    rw [Expr.tokens, run_append, run, step, if_pos hdl]
    obtain ⟨hdr, hlr⟩ := @ihr ((s.run prec i l.tokens).found _ _) hr _ hdl
    refine ⟨hdr, fun p hp => ?_⟩
    have hp : p < prec o := hp
    rw [hlr p (hro.mono fun q hq => lt_trans hp hq), found_last_of_ne (ne_of_lt hp),
      hll p (hlo.mono fun q hq => lt_of_lt_of_le hp hq)]
  | paren e ih =>
    have hd : 0 < ({ s with depth := s.depth + 1 } : Scan P).depth := by
      rw [h]
      exact Int.zero_lt_one
    rw [Expr.tokens, run, run_append, step, run_inside e _ hd, run, run, step]
    exact ⟨(Int.add_sub_cancel ..).trans h, fun p _ => rfl⟩

theorem run_bin [Preorder P] {o : O} {l r : Expr A O} (hw : (Expr.bin o l r).WellFormed prec)
    (h : s.depth = 0) :
    (s.run prec 0 (Expr.bin o l r).tokens).last (prec o) = l.tokens.length ∧
      ∀ p, p < prec o → (s.run prec 0 (Expr.bin o l r).tokens).last p = s.last p := by
  refine ⟨?_, (run_outer _ hw 0 h).2⟩
  obtain ⟨hl, hr, -, hro⟩ := hw
  obtain ⟨hdl, -⟩ := run_outer l hl 0 h
  rw [Expr.tokens, run_append, run, step, if_pos hdl]
  have hlr := (@run_outer _ _ _ prec ((s.run prec 0 l.tokens).found (prec o) (0 + l.tokens.length))
    _ _ r hr (0 + l.tokens.length + 1) hdl).2 _ hro
  rw [hlr, found_last, Nat.zero_add]

theorem run_dropLast (e : Expr A O) (i : Nat) :
    (s.run prec i e.tokens.dropLast).last = (s.run prec i e.tokens).last := by
  obtain ⟨ts, t, he, ht⟩ := tokens_concat e
  rw [he, List.dropLast_concat, run_append]
  cases t with
  | op o => exact absurd rfl (ht o)
  | _ => rfl

end Scan

end Infix
