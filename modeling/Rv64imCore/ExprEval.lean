import Rv64imCore.ExprMeaning

/-! `eval` on the strings of a well-formed expression. -/

namespace Rv64imCore.Sdb
set_option autoImplicit true

open Infix (Tok)

/-- The strings of the tokens, those of the atoms as they are read. -/
def spell (read : Atom → Text) : Tok Atom Op → Text
  | .atom a => read a
  | .op o => o.text
  | .lpar => ['(']
  | .rpar => [')']

section Spell
variable {read : Atom → Text}

theorem first_ne {t : Text} (h : (first t).isDigit = true) {c : Char} (hc : c.isDigit = false) :
    first t ≠ c := by
  rintro rfl
  exact Bool.false_ne_true (hc.symm.trans h)

theorem opOf_text (prev : Char) (o : Op) : opOf prev o.text = some o.prec := by
  have hprev : prev ≠ '*' ∨ prev ≠ '/' := by
    by_cases h : prev = '*'
    · exact .inr (by rw [h]; decide)
    · exact .inl h
  cases o <;> simp [opOf, Op.text, Op.prec, first, hprev]

theorem opOf_number {t : Text} (h : (first t).isDigit = true) (prev : Char) :
    opOf prev t = none := by
  have hne {c : Char} (hc : c.isDigit = false) := first_ne h hc
  have htext (u : Text) (hu : (first u).isDigit = false) : t ≠ u := by
    rintro rfl
    exact Bool.false_ne_true (hu.symm.trans h)
  rw [opOf, if_neg (htext _ rfl), if_neg (by simp [htext ['=', '='] rfl, htext ['!', '='] rfl]),
    if_neg (by simp [hne (c := '+') rfl, hne (c := '-') rfl]),
    if_neg (by simp [hne (c := '*') rfl, hne (c := '/') rfl])]

theorem first_op (o : Op) : first o.text ≠ '(' ∧ first o.text ≠ ')' := by
  cases o <;> decide

theorem depth_spell (n : Nat) {ts : List (Tok Atom Op)}
    (h : ∀ a, .atom a ∈ ts → (first (read a)).isDigit = true) :
    depth n (ts.map (spell read)) = Infix.depth n ts := by
  induction ts generalizing n with
  | nil => rfl
  | cons t ts ih =>
    have ih := fun n => ih n fun a ha => h a (List.mem_cons_of_mem t ha)
    rw [List.map_cons, depth]
    cases t with
    | atom a =>
      have ha := h a List.mem_cons_self
      rw [spell, if_neg (first_ne ha rfl), if_neg fun hc => first_ne ha rfl hc.1, ih, Infix.depth]
    | op o =>
      rw [spell, if_neg (first_op o).1, if_neg fun hc => (first_op o).2 hc.1, ih, Infix.depth]
    | lpar => exact ih (n + 1)
    | rpar =>
      cases n with
      | zero => exact ih 0
      | succ n => exact ih n

theorem scan_spell (i : Nat) (prev : Char) {ts : List (Tok Atom Op)} (s : Infix.Scan (Fin 4))
    (h : ∀ a, .atom a ∈ ts → (first (read a)).isDigit = true) :
    scan i prev (ts.map (spell read)) ⟨s.depth, s.last⟩
      = ⟨(s.run Op.prec i ts).depth, (s.run Op.prec i ts).last⟩ := by
  induction ts generalizing i prev s with
  | nil => rfl
  | cons t ts ih =>
    have ih := fun i prev s => ih i prev s fun a ha => h a (List.mem_cons_of_mem t ha)
    have hl : Scan.look ⟨s.depth, s.last⟩ i prev (spell read t)
        = ⟨(s.step Op.prec i t).depth, (s.step Op.prec i t).last⟩ := by
      rw [Scan.look]
      cases t with
      | atom a =>
        have ha := h a List.mem_cons_self
        rw [spell, if_neg (first_ne ha rfl), if_neg (first_ne ha rfl), opOf_number ha, ite_self]
        rfl
      | op o =>
        rw [spell, if_neg (first_op o).1, if_neg (first_op o).2, opOf_text, Infix.Scan.step]
        split <;> rfl
      | lpar => rfl
      | rpar => rfl
    rw [List.map_cons, scan, hl, ih, Infix.Scan.run]

end Spell

theorem Scan.choose_eq {s : Scan} {p : Fin 4} (hlow : ∀ q < p, s.op q = 0) (hp : s.op p ≠ 0) :
    s.choose = s.op p := by
  have hcases : p = 0 ∨ p = 1 ∨ p = 2 ∨ p = 3 := by omega
  have hskip (q : Fin 4) (hq : q < p) : ¬s.op q ≠ 0 := not_not.mpr (hlow q hq)
  rw [choose]
  obtain rfl | rfl | rfl | rfl := hcases
  · rw [if_pos hp]
  · rw [if_neg (hskip 0 (by decide)), if_pos hp]
  · rw [if_neg (hskip 0 (by decide)), if_neg (hskip 1 (by decide)), if_pos hp]
  · rw [if_neg (hskip 0 (by decide)), if_neg (hskip 1 (by decide)), if_neg (hskip 2 (by decide))]

theorem operate_apply (o : Op) (a b : BitVec 32)
    (h : o = .div → b ≠ 0 ∧ ¬(a = BitVec.intMin 32 ∧ b = -1)) :
    operate (first o.text) a b = some (o.apply a b) := by
  cases o with
  | div =>
    obtain ⟨hb, hab⟩ := h rfl
    exact (if_neg hb).trans (if_neg hab)
  | ne =>
    change some (if a ≠ b then 1 else 0) = some (if a = b then 0 else 1)
    rw [ite_not]
  | and =>
    change some (if a ≠ 0 ∧ b ≠ 0 then 1 else 0) = some (if a = 0 ∨ b = 0 then 0 else 1)
    simp only [← not_or, ite_not]
  | _ => rfl

section Eval
variable {env : Env} {read : Atom → Text}

theorem eval_paren (prev : Char) {us : List Text} (hus : us ≠ []) (hd : depth 0 us = 0) :
    eval env prev (['('] :: (us ++ [[')']])) = eval env '(' us := by
  obtain ⟨u, vs, huv⟩ := List.exists_cons_of_ne_nil (List.append_ne_nil_of_left_ne_nil hus [[')']])
  have hc : checkParentheses ['('] (us ++ [[')']]) = true := by
    rw [checkParentheses, List.getLastD_concat, List.dropLast_concat, hd]
    rfl
  rw [huv] at hc
  rw [huv, eval, if_pos hc, ← huv, List.dropLast_concat]
  rfl

theorem eval_split (prev : Char) {ls rs : List Text} {x : Text} (hl : ls ≠ [])
    (hc : ∀ t ts, ls ++ x :: rs = t :: ts → checkParentheses t ts = false)
    (ho : opAt prev (ls ++ x :: rs) = ls.length) :
    eval env prev (ls ++ x :: rs) = (eval env prev ls).bind fun a =>
      (eval env (first x) rs).bind (operate (first x) a) := by
  obtain ⟨t, us, ht⟩ := List.exists_cons_of_ne_nil
    (List.append_ne_nil_of_left_ne_nil hl (x :: rs))
  obtain ⟨u, vs, rfl⟩ : ∃ u vs, us = u :: vs := by
    refine List.exists_cons_of_ne_nil ?_
    rintro rfl
    have hlen := congrArg List.length ht
    have hlpos := List.length_pos_iff.mpr hl
    simp only [List.length_append, List.length_cons, List.length_nil] at hlen
    omega
  have h0 : ¬(ls.length = 0 ∧ first t = '*') := fun h =>
    hl (List.length_eq_zero_iff.mp h.1)
  have hget : (ls ++ x :: rs).getD ls.length [] = x := by
    rw [List.getD_eq_getElem?_getD, List.getElem?_append_right (Nat.le_refl _), Nat.sub_self]
    rfl
  have hdrop : (ls ++ x :: rs).drop (ls.length + 1) = rs := by
    rw [← List.drop_drop, List.drop_left]
    rfl
  have he : eval env prev (t :: u :: vs) = _ := eval.eq_3 env prev t u vs
  rw [hc t _ ht, if_neg Bool.false_ne_true, ← ht] at he
  rw [he]
  simp only [ho, if_neg h0, hget, List.take_left, hdrop]

theorem spell_lpar {t : Tok Atom Op} (ht : ∀ a, t = .atom a → (first (read a)).isDigit = true)
    (h : first (spell read t) = '(') : t = .lpar := by
  cases t with
  | atom a => exact absurd h (first_ne (ht a rfl) rfl)
  | op o => exact absurd h (first_op o).1
  | lpar => rfl
  | rpar => exact absurd h (by decide : ')' ≠ '(')

theorem spell_rpar {t : Tok Atom Op} (ht : ∀ a, t = .atom a → (first (read a)).isDigit = true)
    (h : first (spell read t) = ')') : t = .rpar := by
  cases t with
  | atom a => exact absurd h (first_ne (ht a rfl) rfl)
  | op o => exact absurd h (first_op o).2
  | lpar => exact absurd h (by decide : '(' ≠ ')')
  | rpar => rfl

/-- The parentheses at both ends of an operation do not belong together. -/
theorem checkParentheses_bin {o : Op} {l r : Expr}
    (hread : ∀ a, .atom a ∈ (Infix.Expr.bin o l r).tokens → (first (read a)).isDigit = true)
    (ht : (Infix.Expr.bin o l r).tokens.map (spell read) = t :: ts) :
    checkParentheses t ts = false := by
  obtain ⟨t', us, hbin, rfl, hus⟩ := List.map_eq_cons_iff.mp ht
  rw [← Bool.not_eq_true]
  intro hc
  rw [checkParentheses, Bool.and_eq_true, Bool.and_eq_true] at hc
  obtain ⟨⟨hfirst, hlast⟩, hdepth⟩ := hc
  have hsub (a : Atom) (ha : .atom a ∈ us) := hread a (hbin ▸ List.mem_cons_of_mem t' ha)
  obtain rfl := spell_lpar (fun a ha => hread a (by rw [hbin, ha]; exact List.mem_cons_self))
    (eq_of_beq hfirst)
  rcases List.eq_nil_or_concat us with rfl | ⟨vs, u, rfl⟩
  · subst hus
    exact absurd (eq_of_beq hlast) (by decide : Char.ofNat 0 ≠ ')')
  · rw [List.concat_eq_append] at hsub hus hbin
    rw [← hus, List.map_append, List.map_singleton, List.getLastD_concat] at hlast
    obtain rfl := spell_rpar (fun a ha => hsub a (by rw [ha]; simp)) (eq_of_beq hlast)
    rw [← hus, List.map_append, List.map_singleton, List.dropLast_concat,
      depth_spell 0 fun a ha => hsub a (List.mem_append_left _ ha)] at hdepth
    exact Infix.depth_bin o l r hbin (eq_of_beq hdepth)

theorem opAt_bin (prev : Char) {o : Op} {l r : Expr}
    (hw : (Infix.Expr.bin o l r).WellFormed Op.prec)
    (hread : ∀ a, .atom a ∈ (Infix.Expr.bin o l r).tokens → (first (read a)).isDigit = true) :
    opAt prev ((Infix.Expr.bin o l r).tokens.map (spell read)) = l.tokens.length := by
  obtain ⟨hp, hlow⟩ := Infix.Scan.run_bin (s := ⟨0, fun _ => 0⟩) hw rfl
  have hscan := scan_spell 0 prev ⟨0, fun _ => 0⟩ fun a ha => hread a (List.dropLast_subset _ ha)
  rw [opAt, ← List.map_dropLast, hscan, Infix.Scan.run_dropLast]
  refine (Scan.choose_eq hlow ?_).trans hp
  exact fun h => l.tokens_ne_nil (List.length_eq_zero_iff.mp (hp.symm.trans h))

/-- The strings of a well-formed expression are evaluated to its value. -/
theorem eval_spell (prev : Char) (e : Expr) (hw : e.WellFormed Op.prec)
    (hread : ∀ a ∈ e.atoms, (first (read a)).isDigit = true)
    (hsafe : e.Each (fun a => BitVec.ofNat 32 (strtoul (read a))) Op.apply fun o a b =>
      o = .div → b ≠ 0 ∧ ¬(a = BitVec.intMin 32 ∧ b = -1)) :
    eval env prev (e.tokens.map (spell read))
      = some (e.eval (fun a => BitVec.ofNat 32 (strtoul (read a))) Op.apply) := by
  induction e generalizing prev with
  | atom a =>
    rw [Infix.Expr.tokens, List.map_singleton, eval]
    rfl
  | bin o l r ihl ihr =>
    have hread' (a : Atom) (ha : .atom a ∈ (Infix.Expr.bin o l r).tokens) :=
      hread a (Infix.mem_atoms ha)
    have hmap : (Infix.Expr.bin o l r).tokens.map (spell read)
        = l.tokens.map (spell read) ++ o.text :: r.tokens.map (spell read) := List.map_append
    have hop := opAt_bin prev hw hread'
    rw [hmap, ← List.length_map (spell read)] at hop
    have hne : l.tokens.map (spell read) ≠ [] := fun h => l.tokens_ne_nil (List.map_eq_nil_iff.mp h)
    obtain ⟨hsl, hsr, hso⟩ := hsafe
    rw [hmap, eval_split prev hne (fun t ts ht => checkParentheses_bin hread' (hmap.trans ht)) hop,
      ihl _ hw.1 (fun a ha => hread a (List.mem_append_left _ ha)) hsl, Option.bind_some,
      ihr _ hw.2.1 (fun a ha => hread a (List.mem_append_right _ ha)) hsr, Option.bind_some,
      operate_apply o _ _ hso]
    rfl
  | paren e ih =>
    have hd : depth 0 (e.tokens.map (spell read)) = 0 := by
      rw [@depth_spell read 0 e.tokens fun a ha => hread a (Infix.mem_atoms (e := e) ha),
        Infix.depth_tokens]
    have hne : e.tokens.map (spell read) ≠ [] := fun h => e.tokens_ne_nil (List.map_eq_nil_iff.mp h)
    rw [Infix.Expr.tokens, List.map_cons, List.map_append]
    exact (eval_paren prev hne hd).trans (ih _ hw hread hsafe)

end Eval

end Rv64imCore.Sdb
