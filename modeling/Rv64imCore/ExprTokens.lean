import Rv64imCore.ExprMeaning

/-! `make_token` finds the tokens of an expression. -/

namespace Rv64imCore.Sdb
set_option autoImplicit true

open Infix (Tok)

section Pieces
variable {p : Piece} {u s : Text}

theorem takeWhile_first (hu : ∀ c ∈ u, p.set c = true) (hs : p.set (first s) = false) :
    (u ++ s).takeWhile p.set = u := by
  rw [List.takeWhile_append_of_pos hu]
  cases s with
  | nil => rw [List.takeWhile_nil, List.append_nil]
  | cons c s =>
    have hc : p.set c = false := hs
    rw [List.takeWhile_cons, hc, if_neg Bool.false_ne_true, List.append_nil]

theorem Piece.len_append (hu : ∀ c ∈ u, p.set c = true) (hs : p.set (first s) = false)
    (hmin : p.min ≤ u.length) (hmax : ∀ n ∈ p.max, u.length ≤ n) :
    p.len (u ++ s) = some u.length := by
  rw [len, takeWhile_first hu hs]
  cases hm : p.max with
  | none => exact if_pos hmin
  | some n =>
    have hn : Nat.min u.length n = u.length := Nat.min_eq_left (hmax n hm)
    simp only [hn, if_pos hmin]

theorem Piece.len_none (hs : p.set (first s) = false) (hmin : 0 < p.min) : p.len s = none := by
  have ht : s.takeWhile p.set = [] := by
    simpa using takeWhile_first (u := []) nofun hs
  rw [len, ht]
  cases p.max with
  | none => exact if_neg (Nat.not_le_of_lt hmin)
  | some n =>
    have hn : Nat.min 0 n = 0 := Nat.zero_min n
    simp only [List.length_nil, hn, if_neg (Nat.not_le_of_lt hmin)]

theorem Piece.len_one (c : Char) (s : Text) : (Piece.one c).len (c :: s) = some 1 := by
  have hn (n : Nat) : Nat.min (n + 1) 1 = 1 := Nat.min_eq_right (Nat.succ_le_succ (Nat.zero_le n))
  simp only [len, one, List.takeWhile_cons, beq_self_eq_true, if_true, List.length_cons, hn,
    Nat.le_refl]

theorem rmEo_none {ps : List Piece} (hs : p.set (first s) = false) (hmin : 0 < p.min) :
    rmEo (p :: ps) s = none := by
  rw [rmEo, Piece.len_none hs hmin]
  rfl

theorem rmEo_one (c : Char) (ps : List Piece) (s : Text) :
    rmEo (.one c :: ps) (c :: s) = (rmEo ps s).map (1 + ·) := by
  rw [rmEo, Piece.len_one]
  rfl

theorem rmEo_literal (u s : Text) : rmEo (u.map .one) (u ++ s) = some u.length := by
  induction u with
  | nil => rfl
  | cons c u ih =>
    rw [List.map_cons, List.cons_append, rmEo_one, ih, List.length_cons, Nat.add_comm]
    rfl

theorem rmEo_append (ps : List Piece) (hu : ∀ c ∈ u, p.set c = true)
    (hs : p.set (first s) = false) (hmin : p.min ≤ u.length) (hmax : ∀ n ∈ p.max, u.length ≤ n) :
    rmEo (p :: ps) (u ++ s) = (rmEo ps s).map (u.length + ·) := by
  rw [rmEo, Piece.len_append hu hs hmin hmax, Option.bind_some, List.drop_left]

theorem rmEo_piece (hu : ∀ c ∈ u, p.set c = true) (hs : p.set (first s) = false)
    (hmin : p.min ≤ u.length) (hmax : ∀ n ∈ p.max, u.length ≤ n) :
    rmEo [p] (u ++ s) = some u.length := rmEo_append [] hu hs hmin hmax

end Pieces

/-- Whether a rule can match at a character. -/
def startsAt (c : Char) : List Piece → Bool
  | [] => true
  | p :: _ => p.min == 0 || p.set c

theorem rmEo_not_startsAt {ps : List Piece} (h : startsAt (first s) ps = false) :
    rmEo ps s = none := by
  cases ps with
  | nil => nomatch h
  | cons p ps =>
    obtain ⟨hmin, hs⟩ := Bool.or_eq_false_iff.mp h
    exact rmEo_none hs (Nat.pos_of_ne_zero (ne_of_beq_false hmin))

theorem matchRule_at (k : Nat) {r : List Piece × TokenType} (hk : rules[k]? = some r)
    (hno : ∀ q ∈ rules.take k, rmEo q.1 s = none) (hr : rmEo r.1 s = some n) :
    matchRule s = some (r.2, n) := by
  have hd : rules = rules.take k ++ r :: rules.drop (k + 1) := by
    obtain ⟨hlt, hr⟩ := List.getElem?_eq_some_iff.mp hk
    rw [← hr, ← List.drop_eq_getElem_cons hlt, List.take_append_drop]
  have hnone : (rules.take k).findSome? (fun r => (rmEo r.1 s).map (r.2, ·)) = none := by
    rw [List.findSome?_eq_none_iff]
    intro q hq
    rw [hno q hq]
    rfl
  rw [matchRule, hd, List.findSome?_append, hnone, Option.none_or, List.findSome?_cons, hr]
  rfl

theorem matchRule_first (k : Nat) {r : List Piece × TokenType} (hk : rules[k]? = some r)
    (hno : ∀ q ∈ rules.take k, startsAt (first s) q.1 = false) (hr : rmEo r.1 s = some n) :
    matchRule s = some (r.2, n) :=
  matchRule_at k hk (fun q hq => rmEo_not_startsAt (hno q hq)) hr

def Op.type : Op → TokenType
  | add => .char '+'
  | sub => .char '-'
  | mul => .char '*'
  | div => .char '/'
  | eq => .EQ
  | ne => .NEQ
  | and => .AND

theorem matchRule_op (o : Op) (s : Text) :
    matchRule (o.text ++ s) = some (o.type, o.text.length) := by
  have h (k : Nat) (hk : rules[k]? = some (o.text.map .one, o.type)) (ho : o.text ≠ [])
      (hno : ∀ q ∈ rules.take k, startsAt (first o.text) q.1 = false) :
      matchRule (o.text ++ s) = some (o.type, o.text.length) :=
    matchRule_first k hk (by rwa [first_append s ho]) (rmEo_literal o.text s)
  cases o with
  | add => exact h 3 rfl nofun (by decide)
  | eq => exact h 4 rfl nofun (by decide)
  | ne => exact h 5 rfl nofun (by decide)
  | and => exact h 6 rfl nofun (by decide)
  | sub => exact h 8 rfl nofun (by decide)
  | mul => exact h 9 rfl nofun (by decide)
  | div => exact h 10 rfl nofun (by decide)

theorem matchRule_lpar (s : Text) : matchRule ('(' :: s) = some (.char '(', 1) :=
  matchRule_first 11 (r := ([.one '('], .char '(')) rfl
    (show ∀ q ∈ rules.take 11, startsAt '(' q.1 = false by decide) (rmEo_literal ['('] s)

theorem matchRule_rpar (s : Text) : matchRule (')' :: s) = some (.char ')', 1) :=
  matchRule_first 12 (r := ([.one ')'], .char ')')) rfl
    (show ∀ q ∈ rules.take 12, startsAt ')' q.1 = false by decide) (rmEo_literal [')'] s)

theorem matchRule_spaces (n : Nat) (hs : first s ≠ ' ') :
    matchRule (List.replicate (n + 1) ' ' ++ s) = some (.NOTYPE, n + 1) := by
  have h := rmEo_piece (p := { set := (· == ' '), max := none }) (u := List.replicate (n + 1) ' ')
    (s := s) (fun c hc => beq_iff_eq.mpr (List.eq_of_mem_replicate hc)) (beq_false_of_ne hs)
    (by rw [List.length_replicate]; exact Nat.succ_le_succ (Nat.zero_le n)) nofun
  rw [List.length_replicate] at h
  exact matchRule_first 2 (r := ([{ set := (· == ' '), max := none }], .NOTYPE)) rfl
    (show ∀ q ∈ rules.take 2, startsAt ' ' q.1 = false by decide) h

theorem not_isDigit_of_not_isAlphanum {c : Char} (h : c.isAlphanum = false) :
    c.isDigit = false := (Bool.or_eq_false_iff.mp h).2

theorem beq_false_of_test {p : Char → Bool} {c d : Char} (hc : p c = true) (hd : p d = false) :
    (c == d) = false := by
  refine beq_false_of_ne ?_
  rintro rfl
  exact Bool.false_ne_true (hd.symm.trans hc)

theorem not_startsAt_digit {c : Char} (hc : c.isDigit = true) :
    ∀ q ∈ (rules.take 7).drop 1, startsAt c q.1 = false := by
  intro q hq
  simp only [rules, List.take, List.drop, List.mem_cons, List.not_mem_nil, or_false] at hq
  rcases hq with rfl | rfl | rfl | rfl | rfl | rfl <;> exact beq_false_of_test hc rfl

theorem rmEo_hex_digits {ds : Text} (hd : ∀ c ∈ ds, c.isDigit = true)
    (hne : ds ≠ []) (hs : (first s).isAlphanum = false) (ps : List Piece) :
    rmEo (.one '0' :: { set := fun c => c == 'x' || c == 'X' } :: ps) (ds ++ s) = none := by
  obtain ⟨c, cs, rfl⟩ := List.exists_cons_of_ne_nil hne
  by_cases h0 : c = '0'
  · subst h0
    have hx : (fun c => c == 'x' || c == 'X') (first (cs ++ s)) = false := by
      refine Bool.or_eq_false_iff.mpr ?_
      cases cs with
      | nil =>
        have hx (d : Char) (hd : d.isAlphanum = true) : (first s == d) = false :=
          beq_false_of_ne (by rintro rfl; exact Bool.false_ne_true (hs.symm.trans hd))
        exact ⟨hx 'x' rfl, hx 'X' rfl⟩
      | cons d cs =>
        have hd : d.isDigit = true := hd d (List.mem_cons_of_mem _ List.mem_cons_self)
        exact ⟨beq_false_of_test hd rfl, beq_false_of_test hd rfl⟩
    rw [List.cons_append, rmEo_one, rmEo_none hx Nat.one_pos]
    rfl
  · exact rmEo_none (beq_false_of_ne h0) Nat.one_pos

theorem matchRule_dec (d : Dec) (hs : (first s).isAlphanum = false) :
    matchRule (d.digits ++ s) = some (.NUM, d.digits.length) := by
  have hlen : 1 ≤ d.digits.length := List.length_pos_iff.mpr d.nonempty
  have hfirst : (first (d.digits ++ s)).isDigit = true := by
    rw [first_append s d.nonempty]
    obtain ⟨c, cs, hc⟩ := List.exists_cons_of_ne_nil d.nonempty
    rw [hc]
    exact d.isDigit c (hc ▸ List.mem_cons_self)
  refine matchRule_at 7 (r := ([{ set := Char.isDigit, max := none }], .NUM)) rfl (fun q hq => ?_)
    (rmEo_piece d.isDigit (not_isDigit_of_not_isAlphanum hs) hlen nofun)
  rcases List.mem_cons.mp (show q ∈ rules.head nofun :: (rules.take 7).drop 1 from hq) with rfl | hq
  · exact rmEo_hex_digits d.isDigit d.nonempty hs _
  · exact rmEo_not_startsAt (not_startsAt_digit hfirst q hq)

theorem regName_set (r : Fin 33) :
    regName r ≠ [] ∧ ∀ c ∈ regName r, (c.isLower || c.isDigit) = true := by
  have htail : regs.tail.all
      (fun u => !u.isEmpty && u.all fun c => c.isLower || c.isDigit) = true := rfl
  obtain ⟨k, hk⟩ := r
  cases k with
  | zero => exact ⟨nofun, List.all_eq_true.mp (show ['0'].all _ = true from rfl)⟩
  | succ k =>
    have hlt : k < regs.tail.length := Nat.lt_of_succ_lt_succ hk
    have hname : regName ⟨k + 1, hk⟩ = regs.tail[k] := by
      rw [regName, if_neg nofun, List.getD_eq_getElem?_getD, ← List.getElem?_tail,
        List.getElem?_eq_getElem hlt, Option.getD_some]
    have hall := List.all_eq_true.mp htail _ (List.getElem_mem hlt)
    rw [Bool.and_eq_true, Bool.not_eq_true', List.isEmpty_eq_false_iff, List.all_eq_true] at hall
    rw [hname]
    exact hall

theorem matchRule_reg {r : Fin 33} (hr : PlainReg r) (hs : (first s).isAlphanum = false) :
    matchRule ('$' :: (regName r ++ s)) = some (.REG, 1 + (regName r).length) := by
  obtain ⟨hne, hset⟩ := regName_set r
  have hs' : ((first s).isLower || (first s).isDigit) = false := by
    obtain ⟨ha, hd⟩ := Bool.or_eq_false_iff.mp hs
    exact Bool.or_eq_false_iff.mpr ⟨(Bool.or_eq_false_iff.mp ha).2, hd⟩
  refine matchRule_first 1 (r := ([.one '$', { set := fun c => c.isLower || c.isDigit
                                               max := some 2 }], .REG)) rfl
    (show ∀ q ∈ rules.take 1, startsAt '$' q.1 = false by decide) ?_
  have h := @rmEo_piece { set := fun c => c.isLower || c.isDigit, max := some 2 } _ s hset hs'
    (List.length_pos_iff.mpr hne) (fun n hn => by cases hn; exact hr.1)
  rw [rmEo_one, h]
  rfl

theorem matchRule_hex (h : Hex) (hs : (first s).isAlphanum = false) :
    matchRule ('0' :: h.x :: (h.digits ++ s)) = some (.H, 2 + h.digits.length) := by
  have hset : ∀ c ∈ h.digits, c.isAlphanum = true := fun c hc =>
    (Bool.and_eq_true_iff.mp (h.isDigit c hc)).1
  have hx : ∀ c ∈ [h.x], (c == 'x' || c == 'X') = true := by
    intro c hc
    rw [List.mem_singleton.mp hc]
    rcases h.isX with hx | hx <;> rw [hx] <;> rfl
  have hd : (fun c => c == 'x' || c == 'X') (first (h.digits ++ s)) = false := by
    rw [first_append s h.nonempty]
    obtain ⟨c, cs, hc⟩ := List.exists_cons_of_ne_nil h.nonempty
    have hc' := h.isDigit c (hc ▸ List.mem_cons_self)
    rw [hc]
    exact Bool.or_eq_false_iff.mpr ⟨beq_false_of_test hc' (by decide),
      beq_false_of_test hc' (by decide)⟩
  refine matchRule_first 0 (r := rules.head nofun) rfl nofun ?_
  have h1 := @rmEo_piece { set := Char.isAlphanum, max := some 8 } _ s hset hs
    (List.length_pos_iff.mpr h.nonempty) (fun n hn => by cases hn; exact h.short)
  have h2 := @rmEo_append { set := fun c => c == 'x' || c == 'X' } _ _
    [{ set := Char.isAlphanum, max := some 8 }] hx hd (Nat.le_refl 1)
    (fun n hn => by cases hn; exact Nat.le_refl 1)
  rw [h1] at h2
  refine (rmEo_one '0' _ _).trans ((congrArg (Option.map (1 + ·)) h2).trans ?_)
  rw [Option.map_some, Option.map_some, ← Nat.add_assoc]
  rfl

def tokType : Tok Atom Op → TokenType
  | .atom (.dec _) => .NUM
  | .atom (.hex _) => .H
  | .atom (.reg _) => .REG
  | .op o => o.type
  | .lpar => .char '('
  | .rpar => .char ')'

def tokToken (t : Tok Atom Op) : Token := { type := tokType t, str := tokText t }

/-- A token that one rule matches whole, and that its string holds. -/
def PlainTok : Tok Atom Op → Prop
  | .atom (.dec d) => d.digits.length < 32
  | .atom (.reg r) => PlainReg r
  | _ => True

theorem matchRule_tok (t : Tok Atom Op) (ht : PlainTok t)
    (hs : t.isAtom = true → (first s).isAlphanum = false) :
    matchRule (tokText t ++ s) = some (tokType t, (tokText t).length) := by
  cases t with
  | atom a =>
    cases a with
    | dec d => exact matchRule_dec d (hs rfl)
    | hex h =>
      refine (matchRule_hex h (hs rfl)).trans ?_
      rw [tokText, Atom.text, List.length_cons, List.length_cons, Nat.add_comm]
      rfl
    | reg r =>
      refine (matchRule_reg ht (hs rfl)).trans ?_
      rw [tokText, Atom.text, List.length_cons, Nat.add_comm]
      rfl
  | op o => exact matchRule_op o s
  | lpar => exact matchRule_lpar s
  | rpar => exact matchRule_rpar s

theorem tokText_ne_nil (t : Tok Atom Op) : tokText t ≠ [] := by
  cases t with
  | atom a =>
    cases a with
    | dec d => exact d.nonempty
    | _ => exact List.cons_ne_nil _ _
  | op o => cases o <;> exact List.cons_ne_nil _ _
  | _ => exact List.cons_ne_nil _ _

theorem tokText_length (t : Tok Atom Op) (ht : PlainTok t) : (tokText t).length < 32 := by
  cases t with
  | atom a =>
    cases a with
    | dec d => exact ht
    | hex h =>
      have hl := h.short
      rw [tokText, Atom.text, List.length_cons, List.length_cons]
      omega
    | reg r =>
      have hl := ht.1
      rw [tokText, Atom.text, List.length_cons]
      omega
  | op o => cases o <;> decide
  | _ => decide

theorem tokType_ne (t : Tok Atom Op) : tokType t ≠ .NOTYPE := by
  cases t with
  | atom a => cases a <;> nofun
  | op o => cases o <;> nofun
  | _ => nofun

theorem makeTokenFrom_skip (k nr : Nat) (s : Text) :
    makeTokenFrom k nr s = makeTokenFrom 0 nr (s.drop k) := by
  induction k generalizing s with
  | zero => rfl
  | succ k ih =>
    cases s with
    | nil => rfl
    | cons c s => exact ih s

theorem makeTokenFrom_cons {u : Text} (hu : u ≠ []) (s : Text)
    (hm : matchRule (u ++ s) = some (ty, u.length)) :
    makeTokenFrom 0 nr (u ++ s) = if ty = .NOTYPE then makeTokenFrom 0 nr s
      else if 32 ≤ nr ∨ 32 ≤ u.length then .error .overrun
      else (makeTokenFrom 0 (nr + 1) s).map ({ type := ty, str := u } :: ·) := by
  obtain ⟨c, cs, rfl⟩ := List.exists_cons_of_ne_nil hu
  rw [List.cons_append] at hm ⊢
  have hd : (cs ++ s).drop ((c :: cs).length - 1) = s := List.drop_left
  have ht : (c :: (cs ++ s)).take (c :: cs).length = c :: cs := List.take_left' rfl
  simp only [makeTokenFrom, hm, makeTokenFrom_skip ((c :: cs).length - 1), hd, ht]

theorem makeTokenFrom_spaces (n : Nat) (hs : first s ≠ ' ') :
    makeTokenFrom 0 nr (List.replicate n ' ' ++ s) = makeTokenFrom 0 nr s := by
  cases n with
  | zero => rfl
  | succ n =>
    have hm : matchRule (List.replicate (n + 1) ' ' ++ s)
        = some (.NOTYPE, (List.replicate (n + 1) ' ').length) := by
      rw [matchRule_spaces n hs, List.length_replicate]
    have hne : List.replicate (n + 1) ' ' ≠ [] := nofun
    rw [makeTokenFrom_cons hne s hm, if_pos rfl]

theorem tokText_first (t : Tok Atom Op) : first (tokText t) ≠ ' ' ∧
    (t.isAtom = false → (first (tokText t)).isAlphanum = false) := by
  cases t with
  | atom a =>
    refine ⟨?_, nofun⟩
    cases a with
    | dec d =>
      obtain ⟨c, cs, hc⟩ := List.exists_cons_of_ne_nil d.nonempty
      have hd := d.isDigit c (hc ▸ List.mem_cons_self)
      rw [tokText, Atom.text, hc]
      exact ne_of_beq_false (beq_false_of_test hd rfl)
    | hex h => exact (by decide : '0' ≠ ' ')
    | reg r => exact (by decide : '$' ≠ ' ')
  | op o => cases o <;> exact ⟨by decide, fun _ => rfl⟩
  | lpar => exact ⟨by decide, fun _ => rfl⟩
  | rpar => exact ⟨by decide, fun _ => rfl⟩

theorem Spells.first_isAlphanum (h : Spells ts s) (ht : ∀ t ∈ ts.head?, t.isAtom = false) :
    (first s).isAlphanum = false := by
  cases h with
  | nil n => cases n <;> rfl
  | @cons ts s t n h =>
    cases n with
    | zero =>
      rw [List.replicate_zero, List.nil_append, first_append s (tokText_ne_nil t)]
      exact (tokText_first t).2 (ht t rfl)
    | succ n => rfl

theorem makeTokenFrom_spells (h : Spells ts s) (ha : Infix.Apart ts) (hp : ∀ t ∈ ts, PlainTok t)
    (hn : nr + ts.length ≤ 32) : makeTokenFrom 0 nr s = .ok (ts.map tokToken) := by
  induction h generalizing nr with
  | nil n =>
    rw [← List.append_nil (List.replicate n ' '), makeTokenFrom_spaces n (by decide)]
    rfl
  | @cons ts s t n h ih =>
    have ht := hp t List.mem_cons_self
    have hl := tokText_length t ht
    rw [List.length_cons] at hn
    have hs : first (tokText t ++ s) ≠ ' ' := by
      rw [first_append s (tokText_ne_nil t)]
      exact (tokText_first t).1
    rw [makeTokenFrom_spaces n hs, makeTokenFrom_cons (tokText_ne_nil t) s
      (matchRule_tok t ht fun hta => h.first_isAlphanum (ha.1 hta)), if_neg (tokType_ne t),
      if_neg (by omega), ih ha.2 (fun u hu => hp u (List.mem_cons_of_mem t hu)) (by omega)]
    rfl

end Rv64imCore.Sdb
