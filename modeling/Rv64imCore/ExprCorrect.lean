import Rv64imCore.ExprEval
import Rv64imCore.ExprNumbers
import Rv64imCore.ExprTokens

/-! `expr` on well-formed expressions. -/

namespace Rv64imCore.Sdb
set_option autoImplicit true

open Infix (Tok)

theorem isaRegStr2val_regName (env : Env) {r : Fin 33} (hr : PlainReg r) :
    isaRegStr2val env (regName r) = some (if r = 32 then env.pc else env.gpr r) := by
  have hfind : ∀ r : Fin 33, (regName r).length ≤ 2 → r ≠ 31 → r ≠ 32 → r ≠ 0 →
      regName r ≠ ['p', 'c'] ∧ regName r ≠ ['0'] ∧
        ((List.range' 1 30).find? fun i => regName r = regs.getD i []) = some r.val := by
    decide +kernel
  by_cases h32 : r = 32
  · subst h32
    rfl
  · by_cases h0 : r = 0
    · subst h0
      rfl
    · obtain ⟨hpc, hz, hf⟩ := hfind r hr.1 hr.2 h32 h0
      rw [isaRegStr2val, if_neg hpc, if_neg hz, hf, if_neg h32]
      rfl

section Strings
variable {env : Env} {v w : BitVec 32} {st : Statics}

/-- Where the string of a token is found. -/
def ptrOf : Tok Atom Op → Ptr
  | .atom (.hex _) => .s1
  | .atom (.reg _) => .s2
  | _ => .token

/-- What the two buffers hold at the end is what every literal and every register is read as. -/
def asRead (v w : BitVec 32) : Atom → Text
  | .dec d => d.digits
  | .hex _ => sprintU v
  | .reg _ => sprintU w

theorem put_reg (st : Statics) (a : Nat) {r : Fin 33} (hr : PlainReg r) :
    st.put env a (tokToken (.atom (.reg r)))
      = { st.point a .s2 with s2 := sprintU (regValue env r) } := by
  have hf := isaRegStr2val_regName env hr
  simp only [Statics.put, tokToken, tokType, tokText, Atom.text, List.drop_one, List.tail_cons, hf]
  rfl

theorem put_hex (st : Statics) (a : Nat) (h : Hex) :
    st.put env a (tokToken (.atom (.hex h)))
      = { st.point a .s1 with s1 := sprintU (BitVec.ofNat 32 h.value) } := by
  simp only [Statics.put, tokToken, tokType, tokText, Atom.text, h.strtol_eq]

/-- What a token leaves in the first buffer. -/
def inS1 : Tok Atom Op → Option (BitVec 32)
  | .atom (.hex h) => some (BitVec.ofNat 32 h.value)
  | _ => none

/-- And in the second. -/
def inS2 (env : Env) : Tok Atom Op → Option (BitVec 32)
  | .atom (.reg r) => some (regValue env r)
  | _ => none

theorem put_tok (st : Statics) (a : Nat) {t : Tok Atom Op} (ht : PlainTok t) :
    st.put env a (tokToken t)
      = { st.point a (ptrOf t) with
          s1 := (inS1 t).elim st.s1 sprintU, s2 := (inS2 env t).elim st.s2 sprintU } := by
  cases t with
  | atom x =>
    cases x with
    | dec d => rfl
    | hex h => exact put_hex st a h
    | reg r => exact put_reg st a ht
  | op o => cases o <;> rfl
  | _ => rfl

theorem put_s1 (st : Statics) (a : Nat) {t : Tok Atom Op} (ht : PlainTok t) :
    (st.put env a (tokToken t)).s1 = (inS1 t).elim st.s1 sprintU :=
  congrArg Statics.s1 (put_tok st a ht)

theorem put_s2 (st : Statics) (a : Nat) {t : Tok Atom Op} (ht : PlainTok t) :
    (st.put env a (tokToken t)).s2 = (inS2 env t).elim st.s2 sprintU :=
  congrArg Statics.s2 (put_tok st a ht)

theorem put_str (st : Statics) (a : Nat) {t : Tok Atom Op} (ht : PlainTok t) :
    (st.put env a (tokToken t)).str = Function.update st.str a (some (ptrOf t)) :=
  congrArg Statics.str (put_tok st a ht)

theorem fill_str (a : Nat) {ts : List (Tok Atom Op)} (hp : ∀ t ∈ ts, PlainTok t) (hj : j < a) :
    (st.fill env a (ts.map tokToken)).str j = st.str j := by
  induction ts generalizing a st with
  | nil => rfl
  | cons t ts ih =>
    rw [List.map_cons, Statics.fill, ih (a + 1) (fun u hu => hp u (List.mem_cons_of_mem t hu))
      (Nat.lt_succ_of_lt hj), put_str st a (hp t List.mem_cons_self),
      Function.update_of_ne (Nat.ne_of_lt hj)]

/-- A buffer that all tokens agree on ends up with their value, if any of them writes it. -/
theorem fill_buffer (buf : Statics → Text) (own : Tok Atom Op → Option (BitVec 32))
    (hput : ∀ st a t, PlainTok t →
      buf (st.put env a (tokToken t)) = (own t).elim (buf st) sprintU)
    (a : Nat) {ts : List (Tok Atom Op)} (hp : ∀ t ∈ ts, PlainTok t)
    (hv : ∀ t ∈ ts, ∀ x, own t = some x → x = v)
    (hs : buf st = sprintU v ∨ ∃ t ∈ ts, own t = some v) :
    buf (st.fill env a (ts.map tokToken)) = sprintU v := by
  induction ts generalizing a st with
  | nil => exact hs.resolve_right fun ⟨t, hm, _⟩ => absurd hm List.not_mem_nil
  | cons t ts ih =>
    refine ih (a + 1) (fun u hu => hp u (List.mem_cons_of_mem t hu))
      (fun u hu => hv u (List.mem_cons_of_mem t hu)) ?_
    rw [hput st a t (hp t List.mem_cons_self)]
    cases ho : own t with
    | some x => exact .inl (by rw [hv t List.mem_cons_self x ho]; rfl)
    | none =>
      refine hs.imp_right fun ⟨u, hu, hx⟩ => ⟨u, (List.mem_cons.mp hu).resolve_left ?_, hx⟩
      rintro rfl
      exact nomatch ho.symm.trans hx

theorem texts_fill (a : Nat) {ts : List (Tok Atom Op)} (hp : ∀ t ∈ ts, PlainTok t)
    {st' : Statics} (hst : st.fill env a (ts.map tokToken) = st')
    (h1 : ∀ h, .atom (.hex h) ∈ ts → st'.s1 = sprintU v)
    (h2 : ∀ r, .atom (.reg r) ∈ ts → st'.s2 = sprintU w) :
    st'.texts a (ts.map tokToken) = some (ts.map (spell (asRead v w))) := by
  induction ts generalizing a st with
  | nil => rfl
  | cons t ts ih =>
    have hp' : ∀ u ∈ ts, PlainTok u := fun u hu => hp u (List.mem_cons_of_mem t hu)
    have hstr : st'.str a = some (ptrOf t) := by
      rw [← hst, List.map_cons, Statics.fill, fill_str (a + 1) hp' (Nat.lt_succ_self a),
        put_str st a (hp t List.mem_cons_self), Function.update_self]
    have htext : st'.text a (tokToken t) = some (spell (asRead v w) t) := by
      rw [Statics.text, hstr, Option.map_some]
      cases t with
      | atom x =>
        cases x with
        | dec d => rfl
        | hex h => exact congrArg some (h1 h List.mem_cons_self)
        | reg r => exact congrArg some (h2 r List.mem_cons_self)
      | _ => rfl
    rw [List.map_cons, Statics.texts, htext, Option.bind_some, ih (a + 1) hp' hst
      (fun h hm => h1 h (List.mem_cons_of_mem t hm)) fun r hm => h2 r (List.mem_cons_of_mem t hm)]
    rfl

end Strings

/-- The value comes out, whatever was evaluated before and however the expression is spaced. -/
def Expr.Correct (env : Env) (e : Expr) : Prop :=
  ∀ (st : Statics) (s : Text), Spells e.tokens s →
    ∃ st', expr env st s true = some (true, e.value env, st')

theorem Expr.Plain.tok {env : Env} {e : Expr} (h : e.Plain env) :
    ∀ t ∈ e.tokens, PlainTok t := by
  intro t ht
  cases t with
  | atom x =>
    have hx := Infix.mem_atoms ht
    cases x with
    | dec d => exact (h.dec d hx).short
    | hex x => trivial
    | reg r => exact h.reg r hx
  | _ => trivial

theorem exists_value {α β : Type} (p : α → Prop) (f : α → β) (b : β)
    (h : ∀ x y, p x → p y → f x = f y) : ∃ v, ∀ x, p x → f x = v := by
  by_cases hp : ∃ x, p x
  · obtain ⟨x, hx⟩ := hp
    exact ⟨f x, fun y hy => h y x hy hx⟩
  · exact ⟨b, fun x hx => absurd ⟨x, hx⟩ hp⟩

theorem Expr.Plain.read {env : Env} {e : Expr} (h : e.Plain env) :
    ∃ v w, (∀ x, .hex x ∈ e.atoms → BitVec.ofNat 32 x.value = v) ∧
      (∀ r, .reg r ∈ e.atoms → regValue env r = w) ∧
      ∀ a ∈ e.atoms, a.value env = BitVec.ofNat 32 (strtoul (asRead v w a)) := by
  obtain ⟨v, hv⟩ := exists_value (fun x => .hex x ∈ e.atoms) (fun x => BitVec.ofNat 32 x.value) 0
    fun x y hx hy => congrArg (BitVec.ofNat 32) (h.hex x y hx hy)
  obtain ⟨w, hw⟩ := exists_value (fun r => .reg r ∈ e.atoms) (regValue env) 0 h.same
  refine ⟨v, w, hv, hw, fun a ha => ?_⟩
  cases a with
  | dec d => rw [Atom.value, asRead, (h.dec d ha).strtoul_eq]
  | hex x =>
    rw [Atom.value, asRead, strtoul_sprintU, hv x ha, BitVec.ofNat_toNat, BitVec.setWidth_eq]
  | reg r =>
    rw [Atom.value, asRead, strtoul_sprintU, hw r ha, BitVec.ofNat_toNat, BitVec.setWidth_eq]

theorem first_asRead (v w : BitVec 32) (a : Atom) : (first (asRead v w a)).isDigit = true := by
  cases a with
  | dec d => exact first_isDigit_of_all d.nonempty d.isDigit
  | hex h => exact first_isDigit_of_all Nat.toDigits_ne_nil (sprintU_isDigit v)
  | reg r => exact first_isDigit_of_all Nat.toDigits_ne_nil (sprintU_isDigit w)

theorem Expr.Plain.texts {env : Env} {e : Expr} (h : e.Plain env) (st : Statics)
    (hv : ∀ x, .hex x ∈ e.atoms → BitVec.ofNat 32 x.value = v)
    (hw : ∀ r, .reg r ∈ e.atoms → regValue env r = w) :
    (st.fill env 0 (e.tokens.map tokToken)).texts 0 (e.tokens.map tokToken)
      = some (e.tokens.map (spell (asRead v w))) := by
  have h1 : ∀ t ∈ e.tokens, ∀ y, inS1 t = some y → y = v := by
    intro t ht y hy
    cases t with
    | atom a =>
      cases a with
      | hex x => exact (Option.some.inj hy).symm.trans (hv x (Infix.mem_atoms ht))
      | _ => nomatch hy
    | _ => nomatch hy
  have h2 : ∀ t ∈ e.tokens, ∀ y, inS2 env t = some y → y = w := by
    intro t ht y hy
    cases t with
    | atom a =>
      cases a with
      | reg r => exact (Option.some.inj hy).symm.trans (hw r (Infix.mem_atoms ht))
      | _ => nomatch hy
    | _ => nomatch hy
  refine texts_fill 0 h.tok rfl (fun x hx => ?_) fun r hr => ?_
  · exact fill_buffer Statics.s1 inS1 (fun st a t ht => put_s1 st a ht) 0 h.tok h1
      (.inr ⟨_, hx, congrArg some (hv x (Infix.mem_atoms hx))⟩)
  · exact fill_buffer Statics.s2 (inS2 env) (fun st a t ht => put_s2 st a ht) 0 h.tok h2
      (.inr ⟨_, hr, congrArg some (hw r (Infix.mem_atoms hr))⟩)

/-- Registers that hold their own number. -/
def numbered : Env :=
  { gpr := fun i => BitVec.ofNat 64 i, pc := 0x80000000, paddrRead := fun _ => 0
    before := Char.ofNat 0 }

def digit (c : Char) (h : c.isDigit = true) : Expr :=
  .atom (.dec { digits := [c], nonempty := nofun
                isDigit := fun d hd => by rw [List.mem_singleton.mp hd]; exact h })

def hexDigit (c : Char) (h : isDigitOf 16 c = true) : Hex :=
  { x := 'x', isX := .inl rfl, digits := [c], nonempty := nofun, short := Nat.le_add_left 1 7
    isDigit := fun d hd => by rw [List.mem_singleton.mp hd]; exact h }

/-- `7/2*(0xf-$a0)`. -/
def product : Expr :=
  .bin .mul (.bin .div (digit '7' rfl) (digit '2' rfl))
    (.paren (.bin .sub (.atom (.hex (hexDigit 'f' rfl))) (.atom (.reg 10))))

theorem product_atoms {a : Atom} (h : a ∈ product.atoms) :
    (∃ d : Dec, a = .dec d ∧ d.Plain) ∨ a = .hex (hexDigit 'f' rfl) ∨ a = .reg 10 := by
  simp only [product, digit, Infix.Expr.atoms, List.cons_append, List.nil_append, List.mem_cons,
    List.not_mem_nil, or_false] at h
  obtain rfl | rfl | rfl | rfl := h
  · exact .inl ⟨_, rfl, by decide, by decide, by decide⟩
  · exact .inl ⟨_, rfl, by decide, by decide, by decide⟩
  · exact .inr (.inl rfl)
  · exact .inr (.inr rfl)

theorem product_plain : product.Plain numbered where
  dec d hd := by
    obtain ⟨_, ⟨⟩, hd⟩ | ⟨⟨⟩⟩ | ⟨⟨⟩⟩ := product_atoms hd
    exact hd
  hex h h' hh hh' := by
    obtain ⟨_, ⟨⟩, _⟩ | ⟨⟨⟩⟩ | ⟨⟨⟩⟩ := product_atoms hh
    obtain ⟨_, ⟨⟩, _⟩ | ⟨⟨⟩⟩ | ⟨⟨⟩⟩ := product_atoms hh'
    rfl
  reg r hr := by
    obtain ⟨_, ⟨⟩, _⟩ | ⟨⟨⟩⟩ | ⟨⟨⟩⟩ := product_atoms hr
    exact ⟨by decide, by decide⟩
  same r r' hr hr' := by
    obtain ⟨_, ⟨⟩, _⟩ | ⟨⟨⟩⟩ | ⟨⟨⟩⟩ := product_atoms hr
    obtain ⟨_, ⟨⟩, _⟩ | ⟨⟨⟩⟩ | ⟨⟨⟩⟩ := product_atoms hr'
    rfl
  noTrap := ⟨⟨trivial, trivial, fun _ => by decide⟩, ⟨trivial, trivial, nofun⟩, nofun⟩

theorem expr_correct (env : Env) (e : Expr) (hw : e.WellFormed Op.prec)
    (hn : e.tokens.length ≤ 32) (hz : e.NoDivisionByZero env) (hp : e.Plain env) :
    e.Correct env := by
  intro st s hs
  have htok : makeToken s = .ok (e.tokens.map tokToken) :=
    makeTokenFrom_spells hs (Infix.apart_tokens e) hp.tok (by rwa [Nat.zero_add])
  obtain ⟨v, w, hv, hw', hread⟩ := hp.read
  have heval := @eval_spell env (asRead v w) env.before e hw (fun a _ => first_asRead v w a)
    ((hz.imp₂ hp.noTrap fun o a b hb ht ho => ⟨hb ho, ht ho⟩).congr hread)
  refine ⟨st.fill env 0 (e.tokens.map tokToken), ?_⟩
  rw [expr, htok]
  simp only [hp.texts st hv hw', Option.bind_some, heval, Option.map_some]
  rw [Expr.value, Infix.Expr.eval_congr e hread]

theorem expr_correct_product : product.value numbered = 15 ∧ product.Correct numbered :=
  ⟨by decide, expr_correct numbered product
    ⟨⟨trivial, trivial, trivial, trivial⟩, ⟨trivial, trivial, trivial, trivial⟩,
      Fin.le_refl 3, trivial⟩ (by decide)
    ⟨⟨trivial, trivial, fun _ => by decide⟩, ⟨trivial, trivial, nofun⟩, nofun⟩ product_plain⟩

def hexPair (o : Op) (h h' : Hex) : Expr := .bin o (.atom (.hex h)) (.atom (.hex h'))

/-- Two hexadecimal literals share one buffer: both are read as the second. -/
theorem expr_hexPair (env : Env) (st : Statics) {o : Op} (ho : o ≠ .div) (h h' : Hex)
    (hs : Spells (hexPair o h h').tokens s) :
    ∃ st', expr env st s true = some (true,
      o.apply (BitVec.ofNat 32 h'.value) (BitVec.ofNat 32 h'.value), st') := by
  have hp : ∀ t ∈ (hexPair o h h').tokens, PlainTok t := by
    simp [hexPair, Infix.Expr.tokens, PlainTok]
  have htok : makeToken s = .ok ((hexPair o h h').tokens.map tokToken) :=
    makeTokenFrom_spells hs (Infix.apart_tokens _) hp (show 0 + 3 ≤ 32 by decide)
  have htexts := @texts_fill env (BitVec.ofNat 32 h'.value) 0 st 0 (hexPair o h h').tokens hp _ rfl
    (fun x _ => congrArg Statics.s1 (@put_hex env _ 2 h'))
    fun r hr => by simp [hexPair, Infix.Expr.tokens] at hr
  have heval := @eval_spell env (asRead (BitVec.ofNat 32 h'.value) 0) env.before (hexPair o h h')
    ⟨trivial, trivial, trivial, trivial⟩ (fun a _ => first_asRead _ _ a)
    ⟨trivial, trivial, fun hd => absurd hd ho⟩
  refine ⟨st.fill env 0 ((hexPair o h h').tokens.map tokToken), ?_⟩
  rw [expr, htok]
  simp only [htexts, Option.bind_some, heval, Option.map_some]
  simp only [hexPair, Infix.Expr.eval, asRead, strtoul_sprintU, BitVec.ofNat_toNat,
    BitVec.setWidth_eq]

/-- `0x1+0x2`. -/
def sum : Expr := hexPair .add (hexDigit '1' rfl) (hexDigit '2' rfl)

theorem expr_misreads : sum.WellFormed Op.prec ∧ sum.tokens.length ≤ 32 ∧
    sum.NoDivisionByZero numbered ∧ ¬sum.Correct numbered := by
  refine ⟨⟨trivial, trivial, trivial, trivial⟩, by decide, ⟨trivial, trivial, nofun⟩, fun h => ?_⟩
  let st : Statics := { str := fun _ => none, s1 := [], s2 := [] }
  have hs : Spells sum.tokens ['0', 'x', '1', '+', '0', 'x', '2'] :=
    .cons 0 (.cons 0 (.cons 0 (.nil 0)))
  obtain ⟨st₁, h₁⟩ := h st _ hs
  obtain ⟨st₂, h₂⟩ := expr_hexPair numbered st (by decide) _ _ hs
  have hval : sum.value numbered = 4 :=
    congrArg (fun r => r.2.1) (Option.some.inj (h₁.symm.trans h₂))
  exact absurd hval (by decide)

/-- `0x1*0x0` is read as `0x0*0x0`, which is as good. -/
theorem correct_by_chance (env : Env) :
    (hexPair .mul (hexDigit '1' rfl) (hexDigit '0' rfl)).Correct env := by
  intro st s hs
  exact expr_hexPair env st (by decide) _ _ hs

end Rv64imCore.Sdb
