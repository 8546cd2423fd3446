import Rv64imCore.GolMachine

/-! RV64I on the words of the calls simulates the calls. -/

namespace Rv64imCore.Gol
set_option autoImplicit true
open Rv64i (Hart Store)

theorem pcOf_lt {prog : List (Call L)} (hsize : size prog < 1024) (r : List (Call L)) :
    0x80000000 ≤ pcOf prog r ∧ pcOf prog r < 0x80001000 := by
  rw [pcOf]
  omega

section Matches
variable [DecidableEq L] {prog : List (Call L)}

theorem REG_inj {r r' : Reg} : REG r = REG r' ↔ r = r' := by
  constructor
  · cases r <;> cases r' <;> first | exact fun _ => rfl | exact fun h => absurd h (by decide)
  · exact congrArg REG

theorem reg_write (h : Hart) (r r' : BitVec 5) (v : BitVec 64) :
    (h.write r v).reg r' = if r' = 0 then 0 else if r' = r then v else h.reg r' := by
  by_cases h0 : r' = 0
  · simp only [Hart.reg, if_pos h0]
  · simp only [Hart.reg, Hart.write, if_neg h0]
    by_cases hr : r = 0
    · subst hr
      rw [if_pos rfl, if_neg h0]
    · rw [if_neg hr, Function.update_apply]

theorem Matches.jumped {s : Mach L} (hm : Matches prog s t) (hr : r <:+ prog) :
    Matches prog { rest := r, data := s.data }
      { hart := t.hart.jump (BitVec.ofNat 64 (pcOf prog r)), log := t.log } :=
  { hm with suffix := hr, pc := rfl }

theorem Matches.wrote {s : Mach L} (hm : Matches prog s t) (hr : r <:+ prog) (rd : Reg) (v : Int) :
    Matches prog { rest := r, data := s.data.put rd v }
      { hart := (t.hart.write (REG rd) (BitVec.ofInt 64 v)).jump (BitVec.ofNat 64 (pcOf prog r))
        log := t.log } :=
  { hm with
    suffix := hr
    pc := rfl
    reg := by
      intro q
      rw [jump_reg, reg_write, Data.reg_put]
      simp only [REG_eq_zero, REG_inj]
      split
      · rfl
      · split
        · rfl
        · exact hm.reg q }

/-- What a word does to a hart. -/
def Does (w : Nat) (cycle : BitVec 64) (h h' : Hart) (l : List Store) : Prop :=
  h.execute (BitVec.ofNat 32 w) cycle = some h' ∧ h.stores (BitVec.ofNat 32 w) = l

theorem stores_nil {w : BitVec 32} (h : Hart) (ho : Rv64i.opcode w ≠ 0x23) : h.stores w = [] := by
  have hs : Rv64i.isStore w = false := by
    rw [Rv64i.isStore, beq_false_of_ne ho, Bool.false_and]
  rw [Hart.stores, hs]
  rfl

theorem Matches.pc_four {c : Call L} {d : Data} (hm : Matches prog { rest := c :: r, data := d } t)
    (hc : c.size = 1) : t.hart.pc + 4 = BitVec.ofNat 64 (pcOf prog r) := by
  rw [hm.pc, ← pc_next hm.suffix, hc, BitVec.ofNat_add]
  rfl

theorem Matches.exec_reg {c : Call L} {d : Data} (hm : Matches prog { rest := c :: r, data := d } t)
    (hc : c.emitted = [w]) (ho : Rv64i.opcode (BitVec.ofNat 32 w) ≠ 0x23)
    (he : t.hart.execute (BitVec.ofNat 32 w) cycle
      = some ((t.hart.write (REG rd) (BitVec.ofInt 64 v)).jump (t.hart.pc + 4))) :
    ∃ h' l, Does w cycle t.hart h' l ∧
      Matches prog { rest := r, data := d.put rd v } { hart := h', log := t.log ++ l } := by
  rw [hm.pc_four (congrArg List.length hc)] at he
  refine ⟨_, [], ⟨he, stores_nil t.hart ho⟩, ?_⟩
  rw [List.append_nil]
  exact hm.wrote (List.IsSuffix.trans (List.suffix_cons c r) hm.suffix) rd v

theorem itype_load {op f3 : Nat} {imm : Int} {rs1 rd : BitVec 5} (h3 : f3 < 8) (ho : op < 128)
    (hn : BitVec.ofNat 7 op ≠ 0x23) :
    Rv64i.opcode (BitVec.ofNat 32 (itype imm rs1.toNat f3 rd.toNat op)) ≠ 0x23 := by
  rw [itype_word h3 ho]
  simpa (disch := decide) only [Rv64i.opcode, BitVec.extractLsb'_append_eq_of_add_le,
    BitVec.extractLsb'_eq_self, BitVec.extractLsb'_append_eq_of_le] using hn

theorem rtype_load {f7 f3 : Nat} {rs2 rs1 rd : BitVec 5} (h7 : f7 < 128) (h3 : f3 < 8) :
    Rv64i.opcode (BitVec.ofNat 32 (rtype f7 rs2.toNat rs1.toNat f3 rd.toNat 0x33)) ≠ 0x23 :=
  ne_of_eq_of_ne (rtype_fields h7 h3 (by decide)).1 (by decide)

theorem setWidth_ofInt (z : Int) : (BitVec.ofInt 64 z).setWidth 32 = BitVec.ofInt 32 z := by
  apply BitVec.eq_of_toNat_eq
  rw [BitVec.toNat_setWidth, BitVec.toNat_ofInt, BitVec.toNat_ofInt]
  omega

theorem toNat_data {z : Int} (hz : gridBase ≤ z) (hk : z ≤ mark + 16) :
    (BitVec.ofInt 32 z).toNat = (z + 2 ^ 32).toNat := by
  rw [BitVec.toNat_ofInt]
  simp only [gridBase, mark] at hz hk
  omega

theorem Matches.exec_store {c : Call L} {d d' : Data} (hsize : size prog < 1024)
    (hm : Matches prog { rest := c :: r, data := d } t) {imm : Int} {rs2 rs1 : Reg} {f3 : Nat}
    (h3 : f3 < 4) (hc : c.emitted = [stype imm (REG rs2).toNat (REG rs1).toNat f3])
    (hl : -2048 ≤ imm) (hu : imm < 2048) (hz : gridBase ≤ d.reg rs1 + imm)
    (hn : d.reg rs1 + imm + 2 ^ f3 ≤ mark + 16) (hx : d'.x = d.x)
    (hmem : ∀ y, gridBase ≤ y → y < mark →
      ((t.hart.store (BitVec.ofInt 64 (d.reg rs1 + imm)) (2 ^ f3)
        (BitVec.ofInt 64 (d.reg rs2))).mem (BitVec.ofInt 32 y)).toNat = d'.m y)
    (hout : markers (t.log ++ [{ addr := BitVec.ofInt 32 (d.reg rs1 + imm), bytes := 2 ^ f3
                                 data := BitVec.ofInt 64 (d.reg rs2) }]) = d'.out) :
    ∃ h' l, Does (stype imm (REG rs2).toNat (REG rs1).toNat f3) cycle t.hart h' l ∧
      Matches prog { rest := r, data := d' } { hart := h', log := t.log ++ l } := by
  have hreg : ∀ q, t.hart.reg (REG q) = BitVec.ofInt 64 (d.reg q) := hm.reg
  have hb : (2 : Int) ^ f3 = (2 ^ f3 : Nat) := by norm_cast
  have hp : 0 < 2 ^ f3 := Nat.two_pow_pos f3
  have ha : ((BitVec.ofInt 64 (d.reg rs1 + imm)).setWidth 32).toNat
      = (d.reg rs1 + imm + 2 ^ 32).toNat := by
    rw [setWidth_ofInt, toNat_data hz (by omega)]
  refine ⟨_, _, ⟨execute_store f3 h3 hl hu, stores_store f3 h3 hl hu⟩, ?_⟩
  rw [hm.pc_four (congrArg List.length hc), hreg, hreg, ← BitVec.ofInt_add, setWidth_ofInt]
  refine
    { suffix := List.IsSuffix.trans (List.suffix_cons c r) hm.suffix
      pc := rfl
      reg := fun q => ?_
      mem := hmem
      image := fun k w hw j hj => ?_
      out := hout }
  · have h : d'.reg q = d.reg q := by rw [Data.reg, Data.reg, hx]
    exact (hreg q).trans (congrArg _ h.symm)
  · have hk : k < size prog := by
      rw [← assemble_length (labelPc prog) prog 0]
      exact (List.getElem?_eq_some_iff.mp hw).1
    rw [← hm.image k w hw j hj]
    refine store_frame t.hart ?_ (.inl ?_)
    · rw [ha]
      simp only [gridBase, mark] at *
      omega
    · rw [ha, BitVec.toNat_ofNat]
      simp only [gridBase, mark] at *
      omega

theorem Matches.mem_store {s : Mach L} (hm : Matches prog s t) {z y : Int} {n : Nat}
    (hz : gridBase ≤ z) (hn : z + n ≤ mark + 16) (hy : gridBase ≤ y) (hk : y < mark)
    (hd : y < z ∨ z + n ≤ y) (v : BitVec 64) :
    ((t.hart.store (BitVec.ofInt 64 z) n v).mem (BitVec.ofInt 32 y)).toNat = s.data.m y := by
  have hz' := toNat_data hz (by omega)
  have hy' := toNat_data hy (by omega)
  rw [store_frame t.hart, hm.mem y hy hk]
  · rw [setWidth_ofInt, hz']
    simp only [gridBase, mark] at *
    omega
  · rw [setWidth_ofInt, hz', hy']
    simp only [gridBase, mark] at *
    omega

theorem store_cell (h : Hart) {v : Int} (h0 : 0 ≤ v) (h256 : v < 256) (z : Int) :
    ((h.store (BitVec.ofInt 64 z) 1 (BitVec.ofInt 64 v)).mem (BitVec.ofInt 32 z)).toNat
      = v.toNat := by
  have hs : (h.store (BitVec.ofInt 64 z) 1 (BitVec.ofInt 64 v)).mem (BitVec.ofInt 32 z)
      = Bytes.byte (BitVec.ofInt 64 v) 0 := by
    rw [Hart.store, setWidth_ofInt]
    simp
  rw [hs, Bytes.byte, BitVec.extractLsb'_toNat, BitVec.toNat_ofInt, Nat.shiftRight_zero]
  omega

/-- No cell lies in the marker device. -/
theorem ofInt_ne_marker {z : Int} (hz : gridBase ≤ z) (hk : z < mark) {k : Nat}
    (h : 0xa0000100 ≤ k) (hk' : k < 2 ^ 32) : BitVec.ofInt 32 z ≠ BitVec.ofNat 32 k := by
  intro he
  have hn := congrArg BitVec.toNat he
  rw [toNat_data hz (by omega), BitVec.toNat_ofNat, Nat.mod_eq_of_lt hk'] at hn
  simp only [mark] at hk
  omega

theorem Matches.exec_sb {d : Data} {rs2 rs1 : Reg} {imm : Int} (hsize : size prog < 1024)
    (hm : Matches prog { rest := .sb rs2 imm rs1 :: r, data := d } t)
    (hl : -2048 ≤ imm) (hu : imm < 2048) (hg : gridBase ≤ d.reg rs1 + imm)
    (hk : d.reg rs1 + imm < mark) (h0 : 0 ≤ d.reg rs2) (h256 : d.reg rs2 < 256) :
    ∃ h' l, Does (stype imm (REG rs2).toNat (REG rs1).toNat 0) cycle t.hart h' l ∧
      Matches prog { rest := r, data := d.poke (d.reg rs1 + imm) (d.reg rs2).toNat }
        { hart := h', log := t.log ++ l } := by
  refine hm.exec_store hsize (by decide) rfl hl hu hg (by omega) rfl (fun y hy hyk => ?_) ?_
  · by_cases he : y = d.reg rs1 + imm
    · subst he
      exact (store_cell t.hart h0 h256 _).trans (d.m_poke_self ..).symm
    · exact (hm.mem_store hg (by omega) hy hyk (by omega) _).trans (d.m_poke_of_ne he _).symm
  · have h1 := ofInt_ne_marker hg hk (k := 0xa0000100) (by decide) (by decide)
    have h2 := ofInt_ne_marker hg hk (k := 0xa0000108) (by decide) (by decide)
    rw [markers, List.filter_append, ← markers, hm.out]
    simp [h1, h2]
    rfl

theorem Matches.exec_sd {d : Data} {rs2 rs1 : Reg} {imm : Int} (hsize : size prog < 1024)
    (hm : Matches prog { rest := .sd rs2 imm rs1 :: r, data := d } t)
    (hl : -2048 ≤ imm) (hu : imm < 2048)
    (hk : d.reg rs1 + imm = mark ∨ d.reg rs1 + imm = mark + 8) :
    ∃ h' l, Does (stype imm (REG rs2).toNat (REG rs1).toNat 3) cycle t.hart h' l ∧
      Matches prog { rest := r, data := d.send (d.reg rs1 + imm) (d.reg rs2) }
        { hart := h', log := t.log ++ l } := by
  have hg : gridBase ≤ d.reg rs1 + imm := by
    simp only [gridBase, mark] at *
    omega
  refine hm.exec_store hsize (by decide) rfl hl hu hg (by omega) rfl (fun y hy hyk => ?_) ?_
  · exact hm.mem_store hg (by omega) hy hyk (by omega) _
  · rw [markers, List.filter_append, ← markers, hm.out]
    rcases hk with hk | hk <;> rw [hk] <;> rfl

/-- One word for one call that only touches data. -/
theorem Matches.exec {c : Call L} {d : Data} (hsize : size prog < 1024)
    (hm : Matches prog { rest := c :: r, data := d } t)
    (hd : c.exec d = some d') (hw : c.emitted = [w]) (hli : ∀ rd val, c ≠ .li rd val) :
    ∃ h' l, Does w cycle t.hart h' l ∧
      Matches prog { rest := r, data := d' } { hart := h', log := t.log ++ l } := by
  have hreg : ∀ q, t.hart.reg (REG q) = BitVec.ofInt 64 (d.reg q) := hm.reg
  have hnat (z : Int) (h : 0 ≤ z) : BitVec.ofInt 64 z = BitVec.ofNat 64 z.toNat := by
    rw [← BitVec.ofInt_natCast, Int.toNat_of_nonneg h]
  have hs : r <:+ prog := List.IsSuffix.trans (List.suffix_cons c r) hm.suffix
  cases c <;> simp only [Call.exec] at hd <;> try (cases hd; done)
  case label => cases hw
  case addi rd rs imm =>
    split at hd <;> cases hd
    cases hw
    refine hm.exec_reg rfl (itype_load (by decide) (by decide) (by decide)) ?_
    rw [execute_addi (by omega) (by omega), hreg, ← BitVec.ofInt_add]
  case andi rd rs imm =>
    split at hd <;> cases hd
    rename_i hc
    cases hw
    refine hm.exec_reg rfl (itype_load (by decide) (by decide) (by decide)) ?_
    have he := @execute_opImm t.hart cycle imm (REG rd) (REG rs) .and (by decide) rfl (by omega)
      hc.2.1
    rw [BitVec.ofInt_natCast, BitVec.ofNat_and, ← hnat _ hc.2.2, ← hnat _ hc.1, ← hreg]
    exact he
  case add rd a b =>
    cases hd
    cases hw
    refine hm.exec_reg rfl (rtype_load (by decide) (by decide)) ?_
    rw [BitVec.ofInt_add, ← hreg, ← hreg]
    exact execute_op .add
  case sub rd a b =>
    cases hd
    cases hw
    refine hm.exec_reg rfl (rtype_load (by decide) (by decide)) ?_
    have hs : BitVec.ofInt 64 (d.reg a - d.reg b)
        = BitVec.ofInt 64 (d.reg a) - BitVec.ofInt 64 (d.reg b) := by
      rw [Int.sub_eq_add_neg, BitVec.ofInt_add, BitVec.ofInt_neg, BitVec.sub_eq_add_neg]
    rw [hs, ← hreg, ← hreg]
    exact execute_op .sub
  case xor rd a b =>
    split at hd <;> cases hd
    rename_i hc
    cases hw
    refine hm.exec_reg rfl (rtype_load (by decide) (by decide)) ?_
    rw [BitVec.ofInt_natCast, BitVec.ofNat_xor, ← hnat _ hc.1, ← hnat _ hc.2, ← hreg, ← hreg]
    exact execute_op .xor
  case lbu rd imm rs =>
    split at hd <;> cases hd
    rename_i hc
    cases hw
    refine hm.exec_reg rfl (itype_load (by decide) (by decide) (by decide)) ?_
    rw [execute_lbu hc.1 hc.2.1, hreg, ← BitVec.ofInt_add, setWidth_ofInt, BitVec.ofInt_natCast,
      ← hm.mem _ hc.2.2.1 hc.2.2.2, BitVec.ofNat_toNat]
  case sb rs2 imm rs1 =>
    split at hd <;> cases hd
    rename_i hc
    obtain ⟨hl, hu, hg, hk, h0, h256⟩ := hc
    cases hw
    exact hm.exec_sb hsize hl hu hg hk h0 h256
  case sd rs2 imm rs1 =>
    split at hd <;> cases hd
    rename_i hc
    obtain ⟨hl, hu, hk⟩ := hc
    cases hw
    exact hm.exec_sd hsize hl hu hk
  case li rd val => exact absurd rfl (hli rd val)
  case mv rd rs =>
    cases hd
    cases hw
    refine hm.exec_reg rfl (itype_load (by decide) (by decide) (by decide)) ?_
    rw [execute_addi (by decide) (by decide), hreg, ← BitVec.ofInt_add, Int.add_zero]

theorem next_word {c : Call L} (hs : c :: r <:+ prog)
    (hw : (c.words (labelPc prog) (size prog - size (c :: r)))[j]? = some w)
    (hi : Loaded (assemble (labelPc prog) 0 prog) h.mem)
    (hp : h.pc = BitVec.ofNat 64 (pcOf prog (c :: r) + 4 * j)) (hd : Does w cycle h h' l) :
    Rv64i.traced.next (some { hart := h, log := log }) cycle
      = some { hart := h', log := log ++ l } := by
  have hj : j < c.size := by
    rw [← Call.words_length (labelPc prog)]
    exact (List.getElem?_eq_some_iff.mp hw).1
  have hf : h.fetch = BitVec.ofNat 32 w := by
    refine fetch_loaded hi ((assemble_at (labelPc prog) hs hj).trans hw) ?_
    rw [hp, pcOf]
    congr 1
    omega
  have hn : Rv64i.traced.next (some { hart := h, log := log }) cycle =
      (h.execute h.fetch cycle).map fun h' =>
        { hart := h', log := log ++ h.stores h.fetch } := rfl
  rw [hn, hf, hd.1, hd.2]
  rfl

theorem Matches.next {c : Call L} {d : Data} (hm : Matches prog { rest := c :: r, data := d } t)
    (hw : c.words (labelPc prog) (size prog - size (c :: r)) = [w])
    (hd : Does w cycle t.hart h' l) :
    Rv64i.traced.next (some t) cycle = some { hart := h', log := t.log ++ l } :=
  next_word (j := 0) hm.suffix (by rw [hw]; rfl) hm.image hm.pc hd

theorem Does.masked (h : Does w cycle s h' l) : Does (w &&& 0xffffffff) cycle s h' l := by
  rw [Does, word_emit]
  exact h

theorem after_suffix {l : L} {cs r : List (Call L)} (h : after l cs = some r) : r <:+ cs := by
  induction cs with
  | nil => cases h
  | cons c cs ih =>
    rw [after, Option.or_eq_some_iff] at h
    rcases h with h | ⟨-, h⟩
    · exact (ih h).trans (List.suffix_cons c cs)
    · split at h
      · cases h
        exact List.suffix_cons c r
      · cases h

theorem offset_pc (a b : Nat) :
    BitVec.ofNat 64 a + BitVec.ofInt 64 (b - a) = BitVec.ofNat 64 b := by
  rw [← BitVec.ofInt_natCast, ← BitVec.ofInt_add, ← BitVec.ofInt_natCast]
  congr 1
  omega

theorem taken_test {kind : Kind} (hk : kind ≠ .jal) {x y : Int} (hx : Fits x) (hy : Fits y) :
    ∃ t, Rv64i.taken (BitVec.ofNat 3 kind.f3) (BitVec.ofInt 64 x) (BitVec.ofInt 64 y) = some t ∧
      (t = true ↔ kind.test x y) := by
  have hi (z : Int) (hz : Fits z) : (BitVec.ofInt 64 z).toInt = z := by
    rw [BitVec.toInt_ofInt, Int.bmod_def]
    simp only [Fits] at hz
    split <;> omega
  have he : BitVec.ofInt 64 x = BitVec.ofInt 64 y ↔ x = y := by
    rw [← BitVec.toInt_inj, hi x hx, hi y hy]
  cases kind with
  | beq => exact ⟨_, rfl, beq_iff_eq.trans he⟩
  | bne => exact ⟨_, rfl, bne_iff_ne.trans (not_congr he)⟩
  | blt =>
    refine ⟨_, rfl, ?_⟩
    rw [BitVec.slt_iff_toInt_lt, hi x hx, hi y hy]
    rfl
  | bge =>
    refine ⟨_, rfl, ?_⟩
    rw [Bool.not_eq_true', ← Bool.not_eq_true, BitVec.slt_iff_toInt_lt, hi x hx, hi y hy]
    exact Int.not_lt
  | jal => exact absurd rfl hk

theorem word_offset {l : L} (hl : after l prog = some r') (r : List (Call L)) :
    (labelPc prog l : Int) - (0x80000000 + 4 * ((size prog - size r : Nat) : Int))
      = pcOf prog r' - pcOf prog r := by
  rw [labelPc, hl, Option.getD_some]
  simp only [pcOf]
  push_cast
  rfl

theorem Matches.branch_word {kind : Kind} {l : L} (hk : kind ≠ .jal) (hl : after l prog = some r')
    (r : List (Call L)) :
    (Call.branch kind a b l).words (labelPc prog) (size prog - size r) =
      [btype (pcOf prog r' - pcOf prog r) (REG b).toNat (REG a).toNat kind.f3] := by
  rw [← word_offset hl]
  simp only [Call.words, Call.fixAt, Fix.word, Asm.resolved, if_neg hk]

theorem Matches.branch {kind : Kind} {l : L} {d : Data} (hsize : size prog < 1024)
    (hm : Matches prog { rest := .branch kind a b l :: r, data := d } t) (hk : kind ≠ .jal)
    (hl : after l prog = some r') (ha : Fits (d.reg a)) (hb : Fits (d.reg b)) :
    ∃ t', Rv64i.traced.next (some t) cycle = some t' ∧
      (kind.test (d.reg a) (d.reg b) → Matches prog { rest := r', data := d } t') ∧
      (¬kind.test (d.reg a) (d.reg b) → Matches prog { rest := r, data := d } t') := by
  have hreg : ∀ q, t.hart.reg (REG q) = BitVec.ofInt 64 (d.reg q) := hm.reg
  have hsuf : r <:+ prog := List.IsSuffix.trans (List.suffix_cons _ r) hm.suffix
  obtain ⟨tk, ht, htk⟩ := taken_test hk ha hb
  rw [← hreg, ← hreg] at ht
  have h1 := pcOf_lt hsize r'
  have h2 := pcOf_lt hsize (.branch kind a b l :: r)
  have he : ((pcOf prog r' : Int) - pcOf prog (.branch kind a b l :: r)) % 2 = 0 := by
    simp only [pcOf]
    omega
  have hx : t.hart.execute _ cycle = _ :=
    execute_branch kind tk ht (by omega) (by omega) he
  have ho : Rv64i.opcode (BitVec.ofNat 32 (btype (pcOf prog r' -
      pcOf prog (.branch kind a b l :: r)) (REG b).toNat (REG a).toNat kind.f3)) ≠ 0x23 :=
    ne_of_eq_of_ne (btype_fields (by cases kind <;> decide) (by omega) (by omega) he).1 (by decide)
  refine ⟨_, hm.next (branch_word hk hl _) ⟨hx, stores_nil _ ho⟩, fun hy => ?_, fun hn => ?_⟩
  · rw [if_pos (htk.mpr hy), hm.pc, offset_pc, List.append_nil]
    exact hm.jumped (after_suffix hl)
  · rw [if_neg (mt htk.mp hn), hm.pc_four rfl, List.append_nil]
    exact hm.jumped hsuf

theorem Matches.jal {rd : Reg} {l : L} {d : Data} (hsize : size prog < 1024)
    (hm : Matches prog { rest := .jal rd l :: r, data := d } t) (hl : after l prog = some r') :
    ∃ t', Rv64i.traced.next (some t) cycle = some t' ∧
      Matches prog { rest := r', data := d.put rd (pcOf prog r) } t' := by
  have h1 := pcOf_lt hsize r'
  have h2 := pcOf_lt hsize (.jal rd l :: r)
  have he : ((pcOf prog r' : Int) - pcOf prog (.jal rd l :: r)) % 2 = 0 := by
    simp only [pcOf]
    omega
  have hw : (Call.jal rd l).words (labelPc prog) (size prog - size (.jal rd l :: r)) =
      [jtype (pcOf prog r' - pcOf prog (.jal rd l :: r)) (REG rd).toNat] := by
    rw [← word_offset hl]
    rfl
  have hx := @execute_jal t.hart cycle _ (REG rd) (by omega) (by omega) he
  have ho : Rv64i.opcode (BitVec.ofNat 32 (jtype (pcOf prog r' - pcOf prog (.jal rd l :: r))
      (REG rd).toNat)) ≠ 0x23 :=
    ne_of_eq_of_ne (jtype_fields (by omega) (by omega) he).1 (by decide)
  refine ⟨_, hm.next hw ⟨hx, stores_nil _ ho⟩, ?_⟩
  rw [hm.pc_four rfl, hm.pc, offset_pc, List.append_nil, ← BitVec.ofInt_natCast]
  exact hm.wrote (after_suffix hl) rd _

theorem Matches.ret {d : Data} (hm : Matches prog { rest := .ret :: r, data := d } t)
    (hr : r' <:+ prog) (hra : d.reg .ra = (pcOf prog r' : Int)) :
    ∃ t', Rv64i.traced.next (some t) cycle = some t' ∧
      Matches prog { rest := r', data := d } t' := by
  have hp : (t.hart.reg (REG .ra)) &&& ~~~1 = BitVec.ofNat 64 (pcOf prog r') := by
    have h2 : pcOf prog r' % 2 = 0 := by rw [pcOf]; omega
    have he : (BitVec.ofNat 64 (pcOf prog r')).getLsbD 0 = false := by
      rw [BitVec.getLsbD_ofNat, Nat.testBit_zero, h2]
      rfl
    rw [hm.reg, hra, BitVec.ofInt_natCast]
    exact Bits.and_not_one he
  have hx := @execute_ret t.hart cycle (REG .zero) (REG .ra)
  rw [hp] at hx
  have hw : Call.ret.words (labelPc prog) (size prog - size (.ret :: r)) =
    [itype 0 (REG .ra).toNat 0 (REG .zero).toNat 0x67 &&& 0xffffffff] := rfl
  refine ⟨_, hm.next hw (Does.masked ⟨hx, stores_nil _ ?_⟩), ?_⟩
  · exact itype_load (by decide) (by decide) (by decide)
  · rw [List.append_nil]
    exact hm.jumped hr

theorem Matches.csrr {rd : Reg} {d : Data}
    (hm : Matches prog { rest := .csrrCycle rd :: r, data := d } t) :
    ∃ t', Rv64i.traced.next (some t) cycle = some t' ∧
      Matches prog { rest := r, data := d.put rd cycle.toNat } t' := by
  have hx := @execute_csrr t.hart cycle (REG rd)
  have hv : BitVec.ofInt 64 (cycle.toNat : Int) = cycle := by
    rw [BitVec.ofInt_natCast, BitVec.ofNat_toNat, BitVec.setWidth_eq]
  have ho := @itype_load 0x73 2 (-0x400) 0 (REG rd) (by decide) (by decide) (by decide)
  have hw : (Call.csrrCycle rd).words (labelPc prog) (size prog - size (.csrrCycle rd :: r)) =
    [(0xc00 <<< 20 ||| 0 <<< 15 ||| 2 <<< 12 ||| (REG rd).toNat <<< 7 ||| 0x73)
      &&& 0xffffffff] := rfl
  refine ⟨_, hm.next hw (Does.masked ⟨hx, stores_nil _ ho⟩), ?_⟩
  have hr := hm.wrote (List.IsSuffix.trans (List.suffix_cons _ r) hm.suffix) rd cycle.toNat
  rw [hv, ← hm.pc_four rfl] at hr
  rw [List.append_nil]
  exact hr

theorem Matches.step {c : Call L} {d : Data} (hsize : size prog < 1024)
    (hm : Matches prog { rest := c :: r, data := d } t)
    (hs : Step prog { rest := c :: r, data := d } cycle s') (hc : c.size = 1)
    (hli : ∀ rd val, c ≠ .li rd val) :
    ∃ t', Rv64i.traced.next (some t) cycle = some t' ∧ Matches prog s' t' := by
  cases hs with
  | exec hd =>
    obtain ⟨w, hw⟩ := List.length_eq_one_iff.mp hc
    have hf (k : Nat) : c.fixAt k = none := by
      cases c <;> first | rfl | cases hd
    have hws : c.words (labelPc prog) (size prog - size (c :: r)) = [w &&& 0xffffffff] := by
      rw [Call.words, hf, hw]
      rfl
    obtain ⟨h', l, hdo, hm'⟩ := hm.exec hsize hd hw hli
    exact ⟨_, hm.next hws hdo.masked, hm'⟩
  | csrr => exact hm.csrr
  | taken hk hl ha hb ht =>
    obtain ⟨t', hn, hy, -⟩ := hm.branch hsize hk hl ha hb
    exact ⟨t', hn, hy ht⟩
  | fall hk hl ha hb ht =>
    obtain ⟨t', hn, -, hy⟩ := hm.branch hsize hk hl ha hb
    exact ⟨t', hn, hy ht⟩
  | jal hl => exact hm.jal hsize hl
  | ret hr hra => exact hm.ret hr hra

/-- The states of the two machines. -/
def Runs (prog : List (Call L)) (s : Mach L) (o : Option Rv64i.Traced) : Prop :=
  ∃ t, o = some t ∧ Matches prog s t

/-- A machine step that ends in a state with `Q` whatever the cycle. -/
theorem leads_next {o : Option Rv64i.Traced} {Q : Option Rv64i.Traced → Prop}
    (h : ∀ cycle, Rv64i.traced.system.Leads Q (Rv64i.traced.next o cycle)) :
    Rv64i.traced.system.Leads Q o :=
  .next _ (fun _ => rfl) h

theorem Matches.li {rd : Reg} {d : Data}
    (hm : Matches prog { rest := .li rd val :: r, data := d } t) :
    Rv64i.traced.system.Leads (Runs prog { rest := r, data := d.put rd (liValue val) })
      (some t) := by
  have hwords : (Call.li rd val : Call L).words (labelPc prog)
      (size prog - size (.li rd val :: r)) = (liWords rd val).map (· &&& 0xffffffff) := rfl
  obtain ⟨hw, hl, hu⟩ | ⟨hi, lo, hw, hh, hl, hu, hv⟩ := liWords_cases rd val
  · refine leads_next fun cycle => ?_
    have hx := @execute_addi t.hart cycle (liValue val) (REG rd) (REG .zero) hl hu
    rw [show t.hart.reg (REG .zero) = 0#64 from rfl, BitVec.zero_add] at hx
    obtain ⟨h', l, hdo, hm'⟩ :=
      hm.exec_reg hw (itype_load (by decide) (by decide) (by decide)) hx
    rw [hw] at hwords
    rw [hm.next hwords hdo.masked]
    exact .now ⟨_, rfl, hm'⟩
  · rw [hw] at hwords
    have h8 : t.hart.pc + 8 = BitVec.ofNat 64 (pcOf prog r) := by
      have hs : (Call.li rd val : Call L).size = 2 := by rw [Call.size, Call.emitted, hw]; rfl
      rw [hm.pc, ← pc_next hm.suffix, hs, BitVec.ofNat_add]
      rfl
    have hd := hm.wrote (List.IsSuffix.trans (List.suffix_cons _ r) hm.suffix) rd (liValue val)
    rw [← h8, ← hv] at hd
    refine leads_next fun cycle => ?_
    have hlui := (@execute_pair t.hart hi lo (REG rd) hh hl hu cycle cycle).1
    have ho := ne_of_eq_of_ne (@utype_fields 0x37 hi (REG rd) (by decide)).1
      (show BitVec.ofNat 7 0x37 ≠ 0x23 by decide)
    rw [next_word (j := 0) hm.suffix (by rw [hwords]; rfl) hm.image hm.pc
      (Does.masked ⟨hlui, stores_nil _ ho⟩)]
    refine leads_next fun cycle' => ?_
    have haddi := (@execute_pair t.hart hi lo (REG rd) hh hl hu cycle cycle').2
    have ho' := @itype_load 0x13 0 lo (REG rd) (REG rd) (by decide) (by decide) (by decide)
    have hp : ((t.hart.write (REG rd) (BitVec.ofInt 64 (upper hi))).jump (t.hart.pc + 4)).pc
        = BitVec.ofNat 64 (pcOf prog (.li rd val :: r) + 4 * 1) := by
      rw [jump_pc, hm.pc, BitVec.ofNat_add]
      rfl
    rw [next_word (j := 1) (h := (t.hart.write (REG rd) _).jump _) hm.suffix
      (by rw [hwords]; rfl) hm.image hp (Does.masked ⟨haddi, stores_nil _ ho'⟩), List.append_nil,
      List.append_nil]
    exact .now ⟨_, rfl, hv ▸ hd⟩

/-- The words of the calls do what the calls do on integers. -/
theorem simulates (hsize : size prog < 1024) :
    Rv64i.traced.system.Simulates (machine prog) (Runs prog) := by
  rintro ⟨rest, d⟩ o f ⟨t, rfl, hm⟩ hs
  cases rest with
  | nil => nomatch hs 0
  | cons c r =>
    have hone (hc : c.size = 1) (hli : ∀ rd val, c ≠ .li rd val) :
        Rv64i.traced.system.Leads (fun o => ∃ i, Runs prog (f i) o) (some t) := by
      refine leads_next fun cycle => ?_
      obtain ⟨t', hn, hm'⟩ := hm.step hsize (hs cycle) hc hli
      rw [hn]
      exact .now ⟨cycle, t', rfl, hm'⟩
    cases c
    case label l =>
      have h0 := hs 0
      generalize hf : f 0 = s at h0
      cases h0 with
      | exec hd =>
        cases hd
        have hr := hm.jumped (List.IsSuffix.trans (List.suffix_cons _ r) hm.suffix)
        rw [← pc_next hm.suffix, show pcOf prog (.label l :: r) + 4 * (Call.label l).size
          = pcOf prog (.label l :: r) from rfl, ← hm.pc] at hr
        exact .now ⟨0, t, rfl, hf ▸ hr⟩
    case li rd val =>
      have h0 := hs 0
      generalize hf : f 0 = s at h0
      cases h0 with
      | exec hd =>
        cases hd
        exact hm.li.mono fun o ho => ⟨0, hf ▸ ho⟩
    all_goals exact hone rfl nofun

end Matches

end Rv64imCore.Gol
