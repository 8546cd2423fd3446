import Rv64imCore.Bytes
import Rv64imCore.DecodeFacts
import Rv64imCore.Lsu
import Rv64imCore.Rv64i

/-! The lanes of loads and stores: where the LSU places the bytes of a store, and which bytes of a
word it hands to a load. -/

namespace Rv64imCore
set_option autoImplicit true
open Bytes (byte ofBytes merge)

namespace Alu

theorem opInfo_mem {inst : BitVec 32} (h : Id.memOp inst = true) :
    (Id.info inst).opInfo = Id.memInfo inst := by
  have hc := (classes_info inst).mem (by rw [memReq_info, h])
  simp only [aluReq_info, bjpReq_info, muldivReq_info, sysReq_info, csrReq_info] at hc
  simp [Id.info, h, hc]

theorem mem_wires {inst : BitVec 32} (h : Id.memOp inst = true) :
    memLb (Id.info inst) = Id.lb inst ∧ memLh (Id.info inst) = Id.lh inst ∧
    memLw (Id.info inst) = Id.lw inst ∧ memLd (Id.info inst) = Id.ld inst ∧
    memLbu (Id.info inst) = Id.lbu inst ∧ memLhu (Id.info inst) = Id.lhu inst ∧
    memLwu (Id.info inst) = Id.lwu inst ∧ memSb (Id.info inst) = Id.sb inst ∧
    memSh (Id.info inst) = Id.sh inst ∧ memSw (Id.info inst) = Id.sw inst ∧
    memSd (Id.info inst) = Id.sd inst := by
  simp only [memLb, memLh, memLw, memLd, memLbu, memLhu, memLwu, memSb, memSh, memSw, memSd,
    memReq_info, h, opInfo_mem h, Bool.true_and, Id.memInfo, BitVec.getLsbD_ofBoolListBE]
  exact ⟨rfl, rfl, rfl, rfl, rfl, rfl, rfl, rfl, rfl, rfl, rfl⟩

theorem fun3_eq (inst : BitVec 32) : Id.fun3 inst = Rv64i.funct3 inst := rfl

theorem memRwLen_store {inst : BitVec 32} (h : Rv64i.isStore inst = true) :
    memRwLen (Id.info inst) = 1#5 <<< Rv64i.funct3 inst ∧ (Rv64i.funct3 inst).ult 4 = true := by
  simp only [Rv64i.isStore, Bool.and_eq_true, beq_iff_eq] at h
  refine ⟨?_, h.2⟩
  have ho : Id.opcode inst = 0b0100011 := h.1
  have hs : Id.decSt inst = true := by simp [Id.decSt, ho]
  have hl : Id.decLd inst = false := by simp [Id.decLd, ho]
  obtain ⟨w1, w2, w3, w4, w5, w6, w7, w8, w9, w10, w11⟩ :=
    @mem_wires inst (by simp [Id.memOp, hs])
  rw [memRwLen, w1, w2, w3, w4, w5, w6, w7, w8, w9, w10, w11, Id.lb, Id.lh, Id.lw, Id.ld, Id.lbu,
    Id.lhu, Id.lwu, Id.sb, Id.sh, Id.sw, Id.sd]
  simp only [Id.load, Id.store]
  rw [hs, hl, fun3_eq]
  have hf := h.2
  revert hf
  generalize Rv64i.funct3 inst = f
  revert f
  decide

/-- The code of a load; bit 4 asks for the sign. -/
def loadLen (f : BitVec 3) : BitVec 5 :=
  BitVec.ofBool (!f.getLsbD 2 && f != 3) ++ (1#4 <<< f.extractLsb' 0 2)

theorem loadLen_codes : loadLen 0 = 0b10001 ∧ loadLen 1 = 0b10010 ∧ loadLen 2 = 0b10100 ∧
    loadLen 3 = 0b01000 ∧ loadLen 4 = 0b00001 ∧ loadLen 5 = 0b00010 ∧ loadLen 6 = 0b00100 := by
  decide

theorem memRwLen_load {inst : BitVec 32} (h : Rv64i.isLoad inst = true) :
    memRwLen (Id.info inst) = loadLen (Rv64i.funct3 inst) ∧ Rv64i.funct3 inst ≠ 7 := by
  simp only [Rv64i.isLoad, Bool.and_eq_true, beq_iff_eq, bne_iff_ne] at h
  refine ⟨?_, h.2⟩
  have ho : Id.opcode inst = 0b0000011 := h.1
  have hs : Id.decSt inst = false := by simp [Id.decSt, ho]
  have hl : Id.decLd inst = true := by simp [Id.decLd, ho]
  obtain ⟨w1, w2, w3, w4, w5, w6, w7, w8, w9, w10, w11⟩ :=
    @mem_wires inst (by simp [Id.memOp, hl])
  rw [memRwLen, w1, w2, w3, w4, w5, w6, w7, w8, w9, w10, w11, Id.lb, Id.lh, Id.lw, Id.ld, Id.lbu,
    Id.lhu, Id.lwu, Id.sb, Id.sh, Id.sw, Id.sd]
  simp only [Id.load, Id.store]
  rw [hs, hl, fun3_eq]
  have hf := h.2
  revert hf
  generalize Rv64i.funct3 inst = f
  revert f
  decide

end Alu

namespace Ls

theorem lane_cases (hj : j < 8) :
    j = 0 ∨ j = 1 ∨ j = 2 ∨ j = 3 ∨ j = 4 ∨ j = 5 ∨ j = 6 ∨ j = 7 := by
  omega

theorem byte_halves (h : Nat → BitVec 16) (hj : j < 8) :
    byte (h 3 ++ h 2 ++ h 1 ++ h 0) j = (h (j / 2)).extractLsb' (8 * (j % 2)) 8 := by
  apply BitVec.eq_of_getLsbD_eq
  intro k hk
  rcases lane_cases hj with rfl | rfl | rfl | rfl | rfl | rfl | rfl | rfl <;>
    simp only [byte, BitVec.getLsbD_extractLsb', BitVec.getLsbD_append, hk] <;> grind

theorem byte_words (h : Nat → BitVec 32) (hj : j < 8) :
    byte (h 1 ++ h 0) j = (h (j / 4)).extractLsb' (8 * (j % 4)) 8 := by
  apply BitVec.eq_of_getLsbD_eq
  intro k hk
  rcases lane_cases hj with rfl | rfl | rfl | rfl | rfl | rfl | rfl | rfl <;>
    simp only [byte, BitVec.getLsbD_extractLsb', BitVec.getLsbD_append, hk] <;> grind

theorem byte_mask (c : Bool) (x : BitVec 64) (h : 8 * i + 8 ≤ w) :
    (mask c (x.extractLsb' 0 w)).extractLsb' (8 * i) 8 = mask c (byte x i) := by
  cases c with
  | false => simp
  | true =>
    apply BitVec.eq_of_getLsbD_eq
    intro k hk
    have hw : 8 * i + k < w := by omega
    simp [byte, hk, hw]

/-- The lanes of a store of `n` bytes: lane `j` is written when the address is that of its group,
with the byte of its place in the group. -/
structure Places (m : BitVec 8) (d : BitVec 64) (a x : BitVec 64) (n : Nat) : Prop where
  mask : ∀ j, j < 8 → m.getLsbD j = strIndex a (BitVec.ofNat 3 (j - j % n))
  data : ∀ j, j < 8 → byte d j = Rv64imCore.mask (strIndex a (BitVec.ofNat 3 (j - j % n)))
    (byte x (j % n))

section Stores
variable (a x : BitVec 64)

theorem places_byte : Places (wmask a 1) (wdata a x 1) a x 1 where
  mask := by
    intro j hj
    have hm : wmask a 1 = BitVec.ofBoolListBE [strIndex a 7, strIndex a 6, strIndex a 5,
        strIndex a 4, strIndex a 3, strIndex a 2, strIndex a 1, strIndex a 0] := by
      simp [wmask]
      exact BitVec.or_zero
    rw [hm, BitVec.getLsbD_ofBoolListBE]
    rcases lane_cases hj with rfl | rfl | rfl | rfl | rfl | rfl | rfl | rfl <;> rfl
  data := by
    intro j hj
    have hd : wdata a x 1 = ofBytes fun j =>
        Rv64imCore.mask (strIndex a (BitVec.ofNat 3 (j - j % 1))) (byte x (j % 1)) := by
      simp [wdata]
      rfl
    rw [hd, Bytes.byte_ofBytes _ hj]

theorem places_half : Places (wmask a 2) (wdata a x 2) a x 2 where
  mask := by
    intro j hj
    have hm : wmask a 2 = BitVec.ofBoolListBE [strIndex a 6, strIndex a 6, strIndex a 4,
        strIndex a 4, strIndex a 2, strIndex a 2, strIndex a 0, strIndex a 0] := by
      simp [wmask]
      exact BitVec.or_zero
    rw [hm, BitVec.getLsbD_ofBoolListBE]
    rcases lane_cases hj with rfl | rfl | rfl | rfl | rfl | rfl | rfl | rfl <;> rfl
  data := by
    intro j hj
    have hd : wdata a x 2 = shRes a x := by simp [wdata]
    have hh := byte_halves (fun k => Rv64imCore.mask (strIndex a (BitVec.ofNat 3 (2 * k)))
      (x.extractLsb' 0 16)) hj
    have he : 2 * (j / 2) = j - j % 2 := by omega
    rw [byte_mask _ x (by omega), he] at hh
    rw [hd]
    exact hh

theorem places_word : Places (wmask a 4) (wdata a x 4) a x 4 where
  mask := by
    intro j hj
    have hm : wmask a 4 = BitVec.ofBoolListBE [strIndex a 4, strIndex a 4, strIndex a 4,
        strIndex a 4, strIndex a 0, strIndex a 0, strIndex a 0, strIndex a 0] := by
      simp [wmask]
      exact BitVec.or_zero
    rw [hm, BitVec.getLsbD_ofBoolListBE]
    rcases lane_cases hj with rfl | rfl | rfl | rfl | rfl | rfl | rfl | rfl <;> rfl
  data := by
    intro j hj
    have hd : wdata a x 4 = swRes a x := by simp [wdata]
    have hh := byte_words (fun k => Rv64imCore.mask (strIndex a (BitVec.ofNat 3 (4 * k)))
      (x.extractLsb' 0 32)) hj
    have he : 4 * (j / 4) = j - j % 4 := by omega
    rw [byte_mask _ x (by omega), he] at hh
    rw [hd]
    exact hh

theorem places_double : Places (wmask a 8) (wdata a x 8) a x 8 where
  mask := by
    intro j hj
    have hm : wmask a 8 = BitVec.ofBoolListBE [strIndex a 0, strIndex a 0, strIndex a 0,
        strIndex a 0, strIndex a 0, strIndex a 0, strIndex a 0, strIndex a 0] := by
      simp [wmask]
    rw [hm, BitVec.getLsbD_ofBoolListBE]
    rcases lane_cases hj with rfl | rfl | rfl | rfl | rfl | rfl | rfl | rfl <;> rfl
  data := by
    intro j hj
    have hd : wdata a x 8 = sdRes a x := by simp [wdata]
    have hm : j % 8 = j := Nat.mod_eq_of_lt hj
    rw [hd, sdRes, hm, Nat.sub_self]
    cases strIndex a 0 <;> simp [byte]

/-- The group of a lane is that of the address exactly when the access covers the lane. -/
theorem strIndex_group {n j : Nat} (hn : n = 1 ∨ n = 2 ∨ n = 4 ∨ n = 8) (hj : j < 8)
    (ha : a.toNat % n = 0) : strIndex a (BitVec.ofNat 3 (j - j % n)) =
      decide (Rv64i.offset a ≤ j ∧ j < Rv64i.offset a + n) := by
  have hx : (a.extractLsb' 0 3).toNat = Rv64i.offset a := by
    rw [BitVec.extractLsb'_toNat]
    rfl
  have hk : (BitVec.ofNat 3 (j - j % n)).toNat = j - j % n := by
    rw [BitVec.toNat_ofNat]
    omega
  have hi : strIndex a (BitVec.ofNat 3 (j - j % n)) = decide (Rv64i.offset a = j - j % n) := by
    rw [strIndex, beq_eq_decide, decide_eq_decide, ← BitVec.toNat_inj, hx, hk]
  rw [hi, decide_eq_decide]
  have ho : Rv64i.offset a = a.toNat % 8 := rfl
  rcases hn with rfl | rfl | rfl | rfl <;> omega

theorem places_store {st : BitVec 32} (h : Rv64i.isStore st = true) :
    Places (wmask a (Alu.memRwLen (Id.info st))) (wdata a x (Alu.memRwLen (Id.info st))) a x
      (Rv64i.accessBytes (Rv64i.funct3 st)) := by
  obtain ⟨hl, hf⟩ := Alu.memRwLen_store h
  rw [hl]
  have hc : ∀ f : BitVec 3, f.ult 4 = true → f = 0 ∨ f = 1 ∨ f = 2 ∨ f = 3 := by decide
  rcases hc _ hf with hf | hf | hf | hf <;> rw [hf]
  · exact places_byte a x
  · exact places_half a x
  · exact places_word a x
  · exact places_double a x

end Stores

theorem lane_true (d : BitVec 64) (h : 0 < w) (hw : w ≤ 64) :
    lane d true lsb w = (d.extractLsb' lsb w).signExtend 64 := by
  apply BitVec.eq_of_getLsbD_eq
  intro k hk
  rw [lane, BitVec.getLsbD_setWidth, BitVec.getLsbD_append, BitVec.getLsbD_signExtend,
    BitVec.msb_eq_getLsbD_last, BitVec.getLsbD_extractLsb', BitVec.getLsbD_fill]
  have h1 : w - 1 < w := by omega
  have h2 : lsb + w - 1 = lsb + (w - 1) := by omega
  by_cases hkw : k < w
  · simp [hk, hkw]
  · have h3 : k - w < 64 - w := by omega
    simp [hk, hkw, h1, h2, h3]

theorem lane_false (d : BitVec 64) :
    lane d false lsb w = (d.extractLsb' lsb w).setWidth 64 := by
  apply BitVec.eq_of_getLsbD_eq
  intro k hk
  rw [lane, BitVec.getLsbD_setWidth, BitVec.getLsbD_append, BitVec.getLsbD_setWidth,
    BitVec.getLsbD_extractLsb', BitVec.getLsbD_fill]
  by_cases hkw : k < w
  · simp [hk, hkw]
  · simp [hk, hkw]

theorem lane_eq_loadValue (f : BitVec 3) (off : Nat) (d : BitVec 64) :
    lane d (!f.getLsbD 2) (8 * off) (8 * Rv64i.accessBytes f) = Rv64i.loadValue f off d := by
  have hb : 0 < 8 * Rv64i.accessBytes f ∧ 8 * Rv64i.accessBytes f ≤ 64 := by
    revert f
    decide
  rw [Rv64i.loadValue]
  cases f.getLsbD 2 with
  | false => exact lane_true d hb.1 hb.2
  | true => exact lane_false d

section Loads
variable (b d : BitVec 64)

theorem index_eq (b : BitVec 64) : b.extractLsb' 0 3 = BitVec.ofNat 3 (Rv64i.offset b) := by
  apply BitVec.eq_of_toNat_eq
  rw [BitVec.extractLsb'_toNat, BitVec.toNat_ofNat, Nat.shiftRight_zero, Rv64i.offset]
  omega

theorem strIndex_ofNat (k : BitVec 3) :
    strIndex b k = (BitVec.ofNat 3 (Rv64i.offset b) == k) := by
  rw [strIndex, index_eq]

theorem lbRes_eq (len : BitVec 5) :
    lbRes b len d = lane d (len.getLsbD 0 && len.getLsbD 4) (8 * Rv64i.offset b) 8 := by
  have ho : Rv64i.offset b < 8 := Nat.mod_lt _ (by decide)
  simp only [lbRes, strIndex_ofNat]
  rcases lane_cases ho with h | h | h | h | h | h | h | h <;> rw [h] <;> simp

theorem lhRes_eq (len : BitVec 5) (ha : b.toNat % 2 = 0) :
    lhRes b len d = lane d (len.getLsbD 1 && len.getLsbD 4) (8 * Rv64i.offset b) 16 := by
  have ho : Rv64i.offset b = 0 ∨ Rv64i.offset b = 2 ∨ Rv64i.offset b = 4 ∨ Rv64i.offset b = 6 := by
    rw [Rv64i.offset]
    omega
  simp only [lhRes, strIndex_ofNat]
  rcases ho with h | h | h | h <;> rw [h] <;> simp

theorem lwRes_eq (len : BitVec 5) (ha : b.toNat % 4 = 0) :
    lwRes b len d = lane d (len.getLsbD 2 && len.getLsbD 4) (8 * Rv64i.offset b) 32 := by
  have ho : Rv64i.offset b = 0 ∨ Rv64i.offset b = 4 := by
    rw [Rv64i.offset]
    omega
  simp only [lwRes, strIndex_ofNat]
  rcases ho with h | h <;> rw [h] <;> simp

theorem format_load {ld : BitVec 32} (h : Rv64i.isLoad ld = true)
    (ha : Rv64i.aligned (Rv64i.funct3 ld) b = true) : format b (Alu.memRwLen (Id.info ld)) d =
      Rv64i.loadValue (Rv64i.funct3 ld) (Rv64i.offset b) d := by
  obtain ⟨hl, hf⟩ := Alu.memRwLen_load h
  obtain ⟨c0, c1, c2, c3, c4, c5, c6⟩ := Alu.loadLen_codes
  have hc : ∀ f : BitVec 3, f ≠ 7 → f = 0 ∨ f = 1 ∨ f = 2 ∨ f = 3 ∨ f = 4 ∨ f = 5 ∨ f = 6 := by
    decide
  rw [hl, ← lane_eq_loadValue, format]
  rw [Rv64i.aligned, beq_iff_eq] at ha
  rcases hc _ hf with hf | hf | hf | hf | hf | hf | hf <;> rw [hf] at ha ⊢
  · rw [c0]
    simp [lbRes_eq, Rv64i.accessBytes]
  · rw [c1]
    simp [lhRes_eq b d _ ha, Rv64i.accessBytes]
  · rw [c2]
    simp [lwRes_eq b d _ ha, Rv64i.accessBytes]
  · rw [c3]
    have ho : Rv64i.offset b = 0 := ha
    have hw : lane d true 0 64 = d := by
      rw [lane_true d (by decide) (by decide)]
      apply BitVec.eq_of_getLsbD_eq
      intro k hk
      simp [hk]
    rw [ho]
    simp [hw, Rv64i.accessBytes]
  · rw [c4]
    simp [lbRes_eq, Rv64i.accessBytes]
  · rw [c5]
    simp [lhRes_eq b d _ ha, Rv64i.accessBytes]
  · rw [c6]
    simp [lwRes_eq b d _ ha, Rv64i.accessBytes]

end Loads

theorem accessBytes_cases (f : BitVec 3) : Rv64i.accessBytes f = 1 ∨ Rv64i.accessBytes f = 2 ∨
    Rv64i.accessBytes f = 4 ∨ Rv64i.accessBytes f = 8 := by
  revert f
  decide

section Merge
variable {a x old d : BitVec 64} {m : BitVec 8} {n : Nat}

theorem Places.byte_merge (h : Places m d a x n) (hn : n = 1 ∨ n = 2 ∨ n = 4 ∨ n = 8)
    (ha : a.toNat % n = 0) (hj : j < 8) : byte (merge m d old) j =
      if Rv64i.offset a ≤ j ∧ j < Rv64i.offset a + n then byte x (j - Rv64i.offset a)
      else byte old j := by
  rw [merge, Bytes.byte_ofBytes _ hj, h.mask j hj, h.data j hj, strIndex_group a hn hj ha]
  by_cases hc : Rv64i.offset a ≤ j ∧ j < Rv64i.offset a + n
  · have ho : Rv64i.offset a = a.toNat % 8 := rfl
    have hmod : j % n = j - Rv64i.offset a := by
      rcases hn with rfl | rfl | rfl | rfl <;> omega
    rw [decide_eq_true hc, if_pos rfl, if_pos hc, mask_true, hmod]
  · rw [decide_eq_false hc, if_neg Bool.false_ne_true, if_neg hc]

theorem getLsbD_byte (y : BitVec 64) (i k : Nat) :
    y.getLsbD (8 * i + k) = (byte y (i + k / 8)).getLsbD (k % 8) := by
  have hk : k % 8 < 8 := Nat.mod_lt _ (by decide)
  have he : 8 * (i + k / 8) + k % 8 = 8 * i + k := by omega
  rw [byte, BitVec.getLsbD_extractLsb', he]
  simp [hk]

theorem Places.extract_merge (h : Places m d a x n) (hn : n = 1 ∨ n = 2 ∨ n = 4 ∨ n = 8)
    (ha : a.toNat % n = 0) : (merge m d old).extractLsb' (8 * Rv64i.offset a) (8 * n) =
      x.extractLsb' (8 * 0) (8 * n) := by
  apply BitVec.eq_of_getLsbD_eq
  intro k hk
  have ho : Rv64i.offset a = a.toNat % 8 := rfl
  have hj : Rv64i.offset a + k / 8 < 8 := by
    rcases hn with rfl | rfl | rfl | rfl <;> omega
  have hc : Rv64i.offset a ≤ Rv64i.offset a + k / 8 ∧
      Rv64i.offset a + k / 8 < Rv64i.offset a + n := by
    omega
  have hs : Rv64i.offset a + k / 8 - Rv64i.offset a = 0 + k / 8 := by omega
  rw [BitVec.getLsbD_extractLsb', BitVec.getLsbD_extractLsb', getLsbD_byte,
    getLsbD_byte, h.byte_merge hn ha hj, if_pos hc, hs]

end Merge

/-- A store changes the bytes it covers to the low bytes of its operand and no others, a load
returns the bytes it names, extended, and so a load undoes a store of its size. -/
theorem lanes_agree {st ld : BitVec 32} (hst : Rv64i.isStore st = true)
    (hld : Rv64i.isLoad ld = true) (a b x old : BitVec 64)
    (ha : Rv64i.aligned (Rv64i.funct3 st) a = true)
    (hb : Rv64i.aligned (Rv64i.funct3 ld) b = true) :
    let word := merge (wmask a (Alu.memRwLen (Id.info st)))
      (wdata a x (Alu.memRwLen (Id.info st))) old
    (∀ j, j < 8 → byte word j =
      if Rv64i.offset a ≤ j ∧ j < Rv64i.offset a + Rv64i.accessBytes (Rv64i.funct3 st) then
        byte x (j - Rv64i.offset a)
      else byte old j) ∧
    format b (Alu.memRwLen (Id.info ld)) word =
      Rv64i.loadValue (Rv64i.funct3 ld) (Rv64i.offset b) word ∧
    (Rv64i.offset b = Rv64i.offset a →
      Rv64i.accessBytes (Rv64i.funct3 ld) = Rv64i.accessBytes (Rv64i.funct3 st) →
      format b (Alu.memRwLen (Id.info ld)) word = Rv64i.loadValue (Rv64i.funct3 ld) 0 x) := by
  intro word
  have hp := places_store a x hst
  have hn := accessBytes_cases (Rv64i.funct3 st)
  have hm : a.toNat % Rv64i.accessBytes (Rv64i.funct3 st) = 0 := beq_iff_eq.mp ha
  have hl := format_load b word hld hb
  refine ⟨fun j hj => hp.byte_merge hn hm hj, hl, fun ho hs => ?_⟩
  have he : word.extractLsb' _ _ = _ := hp.extract_merge hn hm
  rw [hl, Rv64i.loadValue, Rv64i.loadValue, hs, ho, he]

/-- `sb x5, 3(x0)` and then `lb x6, 3(x0)` of a negative byte. -/
theorem lanes_agree_sb_lb : format 3 (Alu.memRwLen (Id.info 0x00300303))
    (merge (wmask 3 (Alu.memRwLen (Id.info 0x005001a3)))
      (wdata 3 0x1234567890abcd80 (Alu.memRwLen (Id.info 0x005001a3))) 0) =
    0xffffffffffffff80 := by
  have h := (@lanes_agree 0x005001a3 0x00300303 (by decide) (by decide) 3 3
    0x1234567890abcd80 0 (by decide) (by decide)).2.2 rfl rfl
  rw [h]
  decide

end Ls

end Rv64imCore
