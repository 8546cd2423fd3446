import Rv64imCore.CarrySave
import Rv64imCore.GolAsm
import Rv64imCore.IntegerOps

/-! The words of the encoders, as the decoder and RV64I read them. -/

namespace Rv64imCore.Gol
set_option autoImplicit true

theorem low_eq (k : Nat) (x : Int) : low k x = (BitVec.ofInt k x).toNat := by
  rw [low, BitVec.toNat_ofInt]
  push_cast
  rfl

theorem toNat_field (x : BitVec w) (s : Nat) (hm : m + 1 = 2 ^ k) :
    x.toNat >>> s &&& m = (x.extractLsb' s k).toNat := by
  obtain rfl : m = 2 ^ k - 1 := by omega
  rw [Nat.and_two_pow_sub_one_eq_mod, BitVec.extractLsb'_toNat]

theorem word_eq {n : Nat} {x : BitVec 32} (h : n = x.toNat) : BitVec.ofNat 32 n = x := by
  rw [h, BitVec.ofNat_toNat, BitVec.setWidth_eq]

section Words
variable {f7 op : Nat} {imm : Int} {rs2 rs1 rd : BitVec 5} {f3 : Nat}

theorem rtype_word (h7 : f7 < 128) (h3 : f3 < 8) (ho : op < 128) :
    BitVec.ofNat 32 (rtype f7 rs2.toNat rs1.toNat f3 rd.toNat op) =
      BitVec.ofNat 7 f7 ++ rs2 ++ rs1 ++ BitVec.ofNat 3 f3 ++ rd ++ BitVec.ofNat 7 op := by
  apply word_eq
  repeat rw [BitVec.toNat_append]
  simp only [rtype, BitVec.toNat_ofNat, Nat.mod_eq_of_lt h7, Nat.mod_eq_of_lt h3,
    Nat.mod_eq_of_lt ho, Nat.shiftLeft_or_distrib, ← Nat.shiftLeft_add, Nat.reduceAdd,
    Nat.reducePow]

theorem itype_word (h3 : f3 < 8) (ho : op < 128) :
    BitVec.ofNat 32 (itype imm rs1.toNat f3 rd.toNat op) =
      BitVec.ofInt 12 imm ++ rs1 ++ BitVec.ofNat 3 f3 ++ rd ++ BitVec.ofNat 7 op := by
  apply word_eq
  repeat rw [BitVec.toNat_append]
  simp only [itype, low_eq, BitVec.toNat_ofNat, Nat.mod_eq_of_lt h3,
    Nat.mod_eq_of_lt ho, Nat.shiftLeft_or_distrib, ← Nat.shiftLeft_add, Nat.reduceAdd,
    Nat.reducePow]

theorem stype_word (h3 : f3 < 8) :
    BitVec.ofNat 32 (stype imm rs2.toNat rs1.toNat f3) =
      (BitVec.ofInt 12 imm).extractLsb' 5 7 ++ rs2 ++ rs1 ++ BitVec.ofNat 3 f3
        ++ (BitVec.ofInt 12 imm).extractLsb' 0 5 ++ 0x23#7 := by
  have hhi : (BitVec.ofInt 12 imm).toNat >>> 5 = ((BitVec.ofInt 12 imm).extractLsb' 5 7).toNat := by
    have h := (BitVec.ofInt 12 imm).isLt
    rw [BitVec.extractLsb'_toNat, Nat.mod_eq_of_lt]
    rw [Nat.shiftRight_eq_div_pow]
    omega
  have hlo : (BitVec.ofInt 12 imm).toNat &&& 31 = ((BitVec.ofInt 12 imm).extractLsb' 0 5).toNat :=
    toNat_field (BitVec.ofInt 12 imm) 0 rfl
  apply word_eq
  repeat rw [BitVec.toNat_append]
  simp only [stype, low_eq, hhi, hlo, BitVec.toNat_ofNat, Nat.mod_eq_of_lt h3,
    Nat.shiftLeft_or_distrib, ← Nat.shiftLeft_add, Nat.reduceAdd, Nat.reducePow]

theorem btype_word (h3 : f3 < 8) :
    BitVec.ofNat 32 (btype imm rs2.toNat rs1.toNat f3) =
      (BitVec.ofInt 13 imm).extractLsb' 12 1 ++ (BitVec.ofInt 13 imm).extractLsb' 5 6 ++ rs2 ++ rs1
        ++ BitVec.ofNat 3 f3 ++ (BitVec.ofInt 13 imm).extractLsb' 1 4
        ++ (BitVec.ofInt 13 imm).extractLsb' 11 1 ++ 0x63#7 := by
  apply word_eq
  repeat rw [BitVec.toNat_append]
  simp only [btype, low_eq, toNat_field (k := 1) (m := 1) _ _ rfl,
    toNat_field (m := 0x3f) (k := 6) _ _ rfl,
    toNat_field (m := 0xf) (k := 4) _ _ rfl, BitVec.toNat_ofNat, Nat.mod_eq_of_lt h3,
    Nat.shiftLeft_or_distrib, ← Nat.shiftLeft_add, Nat.reduceAdd, Nat.reducePow]

theorem utype_word (ho : op < 128) :
    BitVec.ofNat 32 (utype imm rd.toNat op) = BitVec.ofInt 20 imm ++ rd ++ BitVec.ofNat 7 op := by
  apply word_eq
  repeat rw [BitVec.toNat_append]
  simp only [utype, low_eq, BitVec.toNat_ofNat, Nat.mod_eq_of_lt ho, Nat.shiftLeft_or_distrib,
    ← Nat.shiftLeft_add, Nat.reduceAdd, Nat.reducePow]

theorem jtype_word :
    BitVec.ofNat 32 (jtype imm rd.toNat) =
      (BitVec.ofInt 21 imm).extractLsb' 20 1 ++ (BitVec.ofInt 21 imm).extractLsb' 1 10
        ++ (BitVec.ofInt 21 imm).extractLsb' 11 1 ++ (BitVec.ofInt 21 imm).extractLsb' 12 8
        ++ rd ++ 0x6f#7 := by
  apply word_eq
  repeat rw [BitVec.toNat_append]
  simp only [jtype, low_eq, toNat_field (k := 1) (m := 1) _ _ rfl,
    toNat_field (m := 0x3ff) (k := 10) _ _ rfl,
    toNat_field (m := 0xff) (k := 8) _ _ rfl,
    Nat.shiftLeft_or_distrib, ← Nat.shiftLeft_add, Nat.reduceAdd]
  rfl

theorem rtype_fields (h7 : f7 < 128) (h3 : f3 < 8) (ho : op < 128) :
    let w := BitVec.ofNat 32 (rtype f7 rs2.toNat rs1.toNat f3 rd.toNat op)
    Rv64i.opcode w = BitVec.ofNat 7 op ∧ Rv64i.rd w = rd ∧ Rv64i.funct3 w = BitVec.ofNat 3 f3 ∧
      Rv64i.rs1 w = rs1 ∧ Rv64i.rs2 w = rs2 ∧ Rv64i.funct7 w = BitVec.ofNat 7 f7 := by
  intro w
  have hw : w = _ := rtype_word h7 h3 ho
  rw [hw]
  simp (disch := decide) only [Rv64i.opcode, Rv64i.rd, Rv64i.funct3, Rv64i.rs1, Rv64i.rs2,
    Rv64i.funct7, BitVec.extractLsb'_append_eq_of_le, BitVec.extractLsb'_append_eq_of_add_le,
    BitVec.extractLsb'_eq_self, Nat.reduceSub, and_self]

theorem itype_fields (h3 : f3 < 8) (ho : op < 128) (hl : -2048 ≤ imm) (hu : imm < 2048) :
    let w := BitVec.ofNat 32 (itype imm rs1.toNat f3 rd.toNat op)
    Rv64i.opcode w = BitVec.ofNat 7 op ∧ Rv64i.rd w = rd ∧ Rv64i.funct3 w = BitVec.ofNat 3 f3 ∧
      Rv64i.rs1 w = rs1 ∧ Rv64i.immI w = BitVec.ofInt 64 imm := by
  intro w
  have hw : w = _ := itype_word h3 ho
  have hi : (BitVec.ofInt 12 imm).signExtend 64 = BitVec.ofInt 64 imm :=
    Bits.signExtend_ofInt hl hu
  rw [hw]
  simp (disch := decide) only [Rv64i.opcode, Rv64i.rd, Rv64i.funct3, Rv64i.rs1, Rv64i.immI,
    BitVec.extractLsb'_append_eq_of_le, BitVec.extractLsb'_append_eq_of_add_le,
    BitVec.extractLsb'_eq_self, Nat.reduceSub, hi, and_self]

theorem stype_fields (h3 : f3 < 8) (hl : -2048 ≤ imm) (hu : imm < 2048) :
    let w := BitVec.ofNat 32 (stype imm rs2.toNat rs1.toNat f3)
    Rv64i.opcode w = 0x23 ∧ Rv64i.funct3 w = BitVec.ofNat 3 f3 ∧ Rv64i.rs1 w = rs1 ∧
      Rv64i.rs2 w = rs2 ∧ Rv64i.immS w = BitVec.ofInt 64 imm := by
  intro w
  have hw : w = _ := stype_word h3
  have hi : (BitVec.ofInt 12 imm).signExtend 64 = BitVec.ofInt 64 imm :=
    Bits.signExtend_ofInt hl hu
  have hj : (BitVec.ofInt 12 imm).extractLsb' 5 7 ++ (BitVec.ofInt 12 imm).extractLsb' 0 5
      = BitVec.ofInt 12 imm := by
    rw [BitVec.extractLsb'_append_extractLsb'_eq_extractLsb' (show 5 = 0 + 5 from rfl)]
    exact BitVec.extractLsb'_eq_self
  rw [hw]
  simp (disch := decide) only [Rv64i.opcode, Rv64i.funct3, Rv64i.rs1, Rv64i.rs2, Rv64i.immS,
    BitVec.extractLsb'_append_eq_of_le, BitVec.extractLsb'_append_eq_of_add_le,
    BitVec.extractLsb'_eq_self, Nat.reduceSub, hj, hi, and_self]
  simp

theorem ofInt_even (n : Nat) {x : Int} (h : x % 2 = 0) :
    (BitVec.ofInt (n + 1) x).extractLsb' 0 1 = 0#1 := by
  rw [Bits.ofInt_extractLsb' x (by omega)]
  apply BitVec.eq_of_toNat_eq
  simp [BitVec.toNat_ofInt, h]

theorem btype_fields (h3 : f3 < 8) (hl : -4096 ≤ imm) (hu : imm < 4096) (he : imm % 2 = 0) :
    let w := BitVec.ofNat 32 (btype imm rs2.toNat rs1.toNat f3)
    Rv64i.opcode w = 0x63 ∧ Rv64i.funct3 w = BitVec.ofNat 3 f3 ∧ Rv64i.rs1 w = rs1 ∧
      Rv64i.rs2 w = rs2 ∧ Rv64i.immB w = BitVec.ofInt 64 imm := by
  intro w
  have hw : w = _ := btype_word h3
  have hi : (BitVec.ofInt 13 imm).signExtend 64 = BitVec.ofInt 64 imm :=
    Bits.signExtend_ofInt hl hu
  generalize hx : BitVec.ofInt 13 imm = u at hw hi
  have h0 : u.extractLsb' 0 1 = 0#1 := hx ▸ ofInt_even 12 he
  have hj : u.extractLsb' 12 1 ++ u.extractLsb' 11 1 ++ u.extractLsb' 5 6 ++ u.extractLsb' 1 4
      ++ 0#1 = u := by
    rw [← h0, BitVec.extractLsb'_append_extractLsb'_eq_extractLsb' (show 12 = 11 + 1 from rfl),
      BitVec.extractLsb'_append_extractLsb'_eq_extractLsb' (show 11 = 5 + 6 from rfl),
      BitVec.extractLsb'_append_extractLsb'_eq_extractLsb' (show 5 = 1 + 4 from rfl),
      BitVec.extractLsb'_append_extractLsb'_eq_extractLsb' (show 1 = 0 + 1 from rfl)]
    exact BitVec.extractLsb'_eq_self
  rw [hw]
  simp (disch := decide) only [Rv64i.opcode, Rv64i.funct3, Rv64i.rs1, Rv64i.rs2, Rv64i.immB,
    BitVec.extractLsb'_append_eq_of_le, BitVec.extractLsb'_append_eq_of_add_le,
    BitVec.extractLsb'_eq_self, Nat.reduceSub, hj, hi, and_self]
  simp

theorem utype_fields (ho : op < 128) :
    let w := BitVec.ofNat 32 (utype imm rd.toNat op)
    Rv64i.opcode w = BitVec.ofNat 7 op ∧ Rv64i.rd w = rd ∧
      Rv64i.immU w = (BitVec.ofInt 20 imm ++ 0#12).signExtend 64 := by
  intro w
  have hw : w = _ := utype_word ho
  rw [hw]
  simp (disch := decide) only [Rv64i.opcode, Rv64i.rd, Rv64i.immU,
    BitVec.extractLsb'_append_eq_of_le, BitVec.extractLsb'_append_eq_of_add_le,
    BitVec.extractLsb'_eq_self, Nat.reduceSub, and_self]

theorem jtype_fields (hl : -1048576 ≤ imm) (hu : imm < 1048576) (he : imm % 2 = 0) :
    let w := BitVec.ofNat 32 (jtype imm rd.toNat)
    Rv64i.opcode w = 0x6f ∧ Rv64i.rd w = rd ∧ Rv64i.immJ w = BitVec.ofInt 64 imm := by
  intro w
  have hw : w = _ := jtype_word
  have hi : (BitVec.ofInt 21 imm).signExtend 64 = BitVec.ofInt 64 imm :=
    Bits.signExtend_ofInt hl hu
  generalize hx : BitVec.ofInt 21 imm = u at hw hi
  have h0 : u.extractLsb' 0 1 = 0#1 := hx ▸ ofInt_even 20 he
  have hj : u.extractLsb' 20 1 ++ u.extractLsb' 12 8 ++ u.extractLsb' 11 1 ++ u.extractLsb' 1 10
      ++ 0#1 = u := by
    rw [← h0, BitVec.extractLsb'_append_extractLsb'_eq_extractLsb' (show 20 = 12 + 8 from rfl),
      BitVec.extractLsb'_append_extractLsb'_eq_extractLsb' (show 12 = 11 + 1 from rfl),
      BitVec.extractLsb'_append_extractLsb'_eq_extractLsb' (show 11 = 1 + 10 from rfl),
      BitVec.extractLsb'_append_extractLsb'_eq_extractLsb' (show 1 = 0 + 1 from rfl)]
    exact BitVec.extractLsb'_eq_self
  rw [hw]
  simp (disch := decide) only [Rv64i.opcode, Rv64i.rd, Rv64i.immJ,
    BitVec.extractLsb'_append_eq_of_le, BitVec.extractLsb'_append_eq_of_add_le,
    BitVec.extractLsb'_eq_self, Nat.reduceSub, hj, hi, and_self]
  simp

end Words

end Rv64imCore.Gol
