import Rv64imCore.Rv64im

/-! The bytes of a hart's memory and the aligned words that the load/store unit works on. -/

namespace Rv64imCore.Ls
set_option autoImplicit true
open Rv64i (Hart aligned offset accessBytes loadValue)

/-- The aligned 64-bit word that holds an address; the upper half of the address is not used. -/
def wordOf (a : BitVec 64) : BitVec 29 := a.extractLsb' 3 29

/-- The word of a hart's memory that holds an address. -/
def wordAt (m : BitVec 32 → BitVec 8) (a : BitVec 64) : BitVec 64 :=
  Bytes.Mem.read (n := 29) m (wordOf a)

theorem toNat_byteAddr (a : BitVec 64) (hj : j < 8) :
    (wordOf a ++ BitVec.ofNat 3 j).toNat = a.toNat % 2 ^ 32 / 8 * 8 + j := by
  have hw : (wordOf a).toNat = a.toNat % 2 ^ 32 / 8 := by
    rw [wordOf, BitVec.extractLsb'_toNat, Nat.shiftRight_eq_div_pow]
    omega
  have hl : (BitVec.ofNat 3 j).toNat < 2 ^ 3 := BitVec.isLt _
  rw [BitVec.toNat_append, ← Nat.shiftLeft_add_eq_or_of_lt hl, hw, BitVec.toNat_ofNat,
    Nat.shiftLeft_eq]
  omega

theorem byteAddr_eq (a : BitVec 64) (hj : offset a + j < 8) :
    a.setWidth 32 + BitVec.ofNat 32 j = wordOf a ++ BitVec.ofNat 3 (offset a + j) := by
  apply BitVec.eq_of_toNat_eq
  rw [toNat_byteAddr a hj, BitVec.toNat_add, BitVec.toNat_setWidth, BitVec.toNat_ofNat]
  have ho : offset a = a.toNat % 8 := rfl
  omega

theorem offset_add_le (ha : aligned f a = true) : offset a + accessBytes f ≤ 8 := by
  rw [aligned, beq_iff_eq] at ha
  have ho : offset a = a.toNat % 8 := rfl
  rcases accessBytes_cases f with hn | hn | hn | hn <;> rw [hn] at ha ⊢ <;> omega

theorem loadValue_read (h : Hart) (ha : aligned f a = true) :
    loadValue f 0 (h.read a) = loadValue f (offset a) (wordAt h.mem a) := by
  have hle := offset_add_le ha
  have hx : (h.read a).extractLsb' (8 * 0) (8 * accessBytes f) =
      (wordAt h.mem a).extractLsb' (8 * offset a) (8 * accessBytes f) := by
    apply BitVec.eq_of_getLsbD_eq
    intro k hk
    have hb : Bytes.byte (h.read a) (0 + k / 8) =
        Bytes.byte (wordAt h.mem a) (offset a + k / 8) := by
      rw [Hart.read, wordAt, Bytes.Mem.read, Bytes.byte_ofBytes _ (by omega),
        Bytes.byte_ofBytes _ (by omega), Nat.zero_add, byteAddr_eq a (by omega)]
    rw [BitVec.getLsbD_extractLsb', BitVec.getLsbD_extractLsb', getLsbD_byte, getLsbD_byte, hb]
  rw [loadValue, loadValue, hx]

/-- The bytes that a store covers, as places in their words. -/
theorem covers_iff (x : BitVec 32) (ha : aligned f a = true) :
    (x - a.setWidth 32).toNat < accessBytes f ↔ x.extractLsb' 3 29 = wordOf a ∧
      offset a ≤ (x.extractLsb' 0 3).toNat ∧
      (x.extractLsb' 0 3).toNat < offset a + accessBytes f := by
  have hle := offset_add_le ha
  have ho : offset a = a.toNat % 8 := rfl
  have hx := x.isLt
  rw [← BitVec.toNat_inj, wordOf, BitVec.toNat_sub, BitVec.toNat_setWidth,
    BitVec.extractLsb'_toNat, BitVec.extractLsb'_toNat, BitVec.extractLsb'_toNat,
    Nat.shiftRight_eq_div_pow, Nat.shiftRight_eq_div_pow, Nat.shiftRight_zero]
  omega

theorem toNat_sub_of_covers {x : BitVec 32} (ha : aligned f a = true)
    (hx : (x - a.setWidth 32).toNat < accessBytes f) :
    (x - a.setWidth 32).toNat = (x.extractLsb' 0 3).toNat % accessBytes f := by
  have hl : (x.extractLsb' 0 3).toNat = x.toNat % 8 := by
    rw [BitVec.extractLsb'_toNat, Nat.shiftRight_zero]
  have hlt := x.isLt
  rw [aligned, beq_iff_eq] at ha
  rw [hl]
  rw [BitVec.toNat_sub, BitVec.toNat_setWidth] at hx ⊢
  rcases accessBytes_cases f with hn | hn | hn | hn <;> rw [hn] at ha hx ⊢ <;> omega

theorem store_mem {st : BitVec 32} (hst : Rv64i.isStore st = true) (h : Hart) (x : BitVec 64)
    (ha : aligned (Rv64i.funct3 st) a = true) :
    (h.store a (accessBytes (Rv64i.funct3 st)) x).mem = Bytes.Mem.store (n := 29) h.mem (wordOf a)
      (wmask a (Alu.memRwLen (Id.info st))) (wdata a x (Alu.memRwLen (Id.info st))) := by
  have hp := places_store a x hst
  have hn := accessBytes_cases (Rv64i.funct3 st)
  have hm : a.toNat % accessBytes (Rv64i.funct3 st) = 0 := beq_iff_eq.mp ha
  funext y
  have hy : (y.extractLsb' 0 3).toNat < 8 := BitVec.isLt _
  have hmask := (hp.mask _ hy).trans (strIndex_group a hn hy hm)
  have hc := covers_iff y ha
  simp only [Hart.store, Bytes.Mem.store]
  by_cases hcov : (y - a.setWidth 32).toNat < accessBytes (Rv64i.funct3 st)
  · obtain ⟨hw, hr⟩ := hc.mp hcov
    rw [if_pos hcov, if_pos ⟨hw, hmask.trans (decide_eq_true hr)⟩, hp.data _ hy,
      strIndex_group a hn hy hm, decide_eq_true hr, mask_true, toNat_sub_of_covers ha hcov]
  · rw [if_neg hcov, if_neg]
    rintro ⟨hw, hb⟩
    exact hcov (hc.mpr ⟨hw, of_decide_eq_true (hmask.symm.trans hb)⟩)

end Rv64imCore.Ls
