import Mathlib.Logic.Function.Basic

namespace Bytes
set_option autoImplicit true

/-- Byte `j` of a 64-bit word. -/
def byte (x : BitVec 64) (j : Nat) : BitVec 8 := x.extractLsb' (8 * j) 8

/-- The word whose byte `j` is `f j`. -/
def ofBytes (f : Nat → BitVec 8) : BitVec 64 :=
  f 7 ++ f 6 ++ f 5 ++ f 4 ++ f 3 ++ f 2 ++ f 1 ++ f 0

/-- The old word with the bytes that the mask selects replaced. -/
def merge (m : BitVec 8) (new old : BitVec 64) : BitVec 64 :=
  ofBytes fun j => if m.getLsbD j then byte new j else byte old j

theorem ofBytes_congr {f g : Nat → BitVec 8} (h : ∀ j, j < 8 → f j = g j) :
    ofBytes f = ofBytes g := by
  simp only [ofBytes, h 0 (by omega), h 1 (by omega), h 2 (by omega), h 3 (by omega),
    h 4 (by omega), h 5 (by omega), h 6 (by omega), h 7 (by omega)]

theorem byte_ofBytes (f : Nat → BitVec 8) (hj : j < 8) : byte (ofBytes f) j = f j := by
  have hc : j = 0 ∨ j = 1 ∨ j = 2 ∨ j = 3 ∨ j = 4 ∨ j = 5 ∨ j = 6 ∨ j = 7 := by omega
  apply BitVec.eq_of_getLsbD_eq
  intro k hk
  rcases hc with rfl | rfl | rfl | rfl | rfl | rfl | rfl | rfl <;>
    simp only [byte, ofBytes, BitVec.getLsbD_extractLsb', BitVec.getLsbD_append, hk,
      decide_true, Bool.true_and] <;>
    grind

theorem ofBytes_high (f : Nat → BitVec 8) :
    (ofBytes f).extractLsb' 32 32 = f 7 ++ f 6 ++ f 5 ++ f 4 := by
  apply BitVec.eq_of_getLsbD_eq
  intro k hk
  simp only [ofBytes, BitVec.getLsbD_extractLsb', BitVec.getLsbD_append]
  grind

theorem ofBytes_low (f : Nat → BitVec 8) :
    (ofBytes f).extractLsb' 0 32 = f 3 ++ f 2 ++ f 1 ++ f 0 := by
  apply BitVec.eq_of_getLsbD_eq
  intro k hk
  simp only [ofBytes, BitVec.getLsbD_extractLsb', BitVec.getLsbD_append]
  grind

theorem ofBytes_byte (x : BitVec 64) : ofBytes (byte x) = x := by
  apply BitVec.eq_of_getLsbD_eq
  intro k hk
  simp only [byte, ofBytes, BitVec.getLsbD_extractLsb', BitVec.getLsbD_append]
  grind

theorem merge_ones (new old : BitVec 64) : merge 0xff new old = new := by
  have h : ∀ j, j < 8 → (0xff : BitVec 8).getLsbD j = true := by decide
  rw [merge, ofBytes_congr (g := byte new) fun j hj => by rw [h j hj, if_pos rfl], ofBytes_byte]

/-- A byte memory over the aligned words of an address space: `n` bits name the word. -/
abbrev Mem (n : Nat) := BitVec (n + 3) → BitVec 8

/-- The aligned 64-bit word at word address `a`, little endian. -/
def Mem.read (m : Mem n) (a : BitVec n) : BitVec 64 :=
  ofBytes fun j => m (a ++ BitVec.ofNat 3 j)

/-- A masked store of one word. -/
def Mem.store (m : Mem n) (a : BitVec n) (bm : BitVec 8) (d : BitVec 64) : Mem n := fun x =>
  if x.extractLsb' 3 n = a ∧ bm.getLsbD (x.extractLsb' 0 3).toNat = true then
    byte d (x.extractLsb' 0 3).toNat
  else m x

theorem append_high (a : BitVec n) (b : BitVec 3) : (a ++ b).extractLsb' 3 n = a := by
  apply BitVec.eq_of_getLsbD_eq
  intro k hk
  simp [BitVec.getLsbD_append, hk]

theorem append_low (a : BitVec n) (b : BitVec 3) : (a ++ b).extractLsb' 0 3 = b := by
  apply BitVec.eq_of_getLsbD_eq
  intro k hk
  simp [BitVec.getLsbD_append, hk]

theorem Mem.read_store_same (m : Mem n) (a : BitVec n) (bm : BitVec 8) (d : BitVec 64) :
    (m.store a bm d).read a = merge bm d (m.read a) := by
  apply ofBytes_congr
  intro j hj
  have hlow : (BitVec.ofNat 3 j).toNat = j := by
    rw [BitVec.toNat_ofNat]; omega
  simp only [Mem.store, append_high, append_low, hlow, true_and]
  split
  · rfl
  · exact (byte_ofBytes (fun j => m (a ++ BitVec.ofNat 3 j)) hj).symm

theorem Mem.read_store_ne (m : Mem n) {a b : BitVec n} (h : b ≠ a) (bm : BitVec 8)
    (d : BitVec 64) : (m.store a bm d).read b = m.read b := by
  apply ofBytes_congr
  intro j _
  simp only [Mem.store, append_high, h, false_and, if_false]

end Bytes
