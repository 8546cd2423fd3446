import Rv64imCore.AxiSlave

/-! The memory of the simulator: `pmem` with `paddr_read` and `paddr_write` of `init.cpp`, and the
two functions of `sim_main.cpp` that the read and the write channel call. -/

namespace Rv64imCore.Sim
set_option autoImplicit true

/-- `pmem`, of `CONFIG_MSIZE` bytes. -/
abbrev Pmem := BitVec 27 → BitVec 8

def configPcRet : BitVec 64 := 0x80000000
def configMsize : BitVec 64 := 0x8000000

/-- `get_mem_addr`, as an index into `pmem`. -/
def getMemAddr (addr : BitVec 64) : BitVec 27 := (addr - configPcRet).extractLsb' 0 27

def addrInMem (addr : BitVec 64) : Bool :=
  addr.ult (configPcRet + configMsize) && configPcRet.ule addr

def paddrRead (m : Pmem) (addr : BitVec 64) (lens : Nat) : BitVec 64 :=
  if addrInMem addr then
    Bytes.ofBytes fun j => if j < lens then m (getMemAddr addr + BitVec.ofNat 27 j) else 0
  else 0

def paddrWrite (m : Pmem) (addr : BitVec 64) (len : Nat) (data : BitVec 64) : Pmem :=
  if addrInMem addr then fun x =>
    if (x - getMemAddr addr).toNat < len then Bytes.byte data (x - getMemAddr addr).toNat else m x
  else m

/-- `mem_read`: the clock has two addresses; without `ren`, the data stay as they are. -/
def memRead (m : Pmem) (time rdata : BitVec 64) (raddr : BitVec 32) (ren : Bool) : BitVec 64 :=
  if ren then
    if raddr == 0xa0000048 || raddr == 0xa0000040 then time else paddrRead m (raddr.setWidth 64) 8
  else rdata

/-- `mem_write` with the clock high; the serial port prints. -/
def memWrite (m : Pmem) (waddr : BitVec 32) (wdata : BitVec 64) (wmask : BitVec 8) (wen : Bool) :
    Pmem :=
  if wen then
    if waddr == 0xa00003f8 then m
    else (List.range 8).foldl (fun m j => if wmask.getLsbD j then
      paddrWrite m ((waddr + BitVec.ofNat 32 j).setWidth 64) 1
        ((Bytes.byte wdata j).setWidth 64) else m) m
  else m

def inPmem (a : BitVec 32) : Bool := a.extractLsb' 27 5 == 0b10000#5

/-- What the bus sees of `pmem`: zero where it ends. -/
def memoryOf (m : Pmem) : Bytes.Mem 29 := fun a => if inPmem a then m (a.extractLsb' 0 27) else 0

def Aligned (a : BitVec 32) : Prop := a.extractLsb' 0 3 = 0#3

section Lemmas
variable {m : Pmem} {a : BitVec 32}

theorem inPmem_iff : inPmem a = true ↔ 0x80000000 ≤ a.toNat ∧ a.toNat < 0x88000000 := by
  have ha := a.isLt
  simp only [inPmem, beq_iff_eq, ← BitVec.toNat_inj, BitVec.extractLsb'_toNat,
    Nat.shiftRight_eq_div_pow]
  change a.toNat / 2 ^ 27 % 2 ^ 5 = 16 ↔ _
  omega

theorem isRam_iff : Axi.isRam a = true ↔ 0x80000000 ≤ a.toNat ∧ a.toNat < 0x90000000 := by
  have ha := a.isLt
  simp only [Axi.isRam, beq_iff_eq, ← BitVec.toNat_inj, BitVec.extractLsb'_toNat,
    Nat.shiftRight_eq_div_pow]
  change a.toNat / 2 ^ 28 % 2 ^ 4 = 8 ↔ _
  omega

theorem addrInMem_eq (a : BitVec 32) : addrInMem (a.setWidth 64) = inPmem a := by
  have ha := a.isLt
  rw [Bool.eq_iff_iff, inPmem_iff]
  simp only [addrInMem, Bool.and_eq_true, BitVec.ult, BitVec.ule, decide_eq_true_eq,
    BitVec.toNat_setWidth]
  change a.toNat % 2 ^ 64 < 0x88000000 ∧ 0x80000000 ≤ a.toNat % 2 ^ 64 ↔ _
  omega

theorem getMemAddr_eq (a : BitVec 32) : getMemAddr (a.setWidth 64) = a.extractLsb' 0 27 := by
  have ha := a.isLt
  rw [← BitVec.toNat_inj]
  simp only [getMemAddr, BitVec.extractLsb'_toNat, BitVec.toNat_sub, BitVec.toNat_setWidth,
    Nat.shiftRight_zero]
  change (2 ^ 64 - 0x80000000 + a.toNat % 2 ^ 64) % 2 ^ 64 % 2 ^ 27 = a.toNat % 2 ^ 27
  omega

theorem aligned_iff : Aligned a ↔ a.toNat % 8 = 0 := by
  simp only [Aligned, ← BitVec.toNat_inj, BitVec.extractLsb'_toNat, Nat.shiftRight_zero]
  rfl

theorem Aligned.toNat_add (h : Aligned a) (hj : j < 8) :
    (a + BitVec.ofNat 32 j).toNat = a.toNat + j := by
  have ha := a.isLt
  have h := aligned_iff.mp h
  rw [BitVec.toNat_add, BitVec.toNat_ofNat]
  omega

theorem toNat_byte_addr (w : BitVec 29) (hj : j < 8) :
    (w ++ BitVec.ofNat 3 j).toNat = 8 * w.toNat + j := by
  have hb : (BitVec.ofNat 3 j).toNat = j := Nat.mod_eq_of_lt hj
  rw [BitVec.toNat_append, hb, ← Nat.shiftLeft_add_eq_or_of_lt hj, Nat.shiftLeft_eq]
  omega

theorem toNat_wordOf (a : BitVec 32) : (Dcache.wordOf a).toNat = a.toNat / 8 := by
  have ha := a.isLt
  rw [Dcache.wordOf, BitVec.extractLsb'_toNat, Nat.shiftRight_eq_div_pow]
  omega

theorem Aligned.byte_addr (h : Aligned a) (hj : j < 8) :
    Dcache.wordOf a ++ BitVec.ofNat 3 j = a + BitVec.ofNat 32 j := by
  have h' := aligned_iff.mp h
  apply BitVec.eq_of_toNat_eq
  rw [toNat_byte_addr _ hj, toNat_wordOf, h.toNat_add hj]
  omega

theorem Aligned.inPmem_add (h : Aligned a) (hj : j < 8) :
    inPmem (a + BitVec.ofNat 32 j) = inPmem a := by
  have h' := aligned_iff.mp h
  rw [Bool.eq_iff_iff, inPmem_iff, inPmem_iff, h.toNat_add hj]
  omega

theorem Aligned.low_add (h : Aligned a) (hj : j < 8) :
    (a + BitVec.ofNat 32 j).extractLsb' 0 27 = a.extractLsb' 0 27 + BitVec.ofNat 27 j := by
  rw [← BitVec.toNat_inj, BitVec.toNat_add]
  simp only [BitVec.extractLsb'_toNat, h.toNat_add hj, Nat.shiftRight_zero, BitVec.toNat_ofNat]
  omega

theorem Aligned.paddrRead_eq (h : Aligned a) (m : Pmem) :
    paddrRead m (a.setWidth 64) 8 = (memoryOf m).read (Dcache.wordOf a) := by
  rw [paddrRead, addrInMem_eq, getMemAddr_eq, Bytes.Mem.read]
  have hb : ∀ j, j < 8 → memoryOf m (Dcache.wordOf a ++ BitVec.ofNat 3 j) =
      if inPmem a then m (a.extractLsb' 0 27 + BitVec.ofNat 27 j) else 0 := fun j hj => by
    rw [h.byte_addr hj, memoryOf, h.inPmem_add hj, h.low_add hj]
  rw [Bytes.ofBytes_congr hb]
  cases inPmem a with
  | true =>
    rw [if_pos rfl]
    refine Bytes.ofBytes_congr fun j hj => ?_
    rw [if_pos hj, if_pos rfl]
  | false =>
    simp only [Bool.false_eq_true, if_false]
    rfl

theorem Aligned.paddrWrite_byte (h : Aligned a) (hj : j < 8) (m : Pmem) (d : BitVec 8)
    (x : BitVec 27) :
    paddrWrite m ((a + BitVec.ofNat 32 j).setWidth 64) 1 (d.setWidth 64) x =
      if inPmem a ∧ (x - a.extractLsb' 0 27).toNat = j then d else m x := by
  rw [paddrWrite, addrInMem_eq, h.inPmem_add hj, getMemAddr_eq, h.low_add hj]
  cases hp : inPmem a with
  | false => simp
  | true =>
    have hx := x.isLt
    have ha := (a.extractLsb' 0 27).isLt
    have he : (x - (a.extractLsb' 0 27 + BitVec.ofNat 27 j)).toNat < 1 ↔
        (x - a.extractLsb' 0 27).toNat = j := by
      simp only [BitVec.toNat_sub, BitVec.toNat_add, BitVec.toNat_ofNat]
      omega
    simp only [if_true, he, true_and]
    split
    · rename_i hj'
      rw [he.mpr hj' |> Nat.lt_one_iff.mp]
      apply BitVec.eq_of_getLsbD_eq
      intro k hk
      simp only [Bytes.byte, BitVec.getLsbD_extractLsb', BitVec.getLsbD_setWidth, hk]
      simp
      omega
    · rfl

theorem Aligned.write_prefix (h : Aligned a) (m : Pmem) (d : BitVec 64) (bm : BitVec 8)
    (hn : n ≤ 8) (x : BitVec 27) :
    (List.range n).foldl (fun m j => if bm.getLsbD j then
      paddrWrite m ((a + BitVec.ofNat 32 j).setWidth 64) 1
        ((Bytes.byte d j).setWidth 64) else m) m x =
    if inPmem a ∧ (x - a.extractLsb' 0 27).toNat < n ∧
        bm.getLsbD (x - a.extractLsb' 0 27).toNat = true
      then Bytes.byte d (x - a.extractLsb' 0 27).toNat else m x := by
  induction n with
  | zero => simp
  | succ n ih =>
    rw [List.range_succ, List.foldl_append, List.foldl_cons, List.foldl_nil]
    have ih := ih (by omega)
    cases hb : bm.getLsbD n with
    | false =>
      rw [if_neg Bool.false_ne_true, ih]
      refine if_congr ?_ rfl rfl
      constructor
      · rintro ⟨h1, h2, h3⟩
        exact ⟨h1, by omega, h3⟩
      · rintro ⟨h1, h2, h3⟩
        refine ⟨h1, Nat.lt_of_le_of_ne (by omega) fun he => ?_, h3⟩
        rw [he, hb] at h3
        cases h3
    | true =>
      rw [if_pos rfl, h.paddrWrite_byte (by omega), ih]
      by_cases he : (x - a.extractLsb' 0 27).toNat = n
      · by_cases hp : inPmem a = true
        · rw [if_pos ⟨hp, he⟩, if_pos ⟨hp, by omega, by rw [he, hb]⟩, he]
        · rw [if_neg fun h => hp h.1, if_neg fun h => hp h.1, if_neg fun h => hp h.1]
      · rw [if_neg fun h => he h.2]
        refine if_congr ?_ rfl rfl
        constructor
        · rintro ⟨h1, h2, h3⟩
          exact ⟨h1, by omega, h3⟩
        · rintro ⟨h1, h2, h3⟩
          exact ⟨h1, by omega, h3⟩

/-- A store to `pmem` is one to the memory on the bus. -/
theorem Aligned.memWrite_inside (h : Aligned a) (hp : inPmem a = true) (m : Pmem) (d : BitVec 64)
    (bm : BitVec 8) :
    memoryOf (memWrite m a d bm true) = (memoryOf m).store (Dcache.wordOf a) bm d := by
  have hs : (a == 0xa00003f8) = false := by
    rw [beq_eq_false_iff_ne]
    rintro rfl
    cases hp
  funext x
  have h' := aligned_iff.mp h
  have ha := inPmem_iff.mp hp
  rw [memWrite, if_pos rfl, hs, if_neg Bool.false_ne_true, memoryOf, h.write_prefix m d bm
    (Nat.le_refl 8), Bytes.Mem.store, memoryOf, hp]
  simp only [true_and]
  have hw : x.extractLsb' 3 29 = Dcache.wordOf a ↔ x.toNat / 8 = a.toNat / 8 := by
    rw [← BitVec.toNat_inj, show x.extractLsb' 3 29 = Dcache.wordOf x from rfl, toNat_wordOf,
      toNat_wordOf]
  cases hx : inPmem x with
  | false =>
    rw [if_neg Bool.false_ne_true, if_neg Bool.false_ne_true, if_neg]
    rintro ⟨hx', -⟩
    have hne : ¬inPmem x = true := by rw [hx]; decide
    rw [inPmem_iff] at hne
    rw [hw] at hx'
    omega
  | true =>
    have hx' := inPmem_iff.mp hx
    rw [if_pos rfl, if_pos rfl]
    by_cases hc : x.toNat / 8 = a.toNat / 8
    · -- the same word: the offset is that of the byte
      have ho : (x.extractLsb' 0 27 - a.extractLsb' 0 27).toNat = (x.extractLsb' 0 3).toNat := by
        simp only [BitVec.toNat_sub, BitVec.extractLsb'_toNat, Nat.shiftRight_zero]
        omega
      rw [ho]
      refine if_congr ?_ rfl rfl
      rw [hw]
      exact and_congr_left' (iff_of_true (x.extractLsb' 0 3).isLt hc)
    · have ho : ¬(x.extractLsb' 0 27 - a.extractLsb' 0 27).toNat < 8 := by
        simp only [BitVec.toNat_sub, BitVec.extractLsb'_toNat, Nat.shiftRight_zero]
        omega
      rw [if_neg fun h => ho h.1, if_neg fun h => hc (hw.mp h.1)]

theorem Aligned.memWrite_outside (h : Aligned a) (hp : inPmem a = false) (m : Pmem) (d : BitVec 64)
    (bm : BitVec 8) (wen : Bool) : memWrite m a d bm wen = m := by
  rw [memWrite]
  split
  · split
    · rfl
    · funext x
      rw [h.write_prefix m d bm (Nat.le_refl 8), if_neg fun h => by rw [hp] at h; cases h.1]
  · rfl

end Lemmas

end Rv64imCore.Sim
