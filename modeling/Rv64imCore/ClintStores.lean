import Rv64imCore.Clocked
import Rv64imCore.Lanes
import Rv64imCore.Top

/-! Stores to the CLINT: its registers take the whole data word, whatever bytes the store covers. -/

namespace Rv64imCore
set_option autoImplicit true
open Bytes (byte merge)

theorem merge_eq_new_iff (m : BitVec 8) (d old : BitVec 64) :
    d = merge m d old ↔ ∀ j, j < 8 → m.getLsbD j = false → byte d j = byte old j := by
  have hb (j : Nat) (hj : j < 8) : byte (merge m d old) j =
      if m.getLsbD j then byte d j else byte old j := Bytes.byte_ofBytes _ hj
  constructor
  · intro h j hj hm
    have := hb j hj
    rwa [← h, hm, if_neg Bool.false_ne_true] at this
  · intro h
    calc d = Bytes.ofBytes (byte d) := (Bytes.ofBytes_byte d).symm
      _ = merge m d old := by
        apply Bytes.ofBytes_congr
        intro j hj
        cases hm : m.getLsbD j with
        | false => exact h j hj hm
        | true => rfl

namespace Ls

theorem Places.zero_lane (h : Places m d a x n) (hj : j < 8) (hm : m.getLsbD j = false) :
    byte d j = 0 := by
  rw [h.mask j hj] at hm
  rw [h.data j hj, hm, mask_false]
  rfl

end Ls

namespace Clint

/-- A cycle of the load/store unit on the CLINT: an access of an instruction word at an address, as
a store word at an aligned one if it is a store. -/
structure Access where
  vld : Bool
  wen : Bool
  inst : BitVec 32
  addr : BitVec 64
  rs2 : BitVec 64
  rspRdy : Bool
  legal : wen = true → Rv64i.isStore inst = true ∧ Rv64i.aligned (Rv64i.funct3 inst) addr = true

/-- The request `rv64im_core_ls` makes of it. -/
def lsRequest (vld wen : Bool) (inst : BitVec 32) (addr rs2 : BitVec 64) : Req :=
  { vld := vld
    wen := wen
    addr := (addr.extractLsb' 3 61 ++ 0#3).extractLsb' 0 32
    wdata := Ls.wdata addr rs2 (Alu.memRwLen (Id.info inst))
    wmask := Ls.wmask addr (Alu.memRwLen (Id.info inst)) }

def Access.req (a : Access) : Req := lsRequest a.vld a.wen a.inst a.addr a.rs2

def machine : Clocked.Machine State Access where
  next := fun s a => next s a.req a.rspRdy

section Step
variable (s : State) (q : Req)

/-- A masked store: the registers change only in the bytes it covers. -/
structure Respects (s' : State) : Prop where
  mtimecmp : s'.mtimecmp =
    if mtimecmpCs s q && q.wen then merge q.wmask q.wdata s.mtimecmp else s.mtimecmp
  mtime : s'.mtime =
    if mtimeCs s q && q.wen then merge q.wmask q.wdata (s.mtime + 1) else s.mtime + 1
  msip : s'.msip ≠ s.msip → (msipCs s q && q.wen) = true ∧ q.wmask.getLsbD 0 = true

/-- The bytes that a store leaves out are zero already. -/
structure LeavesZero : Prop where
  mtimecmp : (mtimecmpCs s q && q.wen) = true →
    ∀ j, j < 8 → q.wmask.getLsbD j = false → byte s.mtimecmp j = 0
  mtime : (mtimeCs s q && q.wen) = true →
    ∀ j, j < 8 → q.wmask.getLsbD j = false → byte (s.mtime + 1) j = 0
  msip : (msipCs s q && q.wen) = true → q.wmask.getLsbD 0 = true ∨ s.msip = 0

end Step

section Next
variable {s : State} {a : Access}

theorem Access.places (h : a.wen = true) : Ls.Places a.req.wmask a.req.wdata a.addr a.rs2
    (Rv64i.accessBytes (Rv64i.funct3 a.inst)) :=
  Ls.places_store a.addr a.rs2 (a.legal h).1

/-- A register that takes the whole word has the masked bytes alone replaced just when the bytes
left out were zero. -/
theorem Access.merge_iff (h : a.wen = true) (old : BitVec 64) :
    a.req.wdata = merge a.req.wmask a.req.wdata old ↔
      ∀ j, j < 8 → a.req.wmask.getLsbD j = false → byte old j = 0 := by
  rw [merge_eq_new_iff]
  constructor
  · intro he j hj hm
    rw [← he j hj hm]
    exact (Access.places h).zero_lane hj hm
  · intro he j hj hm
    rw [he j hj hm]
    exact (Access.places h).zero_lane hj hm

theorem next_mtimecmp : (machine.next s a).mtimecmp =
    if mtimecmpCs s a.req && a.req.wen then a.req.wdata else s.mtimecmp := rfl

theorem next_mtime : (machine.next s a).mtime =
    if mtimeCs s a.req && a.req.wen then a.req.wdata else s.mtime + 1 := rfl

theorem next_msip : (machine.next s a).msip =
    if msipCs s a.req && a.req.wen then 0#31 ++ a.req.wdata.extractLsb' 0 1 else s.msip := rfl

theorem mtimecmp_iff : (machine.next s a).mtimecmp =
      (if mtimecmpCs s a.req && a.req.wen then merge a.req.wmask a.req.wdata s.mtimecmp
        else s.mtimecmp) ↔
    ((mtimecmpCs s a.req && a.req.wen) = true →
      ∀ j, j < 8 → a.req.wmask.getLsbD j = false → byte s.mtimecmp j = 0) := by
  rw [next_mtimecmp]
  cases hc : mtimecmpCs s a.req && a.req.wen with
  | false => simp
  | true =>
    simp only [if_true, forall_const]
    exact Access.merge_iff (Bool.and_eq_true_iff.mp hc).2 _

theorem mtime_iff : (machine.next s a).mtime =
      (if mtimeCs s a.req && a.req.wen then merge a.req.wmask a.req.wdata (s.mtime + 1)
        else s.mtime + 1) ↔
    ((mtimeCs s a.req && a.req.wen) = true →
      ∀ j, j < 8 → a.req.wmask.getLsbD j = false → byte (s.mtime + 1) j = 0) := by
  rw [next_mtime]
  cases hc : mtimeCs s a.req && a.req.wen with
  | false => simp
  | true =>
    simp only [if_true, forall_const]
    exact Access.merge_iff (Bool.and_eq_true_iff.mp hc).2 _

/-- A store beside byte 0 clears the software interrupt. -/
theorem msip_iff : ((machine.next s a).msip ≠ s.msip →
      (msipCs s a.req && a.req.wen) = true ∧ a.req.wmask.getLsbD 0 = true) ↔
    ((msipCs s a.req && a.req.wen) = true → a.req.wmask.getLsbD 0 = true ∨ s.msip = 0) := by
  rw [next_msip]
  cases hc : msipCs s a.req && a.req.wen with
  | false => simp
  | true =>
    simp only [if_true, true_and, forall_const]
    cases hm : a.req.wmask.getLsbD 0 with
    | true => simp
    | false =>
      have hz := (Access.places (Bool.and_eq_true_iff.mp hc).2).zero_lane (by decide) hm
      have h0 : 0#31 ++ a.req.wdata.extractLsb' 0 1 = 0#32 := by
        have hb : a.req.wdata.extractLsb' 0 1 = (byte a.req.wdata 0).extractLsb' 0 1 := by
          apply BitVec.eq_of_getLsbD_eq
          intro k hk
          simp [byte, hk]
        rw [hb, hz]
        decide
      rw [h0]
      constructor
      · intro h
        by_cases hs : s.msip = 0
        · exact .inr hs
        · exact .inl (h fun he => hs he.symm)
      · rintro (h | h) hs
        · exact h
        · exact absurd h.symm hs

theorem respects_iff : Respects s a.req (machine.next s a) ↔ LeavesZero s a.req := by
  constructor
  · intro h
    exact ⟨mtimecmp_iff.mp h.mtimecmp, mtime_iff.mp h.mtime, msip_iff.mp h.msip⟩
  · intro h
    exact ⟨mtimecmp_iff.mpr h.mtimecmp, mtime_iff.mpr h.mtime, msip_iff.mpr h.msip⟩

end Next

/-- Over any sequence of accesses from reset, every store respects its mask just when every store
leaves out only bytes that are zero. -/
theorem stores_respect_mask_iff (i : Nat → Access) :
    (∀ n, Respects (machine.run resetState i n) (i n).req (machine.run resetState i (n + 1))) ↔
      ∀ n, LeavesZero (machine.run resetState i n) (i n).req := by
  constructor
  · intro h n
    exact respects_iff.mp (h n)
  · intro h n
    exact respects_iff.mpr (h n)

/-- `sw x6, 0(x5)` of a one to the lower half of `mtimecmp`. -/
def lowerHalf (_ : Nat) : Access :=
  { vld := true, wen := true, inst := 0x0062a023, addr := 0x20004000, rs2 := 1, rspRdy := true
    legal := fun _ => by decide }

/-- Its upper half, all ones out of reset, is lost. -/
theorem upper_half_lost : ¬∀ (i : Nat → Access) (n : Nat),
    Respects (machine.run resetState i n) (i n).req (machine.run resetState i (n + 1)) := by
  intro h
  have hc := (h lowerHalf 0).mtimecmp
  revert hc
  decide

end Clint

namespace Sys

/-- The CLINT of the top sees the requests of `rv64im_core_ls`. -/
theorem clint_request {s : State} (hd : s.core.exu.idAlu.info = Id.info s.core.exu.idAlu.inst)
    (i : In) : req s i 1 = Clint.lsRequest (cs s i 1 && lsuReqVld s i) (Core.lsuWen s.core)
      s.core.exu.idAlu.inst (Alu.memAddr (Core.aluIn s.core (early s i)))
      (Core.aluRs2Data s.core (early s i)) := by
  simp only [req, Clint.lsRequest, lsuAddr, Core.lsuAddr, Core.lsuWdata, Core.lsuWmask, hd]

end Sys

end Rv64imCore
