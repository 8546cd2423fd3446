import Rv64imCore.HartMemory

/-! The program text in the memory of a hart: what the hart runs leaves it as it is. -/

set_option autoImplicit true

namespace Rv64i

theorem Hart.execute_mem {inst : BitVec 32} {c : BitVec 64} {h h' : Hart}
    (he : h.execute inst c = some h') (hs : isStore inst = false) : h'.mem = h.mem := by
  simp only [execute] at he
  repeat' split at he
  all_goals first
    | cases he; rfl
    | (rw [Option.map_eq_some_iff] at he; obtain ⟨t, -, rfl⟩ := he; rfl)
    | simp_all

end Rv64i

namespace Rv64im
open Rv64i (Hart)
open Rv64imCore

/-- The memory holds the program text, in the words that are marked as such. -/
structure Platform.Image (P : Platform) (m : Bytes.Mem 29) : Prop where
  code : ∀ pc w, P.code pc = some w → P.text (Ls.wordOf pc) = true ∧
    w = if pc.getLsbD 2 then (m.read (Ls.wordOf pc)).extractLsb' 32 32
      else (m.read (Ls.wordOf pc)).extractLsb' 0 32
  ram : ∀ a, P.ram a = (a.extractLsb' 28 4 == 0x8#4)
  textRam : ∀ a, P.text a = true → a.extractLsb' 25 4 = 0x8#4

/-- A platform whose program is what a memory holds in some of its words. -/
def Platform.ofImage (m : Bytes.Mem 29) (text : BitVec 29 → Bool) (device : Nat → BitVec 64) :
    Platform where
  code := fun pc => if text (Ls.wordOf pc) then
      some (if pc.getLsbD 2 then (m.read (Ls.wordOf pc)).extractLsb' 32 32
        else (m.read (Ls.wordOf pc)).extractLsb' 0 32)
    else none
  text := text
  ram := fun a => a.extractLsb' 28 4 == 0x8#4
  device := device

theorem Platform.image_ofImage {m : Bytes.Mem 29} {text : BitVec 29 → Bool}
    (ht : ∀ a, text a = true → a.extractLsb' 25 4 = 0x8#4) (device : Nat → BitVec 64) :
    (Platform.ofImage m text device).Image m where
  code := by
    intro pc w hw
    simp only [ofImage] at hw
    split at hw
    · rename_i h
      exact ⟨h, (Option.some.inj hw).symm⟩
    · cases hw
  ram := fun _ => rfl
  textRam := ht

/-- Two memories have the same program text. -/
def Platform.SameText (P : Platform) (m m' : Bytes.Mem 29) : Prop :=
  ∀ a, P.text a = true → m'.read a = m.read a

section Steps
variable {P : Platform} {h h' : Hart}

theorem Platform.SameText.refl (m : Bytes.Mem 29) : P.SameText m m := fun _ _ => rfl

theorem Platform.SameText.trans {m m' m'' : Bytes.Mem 29} (h : P.SameText m m')
    (h' : P.SameText m' m'') : P.SameText m m'' := fun a ha => (h' a ha).trans (h a ha)

theorem Platform.SameText.of_mem (hm : h'.mem = h.mem) : P.SameText h.mem h'.mem := by
  rw [hm]
  exact .refl _

theorem Platform.SameText.store {m : Bytes.Mem 29} {a : BitVec 29} (ha : P.text a = false)
    (bm : BitVec 8) (d : BitVec 64) : P.SameText m (m.store a bm d) := by
  intro b hb
  refine Bytes.Mem.read_store_ne _ (fun h' => ?_) ..
  rw [h', ha] at hb
  cases hb

theorem execute_base {csr : BitVec 12 → BitVec 64} {inst : BitVec 32}
    (he : execute csr inst h = some h') : h'.mem = h.mem ∨ h.execute inst 0 = some h' := by
  rw [execute] at he
  cases hd : MulDiv.decode inst with
  | some n =>
    rw [hd] at he
    cases he
    exact .inl rfl
  | none =>
    rw [hd] at he
    cases hc : isCsr inst with
    | true =>
      rw [hc] at he
      cases he
      exact .inl rfl
    | false =>
      rw [hc] at he
      exact .inr he

theorem Platform.retire_text {csr : BitVec 12 → BitVec 64} {word : BitVec 64}
    (he : P.retire csr word h = some h') : P.SameText h.mem h'.mem := by
  rw [Platform.retire, Option.bind_eq_some_iff] at he
  obtain ⟨inst, -, he⟩ := he
  split at he
  · rename_i hp
    split at he
    · cases he
      rw [accessDevice]
      split <;> exact .of_mem rfl
    · rename_i hd
      rcases execute_base he with hm | he
      · exact .of_mem hm
      · cases hs : Rv64i.isStore inst with
        | false => exact .of_mem (Hart.execute_mem he hs)
        | true =>
          simp only [Platform.onDevice, hs, Bool.true_and, Bool.or_eq_true, Bool.not_eq_true',
            not_or, Bool.not_eq_false] at hd
          simp only [Platform.permits, hs, Bool.not_true, Bool.false_or, Bool.and_eq_true,
            Bool.not_eq_true', hd.2, Bool.true_and] at hp
          rw [Hart.execute_store hs] at he
          cases he
          change P.SameText h.mem (h.store _ _ _).mem
          rw [show h.reg (Rv64i.rs1 inst) + Rv64i.immS inst = storeAddr inst h from rfl,
            Ls.store_mem hs h _ hp.2.1]
          exact .store hp.2.2 _ _
  · cases he

/-- The program text is never changed. -/
theorem Platform.follow_text {es : List Event} (hf : P.follow h es = some h') :
    P.SameText h.mem h'.mem := by
  induction es generalizing h with
  | nil =>
    obtain rfl : h = h' := Option.some.inj hf
    exact .refl _
  | cons e es ih =>
    rw [Platform.follow, List.foldlM_cons] at hf
    obtain ⟨h₁, hs, hf⟩ := Option.bind_eq_some_iff.mp hf
    refine .trans ?_ (ih hf)
    cases e with
    | trap pc =>
      cases hs
      exact .of_mem rfl
    | retire csr word => exact Platform.retire_text hs

end Steps

end Rv64im
