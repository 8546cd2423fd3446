import Rv64imCore.GolReference
import Rv64imCore.GolMachine

/-! Rules for the machine of the calls. -/

namespace Rv64imCore.Gol
set_option autoImplicit true
open Rv64i (Store)

namespace Data
variable (d : Data)

@[simp] theorem m_put (r : Reg) (v : Int) : (d.put r v).m = d.m := rfl

theorem reg_put_self {r : Reg} (h : r ≠ .zero) (v : Int) : (d.put r v).reg r = v := by
  rw [reg_put, if_neg h, if_pos rfl]

@[simp] theorem reg_zero : d.reg .zero = 0 := rfl

end Data

/-- At the calls `r`, with data of which `P` holds. -/
def At (r : List (Call L)) (P : Data → Prop) (s : Mach L) : Prop := s.rest = r ∧ P s.data

section Rules
variable [DecidableEq L] {prog r r' : List (Call L)} {Q : Mach L → Prop} {d d' : Data}
  {rd rs a b : Reg} {imm v z : Int}

theorem leads_exec {c : Call L} (h : c.exec d = some d')
    (hq : (machine prog).Leads Q { rest := r, data := d' }) :
    (machine prog).Leads Q { rest := c :: r, data := d } :=
  .step (fun _ => .exec h) hq

theorem leads_label {l : L} (hq : (machine prog).Leads Q { rest := r, data := d }) :
    (machine prog).Leads Q { rest := .label l :: r, data := d } :=
  leads_exec rfl hq

theorem leads_li {val : Int} (hv : liValue val = v)
    (hq : (machine prog).Leads Q { rest := r, data := d.put rd v }) :
    (machine prog).Leads Q { rest := .li rd val :: r, data := d } :=
  leads_exec (by rw [Call.exec, hv]) hq

theorem leads_mv (hv : d.reg rs = v)
    (hq : (machine prog).Leads Q { rest := r, data := d.put rd v }) :
    (machine prog).Leads Q { rest := .mv rd rs :: r, data := d } :=
  leads_exec (by rw [Call.exec, hv]) hq

theorem leads_add (hv : d.reg a + d.reg b = v)
    (hq : (machine prog).Leads Q { rest := r, data := d.put rd v }) :
    (machine prog).Leads Q { rest := .add rd a b :: r, data := d } :=
  leads_exec (by rw [Call.exec, hv]) hq

theorem leads_sub
    (hq : (machine prog).Leads Q { rest := r, data := d.put rd (d.reg a - d.reg b) }) :
    (machine prog).Leads Q { rest := .sub rd a b :: r, data := d } :=
  leads_exec rfl hq

theorem leads_addi (hv : d.reg rs + imm = v) (hi : -2048 ≤ imm ∧ imm < 2048)
    (hq : (machine prog).Leads Q { rest := r, data := d.put rd v }) :
    (machine prog).Leads Q { rest := .addi rd rs imm :: r, data := d } :=
  leads_exec ((if_pos hi).trans (by rw [hv])) hq

theorem leads_xor {x y : Nat} (ha : d.reg a = x) (hb : d.reg b = y)
    (hq : (machine prog).Leads Q { rest := r, data := d.put rd ↑(x ^^^ y) }) :
    (machine prog).Leads Q { rest := .xor rd a b :: r, data := d } :=
  leads_exec (by rw [Call.exec, ha, hb, if_pos (by omega)]; rfl) hq

theorem leads_andi {x m : Nat} (ha : d.reg rs = x) (hi : imm = m) (hm : m < 2048)
    (hq : (machine prog).Leads Q { rest := r, data := d.put rd ↑(x &&& m) }) :
    (machine prog).Leads Q { rest := .andi rd rs imm :: r, data := d } :=
  leads_exec (by rw [Call.exec, ha, hi, if_pos (by omega)]; rfl) hq

theorem leads_lbu (hz : d.reg rs + imm = z) (hi : -2048 ≤ imm ∧ imm < 2048) (hl : gridBase ≤ z)
    (hu : z < mark) (hq : (machine prog).Leads Q { rest := r, data := d.put rd (d.m z) }) :
    (machine prog).Leads Q { rest := .lbu rd imm rs :: r, data := d } := by
  have he : (Call.lbu rd imm rs : Call L).exec d = some (d.put rd (d.m z)) := by
    rw [Call.exec, hz, if_pos ⟨hi.1, hi.2, hl, hu⟩]
  exact leads_exec he hq

theorem leads_sb {rs2 rs1 : Reg} {v : Nat} (hz : d.reg rs1 = z) (hl : gridBase ≤ z) (hu : z < mark)
    (hv : d.reg rs2 = v) (hb : v < 256)
    (hq : (machine prog).Leads Q { rest := r, data := d.poke z v }) :
    (machine prog).Leads Q { rest := .sb rs2 0 rs1 :: r, data := d } := by
  have he : (Call.sb rs2 0 rs1 : Call L).exec d = some (d.poke z v) := by
    rw [Call.exec, if_pos (by omega), hz, hv, Int.add_zero, Int.toNat_natCast]
  exact leads_exec he hq

theorem leads_csrr (hq : ∀ c : Int, (machine prog).Leads Q { rest := r, data := d.put rd c }) :
    (machine prog).Leads Q { rest := .csrrCycle rd :: r, data := d } :=
  .next (fun i => { rest := r, data := d.put rd i.toNat }) (fun _ => .csrr) fun _ => hq _

theorem fits {z : Int} (hl : -2 ^ 32 ≤ z) (hu : z < 2 ^ 32) : Fits z := by
  rw [Fits]
  omega

theorem leads_branch {kind : Kind} {l : L} {v v' : Int} (hk : kind ≠ .jal)
    (hl : after l prog = some r') (ha : d.reg a = v) (hb : d.reg b = v') (hv : Fits v)
    (hv' : Fits v') (ht : kind.test v v' → (machine prog).Leads Q { rest := r', data := d })
    (hf : ¬kind.test v v' → (machine prog).Leads Q { rest := r, data := d }) :
    (machine prog).Leads Q { rest := .branch kind a b l :: r, data := d } := by
  subst ha hb
  by_cases h : kind.test (d.reg a) (d.reg b)
  · exact .step (fun _ => .taken hk hl hv hv' h) (ht h)
  · exact .step (fun _ => .fall hk hl hv hv' h) (hf h)

theorem leads_blt {l : L} {x w : Nat} (hl : after l prog = some r') (ha : d.reg a = ↑(x + 1))
    (hb : d.reg b = w - 1) (hx : x + 1 < w) (hw : w < 2 ^ 32)
    (ht : x + 2 < w → (machine prog).Leads Q { rest := r', data := d })
    (hf : x + 2 = w → (machine prog).Leads Q { rest := r, data := d }) :
    (machine prog).Leads Q { rest := .branch .blt a b l :: r, data := d } := by
  refine leads_branch (by decide) hl ha hb (fits (by omega) (by omega)) (fits (by omega) (by omega))
    (fun h => ?_) fun h => ?_
  · have hlt : ((x + 1 : Nat) : Int) < w - 1 := h
    exact ht (by omega)
  · have hge : ¬((x + 1 : Nat) : Int) < w - 1 := h
    exact hf (by omega)

theorem leads_jal {l : L} (hl : after l prog = some r')
    (hq : (machine prog).Leads Q { rest := r', data := d.put rd (pcOf prog r) }) :
    (machine prog).Leads Q { rest := .jal rd l :: r, data := d } :=
  .step (fun _ => .jal hl) hq

theorem leads_ret (hr : r' <:+ prog) (hra : d.reg .ra = (pcOf prog r' : Int))
    (hq : (machine prog).Leads Q { rest := r', data := d }) :
    (machine prog).Leads Q { rest := .ret :: r, data := d } :=
  .step (fun _ => .ret hr hra) hq

/-- A loop at the calls `r` whose rounds count up to a bound. -/
theorem leads_up {P : Nat → Data → Prop} (bound : Nat) (hb : ∀ k d, P k d → k < bound)
    (h : ∀ k d, P k d → (machine prog).Leads
      (fun s => Q s ∨ At r (fun d => ∃ k', k < k' ∧ P k' d) s) { rest := r, data := d })
    (h₀ : P k d) : (machine prog).Leads Q { rest := r, data := d } := by
  refine Clocked.System.Leads.loop
    (I := fun n s => At r (fun d => ∃ k, bound - k = n ∧ P k d) s) ?_ ⟨rfl, k, rfl, h₀⟩
  rintro n ⟨_, d⟩ ⟨rfl, k, rfl, hp⟩
  refine (h k d hp).mono ?_
  rintro s (hq | ⟨hs, k', hk, hp'⟩)
  · exact .inl hq
  · have hlt := hb k d hp
    exact .inr ⟨bound - k', by omega, hs, k', rfl, hp'⟩

end Rules

/-- An event, and the payload in front of one. -/
def event (e : BitVec 64) : Store := { addr := 0xa0000100#32, bytes := 8, data := e }
def payload (v : BitVec 64) : Store := { addr := 0xa0000108#32, bytes := 8, data := v }

section Markers
variable {prog r : List (Call Label)} {Q : Mach Label → Prop} {d : Data} {p : Reg}

theorem leads_sd {rs2 : Reg} {imm : Int} (h6 : d.reg .t6 = mark) (hi : imm = 0 ∨ imm = 8)
    (hq : (machine prog).Leads Q { rest := r, data := d.send (mark + imm) (d.reg rs2) }) :
    (machine prog).Leads Q { rest := .sd rs2 imm .t6 :: r, data := d } := by
  have he : (Call.sd rs2 imm .t6 : Call Label).exec d
      = some (d.send (mark + imm) (d.reg rs2)) := by
    rw [Call.exec, h6, if_pos (by omega)]
  exact leads_exec he hq

theorem leads_marker {e : Int} (h6 : d.reg .t6 = mark) (he : liValue e = e)
    (hq : (machine prog).Leads Q { rest := r, data := (d.put .t5 e).send mark e }) :
    (machine prog).Leads Q { rest := emitMarker e none ++ r, data := d } := by
  refine leads_li he (leads_sd h6 (.inl rfl) ?_)
  exact hq

theorem leads_marker_payload {e : Int} (h6 : d.reg .t6 = mark) (he : liValue e = e)
    (hq : (machine prog).Leads Q
      { rest := r, data := ((d.send (mark + 8) (d.reg p)).put .t5 e).send mark e }) :
    (machine prog).Leads Q { rest := emitMarker e (some p) ++ r, data := d } :=
  leads_sd h6 (.inr rfl) (leads_marker (d := d.send (mark + 8) (d.reg p)) h6 he hq)

end Markers

end Rv64imCore.Gol
