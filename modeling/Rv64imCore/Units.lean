import Mathlib.Logic.Function.Basic

namespace Rv64imCore
set_option autoImplicit true

/-- `rv64im_core_reg`: the reset wins over the write enable. -/
def reg (rst : Bool) (resetVal : α) (wen : Bool) (din dout : α) : α :=
  if rst then resetVal else if wen then din else dout

@[simp] theorem reg_rst (v : α) (wen : Bool) (din dout : α) :
    reg true v wen din dout = v := rfl

@[simp] theorem reg_load (v din dout : α) : reg false v true din dout = din := rfl

@[simp] theorem reg_hold (v din dout : α) : reg false v false din dout = dout := rfl

/-- The replication `{w{b}}` used to mask a bus by one wire. -/
def mask (b : Bool) (x : BitVec w) : BitVec w := BitVec.fill w b &&& x

@[simp] theorem mask_true (x : BitVec w) : mask true x = x := by
  simp [mask, BitVec.fill, BitVec.neg_one_eq_allOnes]

@[simp] theorem mask_false (x : BitVec w) : mask false x = 0#w := by
  simp [mask, BitVec.fill]

end Rv64imCore
