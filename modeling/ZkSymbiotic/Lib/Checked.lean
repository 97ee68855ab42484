import Mathlib.Algebra.Group.Nat.Defs
import Mathlib.Data.Nat.Basic
import Mathlib.Logic.Basic

/-!
# Checked arithmetic on machine words

`checkedAdd a b` and `checkedSub a b` are the sum and the difference where they fit the width and
`none` where they do not.  `checkedAdd_eq_some` and `checkedSub_eq_some` read them as numbers.
-/

variable {w : Nat} {a b c : BitVec w}

def checkedAdd (a b : BitVec w) : Option (BitVec w) :=
  if a.toNat + b.toNat < 2^w then some (a + b) else none

def checkedSub (a b : BitVec w) : Option (BitVec w) :=
  if b.toNat ≤ a.toNat then some (a - b) else none

theorem checkedAdd_eq_some : checkedAdd a b = some c ↔ c.toNat = a.toNat + b.toNat := by
  unfold checkedAdd
  by_cases h : a.toNat + b.toNat < 2^w
  · rw [if_pos h, Option.some.injEq, ← BitVec.toNat_inj, BitVec.toNat_add, Nat.mod_eq_of_lt h]
    exact eq_comm
  · rw [if_neg h]
    have hc := c.isLt
    exact ⟨fun e => (by cases e), fun e => by omega⟩

theorem checkedSub_eq_some : checkedSub a b = some c ↔ c.toNat + b.toNat = a.toNat := by
  have ha := a.isLt
  have hb := b.isLt
  unfold checkedSub
  by_cases h : b.toNat ≤ a.toNat
  · rw [if_pos h, Option.some.injEq, ← BitVec.toNat_inj, BitVec.toNat_sub_of_le h]
    omega
  · rw [if_neg h]
    exact ⟨fun e => (by cases e), fun e => by omega⟩
