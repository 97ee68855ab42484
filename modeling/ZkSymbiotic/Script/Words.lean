import Mathlib.Algebra.QuadraticAlgebra.Basic
import Mathlib.FieldTheory.Finite.Basic
import Mathlib.NumberTheory.LegendreSymbol.Basic
import Mathlib.Tactic.NormNum.Prime
import ZkSymbiotic.Lib.ShortWeierstrass
import ZkSymbiotic.Script.BN254G2

/-!
# The words of `BN254G2` as field elements

`Fq2` is the field with `FIELD_MODULUS ^ 2` elements; two words stand for one of its elements
(`FQ2.val`), which has one pair of reduced words (`FQ2.of`).

* `fieldModulus_prime`                             the modulus is a prime;
* `FQ2Mul_eq`, `FQ2Muc_eq`, `FQ2Sub_eq`, `FQ2Inv_eq`   the operations on words return the reduced
                                                   words of the result, and never panic;
* `ECTwistDoubleJacobian_eq`, `ECTwistAddJacobian_eq`   the formulas are those of
                                                   `ShortWeierstrass.Triple`.
-/

namespace ZkSymbiotic.BN254G2

/-! ## the field -/

theorem fieldModulus_prime : FIELD_MODULUS.Prime := by
  have h1 : Nat.Prime 405928799 :=
    prime_of_lucas 32 405928799 22 [2, 11, 3691, 4999] [] (by decide +kernel) (by norm_num) trivial
  have h2 : Nat.Prime 11465965001 :=
    prime_of_lucas 64 11465965001 3 [2, 2, 2, 5, 5, 5, 5, 7, 327599] [] (by decide +kernel)
      (by norm_num) trivial
  have h3 : Nat.Prime 1263766531 :=
    prime_of_lucas 32 1263766531 10 [2, 3, 5, 13, 911, 3557] [] (by decide +kernel) (by norm_num)
      trivial
  have h4 : Nat.Prime 35385462869 :=
    prime_of_lucas 64 35385462869 2 [2, 2, 7] [1263766531] (by decide +kernel) (by norm_num) h3
  have h5 : Nat.Prime 2480874801745591 :=
    prime_of_lucas 64 2480874801745591 6 [2, 3, 3, 5, 19, 41] [35385462869] (by decide +kernel)
      (by norm_num) h4
  have h6 : Nat.Prime 173171039 :=
    prime_of_lucas 32 173171039 13 [2, 73, 89, 13327] [] (by decide +kernel) (by norm_num) trivial
  have h7 : Nat.Prime 13427688667394608761327070753331941386769 :=
    prime_of_lucas 256 13427688667394608761327070753331941386769 17
      [2, 2, 2, 2, 3, 7, 11, 1853641, 4562087] [173171039, 2480874801745591] (by decide +kernel)
      (by norm_num) ⟨h6, h5⟩
  exact prime_of_lucas 256 FIELD_MODULUS 3 [2, 3, 3, 13, 29, 67, 229, 311, 983, 11003]
    [405928799, 11465965001, 13427688667394608761327070753331941386769] (by decide +kernel)
    (by norm_num) ⟨h1, h2, h7⟩

instance : Fact FIELD_MODULUS.Prime := ⟨fieldModulus_prime⟩

abbrev Fq := ZMod FIELD_MODULUS

/-- the quadratic extension by a root of `-1` -/
abbrev Fq2 := QuadraticAlgebra Fq (-1) 0

theorem neg_one_not_square (r : Fq) : r^2 ≠ -1 + 0 * r := by
  intro hr
  have hsq : IsSquare (-1 : Fq) := ⟨r, by rw [← pow_two, hr]; ring⟩
  have hmod : FIELD_MODULUS % 4 = 3 := rfl
  exact ZMod.exists_sq_eq_neg_one_iff.mp hsq hmod

instance : Fact (∀ r : Fq, r^2 ≠ -1 + 0 * r) := ⟨neg_one_not_square⟩

/-! ## what the words stand for -/

def FQ2.val (w : FQ2) : Fq2 := { re := w.x, im := w.y }

/-- the reduced words of a value -/
def FQ2.of (v : Fq2) : FQ2 := { x := v.re.val, y := v.im.val }

variable {a b : ℕ} {x y : FQ2} {u v : Fq2}

@[simp] theorem FQ2.val_of : (FQ2.of v).val = v := by
  ext
  · exact ZMod.natCast_zmod_val v.re
  · exact ZMod.natCast_zmod_val v.im

theorem FQ2.of_inj : FQ2.of u = FQ2.of v ↔ u = v :=
  ⟨fun h => by rw [← FQ2.val_of (v := u), h, FQ2.val_of], fun h => by rw [h]⟩

theorem FQ2.of_zero : FQ2.of 0 = { x := 0, y := 0 } := by
  unfold FQ2.of
  simp

theorem addmod_lt : addmod a b FIELD_MODULUS < FIELD_MODULUS := Nat.mod_lt _ fieldModulus_prime.pos

theorem mulmod_lt : mulmod a b FIELD_MODULUS < FIELD_MODULUS := Nat.mod_lt _ fieldModulus_prime.pos

theorem FQ2.of_one : FQ2.of 1 = { x := 1, y := 0 } := by
  have hone : (1 : Fq).val = 1 := ZMod.val_one FIELD_MODULUS
  unfold FQ2.of
  rw [QuadraticAlgebra.re_one, QuadraticAlgebra.im_one, hone, ZMod.val_zero]

theorem natCast_addmod : ((addmod a b FIELD_MODULUS : ℕ) : Fq) = a + b := by
  rw [addmod, ZMod.natCast_mod, Nat.cast_add]

theorem natCast_mulmod : ((mulmod a b FIELD_MODULUS : ℕ) : Fq) = a * b := by
  rw [mulmod, ZMod.natCast_mod, Nat.cast_mul]

theorem submod_eq (h : b ≤ FIELD_MODULUS) :
    ∃ c, submod a b FIELD_MODULUS = .ok c ∧ c < FIELD_MODULUS ∧ (c : Fq) = a - b := by
  refine ⟨addmod a (FIELD_MODULUS - b) FIELD_MODULUS, ?_, addmod_lt, ?_⟩
  · rw [submod, sub, if_pos h, Except.ok_bind]
    rfl
  · rw [natCast_addmod, Nat.cast_sub h, ZMod.natCast_self]
    ring

theorem eq_val {c : ℕ} {e : Fq} (h : c < FIELD_MODULUS) (hc : (c : Fq) = e) : c = e.val := by
  rw [← hc, ZMod.val_natCast, Nat.mod_eq_of_lt h]

/-! ## the operations on words -/

theorem FQ2Mul_eq : FQ2Mul x y = .ok (.of (x.val * y.val)) := by
  obtain ⟨c, hc, hlt, hval⟩ := submod_eq (a := mulmod x.x y.x FIELD_MODULUS)
    (b := mulmod x.y y.y FIELD_MODULUS) mulmod_lt.le
  rw [FQ2Mul, hc, Except.ok_bind]
  have hx : (c : Fq) = (x.val * y.val).re := by
    rw [hval, natCast_mulmod, natCast_mulmod, QuadraticAlgebra.re_mul]
    simp only [FQ2.val]
    ring
  have hy : ((addmod (mulmod x.x y.y FIELD_MODULUS) (mulmod x.y y.x FIELD_MODULUS)
      FIELD_MODULUS : ℕ) : Fq) = (x.val * y.val).im := by
    rw [natCast_addmod, natCast_mulmod, natCast_mulmod, QuadraticAlgebra.im_mul]
    simp only [FQ2.val]
    ring
  rw [eq_val hlt hx, eq_val addmod_lt hy]
  rfl

theorem FQ2Muc_eq (c : ℕ) : FQ2Muc x c = .of (c * x.val) := by
  have hx : ((mulmod x.x c FIELD_MODULUS : ℕ) : Fq) = (c * x.val : Fq2).re := by
    rw [natCast_mulmod, QuadraticAlgebra.re_mul]
    simp [FQ2.val, mul_comm]
  have hy : ((mulmod x.y c FIELD_MODULUS : ℕ) : Fq) = (c * x.val : Fq2).im := by
    rw [natCast_mulmod, QuadraticAlgebra.im_mul]
    simp [FQ2.val, mul_comm]
  rw [FQ2Muc, eq_val mulmod_lt hx, eq_val mulmod_lt hy]
  rfl

/-- the subtrahend has to be reduced, or the checked subtraction panics -/
theorem FQ2Sub_eq : FQ2Sub x (.of v) = .ok (.of (x.val - v)) := by
  obtain ⟨c, hc, hclt, hcval⟩ := submod_eq (a := x.x) (ZMod.val_lt v.re).le
  obtain ⟨d, hd, hdlt, hdval⟩ := submod_eq (a := x.y) (ZMod.val_lt v.im).le
  have hx : (c : Fq) = (x.val - v).re := by rw [hcval, ZMod.natCast_zmod_val]; rfl
  have hy : (d : Fq) = (x.val - v).im := by rw [hdval, ZMod.natCast_zmod_val]; rfl
  rw [FQ2Sub]
  simp only [FQ2.of, hc, hd, Except.ok_bind]
  rw [eq_val hclt hx, eq_val hdlt hy]
  rfl

theorem natCast_modInv : ((modInv a FIELD_MODULUS : ℕ) : Fq) = (a : Fq)⁻¹ := by
  have hlt : FIELD_MODULUS - 2 < 2^256 := by decide
  rw [modInv, modexp, powMod_eq hlt, ZMod.natCast_mod, Nat.cast_pow]
  rcases eq_or_ne (a : Fq) 0 with h | h
  · rw [h, inv_zero, zero_pow (by decide)]
  · refine eq_inv_of_mul_eq_one_left ?_
    have hsucc : FIELD_MODULUS - 2 + 1 = FIELD_MODULUS - 1 := rfl
    rw [← pow_succ, hsucc, ZMod.pow_card_sub_one_eq_one h]

/-- the second word of an inverse may be the modulus itself -/
theorem FQ2Inv_eq : ∃ w, FQ2Inv x = .ok w ∧ w.val = x.val⁻¹ := by
  have hinv : ((modInv (addmod (mulmod x.y x.y FIELD_MODULUS) (mulmod x.x x.x FIELD_MODULUS)
      FIELD_MODULUS) FIELD_MODULUS : ℕ) : Fq) = x.val.norm⁻¹ := by
    rw [natCast_modInv, natCast_addmod, natCast_mulmod, natCast_mulmod, QuadraticAlgebra.norm_def]
    congr 1
    simp only [FQ2.val]
    ring
  rw [FQ2Inv]
  generalize modInv (addmod (mulmod x.y x.y FIELD_MODULUS) (mulmod x.x x.x FIELD_MODULUS)
    FIELD_MODULUS) FIELD_MODULUS = inv at hinv
  refine ⟨{ x := mulmod x.x inv FIELD_MODULUS, y := FIELD_MODULUS - mulmod x.y inv FIELD_MODULUS },
    ?_, ?_⟩
  · rw [sub, if_pos mulmod_lt.le]
    rfl
  · have hre : ((mulmod x.x inv FIELD_MODULUS : ℕ) : Fq) = (x.val⁻¹).re := by
      rw [natCast_mulmod, hinv, QuadraticAlgebra.re_inv]
      simp only [FQ2.val]
      ring
    have him : ((FIELD_MODULUS - mulmod x.y inv FIELD_MODULUS : ℕ) : Fq) = (x.val⁻¹).im := by
      rw [Nat.cast_sub mulmod_lt.le, ZMod.natCast_self, natCast_mulmod, hinv,
        QuadraticAlgebra.im_inv]
      simp only [FQ2.val]
      ring
    ext
    · exact hre
    · exact him

/-! ## the formulas -/
open ShortWeierstrass

def Jacobian.val (pt : Jacobian) : Triple Fq2 := { x := pt.x.val, y := pt.y.val, z := pt.z.val }

def Jacobian.of (t : Triple Fq2) : Jacobian := { x := .of t.x, y := .of t.y, z := .of t.z }

variable {pt pt1 pt2 : Jacobian} {t : Triple Fq2}

@[simp] theorem Jacobian.val_of : (Jacobian.of t).val = t := by
  simp only [val, Jacobian.of, FQ2.val_of]

theorem ok_of {s t : Triple Fq2} (h : s = t) :
    (.ok (Jacobian.of s) : Except Panic Jacobian) = .ok (.of t) := by rw [h]

theorem ECTwistDoubleJacobian_eq : ECTwistDoubleJacobian pt = .ok (.of pt.val.double) := by
  simp only [ECTwistDoubleJacobian, FQ2Mul_eq, FQ2Muc_eq, FQ2Sub_eq, FQ2.val_of, Except.ok_bind]
  refine ok_of (s := { x := _, y := _, z := _ }) (Triple.ext ?_ ?_ ?_)
  · simp only [Triple.double, Jacobian.val, Nat.cast_ofNat]
  · simp only [Triple.double, Jacobian.val, Nat.cast_ofNat]
    ring
  · simp only [Triple.double, Jacobian.val, Nat.cast_ofNat]

/-- the two words of `z` are reduced, so that the tests for zero are tests of the value -/
def Jacobian.Reduced (pt : Jacobian) : Prop := pt.z = .of pt.z.val

theorem Jacobian.reduced_of : (Jacobian.of t).Reduced := by
  rw [Reduced, Jacobian.of, FQ2.val_of]

theorem Jacobian.Reduced.z_eq_zero (h : pt.Reduced) :
    pt.z = { x := 0, y := 0 } ↔ pt.val.z = 0 := by
  rw [h, ← FQ2.of_zero, FQ2.of_inj]
  rfl

theorem ECTwistAddJacobian_eq (h1 : pt1.Reduced) (h2 : pt2.Reduced) :
    ∃ pt3, ECTwistAddJacobian pt1 pt2 = .ok pt3 ∧ pt3.Reduced ∧
      pt3.val = pt1.val.add pt2.val := by
  by_cases hz1 : pt1.val.z = 0
  · refine ⟨pt2, ?_, h2, ?_⟩
    · rw [ECTwistAddJacobian, if_pos (h1.z_eq_zero.mpr hz1)]
    · rw [Triple.add, if_pos hz1]
  by_cases hz2 : pt2.val.z = 0
  · refine ⟨pt1, ?_, h1, ?_⟩
    · rw [ECTwistAddJacobian, if_neg (mt h1.z_eq_zero.mp hz1), if_pos (h2.z_eq_zero.mpr hz2)]
    · rw [Triple.add, if_neg hz1, if_pos hz2]
  refine ⟨.of (pt1.val.add pt2.val), ?_, Jacobian.reduced_of, Jacobian.val_of⟩
  rw [ECTwistAddJacobian, if_neg (mt h1.z_eq_zero.mp hz1), if_neg (mt h2.z_eq_zero.mp hz2)]
  simp only [FQ2Mul_eq, FQ2Muc_eq, FQ2Sub_eq, FQ2.val_of, FQ2.of_inj, Except.ok_bind]
  rw [Triple.add, if_neg hz1, if_neg hz2]
  by_cases hx : pt2.val.x * pt1.val.z = pt1.val.x * pt2.val.z
  · rw [if_pos hx]
    refine (if_pos hx).trans ?_
    by_cases hy : pt2.val.y * pt1.val.z = pt1.val.y * pt2.val.z
    · rw [if_pos hy]
      exact (if_pos hy).trans ECTwistDoubleJacobian_eq
    · rw [if_neg hy, Jacobian.of, FQ2.of_one, FQ2.of_zero]
      exact if_neg hy
  · rw [if_neg hx]
    refine (if_neg hx).trans (ok_of (s := { x := _, y := _, z := _ }) (Triple.ext ?_ ?_ ?_))
    · simp only [Triple.addDistinct, Jacobian.val, Nat.cast_ofNat]
    · simp only [Triple.addDistinct, Jacobian.val, Nat.cast_ofNat]
    · simp only [Triple.addDistinct, Jacobian.val]

end ZkSymbiotic.BN254G2
