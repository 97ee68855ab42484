import ZkSymbiotic.Script.Words

/-!
# `BN254G2` computes in the group of the twist

The curve `y² = x³ + b` over `Fq2`, with Mathlib's group on its points.  Four words stand for a
point (`TwistPoint.decode`) unless they are off the curve; a point has one reduced writing
(`TwistPoint.of`).

* `isOnCurve_eq`                  the assertion is the equation of the curve;
* `Jacobian.Stands.double`, `Jacobian.Stands.add`   the formulas add;
* `ECTwistMul_multiplies`, `ECTwistAdd_adds`        what the entry points return, for all words;
* `BN254.getBLSKeys_aggregate`    the keys of private keys add up to the key of their sum.
-/

namespace ZkSymbiotic.BN254G2
open ShortWeierstrass

def twistB : Fq2 := FQ2.val { x := TWISTBX, y := TWISTBY }

abbrev Twist := (curve twistB).Point

theorem of_twistB : FQ2.of twistB = { x := TWISTBX, y := TWISTBY } := by
  have hx : TWISTBX % FIELD_MODULUS = TWISTBX := rfl
  have hy : TWISTBY % FIELD_MODULUS = TWISTBY := rfl
  simp only [FQ2.of, twistB, FQ2.val, ZMod.val_natCast, hx, hy]

theorem twistB_ne_zero : twistB ≠ 0 := by
  rw [Ne, ← FQ2.of_inj, of_twistB, FQ2.of_zero]
  decide

theorem natCast_ne_zero {n : ℕ} (h : ¬ FIELD_MODULUS ∣ n) : (n : Fq2) ≠ 0 := by
  intro h0
  have hre : ((n : Fq2).re : Fq) = 0 := by rw [h0]; rfl
  rw [QuadraticAlgebra.re_natCast, ZMod.natCast_eq_zero_iff] at hre
  exact h hre

theorem fq2_two_ne_zero : (2 : Fq2) ≠ 0 := natCast_ne_zero (n := 2) (by decide)

theorem fq2_three_ne_zero : (3 : Fq2) ≠ 0 := natCast_ne_zero (n := 3) (by decide)

theorem twist_nonsingular {x y : Fq2} : (curve twistB).Nonsingular x y ↔ y^2 = x^3 + twistB :=
  curve_nonsingular fq2_two_ne_zero fq2_three_ne_zero twistB_ne_zero

/-! ## points in words -/

def TwistPoint.of : Twist → TwistPoint
  | .zero => .infinity
  | .some x y _ => { x := .of x, y := .of y }

def TwistPoint.decode (pt : TwistPoint) : Option Twist :=
  if pt = .infinity then some 0
  else if h : pt.y.val^2 = pt.x.val^3 + twistB then some (.some _ _ (twist_nonsingular.mpr h))
  else none

variable {pt pt1 pt2 : TwistPoint} {P Q : Twist} {j j1 j2 : Jacobian} {s : ℕ}

theorem isOnCurve_eq : isOnCurve pt = .ok (decide (pt.y.val^2 = pt.x.val^3 + twistB)) := by
  have hzero : ∀ v : Fq2, (FQ2.of v).x = 0 ∧ (FQ2.of v).y = 0 ↔ v = 0 := by
    intro v
    rw [← FQ2.of_inj, FQ2.of_zero, FQ2.ext_iff]
  rw [isOnCurve, ← of_twistB]
  simp only [FQ2Mul_eq, FQ2Sub_eq, FQ2.val_of, Except.ok_bind]
  refine congrArg Except.ok (decide_eq_decide.mpr ?_)
  rw [hzero, sub_sub, sub_eq_zero]
  have h2 : pt.y.val * pt.y.val = pt.y.val^2 := (pow_two _).symm
  have h3 : pt.x.val * pt.x.val * pt.x.val = pt.x.val^3 := by ring
  rw [h2, h3]

theorem TwistPoint.decode_infinity : TwistPoint.infinity.decode = some 0 := if_pos rfl

/-- the four zeros are not on the curve -/
theorem TwistPoint.decode_some {x y : Fq2} (hx : pt.x.val = x) (hy : pt.y.val = y)
    (h : (curve twistB).Nonsingular x y) : pt.decode = some (.some x y h) := by
  have hcurve : pt.y.val^2 = pt.x.val^3 + twistB := by rw [hx, hy]; exact twist_nonsingular.mp h
  have hne : pt ≠ .infinity := by
    rintro rfl
    have hval : FQ2.val { x := 0, y := 0 } = 0 := by rw [← FQ2.of_zero, FQ2.val_of]
    rw [infinity, hval, zero_pow (by norm_num), zero_pow (by norm_num), zero_add] at hcurve
    exact twistB_ne_zero hcurve.symm
  rw [decode, if_neg hne, dif_pos hcurve]
  simp only [hx, hy]

theorem TwistPoint.decode_of : (TwistPoint.of P).decode = some P := by
  cases P with
  | zero => exact decode_infinity
  | some x y h => exact decode_some FQ2.val_of FQ2.val_of h

theorem assertOnCurve_eq : assertOnCurve pt =
    if pt.y.val^2 = pt.x.val^3 + twistB then .ok () else .error .assertion := by
  rw [assertOnCurve, isOnCurve_eq, Except.ok_bind]
  by_cases h : pt.y.val^2 = pt.x.val^3 + twistB
  · rw [if_pos h, decide_eq_true h]
    rfl
  · rw [if_neg h, decide_eq_false h]
    rfl

/-! ## homogeneous coordinates -/

/-- six words stand for a point, and the test for infinity sees it -/
def Jacobian.Stands (j : Jacobian) (P : Twist) : Prop := j.Reduced ∧ j.val.Stands P

theorem Jacobian.Stands.double (h : j.Stands P) :
    ∃ j', ECTwistDoubleJacobian j = .ok j' ∧ j'.Stands (P + P) := by
  refine ⟨_, ECTwistDoubleJacobian_eq, Jacobian.reduced_of, ?_⟩
  rw [Jacobian.val_of]
  exact h.2.double fq2_two_ne_zero

theorem Jacobian.Stands.add (h1 : j1.Stands P) (h2 : j2.Stands Q) :
    ∃ j', ECTwistAddJacobian j1 j2 = .ok j' ∧ j'.Stands (P + Q) := by
  obtain ⟨j', hj', hred, hval⟩ := ECTwistAddJacobian_eq h1.1 h2.1
  refine ⟨j', hj', hred, ?_⟩
  rw [hval]
  exact h1.2.add fq2_two_ne_zero h2.2

theorem Jacobian.stands_infinity {x y : FQ2} :
    Jacobian.Stands { x, y, z := { x := 0, y := 0 } } 0 := by
  have hval : FQ2.val { x := 0, y := 0 } = 0 := by rw [← FQ2.of_zero, FQ2.val_of]
  refine ⟨?_, Triple.stands_zero.mpr hval⟩
  rw [Jacobian.Reduced, hval, FQ2.of_zero]

theorem Jacobian.stands_affine {x y : Fq2} {h : (curve twistB).Nonsingular x y}
    (hx : pt.x.val = x) (hy : pt.y.val = y) :
    Jacobian.Stands { x := pt.x, y := pt.y, z := { x := 1, y := 0 } } (.some x y h) := by
  have hval : FQ2.val { x := 1, y := 0 } = 1 := by rw [← FQ2.of_one, FQ2.val_of]
  refine ⟨?_, Triple.stands_some.mpr ?_⟩
  · rw [Jacobian.Reduced, hval, FQ2.of_one]
  · simp only [Jacobian.val, hval, mul_one]
    exact ⟨one_ne_zero, hx, hy⟩

theorem Jacobian.Stands.fromJacobian (h : j.Stands P) :
    fromJacobian j = .ok (TwistPoint.of P) := by
  obtain ⟨w, hw, hval⟩ := FQ2Inv_eq (x := j.z)
  rw [BN254G2.fromJacobian, hw]
  simp only [FQ2Mul_eq, Except.ok_bind, hval]
  by_cases hz : j.val.z = 0
  · obtain rfl := h.2.eq_zero hz
    have hinv : (j.z.val)⁻¹ = 0 := by rw [show j.z.val = 0 from hz, inv_zero]
    rw [hinv, mul_zero, mul_zero, FQ2.of_zero]
    rfl
  · obtain ⟨x, y, hP, rfl, hx, hy⟩ := h.2.ne_zero hz
    have hx' : j.x.val * (j.z.val)⁻¹ = x := (mul_inv_eq_iff_eq_mul₀ hz).mpr hx
    have hy' : j.y.val * (j.z.val)⁻¹ = y := (mul_inv_eq_iff_eq_mul₀ hz).mpr hy
    rw [hx', hy']
    rfl

theorem ECTwistMulJacobian_eq (h : j.Stands P) (s : ℕ) :
    ∃ j', ECTwistMulJacobian s j = .ok j' ∧ j'.Stands (s • P) := by
  rw [← zero_add (s • P)]
  exact Except.doubleAdd_stands Jacobian.Stands.add Jacobian.Stands.double s h
    Jacobian.stands_infinity

/-! ## the entry points -/

theorem TwistPoint.decode_cases (pt : TwistPoint) :
    (pt = .infinity ∧ pt.decode = some 0) ∨
    (pt ≠ .infinity ∧ assertOnCurve pt = .ok () ∧ ∃ x y h, pt.decode = some (.some x y h) ∧
      pt.x.val = x ∧ pt.y.val = y) ∨
    (pt ≠ .infinity ∧ assertOnCurve pt = .error .assertion ∧ pt.decode = none) := by
  by_cases hz : pt = .infinity
  · exact .inl ⟨hz, if_pos hz⟩
  rw [assertOnCurve_eq]
  by_cases h : pt.y.val^2 = pt.x.val^3 + twistB
  · exact .inr (.inl ⟨hz, if_pos h, _, _, twist_nonsingular.mpr h,
      decode_some rfl rfl _, rfl, rfl⟩)
  · refine .inr (.inr ⟨hz, if_neg h, ?_⟩)
    rw [decode, if_neg hz, dif_neg h]

theorem ECTwistMul_some (h : pt.decode = some P) : ECTwistMul s pt = .ok (.of (s • P)) := by
  rcases pt.decode_cases with ⟨hz, hd⟩ | ⟨hz, hok, x, y, hP, hd, hx, hy⟩ | ⟨_, _, hd⟩
  · obtain rfl := Option.some.inj (h.symm.trans hd)
    obtain ⟨j, hj, hstands⟩ := ECTwistMulJacobian_eq (P := 0) Jacobian.stands_infinity s
    rw [ECTwistMul, if_pos hz, hj, Except.ok_bind, hstands.fromJacobian]
  · obtain rfl := Option.some.inj (h.symm.trans hd)
    obtain ⟨j, hj, hstands⟩ := ECTwistMulJacobian_eq (Jacobian.stands_affine (h := hP) hx hy) s
    rw [ECTwistMul, if_neg hz, hok, Except.ok_bind, hj, Except.ok_bind, hstands.fromJacobian]
  · cases h.symm.trans hd

theorem ECTwistMul_none (h : pt.decode = none) : ECTwistMul s pt = .error .assertion := by
  rcases pt.decode_cases with ⟨_, hd⟩ | ⟨_, _, x, y, hP, hd, _, _⟩ | ⟨hz, herr, _⟩
  · cases h.symm.trans hd
  · cases h.symm.trans hd
  · rw [ECTwistMul, if_neg hz, herr]
    rfl

/-- **`ECTwistMul` is the multiplication by a scalar**: for every scalar and all words it returns
the reduced words of the multiple, and panics exactly for words off the curve -/
theorem ECTwistMul_multiplies (s : ℕ) (pt : TwistPoint) :
    ECTwistMul s pt = Except.okOr .assertion (pt.decode.map fun P => TwistPoint.of (s • P)) := by
  cases h : pt.decode with
  | none => exact ECTwistMul_none h
  | some P => exact ECTwistMul_some h

theorem ECTwistAdd_some (h1 : pt1.decode = some P) (h2 : pt2.decode = some Q) :
    ∃ pt3, ECTwistAdd pt1 pt2 = .ok pt3 ∧ pt3.decode = some (P + Q) ∧
      (pt1 = .of P → pt2 = .of Q → pt3 = .of (P + Q)) := by
  rcases pt1.decode_cases with ⟨hz1, hd1⟩ | ⟨hz1, hok1, x₁, y₁, hP, hd1, hx1, hy1⟩ | ⟨_, _, hd1⟩
  · obtain rfl := Option.some.inj (h1.symm.trans hd1)
    rw [zero_add]
    refine ⟨pt2, ?_, h2, fun _ hof => hof⟩
    rw [ECTwistAdd, if_pos hz1]
    rcases pt2.decode_cases with ⟨hz2, _⟩ | ⟨hz2, hok2, _⟩ | ⟨_, _, hd2⟩
    · rw [if_neg (not_not.mpr hz2)]
      rfl
    · rw [if_pos hz2, hok2]
      rfl
    · cases h2.symm.trans hd2
  · obtain rfl := Option.some.inj (h1.symm.trans hd1)
    rw [ECTwistAdd, if_neg hz1]
    rcases pt2.decode_cases with ⟨hz2, hd2⟩ | ⟨hz2, hok2, x₂, y₂, hQ, hd2, hx2, hy2⟩ | ⟨_, _, hd2⟩
    · obtain rfl := Option.some.inj (h2.symm.trans hd2)
      rw [if_pos hz2, hok1, add_zero]
      exact ⟨pt1, rfl, h1, fun hof _ => hof⟩
    · obtain rfl := Option.some.inj (h2.symm.trans hd2)
      obtain ⟨j, hj, hstands⟩ := (Jacobian.stands_affine (h := hP) hx1 hy1).add
        (Jacobian.stands_affine (h := hQ) hx2 hy2)
      refine ⟨_, ?_, TwistPoint.decode_of, fun _ _ => rfl⟩
      rw [if_neg hz2, hok1, Except.ok_bind, hok2, Except.ok_bind, hj, Except.ok_bind,
        hstands.fromJacobian]
    · cases h2.symm.trans hd2
  · cases h1.symm.trans hd1

theorem ECTwistAdd_none (h : pt1.decode = none ∨ pt2.decode = none) :
    ECTwistAdd pt1 pt2 = .error .assertion := by
  rcases pt1.decode_cases with ⟨hz1, hd1⟩ | ⟨hz1, hok1, _, _, _, hd1, _⟩ | ⟨hz1, herr1, _⟩
  · have h2 : pt2.decode = none := h.resolve_left (by rw [hd1]; exact Option.some_ne_none _)
    rcases pt2.decode_cases with ⟨_, hd2⟩ | ⟨_, _, _, _, _, hd2, _⟩ | ⟨hz2, herr2, _⟩
    · cases h2.symm.trans hd2
    · cases h2.symm.trans hd2
    · rw [ECTwistAdd, if_pos hz1, if_pos hz2, herr2]
      rfl
  · have h2 : pt2.decode = none := h.resolve_left (by rw [hd1]; exact Option.some_ne_none _)
    rcases pt2.decode_cases with ⟨_, hd2⟩ | ⟨_, _, _, _, _, hd2, _⟩ | ⟨hz2, herr2, _⟩
    · cases h2.symm.trans hd2
    · cases h2.symm.trans hd2
    · rw [ECTwistAdd, if_neg hz1, if_neg hz2, hok1, Except.ok_bind, herr2]
      rfl
  · rw [ECTwistAdd, if_neg hz1, herr1]
    by_cases hz2 : pt2 = .infinity
    · rw [if_pos hz2]
      rfl
    · rw [if_neg hz2]
      rfl

/-- **`ECTwistAdd` adds**: for all words the returned ones stand for the sum, and it panics exactly
where one of the two points is off the curve -/
theorem ECTwistAdd_adds (pt1 pt2 : TwistPoint) :
    (ECTwistAdd pt1 pt2).map TwistPoint.decode = Except.okOr .assertion (do
      let P ← pt1.decode
      let Q ← pt2.decode
      return some (P + Q)) := by
  cases h1 : pt1.decode with
  | none =>
    rw [ECTwistAdd_none (.inl h1)]
    rfl
  | some P =>
    cases h2 : pt2.decode with
    | none =>
      rw [ECTwistAdd_none (.inr h2)]
      rfl
    | some Q =>
      obtain ⟨pt3, hok, hdec, _⟩ := ECTwistAdd_some h1 h2
      rw [hok]
      exact congrArg Except.ok hdec

/-! ## keys -/

/-- the sum of points in words, from infinity on -/
def aggregate (keys : List TwistPoint) : Except Panic TwistPoint := keys.foldlM ECTwistAdd .infinity

variable {privateKeys : List ℕ}

theorem foldlM_ECTwistAdd (n : ℕ) :
    (privateKeys.map fun k => TwistPoint.of (k • P)).foldlM ECTwistAdd (.of (n • P)) =
      .ok (.of ((n + privateKeys.sum) • P)) := by
  induction privateKeys generalizing n with
  | nil => rfl
  | cons k privateKeys ih =>
    obtain ⟨pt3, hok, _, hof⟩ := ECTwistAdd_some (P := n • P) (Q := k • P) TwistPoint.decode_of
      TwistPoint.decode_of
    rw [List.map_cons, List.foldlM_cons, hok, Except.ok_bind, hof rfl rfl, ← add_nsmul, ih,
      List.sum_cons, add_assoc]

theorem BN254.getBLSKeys_eq {L : BN254} (h : L.generatorG2.toTwist.decode = some P) (k : ℕ) :
    L.getBLSKeys k = .ok (L.scalar_mul L.generatorG1 k, (TwistPoint.of (k • P)).toG2) := by
  rw [getBLSKeys, ECTwistMul_some h]
  rfl

/-- **keys add up**: where the generator is a point of the twist, every private key has a key, and
the keys of private keys aggregate to the key of the sum of the private keys -/
theorem BN254.getBLSKeys_aggregate (L : BN254) (h : L.generatorG2.toTwist.decode = some P)
    (privateKeys : List ℕ) :
    ∃ keys key, privateKeys.mapM L.getBLSKeys = .ok keys ∧
      L.getBLSKeys privateKeys.sum = .ok key ∧
      aggregate (keys.map fun k => k.2.toTwist) = .ok key.2.toTwist := by
  refine ⟨privateKeys.map fun k =>
    (L.scalar_mul L.generatorG1 k, (TwistPoint.of (k • P)).toG2), _, ?_, getBLSKeys_eq h _, ?_⟩
  · rw [Except.mapM_eq_ok, List.forall₂_map_right_iff, List.forall₂_same]
    exact fun k _ => getBLSKeys_eq h k
  · have hsum := @foldlM_ECTwistAdd P privateKeys 0
    rw [zero_nsmul, zero_add] at hsum
    rw [List.map_map]
    exact hsum

namespace Devnet

/-- the first group as numbers, the second with the generator of the pairing -/
def bn254 : BN254 where
  G1Point := ℕ
  generatorG1 := 1
  scalar_mul g k := k * g
  generatorG2 :=
    { X := (11559732032986387107991004021392285783925812861821192530917403151452391805634,
            10857046999023057135944570762232829481370756359578518086990519993285655852781)
      Y := (4082367875863433681332203403145435568316851327593401208105741076214120093531,
            8495653923123431417604973247489272438418190587263600148770280649306958101930) }

theorem generator_on_curve : bn254.generatorG2.toTwist.decode.isSome := by
  have hok : isOnCurve bn254.generatorG2.toTwist = .ok true := by decide +kernel
  rw [isOnCurve_eq] at hok
  have hne : bn254.generatorG2.toTwist ≠ .infinity := by decide +kernel
  rw [TwistPoint.decode, if_neg hne, dif_pos (of_decide_eq_true (Except.ok.inj hok))]
  rfl

end Devnet

theorem BN254.getBLSKeys_aggregate_devnet :
    ∃ keys key, [5, 7].mapM Devnet.bn254.getBLSKeys = .ok keys ∧
      Devnet.bn254.getBLSKeys ([5, 7] : List ℕ).sum = .ok key ∧
      aggregate (keys.map fun k => k.2.toTwist) = .ok key.2.toTwist :=
  BN254.getBLSKeys_aggregate Devnet.bn254 (Option.some_get Devnet.generator_on_curve).symm [5, 7]

end ZkSymbiotic.BN254G2
