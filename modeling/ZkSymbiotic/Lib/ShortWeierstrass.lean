import Mathlib.AlgebraicGeometry.EllipticCurve.Affine.Point
import Mathlib.Tactic.LinearCombination
import Mathlib.Tactic.FieldSimp

/-!
# Homogeneous coordinates on `y² = x³ + b`

A triple with `z ≠ 0` stands for the affine point `(x / z, y / z)`, a triple with `z = 0` for the
point at infinity, whatever its `x` and `y`.  The group is the one of Mathlib's
`WeierstrassCurve.Affine.Point`.

* `curve b`, `curve_nonsingular`   the curve; away from characteristic 2 and 3 it is smooth;
* `Triple.Stands t P`              the triple `t` stands for the point `P`;
* `Triple.double`, `Triple.add`    the formulas, and their rules `Stands.double`, `Stands.add`.
-/

namespace ShortWeierstrass
open WeierstrassCurve.Affine
variable {F : Type*} [Field F]

/-- `y² = x³ + b` -/
def curve (b : F) : WeierstrassCurve.Affine F := { a₁ := 0, a₂ := 0, a₃ := 0, a₄ := 0, a₆ := b }

variable {b x y x₁ y₁ x₂ y₂ l : F}

theorem curve_equation : (curve b).Equation x y ↔ y^2 = x^3 + b := by
  rw [equation_iff]
  simp [curve]

theorem curve_nonsingular (h2 : (2 : F) ≠ 0) (h3 : (3 : F) ≠ 0) (hb : b ≠ 0) :
    (curve b).Nonsingular x y ↔ y^2 = x^3 + b := by
  have hΔ : WeierstrassCurve.Δ (curve b) = -(2^4 * 3^3 * b^2) := by
    simp only [WeierstrassCurve.Δ, WeierstrassCurve.b₂, WeierstrassCurve.b₄, WeierstrassCurve.b₆,
      WeierstrassCurve.b₈, curve]
    ring
  have hne : WeierstrassCurve.Δ (curve b) ≠ 0 := by
    rw [hΔ, neg_ne_zero]
    exact mul_ne_zero (mul_ne_zero (pow_ne_zero _ h2) (pow_ne_zero _ h3)) (pow_ne_zero _ hb)
  rw [← equation_iff_nonsingular_of_Δ_ne_zero hne, curve_equation]

@[simp] theorem curve_negY : (curve b).negY x y = -y := by simp [negY, curve]

@[simp] theorem curve_addX : (curve b).addX x₁ x₂ l = l^2 - x₁ - x₂ := by simp [addX, curve]

@[simp] theorem curve_addY :
    (curve b).addY x₁ x₂ y₁ l = -(l * (l^2 - x₁ - x₂ - x₁) + y₁) := by
  rw [addY, negAddY, curve_addX, curve_negY]

theorem cross_eq {u v c d : F} (hc : c ≠ 0) (hd : d ≠ 0) : v * d * c = u * c * d ↔ u = v := by
  have hcross : u * c * d - v * d * c = (u - v) * (c * d) := by ring
  rw [eq_comm, ← sub_eq_zero, hcross, mul_eq_zero, or_iff_left (mul_ne_zero hc hd), sub_eq_zero]

/-! ## triples -/

@[ext] structure Triple (F : Type*) where
  x : F
  y : F
  z : F

namespace Triple

def Stands (t : Triple F) : (curve b).Point → Prop
  | .zero => t.z = 0
  | .some x y _ => t.z ≠ 0 ∧ t.x = x * t.z ∧ t.y = y * t.z

variable {s t : Triple F} {P Q : (curve b).Point}

theorem stands_zero : t.Stands (0 : (curve b).Point) ↔ t.z = 0 := Iff.rfl

theorem stands_some {h : (curve b).Nonsingular x y} :
    t.Stands (.some x y h) ↔ t.z ≠ 0 ∧ t.x = x * t.z ∧ t.y = y * t.z := Iff.rfl

theorem Stands.eq_zero (h : t.Stands P) (hz : t.z = 0) : P = 0 := by
  cases P with
  | zero => rfl
  | some x y hP => exact absurd hz h.1

theorem Stands.ne_zero (h : t.Stands P) (hz : t.z ≠ 0) :
    ∃ x y hP, P = .some x y hP ∧ t.x = x * t.z ∧ t.y = y * t.z := by
  cases P with
  | zero => exact absurd h hz
  | some x y hP => exact ⟨x, y, hP, rfl, h.2⟩

/-! ## doubling -/

def double (t : Triple F) : Triple F :=
  let W := 3 * t.x * t.x
  let S := t.y * t.z
  let B := t.x * t.y * S
  let H := W * W - 8 * B
  { x := 2 * H * S, y := W * (4 * B - H) - 8 * t.y * t.y * (S * S), z := 8 * (S * (S * S)) }

variable [DecidableEq F]

theorem Stands.double (h2 : (2 : F) ≠ 0) (h : t.Stands P) : t.double.Stands (P + P) := by
  by_cases hz : t.z = 0
  · rw [h.eq_zero hz, add_zero, stands_zero, Triple.double, hz]
    ring
  obtain ⟨x, y, hP, rfl, hx, hy⟩ := h.ne_zero hz
  by_cases hy0 : y = 0
  · -- a point of order two
    have hneg : y = (curve b).negY x y := by rw [curve_negY, hy0, neg_zero]
    rw [Point.add_self_of_Y_eq hneg, stands_zero, Triple.double, hy, hy0]
    ring
  · have h2y : y + y ≠ 0 := by rw [← two_mul]; exact mul_ne_zero h2 hy0
    have hne : y ≠ (curve b).negY x y := by
      rw [curve_negY]
      exact fun e => h2y (eq_neg_iff_add_eq_zero.mp e)
    have hslope : (curve b).slope x x y y * (y + y) = 3 * x^2 := by
      rw [slope_of_Y_ne rfl hne, curve_negY, sub_neg_eq_add, div_mul_cancel₀ _ h2y]
      simp [curve]
    rw [Point.add_self_of_Y_ne hne, stands_some, curve_addX, curve_addY]
    generalize (curve b).slope x x y y = l at hslope
    have hsq : l^2 * (4 * y^2) = 9 * x^4 := by linear_combination (l * (y + y) + 3 * x^2) * hslope
    refine ⟨?_, ?_, ?_⟩
    · simp only [Triple.double, hy]
      have h8 : (8 : F) ≠ 0 := by
        have : (8 : F) = 2 * 2 * 2 := by norm_num
        rw [this]
        exact mul_ne_zero (mul_ne_zero h2 h2) h2
      have hyz := mul_ne_zero (mul_ne_zero hy0 hz) hz
      exact mul_ne_zero h8 (mul_ne_zero hyz (mul_ne_zero hyz hyz))
    · simp only [Triple.double, hx, hy]
      linear_combination (-2 * y * t.z^6) * hsq
    · simp only [Triple.double, hx, hy]
      linear_combination
        (t.z^6 * (4 * l^2 * y^2 + 6 * l * x^2 * y + 9 * x^4 - 12 * x * y^2)) * hslope

/-! ## addition -/

/-- the sum of two triples with different `x / z` -/
def addDistinct (s t : Triple F) : Triple F :=
  let U₂ := s.y * t.z
  let V₂ := s.x * t.z
  let U := t.y * s.z - U₂
  let V := t.x * s.z - V₂
  let W := s.z * t.z
  let A := U * U * W - V * V * V - 2 * (V * V * V₂)
  { x := V * A, y := U * (V * V * V₂ - A) - V * V * V * U₂, z := V * V * V * W }

def add (s t : Triple F) : Triple F :=
  if s.z = 0 then t
  else if t.z = 0 then s
  else if t.x * s.z = s.x * t.z then
    if t.y * s.z = s.y * t.z then s.double else { x := 1, y := 1, z := 0 }
  else addDistinct s t

theorem Stands.addDistinct {h₁ : (curve b).Nonsingular x₁ y₁} {h₂ : (curve b).Nonsingular x₂ y₂}
    (hs : s.Stands (.some x₁ y₁ h₁)) (ht : t.Stands (.some x₂ y₂ h₂)) (hx : x₁ ≠ x₂) :
    (s.addDistinct t).Stands (Point.some x₁ y₁ h₁ + .some x₂ y₂ h₂) := by
  obtain ⟨hsz, hsx, hsy⟩ := hs
  obtain ⟨htz, htx, hty⟩ := ht
  have hsub : x₁ - x₂ ≠ 0 := sub_ne_zero.mpr hx
  have hslope : (curve b).slope x₁ x₂ y₁ y₂ * (x₁ - x₂) = y₁ - y₂ := by
    rw [slope_of_X_ne hx, div_mul_cancel₀ _ hsub]
  rw [Point.add_of_X_ne hx, stands_some, curve_addX, curve_addY]
  generalize (curve b).slope x₁ x₂ y₁ y₂ = l at hslope
  obtain rfl : y₂ = y₁ - l * (x₁ - x₂) := by rw [hslope]; ring
  refine ⟨?_, ?_, ?_⟩
  · have hV : t.x * s.z - s.x * t.z = (x₂ - x₁) * (s.z * t.z) := by rw [hsx, htx]; ring
    have hne := mul_ne_zero (sub_ne_zero.mpr hx.symm) (mul_ne_zero hsz htz)
    simp only [Triple.addDistinct, hV]
    exact mul_ne_zero (mul_ne_zero (mul_ne_zero hne hne) hne) (mul_ne_zero hsz htz)
  · simp only [Triple.addDistinct, hsx, hsy, htx, hty]
    ring
  · simp only [Triple.addDistinct, hsx, hsy, htx, hty]
    ring

theorem Stands.add (h2 : (2 : F) ≠ 0) (hs : s.Stands P) (ht : t.Stands Q) :
    (s.add t).Stands (P + Q) := by
  by_cases hsz : s.z = 0
  · rw [Triple.add, if_pos hsz]
    rwa [hs.eq_zero hsz, zero_add]
  by_cases htz : t.z = 0
  · rw [Triple.add, if_neg hsz, if_pos htz]
    rwa [ht.eq_zero htz, add_zero]
  obtain ⟨x₁, y₁, h₁, rfl, hsx, hsy⟩ := hs.ne_zero hsz
  obtain ⟨x₂, y₂, h₂, rfl, htx, hty⟩ := ht.ne_zero htz
  have hcx : t.x * s.z = s.x * t.z ↔ x₁ = x₂ := by rw [hsx, htx, cross_eq hsz htz]
  have hcy : t.y * s.z = s.y * t.z ↔ y₁ = y₂ := by rw [hsy, hty, cross_eq hsz htz]
  rw [Triple.add, if_neg hsz, if_neg htz]
  by_cases hx : x₁ = x₂
  · rw [if_pos (hcx.mpr hx)]
    subst hx
    by_cases hy : y₁ = y₂
    · rw [if_pos (hcy.mpr hy)]
      subst hy
      exact hs.double h2
    · -- two points with the same `x` are inverse to each other
      have hneg : y₁ = (curve b).negY x₁ y₂ :=
        (Y_eq_of_X_eq h₁.1 h₂.1 rfl).resolve_left hy
      rw [if_neg fun h => hy (hcy.mp h), Point.add_of_Y_eq rfl hneg]
      exact stands_zero.mpr rfl
  · rw [if_neg fun h => hx (hcx.mp h)]
    exact hs.addDistinct ht hx

end Triple
end ShortWeierstrass
