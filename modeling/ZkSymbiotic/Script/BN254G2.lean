import ZkSymbiotic.Lib.DoubleAdd
import ZkSymbiotic.Lib.PowMod

/-!
# `BN254G2`: the twist of alt_bn128 on machine words

The library that derives the operators' BLS keys.  An element of the quadratic extension is two
words, a point is four of them, or six in homogeneous coordinates.  What can panic is a checked
subtraction and an `assert`.

* `ECTwistAdd`, `ECTwistMul`   the two entry points;
* `getBLSKeys`                 the keys of an operator.
-/

namespace ZkSymbiotic.BN254G2

def FIELD_MODULUS : ℕ := 0x30644e72e131a029b85045b68181585d97816a916871ca8d3c208c16d87cfd47
def TWISTBX : ℕ := 0x2b149d40ceb8aaae81be18991be06ac3b5b4c5e559dbefa33267e6dc24a138e5
def TWISTBY : ℕ := 0x9713b03af0fed4cd2cafadeed8fdf4a74fa084e52d1852e4a2bd0685c315d2

/-- `Panic(0x01)` and `Panic(0x11)` -/
inductive Panic where
  | assertion
  | underflow
deriving DecidableEq

/-- coefficient 1 and coefficient 2 -/
@[ext] structure FQ2 where
  x : ℕ
  y : ℕ
deriving DecidableEq

/-! ## arithmetic on words -/

def addmod (a b n : ℕ) : ℕ := (a + b) % n
def mulmod (a b n : ℕ) : ℕ := a * b % n

/-- `a - b` in checked arithmetic -/
def sub (a b : ℕ) : Except Panic ℕ := if b ≤ a then .ok (a - b) else .error .underflow

def submod (a b n : ℕ) : Except Panic ℕ := do
  return addmod a (← sub n b) n

/-- the precompiled contract 5 on three words -/
def modexp (base exponent modulus : ℕ) : ℕ := powMod modulus 256 base exponent

def modInv (a n : ℕ) : ℕ := modexp a (n - 2) n

def FQ2Mul (x y : FQ2) : Except Panic FQ2 := do
  let result1 ← submod (mulmod x.x y.x FIELD_MODULUS) (mulmod x.y y.y FIELD_MODULUS) FIELD_MODULUS
  let result2 := addmod (mulmod x.x y.y FIELD_MODULUS) (mulmod x.y y.x FIELD_MODULUS) FIELD_MODULUS
  return { x := result1, y := result2 }

def FQ2Muc (x : FQ2) (c : ℕ) : FQ2 :=
  { x := mulmod x.x c FIELD_MODULUS, y := mulmod x.y c FIELD_MODULUS }

def FQ2Sub (x y : FQ2) : Except Panic FQ2 := do
  return { x := ← submod x.x y.x FIELD_MODULUS, y := ← submod x.y y.y FIELD_MODULUS }

def FQ2Inv (x : FQ2) : Except Panic FQ2 := do
  let inv := modInv (addmod (mulmod x.y x.y FIELD_MODULUS) (mulmod x.x x.x FIELD_MODULUS)
    FIELD_MODULUS) FIELD_MODULUS
  return { x := mulmod x.x inv FIELD_MODULUS,
           y := ← sub FIELD_MODULUS (mulmod x.y inv FIELD_MODULUS) }

/-! ## points -/

/-- the four words of a point; four zeros are the point at infinity -/
structure TwistPoint where
  x : FQ2
  y : FQ2
deriving DecidableEq

/-- the six words `PTXX` to `PTZY` -/
structure Jacobian where
  x : FQ2
  y : FQ2
  z : FQ2
deriving DecidableEq

def TwistPoint.infinity : TwistPoint := { x := { x := 0, y := 0 }, y := { x := 0, y := 0 } }

def isOnCurve (pt : TwistPoint) : Except Panic Bool := do
  let yy ← FQ2Mul pt.y pt.y
  let xx ← FQ2Mul pt.x pt.x
  let xxx ← FQ2Mul xx pt.x
  let yy ← FQ2Sub yy xxx
  let yy ← FQ2Sub yy { x := TWISTBX, y := TWISTBY }
  return decide (yy.x = 0 ∧ yy.y = 0)

def assertOnCurve (pt : TwistPoint) : Except Panic Unit := do
  if ← isOnCurve pt then return () else throw .assertion

/-- homogeneous coordinates, in spite of the name -/
def fromJacobian (pt1 : Jacobian) : Except Panic TwistPoint := do
  let invz ← FQ2Inv pt1.z
  return { x := ← FQ2Mul pt1.x invz, y := ← FQ2Mul pt1.y invz }

def ECTwistDoubleJacobian (pt1 : Jacobian) : Except Panic Jacobian := do
  let W ← FQ2Mul (FQ2Muc pt1.x 3) pt1.x
  let S ← FQ2Mul pt1.y pt1.z
  let xy ← FQ2Mul pt1.x pt1.y
  let B ← FQ2Mul xy S
  let WW ← FQ2Mul W W
  let H ← FQ2Sub WW (FQ2Muc B 8)
  let S_squared ← FQ2Mul S S
  let fourBH ← FQ2Sub (FQ2Muc B 4) H
  let left ← FQ2Mul fourBH W
  let yy8 ← FQ2Mul (FQ2Muc pt1.y 8) pt1.y
  let right ← FQ2Mul yy8 S_squared
  let newy ← FQ2Sub left right
  let newx ← FQ2Mul (FQ2Muc H 2) S
  let S_cubed ← FQ2Mul S S_squared
  return { x := newx, y := newy, z := FQ2Muc S_cubed 8 }

def ECTwistAddJacobian (pt1 pt2 : Jacobian) : Except Panic Jacobian :=
  if pt1.z = { x := 0, y := 0 } then .ok pt2
  else if pt2.z = { x := 0, y := 0 } then .ok pt1
  else do
    let U1 ← FQ2Mul pt2.y pt1.z
    let U2 ← FQ2Mul pt1.y pt2.z
    let V1 ← FQ2Mul pt2.x pt1.z
    let V2 ← FQ2Mul pt1.x pt2.z
    if V1 = V2 then
      if U1 = U2 then ECTwistDoubleJacobian pt1
      else return { x := { x := 1, y := 0 }, y := { x := 1, y := 0 }, z := { x := 0, y := 0 } }
    else
      let W ← FQ2Mul pt1.z pt2.z
      let U ← FQ2Sub U1 U2
      let V ← FQ2Sub V1 V2
      let V_squared ← FQ2Mul V V
      let V_squared_times_V2 ← FQ2Mul V_squared V2
      let V_cubed ← FQ2Mul V_squared V
      let newz ← FQ2Mul V_cubed W
      let UU ← FQ2Mul U U
      let UUW ← FQ2Mul UU W
      let A ← FQ2Sub UUW V_cubed
      let A ← FQ2Sub A (FQ2Muc V_squared_times_V2 2)
      let newx ← FQ2Mul V A
      let left ← FQ2Sub V_squared_times_V2 A
      let left ← FQ2Mul U left
      let right ← FQ2Mul V_cubed U2
      let newy ← FQ2Sub left right
      return { x := newx, y := newy, z := newz }

/-- the loop starts from six zeros -/
def ECTwistMulJacobian (d : ℕ) (pt1 : Jacobian) : Except Panic Jacobian :=
  Except.doubleAdd ECTwistAddJacobian ECTwistDoubleJacobian d pt1
    { x := { x := 0, y := 0 }, y := { x := 0, y := 0 }, z := { x := 0, y := 0 } }

def ECTwistAdd (pt1 pt2 : TwistPoint) : Except Panic TwistPoint := do
  if pt1 = .infinity then
    if pt2 ≠ .infinity then assertOnCurve pt2
    return pt2
  else if pt2 = .infinity then
    assertOnCurve pt1
    return pt1
  else
    assertOnCurve pt1
    assertOnCurve pt2
    let pt3 ← ECTwistAddJacobian { x := pt1.x, y := pt1.y, z := { x := 1, y := 0 } }
      { x := pt2.x, y := pt2.y, z := { x := 1, y := 0 } }
    fromJacobian pt3

def ECTwistMul (s : ℕ) (pt1 : TwistPoint) : Except Panic TwistPoint := do
  if pt1 = .infinity then
    let pt2 ← ECTwistMulJacobian s
      { x := { x := 1, y := 0 }, y := { x := 1, y := 0 }, z := { x := 0, y := 0 } }
    fromJacobian pt2
  else
    assertOnCurve pt1
    let pt2 ← ECTwistMulJacobian s { x := pt1.x, y := pt1.y, z := { x := 1, y := 0 } }
    fromJacobian pt2

/-! ## the keys of an operator -/

/-- `BN254.G2Point`: the coefficients of a coordinate in the order of the precompiled contracts -/
structure G2Point where
  X : ℕ × ℕ
  Y : ℕ × ℕ
deriving DecidableEq

/-- what the script uses of the library `BN254` -/
structure BN254 where
  G1Point : Type
  generatorG1 : G1Point
  scalar_mul : G1Point → ℕ → G1Point
  generatorG2 : G2Point

/-- the coefficients change places on the way in and on the way out -/
def G2Point.toTwist (g : G2Point) : TwistPoint :=
  { x := { x := g.X.2, y := g.X.1 }, y := { x := g.Y.2, y := g.Y.1 } }

def TwistPoint.toG2 (pt : TwistPoint) : G2Point := { X := (pt.x.y, pt.x.x), Y := (pt.y.y, pt.y.x) }

def BN254.getBLSKeys (L : BN254) (privateKey : ℕ) : Except Panic (L.G1Point × G2Point) := do
  let G1Key := L.scalar_mul L.generatorG1 privateKey
  let G2Key ← ECTwistMul privateKey L.generatorG2.toTwist
  return (G1Key, G2Key.toG2)

end ZkSymbiotic.BN254G2
