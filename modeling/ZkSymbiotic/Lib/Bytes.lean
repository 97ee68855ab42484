import Mathlib.Data.Nat.Basic
import Mathlib.Data.List.Basic
import Mathlib.Tactic.Ring

/-!
# Byte strings: fixed widths and big-endian numbers

* `FixedBytes n`       a byte string that carries the proof that its length is `n`;
* `beBytes n x`        the low `n` bytes of `x`, most significant byte first;
* `ofBe l`             the number a byte string spells;
* `ofBe_beBytes`, `beBytes_ofBe`   the two round trips;
* `beBytes_inj`        numbers that fit are determined by their bytes.
-/

abbrev Bytes := List UInt8

/-! ## fixed widths -/

/-- a byte string of length `n` -/
@[ext] structure FixedBytes (n : Nat) where
  bytes : Bytes
  len : bytes.length = n
deriving DecidableEq

namespace FixedBytes
variable {n : Nat}

def zero : FixedBytes n := ⟨List.replicate n 0, List.length_replicate⟩

instance : Inhabited (FixedBytes n) := ⟨zero⟩

theorem bytes_inj {a b : FixedBytes n} (h : a.bytes = b.bytes) : a = b := FixedBytes.ext h

/-- lexicographic order, which is the numeric one on equal widths -/
instance : LE (FixedBytes n) := ⟨fun a b => a.bytes ≤ b.bytes⟩

instance : DecidableLE (FixedBytes n) := fun a b =>
  inferInstanceAs (Decidable (a.bytes ≤ b.bytes))

end FixedBytes

abbrev B256 := FixedBytes 32
abbrev Address := FixedBytes 20

/-! ## big-endian numbers -/

def beBytes : Nat → Nat → Bytes
  | 0, _ => []
  | n+1, x => UInt8.ofNat (x / 256^n) :: beBytes n x

def ofBe : Bytes → Nat
  | [] => 0
  | b :: bs => b.toNat * 256^bs.length + ofBe bs

theorem beBytes_length (n x : Nat) : (beBytes n x).length = n := by
  induction n with
  | zero => rfl
  | succ n ih => rw [beBytes, List.length_cons, ih]

theorem ofBe_beBytes (n x : Nat) : ofBe (beBytes n x) = x % 256^n := by
  induction n with
  | zero => rw [pow_zero, Nat.mod_one]; rfl
  | succ n ih =>
    show (UInt8.ofNat (x / 256^n)).toNat * 256^(beBytes n x).length + ofBe (beBytes n x) = _
    rw [ih, beBytes_length, Nat.mod_pow_succ, UInt8.toNat_ofNat']
    ring

theorem ofBe_lt (l : Bytes) : ofBe l < 256^l.length := by
  induction l with
  | nil => exact Nat.one_pos
  | cons b bs ih =>
    have hb : b.toNat < 256 := b.toNat_lt
    have hmul : (b.toNat + 1) * 256^bs.length ≤ 256 * 256^bs.length :=
      Nat.mul_le_mul_right _ hb
    rw [List.length_cons, Nat.pow_succ, Nat.mul_comm (256^bs.length) 256]
    show b.toNat * 256^bs.length + ofBe bs < _
    rw [Nat.succ_mul] at hmul
    omega

theorem beBytes_add_mul (n x k : Nat) : beBytes n (k * 256^n + x) = beBytes n x := by
  induction n generalizing k with
  | zero => rfl
  | succ n ih =>
    have e : k * 256^(n+1) + x = (k * 256) * 256^n + x := by ring
    have hdiv : (k * 256 * 256^n + x) / 256^n = x / 256^n + 256 * k := by
      rw [Nat.add_comm, Nat.add_mul_div_right _ _ (Nat.pow_pos (by decide)), Nat.mul_comm k]
    rw [e, beBytes, beBytes, ih, hdiv]
    congr 1
    apply UInt8.toNat_inj.mp
    rw [UInt8.toNat_ofNat', UInt8.toNat_ofNat']
    exact Nat.add_mul_mod_self_left _ 256 k

theorem beBytes_ofBe (l : Bytes) : beBytes l.length (ofBe l) = l := by
  induction l with
  | nil => rfl
  | cons b bs ih =>
    have hlt := ofBe_lt bs
    have hdiv : (b.toNat * 256^bs.length + ofBe bs) / 256^bs.length = b.toNat := by
      rw [Nat.add_comm, Nat.add_mul_div_right _ _ (Nat.pow_pos (by decide)),
        Nat.div_eq_of_lt hlt, Nat.zero_add]
    show UInt8.ofNat ((b.toNat * 256^bs.length + ofBe bs) / 256^bs.length)
      :: beBytes bs.length (b.toNat * 256^bs.length + ofBe bs) = b :: bs
    rw [hdiv, beBytes_add_mul, ih]
    congr 1
    exact UInt8.ofNat_toNat

theorem beBytes_inj {n x y : Nat} (hx : x < 256^n) (hy : y < 256^n)
    (h : beBytes n x = beBytes n y) : x = y := by
  have e := congrArg ofBe h
  rwa [ofBe_beBytes, ofBe_beBytes, Nat.mod_eq_of_lt hx, Nat.mod_eq_of_lt hy] at e

/-- the `n` big-endian bytes of a number -/
def FixedBytes.ofNat (n x : Nat) : FixedBytes n := ⟨beBytes n x, beBytes_length n x⟩
