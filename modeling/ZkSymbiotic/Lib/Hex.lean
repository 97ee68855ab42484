import Mathlib.Data.Nat.Digits.Defs
import ZkSymbiotic.Lib.Bytes

/-!
# Hex strings

* `hexlify`            `0x` and two lower-case digits for each byte;
* `getBytes?`          the bytes that a hex string spells, in either case;
* `getBytes?_hexlify`  the round trip.
-/

def hexValue? (c : Char) : Option Nat :=
  if '0' ≤ c ∧ c ≤ '9' then some (c.toNat - '0'.toNat)
  else if 'a' ≤ c ∧ c ≤ 'f' then some (c.toNat - 'a'.toNat + 10)
  else if 'A' ≤ c ∧ c ≤ 'F' then some (c.toNat - 'A'.toNat + 10)
  else none

def hexPair (byte : UInt8) : List Char :=
  [Nat.digitChar (byte.toNat / 16), Nat.digitChar (byte.toNat % 16)]

def hexlify (bytes : Bytes) : String := String.ofList ('0' :: 'x' :: bytes.flatMap hexPair)

/-- two digits spell a byte, an odd one out is refused -/
def hexBytes? : List Char → Option Bytes
  | [] => some []
  | [_] => none
  | c :: d :: rest => do
    let high ← hexValue? c
    let low ← hexValue? d
    let bytes ← hexBytes? rest
    return UInt8.ofNat (16 * high + low) :: bytes

def getBytes? (s : String) : Option Bytes :=
  match s.toList with
  | '0' :: 'x' :: digits => hexBytes? digits
  | _ => none

/-! ## the round trip -/

theorem hexValue?_digitChar {n : Nat} (h : n < 16) : hexValue? (Nat.digitChar n) = some n := by
  have hall : ∀ n < 16, hexValue? (Nat.digitChar n) = some n := by decide
  exact hall n h

theorem hexBytes?_flatMap (bytes : Bytes) : hexBytes? (bytes.flatMap hexPair) = some bytes := by
  induction bytes with
  | nil => rfl
  | cons byte bytes ih =>
    have hhigh : byte.toNat / 16 < 16 := by
      have hlt := byte.toNat_lt
      omega
    have hlow : byte.toNat % 16 < 16 := Nat.mod_lt _ (by decide)
    show hexBytes? (Nat.digitChar (byte.toNat / 16) :: Nat.digitChar (byte.toNat % 16) ::
      bytes.flatMap hexPair) = _
    rw [hexBytes?, hexValue?_digitChar hhigh, hexValue?_digitChar hlow, ih]
    show some (UInt8.ofNat (16 * (byte.toNat / 16) + byte.toNat % 16) :: bytes) = _
    rw [Nat.div_add_mod, UInt8.ofNat_toNat]

theorem getBytes?_hexlify (bytes : Bytes) : getBytes? (hexlify bytes) = some bytes := by
  unfold getBytes? hexlify
  rw [String.toList_ofList]
  exact hexBytes?_flatMap bytes
