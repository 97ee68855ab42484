import ZkSymbiotic.Mpt

/-!
# The leaf of a storage slot

The address and the value of a slot are packed into two field elements: the address and the first
byte of the value, then the other 31 bytes, each read with the least significant byte first.

* `ofLe_lt`, `ofLe_inj`     the number that bytes spell is below its bound and determines them;
* `hashStorageSlot_eq`      both words are canonical, so hashing a slot does not fail;
* `slotFields_inj`          the two fields determine the address and the value.
-/

namespace ZkSymbiotic

/-! ## little-endian numbers -/

theorem ofLe_lt (l : Bytes) : ofLe l < 256^l.length := by
  induction l with
  | nil => exact Nat.one_pos
  | cons b bs ih =>
    have hb : b.toNat < 256 := b.toNat_lt
    rw [List.length_cons, Nat.pow_succ]
    show b.toNat + 256 * ofLe bs < _
    omega

theorem ofLe_append (l m : Bytes) : ofLe (l ++ m) = ofLe l + 256^l.length * ofLe m := by
  induction l with
  | nil =>
    show ofLe m = 0 + 1 * ofLe m
    omega
  | cons b bs ih =>
    show b.toNat + 256 * ofLe (bs ++ m) = b.toNat + 256 * ofLe bs + 256^(bs.length + 1) * ofLe m
    rw [ih, Nat.pow_succ]
    ring

theorem ofLe_zeros (n : Nat) : ofLe (List.replicate n 0) = 0 := by
  induction n with
  | zero => rfl
  | succ n ih =>
    show 0 + 256 * ofLe (List.replicate n 0) = 0
    rw [ih]

/-- zeros at the end do not count -/
theorem ofLe_append_zeros (l : Bytes) (n : Nat) : ofLe (l ++ List.replicate n 0) = ofLe l := by
  rw [ofLe_append, ofLe_zeros, Nat.mul_zero, Nat.add_zero]

/-- backwards, the most significant byte is first -/
theorem ofLe_reverse (l : Bytes) : ofLe l.reverse = ofBe l := by
  induction l with
  | nil => rfl
  | cons b bs ih =>
    rw [List.reverse_cons, ofLe_append, ih, List.length_reverse]
    show ofBe bs + 256^bs.length * (b.toNat + 256 * 0) = b.toNat * 256^bs.length + ofBe bs
    ring

theorem ofLe_inj : ∀ {l m : Bytes}, l.length = m.length → ofLe l = ofLe m → l = m := by
  intro l
  induction l with
  | nil =>
    intro m hlen _
    exact (List.eq_nil_of_length_eq_zero hlen.symm).symm
  | cons b bs ih =>
    intro m hlen h
    cases m with
    | nil => cases hlen
    | cons c cs =>
      have hb : b.toNat < 256 := b.toNat_lt
      have hc : c.toNat < 256 := c.toNat_lt
      have hsum : b.toNat + 256 * ofLe bs = c.toNat + 256 * ofLe cs := h
      have hhead : b.toNat = c.toNat := by omega
      have htail : ofLe bs = ofLe cs := by omega
      rw [UInt8.toNat_inj.mp hhead, ih (Nat.succ.inj hlen) htail]

/-! ## the two words -/

/-- the address and the first byte of the value -/
def firstWord (address : Address) (value : U256) : Bytes :=
  address.bytes ++ (beBytes 32 value.toNat).take 1

/-- the other bytes of the value -/
def secondWord (value : U256) : Bytes := (beBytes 32 value.toNat).drop 1

theorem firstWord_length (address : Address) (value : U256) :
    (firstWord address value).length = 21 := by
  rw [firstWord, List.length_append, address.len, List.length_take, beBytes_length]
  rfl

theorem secondWord_length (value : U256) : (secondWord value).length = 31 := by
  rw [secondWord, List.length_drop, beBytes_length]

theorem firstWord_lt (address : Address) (value : U256) :
    ofLe (firstWord address value) < fpModulus := by
  have h := ofLe_lt (firstWord address value)
  rw [firstWord_length] at h
  exact lt_trans h (by decide)

theorem secondWord_lt (value : U256) : ofLe (secondWord value) < fpModulus := by
  have h := ofLe_lt (secondWord value)
  rw [secondWord_length] at h
  exact lt_trans h (by decide)

/-- the two field elements of a slot -/
def slotFields (address : Address) (value : U256) : List Fp :=
  [⟨ofLe (firstWord address value), firstWord_lt address value⟩,
    ⟨ofLe (secondWord value), secondWord_lt value⟩]

theorem Crypto.fpFromBytes_zeros (C : Crypto) {word : Bytes} {n : Nat} (h : ofLe word < fpModulus)
    (hlen : word.length + n = 32) :
    C.fpFromBytes (word ++ List.replicate n 0) = .ok ⟨ofLe word, h⟩ := by
  have hvalue := ofLe_append_zeros word n
  have hlength : (word ++ List.replicate n 0).length = 32 := by
    rw [List.length_append, List.length_replicate, hlen]
  rw [C.fpFromBytes_canonical _ (hvalue.trans_lt h) hlength]
  simp only [hvalue]

/-- **hashing a slot does not fail** -/
theorem hashStorageSlot_eq (C : Crypto) (address : Address) (value : U256) :
    hashStorageSlot C address value = .ok (C.poseidonHash (slotFields address value)) := by
  have hfirst : C.fpFromBytes (address.bytes ++ (beBytes 32 value.toNat).take 1
      ++ List.replicate 11 0) = .ok _ :=
    C.fpFromBytes_zeros (firstWord_lt address value) (by rw [firstWord_length])
  have hsecond : C.fpFromBytes ((beBytes 32 value.toNat).drop 1 ++ [0]) = .ok _ :=
    C.fpFromBytes_zeros (n := 1) (secondWord_lt value) (by rw [secondWord_length])
  unfold hashStorageSlot
  simp only [hfirst, hsecond]
  rfl

/-- **the two fields determine the slot's address and value** -/
theorem slotFields_inj {address address' : Address} {value value' : U256}
    (h : slotFields address value = slotFields address' value') :
    address = address' ∧ value = value' := by
  obtain ⟨hfirst, hrest⟩ := List.cons.inj h
  obtain ⟨hsecond, _⟩ := List.cons.inj hrest
  have hword : firstWord address value = firstWord address' value' :=
    ofLe_inj (by rw [firstWord_length, firstWord_length]) (Fin.mk.inj hfirst)
  have hdrop : secondWord value = secondWord value' :=
    ofLe_inj (by rw [secondWord_length, secondWord_length]) (Fin.mk.inj hsecond)
  obtain ⟨haddress, htake⟩ := List.append_inj hword (by rw [address.len, address'.len])
  have hbytes : beBytes 32 value.toNat = beBytes 32 value'.toNat := by
    rw [← List.take_append_drop 1 (beBytes 32 value.toNat), htake,
      show (beBytes 32 value.toNat).drop 1 = _ from hdrop]
    exact List.take_append_drop 1 _
  have hbound : ∀ v : U256, v.toNat < 256^32 := fun v => lt_of_lt_of_le v.isLt (by decide)
  exact ⟨FixedBytes.bytes_inj haddress,
    BitVec.toNat_inj.mp (beBytes_inj (hbound value) (hbound value') hbytes)⟩

/-- the bytes of a field element determine it -/
theorem Crypto.fpToBytes_inj (C : Crypto) : Function.Injective C.fpToBytes := by
  intro x y h
  have hx := C.fpFromBytes_toBytes x
  rw [h, C.fpFromBytes_toBytes y] at hx
  exact (Except.ok.inj hx).symm

end ZkSymbiotic
