import ZkSymbiotic.Lib.Bytes

/-!
# Fields of a buffer

`slice` reads the bytes between two offsets and `copyFromSlice` writes them.  Both are `none`
outside of the buffer, and a write is `none` where the source is not as long as the field.

* `slice_head`, `slice_skip`   the first field, and the fields behind it;
* `slice_out`                  there is no field behind the end;
* `copyFromSlice_zeros`        the next field, written into the zeros behind the fields before it;
* `exists_field`, `exists_uint64`   what bytes of the right length are the bytes of.
-/

/-- `bytes[start..finish]` -/
def slice (bytes : Bytes) (start finish : Nat) : Option Bytes :=
  if start ≤ finish ∧ finish ≤ bytes.length then
    some ((bytes.drop start).take (finish - start))
  else none

/-- `buf[start..finish].copy_from_slice(src)` -/
def copyFromSlice (buf : Bytes) (start finish : Nat) (src : Bytes) : Option Bytes :=
  if start ≤ finish ∧ finish ≤ buf.length ∧ src.length = finish - start then
    some (buf.take start ++ src ++ buf.drop finish)
  else none

/-- `try_into` an array, which is an error where the length is another one -/
def FixedBytes.ofBytes? (n : Nat) (bytes : Bytes) : Option (FixedBytes n) :=
  if h : bytes.length = n then some ⟨bytes, h⟩ else none

def zeros (n : Nat) : Bytes := List.replicate n 0

variable {f rest done src : Bytes} {i j m n : Nat}

theorem FixedBytes.ofBytes?_bytes (x : FixedBytes n) : FixedBytes.ofBytes? n x.bytes = some x :=
  dif_pos x.len

/-! ## reading -/

theorem slice_head (hf : f.length = j) : slice (f ++ rest) 0 j = some f := by
  have hle : 0 ≤ j ∧ j ≤ (f ++ rest).length := by
    rw [List.length_append, hf]
    exact ⟨Nat.zero_le j, Nat.le_add_right j _⟩
  rw [slice, if_pos hle, List.drop_zero, Nat.sub_zero, List.take_left' hf]

theorem slice_skip (hf : f.length = n) (hi : n ≤ i) (hj : n ≤ j) :
    slice (f ++ rest) i j = slice rest (i - n) (j - n) := by
  have hdrop : (f ++ rest).drop i = rest.drop (i - n) := by
    rw [List.drop_append, hf, List.drop_eq_nil_of_le (hf ▸ hi), List.nil_append]
  have hsub : j - i = j - n - (i - n) := by omega
  have hiff : (i ≤ j ∧ j ≤ (f ++ rest).length) ↔ (i - n ≤ j - n ∧ j - n ≤ rest.length) := by
    rw [List.length_append, hf]
    omega
  unfold slice
  rw [hdrop, hsub]
  exact if_congr hiff rfl rfl

theorem slice_out {bytes : Bytes} (hj : bytes.length < j) : slice bytes i j = none :=
  if_neg fun h => absurd h.2 (Nat.not_le.mpr hj)

/-! ## writing -/

theorem zeros_length (n : Nat) : (zeros n).length = n := List.length_replicate

theorem copyFromSlice_zeros (hi : done.length = i) (hj : i + src.length = j)
    (hm : src.length ≤ m) :
    copyFromSlice (done ++ zeros m) i j src = some (done ++ src ++ zeros (m - src.length)) := by
  have hbounds : i ≤ j ∧ j ≤ (done ++ zeros m).length ∧ src.length = j - i := by
    rw [List.length_append, zeros_length, hi]
    omega
  have hdrop : (done ++ zeros m).drop j = zeros (m - src.length) := by
    rw [← hj, ← hi, List.drop_append, List.drop_eq_nil_of_le (Nat.le_add_right _ _),
      Nat.add_sub_cancel_left]
    exact List.drop_replicate
  rw [copyFromSlice, if_pos hbounds, List.take_left' hi, hdrop]

/-! ## splitting -/

theorem exists_field {bytes : Bytes} (h : bytes.length = m + n) :
    ∃ (field : FixedBytes m) (rest : Bytes), bytes = field.bytes ++ rest ∧ rest.length = n := by
  have hm : (bytes.take m).length = m := by
    rw [List.length_take, h]
    exact Nat.min_eq_left (Nat.le_add_right m n)
  refine ⟨⟨bytes.take m, hm⟩, bytes.drop m, (List.take_append_drop m bytes).symm, ?_⟩
  rw [List.length_drop, h, Nat.add_sub_cancel_left]

/-- eight bytes are the bytes of a number -/
theorem exists_uint64 (field : FixedBytes 8) : ∃ x : UInt64, beBytes 8 x.toNat = field.bytes := by
  have hlt : ofBe field.bytes < 2^64 := by
    have h := ofBe_lt field.bytes
    rwa [field.len] at h
  refine ⟨UInt64.ofNat (ofBe field.bytes), ?_⟩
  have hround := beBytes_ofBe field.bytes
  rw [field.len] at hround
  rw [UInt64.toNat_ofNat', Nat.mod_eq_of_lt hlt, hround]
