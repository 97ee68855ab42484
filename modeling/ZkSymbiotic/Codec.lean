import ZkSymbiotic.Devnet
import ZkSymbiotic.Lib.Slices
import ZkSymbiotic.Rpcs.Fallback

/-!
# The bytes of the outputs

`toBytes` writes the outputs of a program field by field, and `fromBytes` reads them back at offsets
of its own.

* `ProofOutputs.layout`     the fields one after the other;
* `proofOutputs_codec`      `toBytes` and `fromBytes` are inverse to each other;
* `consensusProofOutputs_codec_iff`   for the host's outputs this fails on every buffer of the right
                            length: the last field is read behind its end.
-/

namespace ZkSymbiotic

/-! ## reading and writing a field -/

def writeField (buf : Bytes) (start finish : Nat) (src : Bytes) : Except Failure Bytes :=
  Except.okOr .panic (copyFromSlice buf start finish src)

/-- `u64::from_be_bytes` of a slice; the error is the one of `try_into` -/
def readU64 (bytes : Bytes) (start finish : Nat) (context : String) : Except Failure UInt64 := do
  let field ← Except.okOr .panic (slice bytes start finish)
  let array ← Except.okOr
    (.error (.context context (.msg "could not convert slice to array")))
    (FixedBytes.ofBytes? 8 field)
  pure (UInt64.ofNat (ofBe array.bytes))

/-- `B256::from_slice`, which panics on another length -/
def readB256 (bytes : Bytes) (start finish : Nat) : Except Failure B256 := do
  let field ← Except.okOr .panic (slice bytes start finish)
  Except.okOr .panic (FixedBytes.ofBytes? 32 field)

def ProofOutputs.size : Nat := 176

def ProofOutputs.toBytes (self : ProofOutputs) : Except Failure Bytes := do
  let buf := zeros ProofOutputs.size
  let buf ← writeField buf 0 8 (beBytes 8 self.inputSlot.toNat)
  let buf ← writeField buf 8 40 self.inputStoreHash.bytes
  let buf ← writeField buf 40 48 (beBytes 8 self.outputSlot.toNat)
  let buf ← writeField buf 48 80 self.outputStoreHash.bytes
  let buf ← writeField buf 80 112 self.executionStateRoot.bytes
  let buf ← writeField buf 112 144 self.verifiedContractStorageSlotsRoot.bytes
  writeField buf 144 176 self.nextSyncCommitteeHash.bytes

def ProofOutputs.fromBytes (bytes : Bytes) : Except Failure ProofOutputs := do
  Except.failIf (bytes.length ≠ ProofOutputs.size)
    (.error (.msg (s!"Invalid input length for ProofOutputs: expected {ProofOutputs.size} " ++
      s!"bytes, got {bytes.length}")))
  let inputSlot ← readU64 bytes 0 8 "Failed to parse input_slot bytes"
  let inputStoreHash ← readB256 bytes 8 40
  let outputSlot ← readU64 bytes 40 48 "Failed to parse output_slot bytes"
  let outputStoreHash ← readB256 bytes 48 80
  let executionStateRoot ← readB256 bytes 80 112
  let verifiedContractStorageSlotsRoot ← readB256 bytes 112 144
  let nextSyncCommitteeHash ← readB256 bytes 144 176
  pure
    { inputSlot, inputStoreHash, outputSlot, outputStoreHash, executionStateRoot
      verifiedContractStorageSlotsRoot, nextSyncCommitteeHash }

def ConsensusProofOutputs.size : Nat := 144

def ConsensusProofOutputs.toBytes (self : ConsensusProofOutputs) : Except Failure Bytes := do
  let buf := zeros ConsensusProofOutputs.size
  let buf ← writeField buf 0 8 (beBytes 8 self.inputSlot.toNat)
  let buf ← writeField buf 8 40 self.inputStoreHash.bytes
  let buf ← writeField buf 40 48 (beBytes 8 self.outputSlot.toNat)
  let buf ← writeField buf 48 80 self.outputStoreHash.bytes
  let buf ← writeField buf 80 112 self.executionStateRoot.bytes
  writeField buf 112 144 self.nextSyncCommitteeHash.bytes

def ConsensusProofOutputs.fromBytes (bytes : Bytes) : Except Failure ConsensusProofOutputs := do
  Except.failIf (bytes.length ≠ ConsensusProofOutputs.size)
    (.error (.msg ("Invalid input length for ConsensusProofOutputs: expected " ++
      s!"{ConsensusProofOutputs.size} bytes, got {bytes.length}")))
  let inputSlot ← readU64 bytes 0 8 "Failed to parse input_slot bytes"
  let inputStoreHash ← readB256 bytes 8 40
  let outputSlot ← readU64 bytes 40 48 "Failed to parse output_slot bytes"
  let outputStoreHash ← readB256 bytes 48 80
  let executionStateRoot ← readB256 bytes 80 112
  -- the offsets of `ProofOutputs`, whose buffer is longer
  let nextSyncCommitteeHash ← readB256 bytes 144 176
  pure
    { inputSlot, inputStoreHash, outputSlot, outputStoreHash, executionStateRoot
      nextSyncCommitteeHash }

/-! ## the layouts -/

/-- the fields of the proved program's outputs, one after the other -/
def ProofOutputs.layout (x : ProofOutputs) : Bytes :=
  beBytes 8 x.inputSlot.toNat ++ (x.inputStoreHash.bytes ++ (beBytes 8 x.outputSlot.toNat ++
    (x.outputStoreHash.bytes ++ (x.executionStateRoot.bytes ++
      (x.verifiedContractStorageSlotsRoot.bytes ++ (x.nextSyncCommitteeHash.bytes ++ []))))))

def ConsensusProofOutputs.layout (x : ConsensusProofOutputs) : Bytes :=
  beBytes 8 x.inputSlot.toNat ++ (x.inputStoreHash.bytes ++ (beBytes 8 x.outputSlot.toNat ++
    (x.outputStoreHash.bytes ++ (x.executionStateRoot.bytes ++
      (x.nextSyncCommitteeHash.bytes ++ [])))))

section
variable {f rest done src : Bytes} {i j m n : Nat}

theorem writeField_zeros (hi : done.length = i) (hj : i + src.length = j) (hm : src.length ≤ m) :
    writeField (done ++ zeros m) i j src = .ok (done ++ src ++ zeros (m - src.length)) := by
  rw [writeField, copyFromSlice_zeros hi hj hm]
  rfl

theorem readU64_head (x : UInt64) (context : String) :
    readU64 (beBytes 8 x.toNat ++ rest) 0 8 context = .ok x := by
  have hlt : x.toNat < 256^8 := x.toNat_lt
  have harray : FixedBytes.ofBytes? 8 (beBytes 8 x.toNat) = some (FixedBytes.ofNat 8 x.toNat) :=
    FixedBytes.ofBytes?_bytes (FixedBytes.ofNat 8 x.toNat)
  have hround : ofBe (FixedBytes.ofNat 8 x.toNat).bytes = x.toNat :=
    (ofBe_beBytes 8 x.toNat).trans (Nat.mod_eq_of_lt hlt)
  unfold readU64
  rw [slice_head (beBytes_length 8 _), Except.okOr_some, Except.ok_bind, harray, Except.okOr_some,
    Except.ok_bind, hround, UInt64.ofNat_toNat]
  rfl

theorem readB256_head (x : B256) : readB256 (x.bytes ++ rest) 0 32 = .ok x := by
  unfold readB256
  rw [slice_head x.len, Except.okOr_some, Except.ok_bind, FixedBytes.ofBytes?_bytes]
  rfl

theorem readU64_skip (hf : f.length = n) (hi : n ≤ i) (hj : n ≤ j) (context : String) :
    readU64 (f ++ rest) i j context = readU64 rest (i - n) (j - n) context := by
  unfold readU64
  rw [slice_skip hf hi hj]

theorem readB256_skip (hf : f.length = n) (hi : n ≤ i) (hj : n ≤ j) :
    readB256 (f ++ rest) i j = readB256 rest (i - n) (j - n) := by
  unfold readB256
  rw [slice_skip hf hi hj]

theorem readB256_out {bytes : Bytes} (hj : bytes.length < j) :
    readB256 bytes i j = .error .panic := by
  unfold readB256
  rw [slice_out hj]
  rfl

end

theorem ProofOutputs.toBytes_eq (x : ProofOutputs) : x.toBytes = .ok x.layout := by
  have hbuf : zeros ProofOutputs.size = [] ++ zeros 176 := rfl
  unfold ProofOutputs.toBytes
  rw [hbuf]
  simp (disch := simp [beBytes_length, FixedBytes.len]) only [writeField_zeros, Except.ok_bind,
    beBytes_length, FixedBytes.len, Nat.reduceSub]
  simp only [ProofOutputs.layout, List.append_assoc, List.nil_append]
  rfl

theorem ProofOutputs.layout_length (x : ProofOutputs) : x.layout.length = ProofOutputs.size := by
  simp [ProofOutputs.layout, ProofOutputs.size, beBytes_length, FixedBytes.len]

theorem ProofOutputs.fromBytes_layout (x : ProofOutputs) :
    ProofOutputs.fromBytes x.layout = .ok x := by
  unfold ProofOutputs.fromBytes
  rw [Except.failIf_false (not_not.mpr x.layout_length), Except.ok_bind]
  simp (disch := simp [beBytes_length, FixedBytes.len]) only [ProofOutputs.layout, readU64_head,
    readB256_head, readB256_skip (n := 8), readB256_skip (n := 32), readU64_skip (n := 8),
    readU64_skip (n := 32), Except.ok_bind, Nat.reduceSub]
  rfl

/-- every buffer of the right length is a layout: its fields are split off from the front -/
theorem ProofOutputs.exists_layout {b : Bytes} (h : b.length = ProofOutputs.size) :
    ∃ x : ProofOutputs, b = x.layout := by
  obtain ⟨f1, b1, rfl, hb1⟩ := exists_field (m := 8) (n := 168) h
  obtain ⟨f2, b2, rfl, hb2⟩ := exists_field (m := 32) (n := 136) hb1
  obtain ⟨f3, b3, rfl, hb3⟩ := exists_field (m := 8) (n := 128) hb2
  obtain ⟨f4, b4, rfl, hb4⟩ := exists_field (m := 32) (n := 96) hb3
  obtain ⟨f5, b5, rfl, hb5⟩ := exists_field (m := 32) (n := 64) hb4
  obtain ⟨f6, b6, rfl, hb6⟩ := exists_field (m := 32) (n := 32) hb5
  obtain ⟨f7, b7, rfl, hb7⟩ := exists_field (m := 32) (n := 0) hb6
  obtain rfl := List.eq_nil_of_length_eq_zero hb7
  obtain ⟨inputSlot, h1⟩ := exists_uint64 f1
  obtain ⟨outputSlot, h3⟩ := exists_uint64 f3
  refine ⟨⟨inputSlot, f2, outputSlot, f4, f5, f6, f7⟩, ?_⟩
  rw [ProofOutputs.layout, h1, h3]

/-- a buffer of the right length is read as the outputs it is the layout of, and any other is an
error -/
theorem ProofOutputs.fromBytes_cases (b : Bytes) :
    (∃ x : ProofOutputs, b = x.layout ∧ ProofOutputs.fromBytes b = .ok x) ∨
      b.length ≠ ProofOutputs.size ∧ ∃ e, ProofOutputs.fromBytes b = .error (.error e) := by
  by_cases hlen : b.length = ProofOutputs.size
  · obtain ⟨x, rfl⟩ := ProofOutputs.exists_layout hlen
    exact .inl ⟨x, rfl, x.fromBytes_layout⟩
  · exact .inr ⟨hlen, _, Except.bind_eq_error.mpr (.inl (Except.failIf_eq_error.mpr ⟨hlen, rfl⟩))⟩

theorem ConsensusProofOutputs.toBytes_eq (x : ConsensusProofOutputs) :
    x.toBytes = .ok x.layout := by
  have hbuf : zeros ConsensusProofOutputs.size = [] ++ zeros 144 := rfl
  unfold ConsensusProofOutputs.toBytes
  rw [hbuf]
  simp (disch := simp [beBytes_length, FixedBytes.len]) only [writeField_zeros, Except.ok_bind,
    beBytes_length, FixedBytes.len, Nat.reduceSub]
  simp only [ConsensusProofOutputs.layout, List.append_assoc, List.nil_append]
  rfl

theorem ConsensusProofOutputs.layout_length (x : ConsensusProofOutputs) :
    x.layout.length = ConsensusProofOutputs.size := by
  simp [ConsensusProofOutputs.layout, ConsensusProofOutputs.size, beBytes_length, FixedBytes.len]

theorem ConsensusProofOutputs.exists_layout {b : Bytes}
    (h : b.length = ConsensusProofOutputs.size) : ∃ x : ConsensusProofOutputs, b = x.layout := by
  obtain ⟨f1, b1, rfl, hb1⟩ := exists_field (m := 8) (n := 136) h
  obtain ⟨f2, b2, rfl, hb2⟩ := exists_field (m := 32) (n := 104) hb1
  obtain ⟨f3, b3, rfl, hb3⟩ := exists_field (m := 8) (n := 96) hb2
  obtain ⟨f4, b4, rfl, hb4⟩ := exists_field (m := 32) (n := 64) hb3
  obtain ⟨f5, b5, rfl, hb5⟩ := exists_field (m := 32) (n := 32) hb4
  obtain ⟨f6, b6, rfl, hb6⟩ := exists_field (m := 32) (n := 0) hb5
  obtain rfl := List.eq_nil_of_length_eq_zero hb6
  obtain ⟨inputSlot, h1⟩ := exists_uint64 f1
  obtain ⟨outputSlot, h3⟩ := exists_uint64 f3
  refine ⟨⟨inputSlot, f2, outputSlot, f4, f5, f6⟩, ?_⟩
  rw [ConsensusProofOutputs.layout, h1, h3]

/-- all fields but the last are read, which then is sliced out of range -/
theorem ConsensusProofOutputs.fromBytes_panic {b : Bytes}
    (h : b.length = ConsensusProofOutputs.size) :
    ConsensusProofOutputs.fromBytes b = .error .panic := by
  obtain ⟨x, rfl⟩ := ConsensusProofOutputs.exists_layout h
  have hout : x.layout.length < 176 := by
    rw [h]
    decide
  unfold ConsensusProofOutputs.fromBytes
  rw [Except.failIf_false (not_not.mpr h), Except.ok_bind, readB256_out hout]
  simp (disch := simp [beBytes_length, FixedBytes.len]) only [ConsensusProofOutputs.layout,
    readU64_head, readB256_head, readB256_skip (n := 8), readB256_skip (n := 32),
    readU64_skip (n := 8), readU64_skip (n := 32), Except.ok_bind, Nat.reduceSub]
  rfl

/-! ## codecs -/

/-- what a decoder of buffers of `size` bytes does on one buffer: it reads back what is encoded to
this buffer, refuses other lengths, and never panics -/
structure DecodesExactly {α : Type} (size : Nat) (toBytes : α → Except Failure Bytes)
    (fromBytes : Bytes → Except Failure α) (b : Bytes) : Prop where
  decoded : b.length = size → ∃ y, fromBytes b = .ok y ∧ toBytes y = .ok b
  refused : b.length ≠ size → ∃ e, fromBytes b = .error (.error e)
  noPanic : fromBytes b ≠ .error .panic

/-- the guest program: what it commits.  The CBOR decoder is another package. -/
def guestMain {S : ConsensusSpec} (H : Helios S)
    (verifyStorageSlotProofs : B256 → ContractStorage → Except MptError B256)
    (fromSlice : Bytes → Except String (ProofInputs S)) (encodedInputs : Bytes) :
    Except Failure Bytes := do
  let proofInputs ← (fromSlice encodedInputs).mapError fun _ => .panic
  let proofOutputs ← (consensusMptProgram H verifyStorageSlotProofs proofInputs).mapError
    fun _ => .panic
  proofOutputs.toBytes

/-- **The outputs codec is a bijection**: outputs are read back from their bytes, every buffer of
176 bytes is the bytes of the outputs it is read as, and any other length is an error; so the host
reads the outputs that the guest committed. -/
theorem proofOutputs_codec :
    (∀ x : ProofOutputs, ∃ b, x.toBytes = .ok b ∧ b.length = 176 ∧
      ProofOutputs.fromBytes b = .ok x) ∧
    (∀ b, DecodesExactly 176 ProofOutputs.toBytes ProofOutputs.fromBytes b) ∧
    ∀ (S : ConsensusSpec) (H : Helios S) (verifyStorageSlotProofs : B256 → ContractStorage →
        Except MptError B256) (fromSlice : Bytes → Except String (ProofInputs S))
      (encodedInputs committed : Bytes),
      guestMain H verifyStorageSlotProofs fromSlice encodedInputs = .ok committed →
        ∃ p o, fromSlice encodedInputs = .ok p ∧
          consensusMptProgram H verifyStorageSlotProofs p = .ok o ∧
          ProofOutputs.fromBytes committed = .ok o := by
  refine ⟨fun x => ?_, fun b => ?_, ?_⟩
  · exact ⟨x.layout, x.toBytes_eq, x.layout_length, x.fromBytes_layout⟩
  · rcases ProofOutputs.fromBytes_cases b with ⟨x, rfl, hread⟩ | ⟨hlen, e, he⟩
    · refine ⟨fun _ => ⟨x, hread, x.toBytes_eq⟩, fun hne => absurd x.layout_length hne, ?_⟩
      rw [hread]
      exact nofun
    · refine ⟨fun h => absurd h hlen, fun _ => ⟨e, he⟩, ?_⟩
      rw [he]
      exact nofun
  · intro S H verify fromSlice encodedInputs committed h
    obtain ⟨p, hp, h⟩ := Except.bind_eq_ok.mp h
    obtain ⟨o, ho, h⟩ := Except.bind_eq_ok.mp h
    have hcommitted : o.layout = committed := Except.ok.inj (o.toBytes_eq.symm.trans h)
    exact ⟨p, o, Except.mapError_eq_ok.mp hp, Except.mapError_eq_ok.mp ho,
      hcommitted ▸ o.fromBytes_layout⟩

theorem proofOutputs_codec_devnet : ∃ committed o,
    guestMain Devnet.helios (verifyStorageSlotProofs Devnet.crypto)
        (fun _ => .ok (Devnet.inputs 32 64 Devnet.emptyStorage)) [] = .ok committed ∧
      ProofOutputs.fromBytes committed = .ok o ∧ o.outputSlot = 64 := by
  have hprogram := Devnet.program_ok (a := 32) (b := 64) (by decide)
    (Devnet.emptyStorage_ok (Devnet.digest 64))
  have hguest : guestMain Devnet.helios (verifyStorageSlotProofs Devnet.crypto)
      (fun _ => .ok (Devnet.inputs 32 64 Devnet.emptyStorage)) []
        = .ok (Devnet.outputs 32 64 (Devnet.fpToBytes 0)).layout := by
    refine Except.bind_eq_ok.mpr ⟨_, rfl, Except.bind_eq_ok.mpr ⟨_, ?_, ProofOutputs.toBytes_eq _⟩⟩
    rw [hprogram]
    rfl
  obtain ⟨p, o, hp, ho, hread⟩ := proofOutputs_codec.2.2 _ _ _ _ _ _ hguest
  obtain rfl := Except.ok.inj hp
  obtain rfl := Except.ok.inj (hprogram.symm.trans ho)
  exact ⟨_, _, hguest, hread, rfl⟩

/-- **The codec of the host's outputs**: no outputs are read back from their bytes, as reading any
buffer of 144 bytes panics; buffers of every other length are refused as they should be. -/
theorem consensusProofOutputs_codec_iff (x : ConsensusProofOutputs) (b : Bytes) :
    (x.toBytes >>= ConsensusProofOutputs.fromBytes) = .error .panic ∧
      (DecodesExactly 144 ConsensusProofOutputs.toBytes ConsensusProofOutputs.fromBytes b ↔
        b.length ≠ 144) := by
  refine ⟨?_, fun h hlen => ?_, fun hlen => ?_⟩
  · rw [x.toBytes_eq, Except.ok_bind]
    exact ConsensusProofOutputs.fromBytes_panic x.layout_length
  · exact h.noPanic (ConsensusProofOutputs.fromBytes_panic hlen)
  · have hread : ∃ e, ConsensusProofOutputs.fromBytes b = .error (.error e) :=
      ⟨_, Except.bind_eq_error.mpr (.inl (Except.failIf_eq_error.mpr ⟨hlen, rfl⟩))⟩
    obtain ⟨e, he⟩ := hread
    refine ⟨fun h => absurd h hlen, fun _ => ⟨e, he⟩, ?_⟩
    rw [he]
    exact nofun

def zeroOutputs : ConsensusProofOutputs := ⟨0, .zero, 0, .zero, .zero, .zero⟩

/-- outputs at slot 0 with zero hashes have an encoding, and reading it back panics -/
theorem zero_outputs_panic : ∃ b, zeroOutputs.toBytes = .ok b ∧ b.length = 144 ∧
    ConsensusProofOutputs.fromBytes b = .error .panic :=
  ⟨zeroOutputs.layout, zeroOutputs.toBytes_eq, zeroOutputs.layout_length,
    ConsensusProofOutputs.fromBytes_panic zeroOutputs.layout_length⟩

end ZkSymbiotic
