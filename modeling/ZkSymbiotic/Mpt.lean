import ZkSymbiotic.Abi
import ZkSymbiotic.Lib.Result

/-!
# Storage slot proofs

`verifyStorageSlotProofs` checks the contract's account against the execution state root, every
storage slot against the account's storage root, and folds the slots into one root.  `Crypto` holds
what comes from other packages: `keccak256`, the RLP encoders, `alloy_trie`'s `verify_proof` and
nibbles, the bytes of field elements, the Poseidon sponge, the tree functions of `nori_hash` and the
decoder of logs that `sol!` generates.

* `verifyStorageSlotProofs_eq_ok`   the storage that is accepted, slot by slot, and its root.
-/

namespace ZkSymbiotic

/-! ## the field of the Poseidon hash -/

/-- the order of the base field of the Pallas curve -/
def fpModulus : Nat := 0x40000000000000000000000000000000224698fc094cf91b992d30ed00000001

instance : NeZero fpModulus := ⟨by decide⟩

abbrev Fp := Fin fpModulus

/-- the number that bytes spell, least significant byte first -/
def ofLe : Bytes → Nat
  | [] => 0
  | b :: bs => b.toNat + 256 * ofLe bs

/-- `alloy`, `alloy_trie`, `alloy_rlp`, `o1_utils`, `mina_poseidon` and `nori_hash` -/
structure Crypto where
  keccak256 : Bytes → B256
  /-- `TokensLocked::decode_log(log, validate)` -/
  decodeLog : Log → Option TokensLocked
  /-- the log of an event is decoded to the event -/
  decodeLog_encodeLog : ∀ contract event,
    decodeLog (event.encodeLog keccak256 contract) = some event
  /-- `Nibbles::unpack` -/
  unpackNibbles : Bytes → Bytes
  encodeTrieAccount : TrieAccount → Bytes
  encodeU256 : U256 → Bytes
  /-- `verify_proof(root, nibbles, expected value, proof)`; the error is its text -/
  verifyProof : B256 → Bytes → Option Bytes → List Bytes → Except String Unit
  /-- `Fp::from_bytes`; the error is its text -/
  fpFromBytes : Bytes → Except String Fp
  /-- 32 bytes are read, least significant first, where the number is below the order -/
  fpFromBytes_canonical : ∀ (bytes : Bytes) (h : ofLe bytes < fpModulus), bytes.length = 32 →
    fpFromBytes bytes = .ok ⟨ofLe bytes, h⟩
  /-- `to_bytes` -/
  fpToBytes : Fp → B256
  /-- what is written is read back -/
  fpFromBytes_toBytes : ∀ x, fpFromBytes (fpToBytes x).bytes = .ok x
  /-- absorb, then squeeze one element -/
  poseidonHash : List Fp → Fp
  computeMerkleTreeDepthAndSize : Nat → Nat × Nat
  maxTreeDepth : Nat
  foldMerkleLeft : List Fp → Nat → Nat → List Fp → Fp
  getMerkleZeros : List Fp

/-! ## errors -/

inductive MptError where
  | invalidAccountProof (address : Address) (reason : String)
  | invalidStorageSlotProof (slotKey : B256) (reason : String)
  | invalidStorageSlotAddressMapping (slotKey : B256) (address : Address)
      (computedAddressSlotKey : B256)
  | merkleHashError (address : Address) (value : U256) (reason : String)
  | exceedsMaxTreeDepth (slots requestedDepth maxDepth : Nat)
deriving DecidableEq

/-! ## verification -/

section
variable (C : Crypto)

/-- first field: the address and the first byte of the value; second field: the other 31 bytes -/
def hashStorageSlot (address : Address) (value : U256) : Except String Fp := do
  let valueBytes := beBytes 32 value.toNat
  let firstFieldBytes := address.bytes ++ valueBytes.take 1 ++ List.replicate 11 0
  let secondFieldBytes := valueBytes.drop 1 ++ [0]
  let firstField ← C.fpFromBytes firstFieldBytes
  let secondField ← C.fpFromBytes secondFieldBytes
  pure (C.poseidonHash [firstField, secondField])

/-- one turn of the loop over the storage slots -/
def verifySlot (storageRoot : B256) (slot : StorageSlot) : Except MptError Fp := do
  let keyNibbles := C.unpackNibbles (C.keccak256 slot.key.bytes).bytes
  let computed := getStorageLocationForKey C.keccak256 slot.slotKeyAddress
    sourceContractLockedTokensStorageIndex
  Except.failIf (computed ≠ slot.key)
    (.invalidStorageSlotAddressMapping slot.key slot.slotKeyAddress computed)
  (C.verifyProof storageRoot keyNibbles (some (C.encodeU256 slot.expectedValue))
    slot.mptProof).mapError (.invalidStorageSlotProof slot.key)
  (hashStorageSlot C slot.slotKeyAddress slot.expectedValue).mapError
    (.merkleHashError slot.slotKeyAddress slot.expectedValue)

def verifyStorageSlotProofs (executionStateRoot : B256) (contractStorage : ContractStorage) :
    Except MptError B256 := do
  let addressNibbles := C.unpackNibbles (C.keccak256 contractStorage.address.bytes).bytes
  (C.verifyProof executionStateRoot addressNibbles
    (some (C.encodeTrieAccount contractStorage.expectedValue))
    contractStorage.mptProof).mapError (.invalidAccountProof contractStorage.address)
  let nLeaves := contractStorage.storageSlots.length
  let (depth, paddedSize) := C.computeMerkleTreeDepthAndSize nLeaves
  Except.failIf (depth > C.maxTreeDepth) (.exceedsMaxTreeDepth nLeaves depth C.maxTreeDepth)
  let merkleNodes ← contractStorage.storageSlots.mapM
    (verifySlot C contractStorage.expectedValue.storageRoot)
  pure (C.fpToBytes (C.foldMerkleLeft merkleNodes paddedSize depth C.getMerkleZeros))

/-! ## what is accepted -/

theorem verifySlot_eq_ok {storageRoot : B256} {slot : StorageSlot} {leaf : Fp} :
    verifySlot C storageRoot slot = .ok leaf ↔
      getStorageLocationForKey C.keccak256 slot.slotKeyAddress
        sourceContractLockedTokensStorageIndex = slot.key ∧
      C.verifyProof storageRoot (C.unpackNibbles (C.keccak256 slot.key.bytes).bytes)
        (some (C.encodeU256 slot.expectedValue)) slot.mptProof = .ok () ∧
      hashStorageSlot C slot.slotKeyAddress slot.expectedValue = .ok leaf := by
  simp only [verifySlot, Except.bind_eq_ok, Except.failIf_eq_ok, Except.mapError_eq_ok,
    exists_const, not_not]
  constructor
  · rintro ⟨hkey, ⟨⟩, hproof, hleaf⟩
    exact ⟨hkey, hproof, hleaf⟩
  · intro ⟨hkey, hproof, hleaf⟩
    exact ⟨hkey, ⟨⟩, hproof, hleaf⟩

/-- **the accepted storage**: a proved account, a tree that is not too deep, and slots that pass
one by one, in order -/
theorem verifyStorageSlotProofs_eq_ok {executionStateRoot : B256}
    {contractStorage : ContractStorage} {root : B256} :
    verifyStorageSlotProofs C executionStateRoot contractStorage = .ok root ↔
      C.verifyProof executionStateRoot
        (C.unpackNibbles (C.keccak256 contractStorage.address.bytes).bytes)
        (some (C.encodeTrieAccount contractStorage.expectedValue))
        contractStorage.mptProof = .ok () ∧
      (C.computeMerkleTreeDepthAndSize contractStorage.storageSlots.length).1 ≤ C.maxTreeDepth ∧
      ∃ leaves, List.Forall₂
          (fun slot leaf => verifySlot C contractStorage.expectedValue.storageRoot slot = .ok leaf)
          contractStorage.storageSlots leaves ∧
        root = C.fpToBytes (C.foldMerkleLeft leaves
          (C.computeMerkleTreeDepthAndSize contractStorage.storageSlots.length).2
          (C.computeMerkleTreeDepthAndSize contractStorage.storageSlots.length).1
          C.getMerkleZeros) := by
  simp only [verifyStorageSlotProofs, Except.bind_eq_ok, Except.failIf_eq_ok,
    Except.mapError_eq_ok, Except.mapM_eq_ok, Except.pure_eq_ok, exists_const, not_lt, gt_iff_lt]
  constructor
  · rintro ⟨⟨⟩, haccount, hdepth, leaves, hleaves, rfl⟩
    exact ⟨haccount, hdepth, leaves, hleaves, rfl⟩
  · rintro ⟨haccount, hdepth, leaves, hleaves, rfl⟩
    exact ⟨⟨⟩, haccount, hdepth, leaves, hleaves, rfl⟩

end

end ZkSymbiotic
