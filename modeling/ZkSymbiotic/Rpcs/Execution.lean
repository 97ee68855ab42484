import Mathlib.Data.List.AList
import ZkSymbiotic.Rpcs.Fallback

/-!
# The execution providers

`ExecutionHttpProxy` scans the deposits of a block range, asks for the storage proofs of the users
it finds, and runs the proved program on the completed inputs before it returns them.

* `getSourceContractEvents`        the scan, chunk by chunk, each chunk with retries;
* `storageSlotAddressMap`          the users by the storage slot of their balance;
* `ExecutionRpc.prepare_ok`        prepared inputs: the consensus inputs as they came, the proved
                                   storage, and a successful dry run;
* `ExecutionHttpProxy.prepare_ok`  the window that is put around them.
-/

namespace ZkSymbiotic

def chunkSize : UInt64 := 100
def maxRetries : Nat := 3

/-- the filter of `eth_getLogs`: a contract, an event signature and an inclusive block range -/
structure Filter where
  address : Address
  event : B256
  fromBlock : UInt64
  toBlock : UInt64

/-- `slot.key.as_b256()`, `slot.value` and `slot.proof` of a proved slot -/
structure EIP1186StorageProof where
  key : B256
  value : U256
  proof : List Bytes

structure EIP1186AccountProofResponse where
  address : Address
  balance : U256
  codeHash : B256
  nonce : UInt64
  storageHash : B256
  accountProof : List Bytes
  storageProof : List EIP1186StorageProof

/-- what one execution provider answers in the course of one request, and what the environment
decides about it: `turns` chunks fit into the timeout, and hash maps are listed in `keyOrder` -/
structure ExecutionRpc where
  /-- the answer to the given attempt -/
  getLogs : Nat → Filter → Except String (List Log)
  getProof : Address → List B256 → UInt64 → Except String EIP1186AccountProofResponse
  turns : Nat
  keyOrder : (keys : List B256) → Shuffle keys

/-- `address` stands for `source_state_bridge_contract_address` -/
structure ExecutionHttpProxy where
  principalProvider : ExecutionRpc
  backupProviders : List ExecutionRpc
  schedule : Shuffle backupProviders
  address : Address
  validationTimeout : Nat

/-! ## the scan -/

/-- another attempt after every error, `retries` times at most -/
def withRetries {α : Type} (attempt : Nat → Except Failure α) : Nat → Nat → Except Failure α
  | 0, n => attempt n
  | retries + 1, n =>
    match attempt n with
    | .error (.error _) => withRetries attempt retries (n + 1)
    | result => result

section
variable (C : Crypto) (provider : ExecutionRpc) (address : Address)

/-- one chunk: the logs that decode; the others are dropped -/
def getSourceContractEventChunk (start finish : UInt64) (attempt : Nat) :
    Except Failure (List TokensLocked) :=
  match provider.getLogs attempt
    { address := address, event := C.keccak256 TokensLocked.signature, fromBlock := start,
      toBlock := finish } with
  | .ok logs => .ok (logs.filterMap C.decodeLog)
  | .error e => .error (.error (.msg e))

/-- the loop over the chunks; block numbers wrap as `u64` does -/
def getSourceContractEventsLoop (endBlock : UInt64) :
    Nat → UInt64 → Except Failure (List TokensLocked)
  | 0, _ => .error .pending
  | turns + 1, currentBlock =>
    if currentBlock ≤ endBlock then do
      let chunkEnd := min (currentBlock + chunkSize) endBlock
      let events ← withRetries
        (getSourceContractEventChunk C provider address currentBlock chunkEnd)
        maxRetries 0
      let rest ← getSourceContractEventsLoop endBlock turns (chunkEnd + 1)
      pure (events ++ rest)
    else pure []

def getSourceContractEvents (startBlock endBlock : UInt64) :
    Except Failure (List TokensLocked) :=
  getSourceContractEventsLoop C provider address endBlock provider.turns startBlock

end

/-! ## storage slots -/

/-- `addresses_attestation_pair_to_storage_slots` -/
def storageSlotAddressMap (keccak256 : Bytes → B256) (lockedTokenEvents : List TokensLocked) :
    AList fun _ : B256 => Address :=
  lockedTokenEvents.foldl (fun slots event =>
    slots.insert (getStorageLocationForKey keccak256 event.user
      sourceContractLockedTokensStorageIndex) event.user) ∅

/-- a slot that is not in the map panics -/
def toStorageSlot (slots : AList fun _ : B256 => Address) (slot : EIP1186StorageProof) :
    Except Failure StorageSlot :=
  match slots.lookup slot.key with
  | some address => .ok
      { slotKeyAddress := address, key := slot.key, expectedValue := slot.value,
        mptProof := slot.proof }
  | none => .error .panic

/-- the stable sort by address -/
def sortSlots (storageSlots : List StorageSlot) : List StorageSlot :=
  storageSlots.mergeSort fun a b => decide (a.slotKeyAddress ≤ b.slotKeyAddress)

/-! ## preparing the inputs -/

def ConsensusProofInputs.withStorage {S : ConsensusSpec} (p : ConsensusProofInputs S)
    (contractStorage : ContractStorage) : ProofInputs S where
  updates := p.updates
  finalityUpdate := p.finalityUpdate
  expectedCurrentSlot := p.expectedCurrentSlot
  store := p.store
  genesisRoot := p.genesisRoot
  forks := p.forks
  storeHash := p.storeHash
  contractStorage := contractStorage

section
variable {S : ConsensusSpec} (H : Helios S) (C : Crypto)

/-- the storage of the contract as the provider proves it at the output block -/
def ExecutionRpc.contractStorage (provider : ExecutionRpc) (address : Address)
    (inputBlockNumber outputBlockNumber : UInt64) : Except Failure ContractStorage := do
  let contractEvents ← getSourceContractEvents C provider address inputBlockNumber
    outputBlockNumber
  let storageSlotAddressMap := storageSlotAddressMap C.keccak256 contractEvents
  let mptAccountProof ← (provider.getProof address
    (provider.keyOrder storageSlotAddressMap.keys).order outputBlockNumber).mapError
      fun e => .error (.msg s!"ExecutionHttp RPC error: {e}")
  let storageSlots ← mptAccountProof.storageProof.mapM (toStorageSlot storageSlotAddressMap)
  pure
    { address := mptAccountProof.address
      expectedValue :=
        { nonce := mptAccountProof.nonce, balance := mptAccountProof.balance,
          storageRoot := mptAccountProof.storageHash, codeHash := mptAccountProof.codeHash }
      mptProof := mptAccountProof.accountProof
      storageSlots := sortSlots storageSlots }

/-- `_prepare_consensus_mpt_proof_inputs`, which ends with a dry run of the proof -/
def ExecutionRpc.prepare (address : Address) (inputBlockNumber outputBlockNumber : UInt64)
    (validatedConsensusProofInputs : ConsensusProofInputs S) (provider : ExecutionRpc) :
    Except Failure (ProofInputs S) := do
  let contractStorage ← provider.contractStorage C address inputBlockNumber outputBlockNumber
  let consensusMptProofInput := validatedConsensusProofInputs.withStorage contractStorage
  let _ ← (consensusMptProgram H (verifyStorageSlotProofs C) consensusMptProofInput).mapError
    fun e => .error (.program e)
  pure consensusMptProofInput

/-- `ExecutionHttpProxy::prepare_consensus_mpt_proof_inputs` -/
def ExecutionHttpProxy.prepare (self : ExecutionHttpProxy)
    (inputSlot outputSlot inputBlockNumber outputBlockNumber : UInt64)
    (validatedConsensusProofInputs : ConsensusProofInputs S) (expectedOutputStoreHash : B256) :
    Except Failure (ProofInputsWithWindow S) := do
  let output ← queryWithFallback
    (ExecutionRpc.prepare H C self.address inputBlockNumber outputBlockNumber
      validatedConsensusProofInputs)
    self.principalProvider self.backupProviders self.schedule self.validationTimeout
  pure
    { inputSlot
      expectedOutputSlot := outputSlot
      inputBlockNumber
      expectedOutputBlockNumber := outputBlockNumber
      proofInputs := output
      expectedOutputStoreHash }

/-! ## what is prepared -/

theorem ExecutionRpc.prepare_ok {address : Address} {inputBlock outputBlock : UInt64}
    {p : ConsensusProofInputs S} {provider : ExecutionRpc} {out : ProofInputs S} :
    provider.prepare H C address inputBlock outputBlock p = .ok out ↔
      ∃ storage, provider.contractStorage C address inputBlock outputBlock = .ok storage ∧
        (∃ o, consensusMptProgram H (verifyStorageSlotProofs C) (p.withStorage storage) = .ok o) ∧
        out = p.withStorage storage := by
  simp only [ExecutionRpc.prepare, Except.bind_eq_ok, Except.mapError_eq_ok, Except.pure_eq_ok]
  refine ⟨fun ⟨storage, hs, o, ho, e⟩ => ⟨storage, hs, ⟨o, ho⟩, e.symm⟩,
    fun ⟨storage, hs, ⟨o, ho⟩, e⟩ => ⟨storage, hs, o, ho, e.symm⟩⟩

/-- **a prepared window**: made of what one of the providers prepared -/
theorem ExecutionHttpProxy.prepare_ok {self : ExecutionHttpProxy}
    {inputSlot outputSlot inputBlock outputBlock : UInt64} {p : ConsensusProofInputs S}
    {outputStoreHash : B256} {w : ProofInputsWithWindow S}
    (h : self.prepare H C inputSlot outputSlot inputBlock outputBlock p outputStoreHash = .ok w) :
    ∃ provider ∈ self.principalProvider :: self.backupProviders, ∃ out,
      provider.prepare H C self.address inputBlock outputBlock p = .ok out ∧
      w = { inputSlot, expectedOutputSlot := outputSlot, inputBlockNumber := inputBlock,
            expectedOutputBlockNumber := outputBlock, proofInputs := out,
            expectedOutputStoreHash := outputStoreHash } := by
  unfold ExecutionHttpProxy.prepare at h
  obtain ⟨out, hout, hw⟩ := Except.bind_eq_ok.mp h
  obtain ⟨provider, hmem, hp⟩ := queryWithFallback_ok _ hout
  exact ⟨provider, hmem, out, hp, (Except.pure_eq_ok.mp hw).symm⟩

theorem ExecutionHttpProxy.prepare_ne_pending {self : ExecutionHttpProxy}
    {inputSlot outputSlot inputBlock outputBlock : UInt64} {p : ConsensusProofInputs S}
    {outputStoreHash : B256} :
    self.prepare H C inputSlot outputSlot inputBlock outputBlock p outputStoreHash
      ≠ .error .pending := by
  intro h
  rcases Except.bind_eq_error.mp h with h | ⟨_, _, h⟩
  · exact queryWithFallback_ne_pending _ h
  · exact Except.pure_ne_error h

end

end ZkSymbiotic
