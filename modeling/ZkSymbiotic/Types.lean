import ZkSymbiotic.Lib.Bytes

/-!
# Data of the consensus programs

`ConsensusSpec` and `Helios` are what the programs use of `helios_consensus_core` (and of
`nori_hash` for the store hash): types and functions of other packages, hence parameters.  A header
and a store keep the fields the programs read; everything else they hold is one field `rest`, so
that a store of the model still is the whole store.

The rest of the file is the data of `golem-symbiotic-consensus-mpt-types`.
-/

namespace ZkSymbiotic

abbrev U256 := BitVec 256

/-! ## helios -/

/-- the types a helios consensus spec fixes -/
structure ConsensusSpec where
  SyncCommittee : Type
  Update : Type
  FinalityUpdate : Type
  Forks : Type
  BeaconBlock : Type
  HeaderRest : Type
  StoreRest : Type

structure BeaconBlockHeader where
  slot : UInt64
deriving DecidableEq

structure ExecutionPayloadHeader where
  stateRoot : B256
  blockNumber : UInt64
deriving DecidableEq

/-- `execution` is `none` for the headers before Capella, where `execution()` is an error -/
structure LightClientHeader (S : ConsensusSpec) where
  beacon : BeaconBlockHeader
  execution : Option ExecutionPayloadHeader
  rest : S.HeaderRest

structure LightClientStore (S : ConsensusSpec) where
  finalizedHeader : LightClientHeader S
  nextSyncCommittee : Option S.SyncCommittee
  previousMaxActiveParticipants : UInt64
  currentMaxActiveParticipants : UInt64
  rest : S.StoreRest

/-- the finalized slot of a store -/
def LightClientStore.slot {S : ConsensusSpec} (store : LightClientStore S) : UInt64 :=
  store.finalizedHeader.beacon.slot

/-- the functions of `helios_consensus_core` and `nori_hash` -/
structure Helios (S : ConsensusSpec) where
  ConsensusError : Type
  /-- `{:?}` of a verification error -/
  debug : ConsensusError → String
  /-- `{}` of a verification error -/
  display : ConsensusError → String
  verifyUpdate : S.Update → UInt64 → LightClientStore S → B256 → S.Forks →
    Except ConsensusError Unit
  applyUpdate : LightClientStore S → S.Update → LightClientStore S
  verifyFinalityUpdate : S.FinalityUpdate → UInt64 → LightClientStore S → B256 → S.Forks →
    Except ConsensusError Unit
  applyFinalityUpdate : LightClientStore S → S.FinalityUpdate → LightClientStore S
  updateHeader : S.Update → LightClientHeader S
  finalityUpdateHeader : S.FinalityUpdate → LightClientHeader S
  treeHashRoot : S.SyncCommittee → B256
  blockTreeHashRoot : S.BeaconBlock → B256
  calcSyncPeriod : UInt64 → UInt64
  sha256HashHeliosStore : LightClientStore S → Except String B256

/-- no two stores have one hash -/
def Helios.HashInjective {S : ConsensusSpec} (H : Helios S) : Prop :=
  ∀ s s' h, H.sha256HashHeliosStore s = .ok h → H.sha256HashHeliosStore s' = .ok h → s = s'

/-! ## contract storage -/

def sourceContractLockedTokensStorageIndex : UInt8 := 1

structure StorageSlot where
  key : B256
  slotKeyAddress : Address
  expectedValue : U256
  mptProof : List Bytes
deriving DecidableEq

structure TrieAccount where
  nonce : UInt64
  balance : U256
  storageRoot : B256
  codeHash : B256
deriving DecidableEq

structure ContractStorage where
  address : Address
  expectedValue : TrieAccount
  mptProof : List Bytes
  storageSlots : List StorageSlot
deriving DecidableEq

/-- the 64 bytes that are hashed for the storage slot of `mapping(address => value)` -/
def storageLocationPreimage (address : Address) (mappingIndex : UInt8) : Bytes :=
  List.replicate 12 0 ++ address.bytes ++ List.replicate 31 0 ++ [mappingIndex]

def getStorageLocationForKey (keccak256 : Bytes → B256) (address : Address)
    (mappingIndex : UInt8) : B256 := keccak256 (storageLocationPreimage address mappingIndex)

theorem storageLocationPreimage_inj {a b : Address} {i j : UInt8}
    (h : storageLocationPreimage a i = storageLocationPreimage b j) : a = b ∧ i = j := by
  unfold storageLocationPreimage at h
  obtain ⟨h1, hij⟩ := List.append_inj' h rfl
  obtain ⟨h2, _⟩ := List.append_inj' h1 rfl
  exact ⟨FixedBytes.bytes_inj (List.append_cancel_left h2), (List.cons.inj hij).1⟩

/-! ## inputs and outputs of the programs -/

section
variable (S : ConsensusSpec)

structure ConsensusProofInputs where
  updates : List S.Update
  finalityUpdate : S.FinalityUpdate
  expectedCurrentSlot : UInt64
  store : LightClientStore S
  genesisRoot : B256
  forks : S.Forks
  storeHash : B256

structure ProofInputs where
  updates : List S.Update
  finalityUpdate : S.FinalityUpdate
  expectedCurrentSlot : UInt64
  store : LightClientStore S
  genesisRoot : B256
  forks : S.Forks
  storeHash : B256
  contractStorage : ContractStorage

structure ProofInputsWithWindow where
  inputSlot : UInt64
  expectedOutputSlot : UInt64
  inputBlockNumber : UInt64
  expectedOutputBlockNumber : UInt64
  proofInputs : ProofInputs S
  expectedOutputStoreHash : B256

structure DualProofInputsWithWindow where
  currentWindow : ProofInputsWithWindow S
  nextWindow : Option (ProofInputsWithWindow S)

end

/-- the inputs without `contract_storage` -/
def ProofInputs.consensus {S : ConsensusSpec} (p : ProofInputs S) : ConsensusProofInputs S where
  updates := p.updates
  finalityUpdate := p.finalityUpdate
  expectedCurrentSlot := p.expectedCurrentSlot
  store := p.store
  genesisRoot := p.genesisRoot
  forks := p.forks
  storeHash := p.storeHash

structure ConsensusProofOutputs where
  inputSlot : UInt64
  inputStoreHash : B256
  outputSlot : UInt64
  outputStoreHash : B256
  executionStateRoot : B256
  nextSyncCommitteeHash : B256
deriving DecidableEq

structure ProofOutputs where
  inputSlot : UInt64
  inputStoreHash : B256
  outputSlot : UInt64
  outputStoreHash : B256
  executionStateRoot : B256
  verifiedContractStorageSlotsRoot : B256
  nextSyncCommitteeHash : B256
deriving DecidableEq

end ZkSymbiotic
