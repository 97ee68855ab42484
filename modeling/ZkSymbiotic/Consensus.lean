import ZkSymbiotic.Mpt
import ZkSymbiotic.Lib.Machine

/-!
# The consensus programs

`consensusProgram` (which the host runs to predict a proof) and `consensusMptProgram` (which is
proved) are two programs over one light client.  What both do to the store is the machine
`lightClient`: an update is enabled at a store that `verify_update` accepts it against, and leads
to the store that `apply_update` makes of it.

* `Commits H p fin o`           `o` commits the way from the store of `p` to `fin`;
* `consensusProgram_eq_ok`      the host's program returns exactly the committed outputs;
* `consensusMptProgram_eq_ok`   the proved program: the same and a verified storage root;
* `programs_agree`              hence they succeed together, with the same outputs.
-/

namespace ZkSymbiotic

inductive ProgramError where
  | hashChainMismatch (expected actual : B256)
  | invalidUpdate (index : Nat) (reason : String)
  | invalidFinalityUpdate (reason : String)
  | missingExecutionRoot
  | storeHashingError (reason : String)
  | mptError (error : MptError)
deriving DecidableEq

section
variable {S : ConsensusSpec} (H : Helios S)

/-! ## the two programs -/

/-- the loop over the sync committee updates; `index` is the number of the next one -/
def applyUpdates (expectedCurrentSlot : UInt64) (genesisRoot : B256) (forks : S.Forks) :
    List S.Update → Nat → LightClientStore S → Except ProgramError (LightClientStore S)
  | [], _, store => .ok store
  | update :: updates, index, store => do
    (H.verifyUpdate update expectedCurrentSlot store genesisRoot forks).mapError
      fun err => .invalidUpdate index (H.debug err)
    applyUpdates expectedCurrentSlot genesisRoot forks updates (index + 1)
      (H.applyUpdate store update)

/-- the hash of the next sync committee, zero where the store has none -/
def nextSyncCommitteeHash (store : LightClientStore S) : B256 :=
  match store.nextSyncCommittee with
  | some nextSyncCommittee => H.treeHashRoot nextSyncCommittee
  | none => .zero

def consensusProgram (p : ConsensusProofInputs S) : Except ProgramError ConsensusProofOutputs := do
  let calculatedPrevStoreHash ← (H.sha256HashHeliosStore p.store).mapError
    fun e => .storeHashingError s!"Failed to hash store: {e}"
  Except.failIf (calculatedPrevStoreHash ≠ p.storeHash)
    (.hashChainMismatch p.storeHash calculatedPrevStoreHash)
  let inputSlot := p.store.slot
  let store ← applyUpdates H p.expectedCurrentSlot p.genesisRoot p.forks p.updates 0 p.store
  (H.verifyFinalityUpdate p.finalityUpdate p.expectedCurrentSlot store p.genesisRoot
    p.forks).mapError fun err => .invalidFinalityUpdate (H.debug err)
  let store := H.applyFinalityUpdate store p.finalityUpdate
  let outputSlot := store.slot
  let nextSyncCommitteeHash := nextSyncCommitteeHash H store
  let execution ← Except.okOr .missingExecutionRoot store.finalizedHeader.execution
  let executionStateRoot := execution.stateRoot
  let outputStoreHash ← (H.sha256HashHeliosStore store).mapError
    fun e => .storeHashingError s!"Failed to hash updated store: {e}"
  pure { inputSlot, inputStoreHash := p.storeHash, outputSlot, outputStoreHash,
         executionStateRoot, nextSyncCommitteeHash }

variable (verifyStorageSlotProofs : B256 → ContractStorage → Except MptError B256)

/-- the proved program; the storage verifier is `verify_storage_slot_proofs` -/
def consensusMptProgram (p : ProofInputs S) : Except ProgramError ProofOutputs := do
  let calculatedPrevStoreHash ← (H.sha256HashHeliosStore p.store).mapError
    fun e => .storeHashingError s!"Failed to hash store: {e}"
  Except.failIf (calculatedPrevStoreHash ≠ p.storeHash)
    (.hashChainMismatch p.storeHash calculatedPrevStoreHash)
  let inputSlot := p.store.slot
  let store ← applyUpdates H p.expectedCurrentSlot p.genesisRoot p.forks p.updates 0 p.store
  (H.verifyFinalityUpdate p.finalityUpdate p.expectedCurrentSlot store p.genesisRoot
    p.forks).mapError fun err => .invalidFinalityUpdate (H.debug err)
  let store := H.applyFinalityUpdate store p.finalityUpdate
  -- here the storage is verified before the output slot and the store hash are taken
  let execution ← Except.okOr .missingExecutionRoot store.finalizedHeader.execution
  let executionStateRoot := execution.stateRoot
  let verifiedContractStorageSlotsRoot ←
    (verifyStorageSlotProofs executionStateRoot p.contractStorage).mapError .mptError
  let outputSlot := store.slot
  let nextSyncCommitteeHash := nextSyncCommitteeHash H store
  let outputStoreHash ← (H.sha256HashHeliosStore store).mapError
    fun e => .storeHashingError s!"Failed to hash updated store: {e}"
  pure { inputSlot, inputStoreHash := p.storeHash, outputSlot, outputStoreHash,
         executionStateRoot, verifiedContractStorageSlotsRoot, nextSyncCommitteeHash }

/-! ## the light client -/

variable (S) in
/-- what a run of a program verifies its messages against, besides the store -/
structure Verification where
  expectedCurrentSlot : UInt64
  genesisRoot : B256
  forks : S.Forks

variable (S) in
inductive Message where
  | update (update : S.Update)
  | finality (finalityUpdate : S.FinalityUpdate)

/-- a message is enabled at a store it is verified against, and is applied to that store -/
def lightClient : Machine (LightClientStore S) (Verification S × Message S)
  | store, (v, .update update) =>
    match H.verifyUpdate update v.expectedCurrentSlot store v.genesisRoot v.forks with
    | .ok _ => some (H.applyUpdate store update)
    | .error _ => none
  | store, (v, .finality finalityUpdate) =>
    match H.verifyFinalityUpdate finalityUpdate v.expectedCurrentSlot store v.genesisRoot
      v.forks with
    | .ok _ => some (H.applyFinalityUpdate store finalityUpdate)
    | .error _ => none

def ConsensusProofInputs.verification (p : ConsensusProofInputs S) : Verification S where
  expectedCurrentSlot := p.expectedCurrentSlot
  genesisRoot := p.genesisRoot
  forks := p.forks

/-- the messages of a run: the updates in order, then the finality update -/
def ConsensusProofInputs.messages (p : ConsensusProofInputs S) :
    List (Verification S × Message S) :=
  p.updates.map (fun update => (p.verification, .update update))
    ++ [(p.verification, .finality p.finalityUpdate)]

theorem lightClient_update {store store' : LightClientStore S} {v : Verification S}
    {update : S.Update} :
    lightClient H store (v, .update update) = some store' ↔
      H.verifyUpdate update v.expectedCurrentSlot store v.genesisRoot v.forks = .ok () ∧
        H.applyUpdate store update = store' := by
  cases h : H.verifyUpdate update v.expectedCurrentSlot store v.genesisRoot v.forks with
  | ok u => simp [lightClient, h]
  | error e => simp [lightClient, h]

theorem lightClient_finality {store store' : LightClientStore S} {v : Verification S}
    {finalityUpdate : S.FinalityUpdate} :
    lightClient H store (v, .finality finalityUpdate) = some store' ↔
      H.verifyFinalityUpdate finalityUpdate v.expectedCurrentSlot store v.genesisRoot v.forks
          = .ok () ∧
        H.applyFinalityUpdate store finalityUpdate = store' := by
  cases h : H.verifyFinalityUpdate finalityUpdate v.expectedCurrentSlot store v.genesisRoot
    v.forks with
  | ok u => simp [lightClient, h]
  | error e => simp [lightClient, h]

/-- the loop over the updates is a run of the light client -/
theorem applyUpdates_eq_ok (v : Verification S) {updates : List S.Update} :
    ∀ {index : Nat} {store store' : LightClientStore S},
      applyUpdates H v.expectedCurrentSlot v.genesisRoot v.forks updates index store = .ok store' ↔
        (lightClient H).run store (updates.map fun update => (v, .update update))
          = some store' := by
  induction updates with
  | nil => intro index store store'; simp [applyUpdates, Machine.run_nil]
  | cons update updates ih =>
    intro index store store'
    rw [applyUpdates, Except.bind_eq_ok, List.map_cons, Machine.run_cons,
      Option.bind_eq_some_iff]
    simp only [Except.mapError_eq_ok, lightClient_update, ih]
    constructor
    · rintro ⟨⟨⟩, hv, hr⟩
      exact ⟨_, ⟨hv, rfl⟩, hr⟩
    · rintro ⟨_, ⟨hv, rfl⟩, hr⟩
      exact ⟨⟨⟩, hv, hr⟩

/-- the run over all messages: the updates, then the finality update on the store they leave -/
theorem run_messages {p : ConsensusProofInputs S} {fin : LightClientStore S} :
    (lightClient H).run p.store p.messages = some fin ↔
      ∃ store, applyUpdates H p.expectedCurrentSlot p.genesisRoot p.forks p.updates 0 p.store
          = .ok store ∧
        H.verifyFinalityUpdate p.finalityUpdate p.expectedCurrentSlot store p.genesisRoot p.forks
          = .ok () ∧
        H.applyFinalityUpdate store p.finalityUpdate = fin := by
  unfold ConsensusProofInputs.messages
  rw [Machine.run_append, Option.bind_eq_some_iff]
  constructor
  · rintro ⟨store, hstore, hfin⟩
    obtain ⟨fin', h1, h2⟩ := Machine.run_cons_some _ hfin
    rw [Machine.run_nil, Option.some.injEq] at h2
    obtain ⟨hv, ha⟩ := (lightClient_finality H).mp h1
    exact ⟨store, (applyUpdates_eq_ok H p.verification).mpr hstore, hv, ha.trans h2⟩
  · rintro ⟨store, hstore, hv, rfl⟩
    refine ⟨store, (applyUpdates_eq_ok H p.verification).mp hstore, ?_⟩
    rw [Machine.run_cons, (lightClient_finality H (v := p.verification)).mpr ⟨hv, rfl⟩]
    rfl

/-! ## what the programs commit -/

/-- `o` commits a run from the hashed store of `p` to the store `fin`; all output fields are read
from `fin` -/
structure Commits (p : ConsensusProofInputs S) (fin : LightClientStore S)
    (o : ConsensusProofOutputs) : Prop where
  storeHash : H.sha256HashHeliosStore p.store = .ok p.storeHash
  path : (lightClient H).run p.store p.messages = some fin
  inputSlot : o.inputSlot = p.store.slot
  inputStoreHash : o.inputStoreHash = p.storeHash
  outputSlot : o.outputSlot = fin.slot
  outputStoreHash : H.sha256HashHeliosStore fin = .ok o.outputStoreHash
  executionStateRoot : fin.finalizedHeader.execution.map (·.stateRoot) = some o.executionStateRoot
  nextSyncCommitteeHash : o.nextSyncCommitteeHash = nextSyncCommitteeHash H fin

theorem consensusProgram_eq_ok {p : ConsensusProofInputs S} {o : ConsensusProofOutputs} :
    consensusProgram H p = .ok o ↔ ∃ fin, Commits H p fin o := by
  simp only [consensusProgram, Except.bind_eq_ok, Except.failIf_eq_ok, Except.mapError_eq_ok,
    Except.pure_eq_ok, Except.okOr_eq_ok, exists_const, not_not]
  constructor
  · rintro ⟨_, hhash, rfl, store, hstore, ⟨⟩, hv, execution, hex, out, hout, rfl⟩
    exact ⟨_, hhash, (run_messages H).mpr ⟨store, hstore, hv, rfl⟩, rfl, rfl, rfl, hout,
      congrArg (Option.map (·.stateRoot)) hex, rfl⟩
  · rintro ⟨fin, h⟩
    obtain ⟨store, hstore, hv, rfl⟩ := (run_messages H).mp h.path
    obtain ⟨execution, hex, hroot⟩ := Option.map_eq_some_iff.mp h.executionStateRoot
    refine ⟨_, h.storeHash, rfl, store, hstore, ⟨⟩, hv, execution, hex, _, h.outputStoreHash, ?_⟩
    obtain ⟨i, ih, os, oh, root, n⟩ := o
    obtain rfl := h.inputSlot
    obtain rfl := h.inputStoreHash
    obtain rfl := h.outputSlot
    obtain rfl := h.nextSyncCommitteeHash
    obtain rfl := hroot
    rfl

/-- the outputs without the storage root -/
def ProofOutputs.consensus (o : ProofOutputs) : ConsensusProofOutputs where
  inputSlot := o.inputSlot
  inputStoreHash := o.inputStoreHash
  outputSlot := o.outputSlot
  outputStoreHash := o.outputStoreHash
  executionStateRoot := o.executionStateRoot
  nextSyncCommitteeHash := o.nextSyncCommitteeHash

theorem consensusMptProgram_eq_ok {p : ProofInputs S} {o : ProofOutputs} :
    consensusMptProgram H verifyStorageSlotProofs p = .ok o ↔
      (∃ fin, Commits H p.consensus fin o.consensus) ∧
        verifyStorageSlotProofs o.executionStateRoot p.contractStorage
          = .ok o.verifiedContractStorageSlotsRoot := by
  simp only [consensusMptProgram, Except.bind_eq_ok, Except.failIf_eq_ok, Except.mapError_eq_ok,
    Except.pure_eq_ok, Except.okOr_eq_ok, exists_const, not_not]
  constructor
  · rintro ⟨_, hhash, rfl, store, hstore, ⟨⟩, hv, execution, hex, root, hroot, out, hout, rfl⟩
    exact ⟨⟨_, hhash, (run_messages H).mpr ⟨store, hstore, hv, rfl⟩, rfl, rfl, rfl, hout,
      congrArg (Option.map (·.stateRoot)) hex, rfl⟩, hroot⟩
  · rintro ⟨⟨fin, h⟩, hverify⟩
    obtain ⟨store, hstore, hv, rfl⟩ := (run_messages H).mp h.path
    obtain ⟨execution, hex, hroot⟩ := Option.map_eq_some_iff.mp h.executionStateRoot
    obtain ⟨i, ih, os, oh, root, slots, n⟩ := o
    obtain rfl : execution.stateRoot = root := hroot
    refine ⟨_, h.storeHash, rfl, store, hstore, ⟨⟩, hv, execution, hex, slots, hverify, _,
      h.outputStoreHash, ?_⟩
    obtain rfl : i = _ := h.inputSlot
    obtain rfl : ih = _ := h.inputStoreHash
    obtain rfl : os = _ := h.outputSlot
    obtain rfl : n = _ := h.nextSyncCommitteeHash
    rfl

/-- a program commits one store and one set of outputs -/
theorem Commits.unique {p : ConsensusProofInputs S} {fin fin' : LightClientStore S}
    {o o' : ConsensusProofOutputs} (h : Commits H p fin o) (h' : Commits H p fin' o') :
    fin = fin' ∧ o = o' := by
  obtain rfl : fin = fin' := Option.some.inj (h.path.symm.trans h'.path)
  have e := Except.ok.inj (((consensusProgram_eq_ok H).mpr ⟨fin, h⟩).symm.trans
    ((consensusProgram_eq_ok H).mpr ⟨fin, h'⟩))
  exact ⟨rfl, e⟩

/-! ## agreement -/

/-- **The two programs agree**: the proved program succeeds exactly when the host's program does
and the storage verifies under the state root it outputs; and then they commit the same values. -/
theorem programs_agree (p : ProofInputs S) :
    ((∃ o, consensusMptProgram H verifyStorageSlotProofs p = .ok o) ↔
      ∃ c r, consensusProgram H p.consensus = .ok c ∧
        verifyStorageSlotProofs c.executionStateRoot p.contractStorage = .ok r) ∧
    ∀ o c, consensusMptProgram H verifyStorageSlotProofs p = .ok o →
      consensusProgram H p.consensus = .ok c →
        o.inputSlot = c.inputSlot ∧ o.inputStoreHash = c.inputStoreHash ∧
        o.outputSlot = c.outputSlot ∧ o.outputStoreHash = c.outputStoreHash ∧
        o.executionStateRoot = c.executionStateRoot ∧
        o.nextSyncCommitteeHash = c.nextSyncCommitteeHash ∧
        verifyStorageSlotProofs c.executionStateRoot p.contractStorage
          = .ok o.verifiedContractStorageSlotsRoot := by
  refine ⟨⟨?_, ?_⟩, ?_⟩
  · intro ⟨o, ho⟩
    obtain ⟨hc, hv⟩ := (consensusMptProgram_eq_ok H verifyStorageSlotProofs).mp ho
    exact ⟨o.consensus, _, (consensusProgram_eq_ok H).mpr hc, hv⟩
  · intro ⟨c, r, hc, hr⟩
    obtain ⟨fin, h⟩ := (consensusProgram_eq_ok H).mp hc
    exact ⟨⟨c.inputSlot, c.inputStoreHash, c.outputSlot, c.outputStoreHash, c.executionStateRoot,
      r, c.nextSyncCommitteeHash⟩,
      (consensusMptProgram_eq_ok H verifyStorageSlotProofs).mpr ⟨⟨fin, h⟩, hr⟩⟩
  · intro o c ho hc
    obtain ⟨⟨fin, h⟩, hv⟩ := (consensusMptProgram_eq_ok H verifyStorageSlotProofs).mp ho
    obtain ⟨fin', h'⟩ := (consensusProgram_eq_ok H).mp hc
    obtain ⟨_, rfl⟩ := h.unique H h'
    exact ⟨rfl, rfl, rfl, rfl, rfl, rfl, hv⟩

end

end ZkSymbiotic
