import ZkSymbiotic.Rpcs.Execution

/-!
# The consensus providers

A client is bootstrapped from the block of the input slot, brought in sync with the first sync
committee update, and its store goes into the proof inputs.  `consensusProgram` predicts what a
proof of these inputs would output; a prediction that passes the checks becomes a window.

* `prepareConsensusProofInputs`          the inputs of one provider;
* `validate_eq_ok`                       the predictions that pass;
* `prepareConsensusMptProofInputs_ok`    a window: predicted by the host's program, completed by an
                                         execution provider.
-/

namespace ZkSymbiotic

def maxRequestLightClientUpdates : UInt8 := 128

section
variable (S : ConsensusSpec)

/-- the chain settings of a client -/
structure ChainConfig where
  genesisRoot : B256
  forks : S.Forks

/-- the variable `SOURCE_CHAIN_ID`, `parse` and `Network::from_chain_id` -/
structure ChainEnv where
  sourceChainId : Except String String
  parseChainId : String → Except String UInt64
  fromChainId : UInt64 → Except String (ChainConfig S)

/-- what one consensus provider answers in the course of one request: the RPC calls, the store that
`bootstrap` makes of a checkpoint, the slot of the clock, and whether it is done in time -/
structure ConsensusRpc where
  getBlock : UInt64 → Except String S.BeaconBlock
  bootstrap : B256 → Except String (LightClientStore S)
  getFinalityUpdate : Except String S.FinalityUpdate
  getUpdates : UInt64 → UInt8 → Except String (List S.Update)
  expectedCurrentSlot : UInt64
  timely : Bool

/-- `ConsensusHttpProxy` and the environment of one request through it; `execution` is `none` where
`ExecutionHttpProxy::from_env` fails -/
structure ConsensusHttpProxy where
  env : ChainEnv S
  allProviders : List (ConsensusRpc S)
  schedule : Shuffle allProviders
  validationTimeout : Nat
  execution : Option ExecutionHttpProxy

end

section
variable {S : ConsensusSpec} (H : Helios S)

/-! ## the client -/

def ChainEnv.client (env : ChainEnv S) : Except Error (ChainConfig S) := do
  let chainId ← env.sourceChainId.mapError
    fun e => .msg s!"SOURCE_CHAIN_ID not set or invalid: {e}"
  let chainId ← (env.parseChainId chainId).mapError
    fun e => .msg s!"Invalid chain ID format: {e}"
  (env.fromChainId chainId).mapError
    fun e => .msg s!"Failed to convert chain ID to network: {e}"

def bootstrapFromCheckpoint (env : ChainEnv S) (rpc : ConsensusRpc S) (checkpoint : B256) :
    Except Error (ChainConfig S × LightClientStore S) := do
  let config ← env.client
  let store ← (rpc.bootstrap checkpoint).mapError
    fun e => .msg s!"Failed to bootstrap client with checkpoint: {e}"
  pure (config, store)

def bootstrapFromSlot (env : ChainEnv S) (rpc : ConsensusRpc S) (slot : UInt64) :
    Except Error (ChainConfig S × LightClientStore S) := do
  let _ ← env.client
  let block ← (rpc.getBlock slot).mapError
    fun e => .msg s!"Failed to fetch block for slot {slot}: {e}"
  bootstrapFromCheckpoint env rpc (H.blockTreeHashRoot block)

/-- the sync committee data of the first update in a store that does not advance -/
def getStoreWithNextSyncCommittee (expectedCurrentSlot : UInt64) (store : LightClientStore S)
    (genesisRoot : B256) (forks : S.Forks) (firstUpdate : S.Update) :
    Except Error (LightClientStore S) := do
  (H.verifyUpdate firstUpdate expectedCurrentSlot store genesisRoot forks).mapError
    fun e => .msg s!"Verify update failed: {H.display e}"
  let updated := H.applyUpdate store firstUpdate
  pure
    { store with
      nextSyncCommittee := updated.nextSyncCommittee
      previousMaxActiveParticipants := updated.previousMaxActiveParticipants
      currentMaxActiveParticipants := updated.currentMaxActiveParticipants }

def prepareConsensusProofInputs (env : ChainEnv S) (rpc : ConsensusRpc S) (inputSlot : UInt64)
    (storeHash : B256) : Except Error (ConsensusProofInputs S) := do
  let (config, store) ← bootstrapFromSlot H env rpc inputSlot
  let finalityUpdate ← rpc.getFinalityUpdate.mapError
    fun e => .msg s!"Failed to fetch finality update via RPC: {e}"
  let updates ← (rpc.getUpdates (H.calcSyncPeriod store.slot)
    maxRequestLightClientUpdates).mapError .msg
  match updates with
  | [] => .error (.msg "Error updates were missing 0th update.")
  | firstUpdate :: laterUpdates =>
    if (H.updateHeader firstUpdate).beacon.slot < inputSlot then do
      -- the first update is behind the input slot: it is taken off the list and applied
      (H.verifyUpdate firstUpdate rpc.expectedCurrentSlot store config.genesisRoot
        config.forks).mapError fun e => .msg s!"Verify update failed: {H.display e}"
      pure
        { updates := laterUpdates, finalityUpdate, expectedCurrentSlot := rpc.expectedCurrentSlot,
          store := H.applyUpdate store firstUpdate, genesisRoot := config.genesisRoot,
          forks := config.forks, storeHash }
    else do
      let store ← getStoreWithNextSyncCommittee H rpc.expectedCurrentSlot store config.genesisRoot
        config.forks firstUpdate
      pure
        { updates, finalityUpdate, expectedCurrentSlot := rpc.expectedCurrentSlot, store,
          genesisRoot := config.genesisRoot, forks := config.forks, storeHash }

/-- the inputs carry the hash they were asked for, and the finality update of the provider -/
theorem prepareConsensusProofInputs_carries {env : ChainEnv S} {rpc : ConsensusRpc S}
    {inputSlot : UInt64} {storeHash : B256} {p : ConsensusProofInputs S}
    (h : prepareConsensusProofInputs H env rpc inputSlot storeHash = .ok p) :
    p.storeHash = storeHash ∧ rpc.getFinalityUpdate = .ok p.finalityUpdate := by
  obtain ⟨⟨config, store⟩, _, h⟩ := Except.bind_eq_ok.mp h
  obtain ⟨finalityUpdate, hfinality, h⟩ := Except.bind_eq_ok.mp h
  have hfinality := Except.mapError_eq_ok.mp hfinality
  obtain ⟨updates, _, h⟩ := Except.bind_eq_ok.mp h
  cases updates with
  | nil => cases h
  | cons firstUpdate laterUpdates =>
    by_cases hslot : (H.updateHeader firstUpdate).beacon.slot < inputSlot
    · simp only [if_pos hslot] at h
      obtain ⟨_, _, h⟩ := Except.bind_eq_ok.mp h
      rw [← Except.pure_eq_ok.mp h]
      exact ⟨rfl, hfinality⟩
    · simp only [if_neg hslot] at h
      obtain ⟨_, _, h⟩ := Except.bind_eq_ok.mp h
      rw [← Except.pure_eq_ok.mp h]
      exact ⟨rfl, hfinality⟩

/-! ## the prediction -/

/-- the run of the host's program and the checks on what it outputs -/
def validateConsensusProofInputs (inputSlot : UInt64) (validate : Bool)
    (p : ConsensusProofInputs S) : Except Error ConsensusProofOutputs := do
  let proofOutputs ← (consensusProgram H p).mapError .program
  let outputSlot := proofOutputs.outputSlot
  Except.failIf (validate = true ∧ outputSlot ≤ inputSlot)
    (.msg s!"Output slot {outputSlot} was not greater than input slot {inputSlot}")
  Except.failIf (validate = true ∧ outputSlot % 32 > 0)
    (.msg (s!"Output slot {outputSlot} was a non-checkpoint slot. " ++
      "Preventing this as it prevents bootstrapping if we go offline."))
  Except.failIf (validate = true ∧ proofOutputs.nextSyncCommitteeHash = .zero)
    (.msg ("Next sync committee was zero. Preventing this as it could stop the recovery of the " ++
      "input_store_hash when restarting."))
  pure proofOutputs

theorem validate_eq_ok {inputSlot : UInt64} {validate : Bool} {p : ConsensusProofInputs S}
    {o : ConsensusProofOutputs} :
    validateConsensusProofInputs H inputSlot validate p = .ok o ↔
      consensusProgram H p = .ok o ∧ (validate = true →
        inputSlot < o.outputSlot ∧ o.outputSlot % 32 = 0 ∧ o.nextSyncCommitteeHash ≠ .zero) := by
  have hmod : ∀ s : UInt64, ¬ s % 32 > 0 ↔ s % 32 = 0 := by
    intro s
    rw [gt_iff_lt, UInt64.lt_iff_toNat_lt, ← UInt64.toNat_inj]
    show ¬ 0 < _ ↔ _ = 0
    omega
  simp only [validateConsensusProofInputs, Except.bind_eq_ok, Except.mapError_eq_ok,
    Except.failIf_eq_ok, Except.pure_eq_ok, exists_const, not_and, UInt64.not_le, hmod]
  refine ⟨fun h => ?_, fun h => ?_⟩
  · obtain ⟨o', ho, h1, h2, h3, rfl⟩ := h
    exact ⟨ho, fun hv => ⟨h1 hv, h2 hv, h3 hv⟩⟩
  · obtain ⟨ho, h⟩ := h
    exact ⟨o, ho, fun hv => (h hv).1, fun hv => (h hv).2.1, fun hv => (h hv).2.2, rfl⟩

/-- what is asked of each consensus provider: inputs, and the outputs they predict -/
def ConsensusRpc.prepare (env : ChainEnv S) (inputSlot : UInt64) (storeHash : B256)
    (validate : Bool) (rpc : ConsensusRpc S) :
    Except Failure (ConsensusProofInputs S × ConsensusProofOutputs) :=
  if rpc.timely then
    (do let consensusProofInputs ← prepareConsensusProofInputs H env rpc inputSlot storeHash
        let proofOutputs ← validateConsensusProofInputs H inputSlot validate consensusProofInputs
        pure (consensusProofInputs, proofOutputs) : Except Error _).mapError .error
  else .error .pending

/-- a provider's answer: in time, with inputs whose prediction passes -/
theorem ConsensusRpc.prepare_eq_ok {env : ChainEnv S} {inputSlot : UInt64} {storeHash : B256}
    {validate : Bool} {rpc : ConsensusRpc S} {p : ConsensusProofInputs S}
    {c : ConsensusProofOutputs} :
    rpc.prepare H env inputSlot storeHash validate = .ok (p, c) ↔ rpc.timely = true ∧
      prepareConsensusProofInputs H env rpc inputSlot storeHash = .ok p ∧
      validateConsensusProofInputs H inputSlot validate p = .ok c := by
  unfold ConsensusRpc.prepare
  by_cases ht : rpc.timely = true
  · rw [if_pos ht]
    simp only [Except.mapError_eq_ok, Except.bind_eq_ok, Except.pure_eq_ok, Prod.mk.injEq]
    constructor
    · rintro ⟨_, hp, _, hc, rfl, rfl⟩
      exact ⟨ht, hp, hc⟩
    · intro ⟨_, hp, hc⟩
      exact ⟨p, hp, c, hc, rfl, rfl⟩
  · rw [if_neg ht]
    refine ⟨fun h => ?_, fun h => absurd h.1 ht⟩
    cases h

/-! ## the window -/

variable (C : Crypto)

def prepareConsensusMptProofInputs (self : ConsensusHttpProxy S) (inputSlot : UInt64)
    (storeHash : B256) (validate : Bool) : Except Failure (ProofInputsWithWindow S) := do
  let (validatedConsensusProofInputs, proofOutputs) ← multiplex
    (ConsensusRpc.prepare H self.env inputSlot storeHash validate)
    self.allProviders self.schedule self.validationTimeout
  let inputExecution ← Except.okOr
    (.error (.msg "Failed to get input finalized execution header"))
    validatedConsensusProofInputs.store.finalizedHeader.execution
  let outputExecution ← Except.okOr
    (.error (.msg "Failed to get output finalized execution header"))
    (H.finalityUpdateHeader validatedConsensusProofInputs.finalityUpdate).execution
  -- `try_from_env` unwraps
  let executionProxy ← Except.okOr .panic self.execution
  executionProxy.prepare H C inputSlot proofOutputs.outputSlot inputExecution.blockNumber
    outputExecution.blockNumber validatedConsensusProofInputs proofOutputs.outputStoreHash

/-- the block number of a header -/
def LightClientHeader.blockNumber (header : LightClientHeader S) : Option UInt64 :=
  header.execution.map (·.blockNumber)

/-- **a prepared window**: its inputs are the ones of a consensus provider, completed with storage
on which the proved program succeeds; the expected values are the outputs of the host's program on
these very inputs; the block numbers are those of the store and of the finality update -/
theorem prepareConsensusMptProofInputs_ok {self : ConsensusHttpProxy S} {inputSlot : UInt64}
    {storeHash : B256} {validate : Bool} {w : ProofInputsWithWindow S}
    (h : prepareConsensusMptProofInputs H C self inputSlot storeHash validate = .ok w) :
    ∃ p c storage o, p.storeHash = storeHash ∧
      validateConsensusProofInputs H inputSlot validate p = .ok c ∧
      w.proofInputs = p.withStorage storage ∧
      consensusMptProgram H (verifyStorageSlotProofs C) w.proofInputs = .ok o ∧
      w.inputSlot = inputSlot ∧ w.expectedOutputSlot = c.outputSlot ∧
      w.expectedOutputStoreHash = c.outputStoreHash ∧
      w.proofInputs.store.finalizedHeader.blockNumber = some w.inputBlockNumber ∧
      (H.finalityUpdateHeader w.proofInputs.finalityUpdate).blockNumber
        = some w.expectedOutputBlockNumber := by
  obtain ⟨⟨p, c⟩, hmul, h⟩ := Except.bind_eq_ok.mp h
  obtain ⟨inputExecution, hinput, h⟩ := Except.bind_eq_ok.mp h
  obtain ⟨outputExecution, houtput, h⟩ := Except.bind_eq_ok.mp h
  obtain ⟨proxy, _, h⟩ := Except.bind_eq_ok.mp h
  obtain ⟨rpc, _, hrpc⟩ := multiplex_ok _ hmul
  obtain ⟨_, hp, hc⟩ := (ConsensusRpc.prepare_eq_ok H).mp hrpc
  obtain ⟨provider, _, out, hout, rfl⟩ := ExecutionHttpProxy.prepare_ok H C h
  obtain ⟨storage, _, ⟨o, ho⟩, rfl⟩ := (ExecutionRpc.prepare_ok H C).mp hout
  have hin := congrArg (Option.map (·.blockNumber)) (Except.okOr_eq_ok.mp hinput)
  have hout := congrArg (Option.map (·.blockNumber)) (Except.okOr_eq_ok.mp houtput)
  exact ⟨p, c, storage, o, (prepareConsensusProofInputs_carries H hp).1, hc, rfl, ho, rfl, rfl, rfl,
    hin, hout⟩

/-- a window, an error or a panic: nothing is waited for without a timeout -/
theorem prepareConsensusMptProofInputs_ne_pending {self : ConsensusHttpProxy S} {inputSlot : UInt64}
    {storeHash : B256} {validate : Bool} :
    prepareConsensusMptProofInputs H C self inputSlot storeHash validate ≠ .error .pending := by
  intro h
  rcases Except.bind_eq_error.mp h with h | ⟨_, _, h⟩
  · exact multiplex_ne_pending _ h
  rcases Except.bind_eq_error.mp h with h | ⟨_, _, h⟩
  · cases (Except.okOr_eq_error.mp h).2
  rcases Except.bind_eq_error.mp h with h | ⟨_, _, h⟩
  · cases (Except.okOr_eq_error.mp h).2
  rcases Except.bind_eq_error.mp h with h | ⟨_, _, h⟩
  · cases (Except.okOr_eq_error.mp h).2
  exact ExecutionHttpProxy.prepare_ne_pending H C h

end

end ZkSymbiotic
