import ZkSymbiotic.Devnet
import ZkSymbiotic.Rpcs.Consensus

/-!
# Providers of the small light client

All providers of the small light client know the same finalized slot, and nobody has deposited.

* `Devnet.prepare_ok`   they prepare the window from any synced slot to the finalized one.
-/

namespace ZkSymbiotic.Devnet

/-! ## the consensus side -/

def chainEnv : ChainEnv spec where
  sourceChainId := .ok "1"
  parseChainId := fun _ => .ok 1
  fromChainId := fun _ => .ok { genesisRoot := .zero, forks := () }

/-- a provider that has finalized the slot `head` -/
def consensusRpc (head : UInt64) : ConsensusRpc spec where
  getBlock := fun slot => .ok slot
  bootstrap := fun checkpoint => .ok (bootstrapped (UInt64.ofNat (ofBe checkpoint.bytes)))
  getFinalityUpdate := .ok head
  getUpdates := fun _ _ => .ok [0]
  expectedCurrentSlot := head
  timely := true

theorem slot_digest (slot : UInt64) : UInt64.ofNat (ofBe (digest slot).bytes) = slot := by
  have hlt : slot.toNat < 256^32 := lt_trans slot.toNat_lt (by decide)
  show UInt64.ofNat (ofBe (beBytes 32 slot.toNat)) = slot
  rw [ofBe_beBytes, Nat.mod_eq_of_lt hlt]
  exact UInt64.ofNat_toNat

theorem install_bootstrapped (slot : UInt64) : install (bootstrapped slot) 0 = store slot := by
  unfold install
  have h : ¬ (bootstrapped slot).slot < 0 := UInt64.not_lt.mpr (UInt64.zero_le)
  rw [if_neg h]
  rfl

def consensusInputs (a b : UInt64) : ConsensusProofInputs spec :=
  (inputs a b emptyStorage).consensus

theorem prepareConsensusProofInputs_ok {a : UInt64} (h : 0 < a) (b : UInt64) :
    prepareConsensusProofInputs helios chainEnv (consensusRpc b) a (digest a)
      = .ok (consensusInputs a b) := by
  have hboot : bootstrapFromSlot helios chainEnv (consensusRpc b) a
      = .ok ({ genesisRoot := .zero, forks := () }, bootstrapped a) := by
    show Except.ok (_, bootstrapped (UInt64.ofNat (ofBe (digest a).bytes))) = _
    rw [slot_digest]
  unfold prepareConsensusProofInputs
  rw [hboot]
  show (if (helios.updateHeader (0 : UInt64)).beacon.slot < a then _ else _) = _
  have hslot : (helios.updateHeader (0 : UInt64)).beacon.slot < a := h
  rw [if_pos hslot]
  show Except.ok (ConsensusProofInputs.mk (S := spec) [] b b (install (bootstrapped a) 0) .zero ()
    (digest a)) = _
  rw [install_bootstrapped]
  rfl

/-- what the host's program predicts -/
def predicted (a b : UInt64) : ConsensusProofOutputs := (outputs a b .zero).consensus

theorem validate_ok {a b : UInt64} (h : a < b) (h32 : b % 32 = 0) :
    validateConsensusProofInputs helios a true (consensusInputs a b) = .ok (predicted a b) := by
  rw [validate_eq_ok]
  refine ⟨(consensusProgram_eq_ok helios).mpr
    ⟨store b, commits (UInt64.le_of_lt h) emptyStorage .zero⟩, fun _ => ⟨h, h32, ?_⟩⟩
  show FixedBytes.ofNat 32 1 ≠ FixedBytes.zero
  decide

/-- whatever is predicted from the answers of a provider ends at its finalized slot -/
theorem consensusRpc_outputSlot {head start : UInt64} {storeHash : B256} {validate : Bool}
    {prediction : ConsensusProofInputs spec × ConsensusProofOutputs}
    (h : (consensusRpc head).prepare helios chainEnv start storeHash validate = .ok prediction) :
    prediction.2.outputSlot = head := by
  obtain ⟨p, c⟩ := prediction
  obtain ⟨_, hp, hc⟩ := (ConsensusRpc.prepare_eq_ok helios).mp h
  have hfinality : p.finalityUpdate = head :=
    (Except.ok.inj (prepareConsensusProofInputs_carries helios hp).2).symm
  obtain ⟨fin, hcommits⟩ :=
    (consensusProgram_eq_ok helios).mp ((validate_eq_ok helios).mp hc).1
  obtain ⟨store, _, hverify, rfl⟩ := (run_messages helios).mp hcommits.path
  rw [hfinality] at hverify hcommits
  rw [hcommits.outputSlot]
  have hle : store.slot ≤ head := by
    by_contra hgt
    have herr : helios.verifyFinalityUpdate head p.expectedCurrentSlot store p.genesisRoot p.forks
        = .error () := if_neg hgt
    exact nomatch herr.symm.trans hverify
  show (install store head).slot = head
  unfold install LightClientStore.slot
  by_cases hlt : store.finalizedHeader.beacon.slot < head
  · rw [if_pos hlt]
    rfl
  · rw [if_neg hlt]
    exact UInt64.le_antisymm hle (UInt64.not_lt.mp hlt)

/-! ## the execution side -/

def accountProof (address : Address) : EIP1186AccountProofResponse where
  address := address
  balance := 0
  codeHash := .zero
  nonce := 0
  storageHash := .zero
  accountProof := []
  storageProof := []

def executionRpc : ExecutionRpc where
  getLogs := fun _ _ => .ok []
  getProof := fun address _ _ => .ok (accountProof address)
  turns := 2
  keyOrder := Shuffle.id

def executionProxy : ExecutionHttpProxy where
  principalProvider := executionRpc
  backupProviders := []
  schedule := Shuffle.id []
  address := .zero
  validationTimeout := 300

/-- a range of one chunk is scanned in two turns -/
theorem getSourceContractEvents_ok {a b : UInt64} (h : a ≤ b) (hchunk : min (a + chunkSize) b = b)
    (hend : b < b + 1) :
    getSourceContractEvents crypto executionRpc .zero a b = .ok [] := by
  show getSourceContractEventsLoop crypto executionRpc .zero b 2 a = _
  rw [getSourceContractEventsLoop, if_pos h]
  simp only [hchunk]
  rw [getSourceContractEventsLoop, if_neg (UInt64.not_le.mpr hend)]
  rfl

theorem contractStorage_ok {a b : UInt64} (h : a ≤ b) (hchunk : min (a + chunkSize) b = b)
    (hend : b < b + 1) :
    executionRpc.contractStorage crypto .zero a b = .ok emptyStorage := by
  unfold ExecutionRpc.contractStorage
  rw [getSourceContractEvents_ok h hchunk hend]
  show Except.ok { emptyStorage with storageSlots := sortSlots [] } = _
  rw [sortSlots, List.mergeSort_nil]
  rfl

/-! ## windows -/

def proxy (head : UInt64) : ConsensusHttpProxy spec where
  env := chainEnv
  allProviders := [consensusRpc head]
  schedule := Shuffle.id _
  validationTimeout := 300
  execution := some executionProxy

def window (a b : UInt64) : ProofInputsWithWindow spec where
  inputSlot := a
  expectedOutputSlot := b
  inputBlockNumber := a
  expectedOutputBlockNumber := b
  proofInputs := inputs a b emptyStorage
  expectedOutputStoreHash := digest b

/-- a window that can be prepared: a checkpoint ahead, in reach of one chunk -/
def IsWindow (a b : UInt64) : Prop :=
  0 < a ∧ a < b ∧ b % 32 = 0 ∧ min (a + chunkSize) b = b ∧ b < b + 1

instance (a b : UInt64) : Decidable (IsWindow a b) := by
  unfold IsWindow
  infer_instance

theorem prepare_ok {a b : UInt64} (h : IsWindow a b) :
    prepareConsensusMptProofInputs helios crypto (proxy b) a (digest a) true
      = .ok (window a b) := by
  obtain ⟨h0, hab, h32, hchunk, hend⟩ := h
  have hle := UInt64.le_of_lt hab
  have hrpc : ConsensusRpc.prepare helios chainEnv a (digest a) true (consensusRpc b)
      = .ok (consensusInputs a b, predicted a b) :=
    (ConsensusRpc.prepare_eq_ok helios).mpr
      ⟨rfl, prepareConsensusProofInputs_ok h0 b, validate_ok hab h32⟩
  have hmul : multiplex (ConsensusRpc.prepare helios (proxy b).env a (digest a) true)
      (proxy b).allProviders (proxy b).schedule (proxy b).validationTimeout
      = .ok (consensusInputs a b, predicted a b) := multiplex_single _ hrpc 300
  have hexec : executionRpc.prepare helios crypto .zero a b (consensusInputs a b)
      = .ok (inputs a b emptyStorage) :=
    (ExecutionRpc.prepare_ok helios crypto).mpr
      ⟨emptyStorage, contractStorage_ok hle hchunk hend,
        ⟨_, program_ok hle (emptyStorage_ok (digest b))⟩, rfl⟩
  unfold prepareConsensusMptProofInputs
  rw [hmul]
  show executionProxy.prepare helios crypto a b a b (consensusInputs a b) (digest b) = _
  show queryWithFallback (ExecutionRpc.prepare helios crypto .zero a b (consensusInputs a b))
    executionRpc [] (Shuffle.id []) 300 >>= _ = _
  rw [queryWithFallback_principal _ hexec]
  rfl

end ZkSymbiotic.Devnet
