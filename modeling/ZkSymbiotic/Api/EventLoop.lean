import Mathlib.Data.List.AList
import ZkSymbiotic.Api.Detector
import ZkSymbiotic.Rpcs.Devnet

/-!
# The event loop

`stageTransitionProof` hands the inputs of a window to the prover and announces where the window is
expected to end.

* `prepared_window_predicts`   the announced slot and store hash are the ones the proof commits.
-/

namespace ZkSymbiotic

section
variable (S : ConsensusSpec)

/-- the jobs at the prover by their number -/
structure EventLoop where
  currentSlot : UInt64
  jobId : UInt64
  proverJobs : AList fun _ : UInt64 => ProofInputsWithWindow S
  storeHash : B256

/-- the arguments of `finality_update_job` -/
structure FinalityUpdateJob where
  jobId : UInt64
  inputHead : UInt64
  inputs : ProofInputs S

end

section
variable {S : ConsensusSpec}

def EventLoop.stageTransitionProof (self : EventLoop S)
    (proofInputsWithWindow : ProofInputsWithWindow S) :
    EventLoop S × FinalityUpdateJob S × FinalityChangeDetectorUpdate :=
  let jobId := self.jobId + 1
  ({ self with
      jobId := jobId
      proverJobs := self.proverJobs.insert jobId proofInputsWithWindow },
    { jobId, inputHead := self.currentSlot, inputs := proofInputsWithWindow.proofInputs },
    { slot := proofInputsWithWindow.expectedOutputSlot
      storeHash := proofInputsWithWindow.expectedOutputStoreHash })

variable {H : Helios S} {C : Crypto}

/-- **A prepared window predicts its proof**: the proved program succeeds on the inputs of the
window, starts where it was asked to, ends in the expected slot and store at a later checkpoint with
a next sync committee; and what the event loop announces is what the proof of its job commits. -/
theorem prepared_window_predicts (hinj : H.HashInjective) (proxy : ConsensusHttpProxy S)
    (inputSlot : UInt64) (storeHash : B256)
    (hstore : ∃ store, H.sha256HashHeliosStore store = .ok storeHash ∧ store.slot = inputSlot)
    (w : ProofInputsWithWindow S)
    (h : prepareConsensusMptProofInputs H C proxy inputSlot storeHash true = .ok w) :
    ∃ o, consensusMptProgram H (verifyStorageSlotProofs C) w.proofInputs = .ok o ∧
      o.inputSlot = w.inputSlot ∧ w.inputSlot = inputSlot ∧ o.inputStoreHash = storeHash ∧
      o.outputSlot = w.expectedOutputSlot ∧ o.outputStoreHash = w.expectedOutputStoreHash ∧
      o.inputSlot < o.outputSlot ∧ o.outputSlot % 32 = 0 ∧ o.nextSyncCommitteeHash ≠ .zero ∧
      ∀ self : EventLoop S,
        consensusMptProgram H (verifyStorageSlotProofs C) (self.stageTransitionProof w).2.1.inputs
          = .ok o ∧
        (self.stageTransitionProof w).2.2 = { slot := o.outputSlot, storeHash := o.outputStoreHash }
    := by
  obtain ⟨p, c, storage, o, hp, hc, hin, ho, hslot, hout, houtHash, _⟩ :=
    prepareConsensusMptProofInputs_ok H C h
  obtain ⟨hc, hvalid⟩ := (validate_eq_ok H).mp hc
  obtain ⟨hahead, h32, hcommittee⟩ := hvalid rfl
  -- the two programs commit the same values
  obtain ⟨fin, hcommit⟩ := (consensusProgram_eq_ok H).mp hc
  have ho' := ho
  rw [hin] at ho'
  obtain ⟨⟨fin', hcommit'⟩, _⟩ := (consensusMptProgram_eq_ok H _).mp ho'
  obtain ⟨_, rfl⟩ := hcommit.unique H hcommit'
  -- the hash pins the store, hence the slot the window starts at
  obtain ⟨store, hhash, hstoreSlot⟩ := hstore
  have hpStore : p.store = store := hinj _ _ _ (hp ▸ hcommit.storeHash) hhash
  have hinSlot : o.inputSlot = inputSlot := by
    have e : o.inputSlot = p.store.slot := hcommit.inputSlot
    rw [e, hpStore, hstoreSlot]
  have hinHash : o.inputStoreHash = storeHash := by
    have e : o.inputStoreHash = p.storeHash := hcommit.inputStoreHash
    rw [e, hp]
  refine ⟨o, ho, ?_, hslot, hinHash, hout.symm, houtHash.symm, ?_, h32, hcommittee,
    fun self => ⟨ho, ?_⟩⟩
  · rw [hinSlot, hslot]
  · rw [hinSlot]
    exact hahead
  · show FinalityChangeDetectorUpdate.mk w.expectedOutputSlot w.expectedOutputStoreHash = _
    rw [hout, houtHash]
    rfl

theorem prepared_window_predicts_devnet :
    ∃ o, consensusMptProgram Devnet.helios (verifyStorageSlotProofs Devnet.crypto)
        (Devnet.window 32 64).proofInputs = .ok o ∧
      o.outputSlot = 64 ∧ o.outputStoreHash = Devnet.digest 64 := by
  obtain ⟨o, ho, _, _, _, hslot, hhash, _⟩ := prepared_window_predicts Devnet.hashInjective
    (Devnet.proxy 64) 32 (Devnet.digest 32) ⟨Devnet.store 32, Devnet.hash_store 32, rfl⟩
    (Devnet.window 32 64) (Devnet.prepare_ok (by decide))
  exact ⟨o, ho, hslot, hhash⟩

end

end ZkSymbiotic
