import ZkSymbiotic.HashChain
import ZkSymbiotic.Rpcs.Devnet

/-!
# The block numbers of a window

The slots of a window are those of the stores before and after the program's run.  Its first block
number is read from the first store too, but its last one from the finality update, which the run may
verify and then not install.

* `NamesHeaders`            the block numbers are those of the two stores;
* `names_headers_iff`       they are if and only if the finality update is installed, or the header
                            that is kept has its number;
* `lagging_finality_window`   a window whose last slot and last block are of two headers.
-/

namespace ZkSymbiotic

section
variable {S : ConsensusSpec} (H : Helios S) (C : Crypto)

/-- the program runs on the inputs of the window from a store with its first block to a store with its
last block, and commits slot and state root of the latter -/
def NamesHeaders (w : ProofInputsWithWindow S) : Prop :=
  ∃ fin o, consensusMptProgram H (verifyStorageSlotProofs C) w.proofInputs = .ok o ∧
    Commits H w.proofInputs.consensus fin o.consensus ∧
    w.proofInputs.store.finalizedHeader.blockNumber = some w.inputBlockNumber ∧
    fin.finalizedHeader.blockNumber = some w.expectedOutputBlockNumber

/-- what applying a finality update does to the finalized header: it is replaced by the update's one,
or, where that is not newer or too few took part, it stays -/
def Helios.InstallsOrKeeps : Prop :=
  ∀ store finalityUpdate,
    (H.applyFinalityUpdate store finalityUpdate).finalizedHeader
        = H.finalityUpdateHeader finalityUpdate ∨
      (H.applyFinalityUpdate store finalityUpdate).finalizedHeader = store.finalizedHeader

/-- the store that the sync committee updates lead to -/
def ProofInputs.updated (p : ProofInputs S) : LightClientStore S :=
  p.updates.foldl H.applyUpdate p.store

/-- in that store the finality update is installed -/
def ProofInputs.Installs (p : ProofInputs S) : Prop :=
  (H.applyFinalityUpdate (p.updated H) p.finalityUpdate).finalizedHeader
    = H.finalityUpdateHeader p.finalityUpdate

variable {H C}

/-- **which header the last block is of**: that of the final store if and only if the finality update
is installed there, or the header that is kept has the same block -/
theorem names_headers_iff (happly : H.InstallsOrKeeps) {proxy : ConsensusHttpProxy S}
    {inputSlot : UInt64} {storeHash : B256} {validate : Bool} {w : ProofInputsWithWindow S}
    (h : prepareConsensusMptProofInputs H C proxy inputSlot storeHash validate = .ok w) :
    NamesHeaders H C w ↔ w.proofInputs.Installs H ∨
      (w.proofInputs.updated H).finalizedHeader.blockNumber
        = (H.finalityUpdateHeader w.proofInputs.finalityUpdate).blockNumber := by
  obtain ⟨_, _, _, o, _, _, _, ho, _, _, _, hin, hout⟩ := prepareConsensusMptProofInputs_ok H C h
  have hcommit := ProgramRun.commits ⟨w.proofInputs, o, ho⟩
  have hfin : ProgramRun.finalStore ⟨w.proofInputs, o, ho⟩
      = H.applyFinalityUpdate (w.proofInputs.updated H) w.proofInputs.finalityUpdate := rfl
  rw [hfin] at hcommit
  constructor
  · intro ⟨fin, o', ho', hcommit', _, hblock⟩
    obtain rfl := Except.ok.inj (ho.symm.trans ho')
    obtain ⟨rfl, _⟩ := hcommit.unique H hcommit'
    rcases happly (w.proofInputs.updated H) w.proofInputs.finalityUpdate with hnew | hkept
    · exact .inl hnew
    · rw [hkept] at hblock
      exact .inr (hblock.trans hout.symm)
  · intro hcond
    refine ⟨_, o, ho, hcommit, hin, ?_⟩
    rw [← hout]
    rcases happly (w.proofInputs.updated H) w.proofInputs.finalityUpdate with hnew | hkept
    · rw [hnew]
    · rcases hcond with hnew | hsame
      · rw [show (H.applyFinalityUpdate _ _).finalizedHeader = _ from hnew]
      · rw [hkept, hsame]

end

/-! ## a finality update that is behind -/

namespace Devnet

theorem installsOrKeeps : helios.InstallsOrKeeps := by
  intro s slot
  show (if s.slot < slot then header slot else s.finalizedHeader) = header slot ∨
    (if s.slot < slot then header slot else s.finalizedHeader) = s.finalizedHeader
  by_cases h : s.slot < slot
  · exact .inl (if_pos h)
  · exact .inr (if_neg h)

/-- a light client that also accepts a finality update that is behind; it does not install it -/
def lenient : Helios spec := { helios with verifyFinalityUpdate := fun _ _ _ _ _ => .ok () }

/-- a provider whose second update is for slot 96, while its finality update still is for slot 64 -/
def laggingRpc : ConsensusRpc spec := { consensusRpc 64 with getUpdates := fun _ _ => .ok [0, 96] }

def laggingProxy : ConsensusHttpProxy spec :=
  { proxy 64 with
    allProviders := [laggingRpc]
    schedule := Shuffle.id _ }

def laggingWindow : ProofInputsWithWindow spec where
  inputSlot := 32
  expectedOutputSlot := 96
  inputBlockNumber := 32
  expectedOutputBlockNumber := 64
  proofInputs := { inputs 32 64 emptyStorage with updates := [96] }
  expectedOutputStoreHash := digest 96

def laggingInputs : ConsensusProofInputs spec := laggingWindow.proofInputs.consensus

theorem lagging_commits (root : B256) :
    Commits lenient laggingInputs (store 96) (outputs 32 96 root).consensus where
  storeHash := hash_store 32
  path := (run_messages lenient).mpr ⟨store 96, rfl, rfl, rfl⟩
  inputSlot := rfl
  inputStoreHash := rfl
  outputSlot := rfl
  outputStoreHash := hash_store 96
  executionStateRoot := rfl
  nextSyncCommitteeHash := rfl

theorem lagging_prepare : prepareConsensusMptProofInputs lenient crypto laggingProxy 32 (digest 32)
    true = .ok laggingWindow := by
  have hinputs : prepareConsensusProofInputs lenient chainEnv laggingRpc 32 (digest 32)
      = .ok laggingInputs := by
    have hboot : bootstrapFromSlot lenient chainEnv laggingRpc 32
        = .ok ({ genesisRoot := .zero, forks := () }, bootstrapped 32) := by
      show Except.ok (_, bootstrapped (UInt64.ofNat (ofBe (digest 32).bytes))) = _
      rw [slot_digest]
    unfold prepareConsensusProofInputs
    rw [hboot]
    show Except.ok (ConsensusProofInputs.mk (S := spec) [96] 64 64 (install (bootstrapped 32) 0)
      .zero () (digest 32)) = _
    rw [install_bootstrapped]
    rfl
  have hvalidate : validateConsensusProofInputs lenient 32 true laggingInputs
      = .ok (outputs 32 96 .zero).consensus :=
    (validate_eq_ok lenient).mpr
      ⟨(consensusProgram_eq_ok lenient).mpr ⟨_, lagging_commits .zero⟩, fun _ => by decide +kernel⟩
  have hrpc : ConsensusRpc.prepare lenient chainEnv 32 (digest 32) true laggingRpc
      = .ok (laggingInputs, (outputs 32 96 .zero).consensus) :=
    (ConsensusRpc.prepare_eq_ok lenient).mpr ⟨rfl, hinputs, hvalidate⟩
  have hmul : multiplex (ConsensusRpc.prepare lenient laggingProxy.env 32 (digest 32) true)
      laggingProxy.allProviders laggingProxy.schedule laggingProxy.validationTimeout
      = .ok (laggingInputs, (outputs 32 96 .zero).consensus) := multiplex_single _ hrpc 300
  have hprogram : consensusMptProgram lenient (verifyStorageSlotProofs crypto)
      laggingWindow.proofInputs = .ok (outputs 32 96 (fpToBytes 0)) :=
    (consensusMptProgram_eq_ok lenient _).mpr ⟨⟨_, lagging_commits _⟩, emptyStorage_ok (digest 96)⟩
  have hexec : executionRpc.prepare lenient crypto .zero 32 64 laggingInputs
      = .ok laggingWindow.proofInputs :=
    (ExecutionRpc.prepare_ok lenient crypto).mpr
      ⟨emptyStorage, contractStorage_ok (by decide) (by decide) (by decide), ⟨_, hprogram⟩, rfl⟩
  unfold prepareConsensusMptProofInputs
  rw [hmul]
  show queryWithFallback (ExecutionRpc.prepare lenient crypto .zero 32 64 laggingInputs)
    executionRpc [] (Shuffle.id []) 300 >>= _ = _
  rw [queryWithFallback_principal _ hexec]
  rfl

end Devnet

open Devnet in
theorem names_headers_devnet : NamesHeaders helios crypto (window 32 64) :=
  (names_headers_iff installsOrKeeps (prepare_ok (by decide))).mpr (.inl rfl)

open Devnet in
/-- **two headers in one window**: its last slot is 96, its last block is 64 -/
theorem lagging_finality_window :
    prepareConsensusMptProofInputs lenient crypto laggingProxy 32 (digest 32) true
      = .ok laggingWindow ∧
    laggingWindow.expectedOutputSlot = 96 ∧ laggingWindow.expectedOutputBlockNumber = 64 ∧
    (store 96).finalizedHeader.blockNumber = some 96 ∧
    ¬ NamesHeaders lenient crypto laggingWindow := by
  refine ⟨lagging_prepare, rfl, rfl, rfl, fun ⟨fin, o, _, hcommit, _, hblock⟩ => ?_⟩
  obtain ⟨rfl, _⟩ := (lagging_commits .zero).unique lenient hcommit
  have h : (96 : UInt64) = 64 := Option.some.inj hblock
  exact absurd h (by decide)

end ZkSymbiotic
