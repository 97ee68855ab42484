import ZkSymbiotic.Devnet

/-!
# Chains of proved runs

Runs of the proved program are linked by their store hashes: what one run puts out is what the next
one takes in.  If no two stores have one hash, such a list of runs is one run of the light client.

* `ProgramRun`         the inputs and outputs of a successful run;
* `Linked`             each output store hash is the next input store hash;
* `ProgramRun.commits`, `Linked.stores`   a run commits its final store, which the next starts from;
* `hash_chain_sound`   slots and stores of a linked list of runs.
-/

namespace ZkSymbiotic

section
variable {S : ConsensusSpec} (H : Helios S)
  (verifyStorageSlotProofs : B256 → ContractStorage → Except MptError B256)

/-- a successful run of the proved program -/
structure ProgramRun where
  inputs : ProofInputs S
  outputs : ProofOutputs
  success : consensusMptProgram H verifyStorageSlotProofs inputs = .ok outputs

variable {H verifyStorageSlotProofs}

namespace ProgramRun
variable (r : ProgramRun H verifyStorageSlotProofs)

def messages : List (Verification S × Message S) := r.inputs.consensus.messages

/-- the store after the last apply -/
def finalStore : LightClientStore S :=
  H.applyFinalityUpdate (r.inputs.updates.foldl H.applyUpdate r.inputs.store)
    r.inputs.finalityUpdate

end ProgramRun

/-- each run takes in the store hash that the run before it puts out -/
def Linked (runs : List (ProgramRun H verifyStorageSlotProofs)) : Prop :=
  runs.IsChain fun r r' => r.outputs.outputStoreHash = r'.outputs.inputStoreHash

variable (H) in
/-- no apply function lowers the finalized slot -/
structure Helios.SlotsMonotone : Prop where
  update : ∀ store update, store.slot ≤ (H.applyUpdate store update).slot
  finality : ∀ store finalityUpdate,
    store.slot ≤ (H.applyFinalityUpdate store finalityUpdate).slot

/-! ## one run -/

theorem applyUpdates_foldl {expectedCurrentSlot : UInt64} {genesisRoot : B256} {forks : S.Forks}
    {updates : List S.Update} : ∀ {index : Nat} {store store' : LightClientStore S},
      applyUpdates H expectedCurrentSlot genesisRoot forks updates index store = .ok store' →
        store' = updates.foldl H.applyUpdate store := by
  induction updates with
  | nil => intro index store store' h; exact (Except.ok.inj h).symm
  | cons update updates ih =>
    intro index store store' h
    rw [applyUpdates, Except.bind_eq_ok] at h
    obtain ⟨_, _, h⟩ := h
    exact ih h

/-- a run commits its final store -/
theorem ProgramRun.commits (r : ProgramRun H verifyStorageSlotProofs) :
    Commits H r.inputs.consensus r.finalStore r.outputs.consensus := by
  obtain ⟨⟨fin, h⟩, _⟩ := (consensusMptProgram_eq_ok H verifyStorageSlotProofs).mp r.success
  obtain ⟨store, hstore, _, hfin⟩ := (run_messages H).mp h.path
  have hfold := applyUpdates_foldl hstore
  obtain rfl : r.finalStore = fin := by
    rw [← hfin, hfold]
    rfl
  exact h

/-- a step of the light client does not lower the slot -/
theorem Helios.SlotsMonotone.step (hm : H.SlotsMonotone) {store store' : LightClientStore S}
    {a : Verification S × Message S} (h : lightClient H store a = some store') :
    store.slot ≤ store'.slot := by
  obtain ⟨v, message⟩ := a
  cases message with
  | update update =>
    obtain ⟨_, rfl⟩ := (lightClient_update H).mp h
    exact hm.update store update
  | finality finalityUpdate =>
    obtain ⟨_, rfl⟩ := (lightClient_finality H).mp h
    exact hm.finality store finalityUpdate

/-- hence a run of the program does not -/
theorem Helios.SlotsMonotone.run (hm : H.SlotsMonotone)
    (r : ProgramRun H verifyStorageSlotProofs) : r.outputs.inputSlot ≤ r.outputs.outputSlot := by
  have hc := r.commits
  have hle : r.inputs.store.slot ≤ r.finalStore.slot :=
    Machine.run_inv (I := fun store => r.inputs.store.slot ≤ store.slot)
      (fun _ _ _ h hstep => UInt64.le_trans h (hm.step hstep)) (UInt64.le_refl _) hc.path
  have hin : r.outputs.inputSlot = r.inputs.store.slot := hc.inputSlot
  have hout : r.outputs.outputSlot = r.finalStore.slot := hc.outputSlot
  rw [hin, hout]
  exact hle

/-! ## linked runs -/

/-- the final store of a run is the store the next one starts from -/
theorem Linked.stores (hinj : H.HashInjective)
    {runs : List (ProgramRun H verifyStorageSlotProofs)} (hl : Linked runs) :
    runs.IsChain fun r r' => r.finalStore = r'.inputs.store := by
  refine List.IsChain.imp (fun r r' h => ?_) hl
  have hout := r.commits.outputStoreHash
  have hin := r'.commits.storeHash
  have hhash : r'.outputs.inputStoreHash = r'.inputs.storeHash := r'.commits.inputStoreHash
  have e : r.outputs.consensus.outputStoreHash = r'.inputs.consensus.storeHash := h.trans hhash
  rw [e] at hout
  exact hinj _ _ _ hout hin

theorem Linked.slots (hinj : H.HashInjective)
    {runs : List (ProgramRun H verifyStorageSlotProofs)} (hl : Linked runs) :
    runs.IsChain fun r r' => r.outputs.outputSlot = r'.outputs.inputSlot := by
  refine List.IsChain.imp (fun r r' h => ?_) (hl.stores hinj)
  have hout : r.outputs.outputSlot = r.finalStore.slot := r.commits.outputSlot
  have hin : r'.outputs.inputSlot = r'.inputs.store.slot := r'.commits.inputSlot
  rw [hout, hin, h]

/-- in a list of pairs that fit together and do not fall, nothing falls -/
theorem pairwise_endpoints {ι : Type*} {lo hi : ι → UInt64} {l : List ι}
    (hle : ∀ i ∈ l, lo i ≤ hi i) (hfit : l.IsChain fun i j => hi i = lo j) :
    (l.flatMap fun i => [lo i, hi i]).Pairwise (· ≤ ·) := by
  rw [← List.isChain_iff_pairwise]
  induction l with
  | nil => exact List.IsChain.nil
  | cons i l ih =>
    have hrest : ∀ j ∈ l, lo j ≤ hi j := fun j hj => hle j (List.mem_cons_of_mem i hj)
    have hi_le : lo i ≤ hi i := hle i List.mem_cons_self
    cases l with
    | nil => exact List.isChain_cons_cons.mpr ⟨hi_le, List.IsChain.singleton _⟩
    | cons j l =>
      obtain ⟨hij, hfit⟩ := List.isChain_cons_cons.mp hfit
      have hstep : hi i ≤ lo j := hij ▸ UInt64.le_refl (hi i)
      exact List.isChain_cons_cons.mpr
        ⟨hi_le, List.isChain_cons_cons.mpr ⟨hstep, ih hrest hfit⟩⟩

/-- **Hash chain soundness**: in a linked list of runs (a) slots fit together, (b) all messages, in
order, are one run of the light client from the first input store to the last final store, (c) each
run's outputs are read from the store its own part of that run ends in, and (d) slots do not fall
where the apply functions do not lower them. -/
theorem hash_chain_sound (hinj : H.HashInjective)
    (runs : List (ProgramRun H verifyStorageSlotProofs)) (hl : Linked runs) :
    (runs.IsChain fun r r' => r.outputs.outputSlot = r'.outputs.inputSlot) ∧
    (∀ first last, runs.head? = some first → runs.getLast? = some last →
      (lightClient H).run first.inputs.store (runs.flatMap (·.messages))
        = some last.finalStore) ∧
    (∀ r ∈ runs, (lightClient H).run r.inputs.store r.messages = some r.finalStore ∧
      r.outputs.outputSlot = r.finalStore.slot ∧
      some r.outputs.executionStateRoot
        = r.finalStore.finalizedHeader.execution.map (·.stateRoot) ∧
      r.outputs.nextSyncCommitteeHash = nextSyncCommitteeHash H r.finalStore ∧
      H.sha256HashHeliosStore r.finalStore = .ok r.outputs.outputStoreHash) ∧
    (H.SlotsMonotone →
      (runs.flatMap fun r => [r.outputs.inputSlot, r.outputs.outputSlot]).Pairwise (· ≤ ·)) := by
  refine ⟨hl.slots hinj, ?_, ?_, ?_⟩
  · intro first last hfirst hlast
    exact Machine.run_flatMap (lightClient H) (fun r _ => r.commits.path) (hl.stores hinj) hfirst
      hlast
  · intro r _
    have hc := r.commits
    exact ⟨hc.path, hc.outputSlot, hc.executionStateRoot.symm, hc.nextSyncCommitteeHash,
      hc.outputStoreHash⟩
  · intro hm
    exact pairwise_endpoints (fun r _ => hm.run r) (hl.slots hinj)

end

/-! ## two runs of the small light client -/

namespace Devnet

theorem slotsMonotone : helios.SlotsMonotone := ⟨install_slot, install_slot⟩

def run (a b : UInt64) (h : a ≤ b) : ProgramRun helios (verifyStorageSlotProofs crypto) where
  inputs := inputs a b emptyStorage
  outputs := outputs a b (fpToBytes 0)
  success := program_ok h (emptyStorage_ok _)

theorem run_finalStore {a b : UInt64} (h : a ≤ b) : (run a b h).finalStore = store b :=
  install_store h

end Devnet

theorem hash_chain_sound_devnet :
    (lightClient Devnet.helios).run (Devnet.store 0)
        ((Devnet.run 0 32 (by decide)).messages ++ (Devnet.run 32 64 (by decide)).messages)
      = some (Devnet.store 64) ∧
    [(0 : UInt64), 32, 32, 64].Pairwise (· ≤ ·) := by
  have hlinked : Linked [Devnet.run 0 32 (by decide), Devnet.run 32 64 (by decide)] :=
    List.isChain_cons_cons.mpr ⟨rfl, List.IsChain.singleton _⟩
  obtain ⟨_, hrun, _, hslots⟩ := hash_chain_sound Devnet.hashInjective _ hlinked
  have hpath := hrun _ (Devnet.run 32 64 (by decide)) rfl rfl
  rw [Devnet.run_finalStore] at hpath
  exact ⟨hpath, hslots Devnet.slotsMonotone⟩

end ZkSymbiotic
