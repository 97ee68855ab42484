import ZkSymbiotic.Api.Ahead
import ZkSymbiotic.Api.EventLoop
import ZkSymbiotic.Api.Targets
import ZkSymbiotic.HashChain
import ZkSymbiotic.Rpcs.Panics

/-!
# From the cold start to every emitted window

The detector starts at the head of the cold start.  If only the outcomes of emitted windows are
announced to it, then linked runs of the proved program on emitted windows lead from the store of
the cold start to every window that is emitted: the proofs fit together whichever window is proved
in whichever order.

* `coldStart_names`            the cold start returns the slot and the hash of one store;
* `LeadsTo`, `LeadsTo.snoc`    linked runs on windows, and one run more;
* `Chained`, `Chained.step`    the invariant: all heads the detector knows are attained;
* `emitted_windows_proved`     the emitted windows of every run.
-/

namespace ZkSymbiotic

section
variable {S : ConsensusSpec}

/-- the windows that were sent out -/
def emittedWindows (history : List (Event S)) : List (ProofInputsWithWindow S) :=
  history.flatMap fun
    | .emitted _ dual => dual.currentWindow :: dual.nextWindow.toList
    | _ => []

/-- the update is what `stage_transition_proof` announces for an emitted window -/
def Announced (history : List (Event S)) (update : FinalityChangeDetectorUpdate) : Prop :=
  ∃ w ∈ emittedWindows history, ∃ self : EventLoop S, update = (self.stageTransitionProof w).2.2

/-- stages and advances name outcomes of emitted windows -/
def Announces (s : Sys S) : Action S → Prop
  | .sendStage update => Announced s.history update
  | .sendAdvance update => Announced s.history update
  | _ => True

variable (H : Helios S) (C : Crypto)

/-- the update is the slot and the hash of the store -/
def FinalityChangeDetectorUpdate.Names (update : FinalityChangeDetectorUpdate)
    (store : LightClientStore S) : Prop :=
  H.sha256HashHeliosStore store = .ok update.storeHash ∧ store.slot = update.slot

/-! ## linked runs on windows -/

/-- runs of the proved program on these windows, each from where the one before it ends, lead from
one store to another -/
structure LeadsTo (windows : List (ProofInputsWithWindow S)) (store : LightClientStore S)
    (runs : List (ProgramRun H (verifyStorageSlotProofs C))) (fin : LightClientStore S) : Prop where
  inputs : ∀ r ∈ runs, ∃ w ∈ windows, r.inputs = w.proofInputs
  linked : Linked runs
  climbs : ∀ r ∈ runs, r.outputs.inputSlot < r.outputs.outputSlot
  path : (lightClient H).run store (runs.flatMap (·.messages)) = some fin
  last : ∀ r, runs.getLast? = some r → r.finalStore = fin

/-- runs on these windows lead to a store of that name -/
def Attained (windows : List (ProofInputsWithWindow S)) (store : LightClientStore S)
    (update : FinalityChangeDetectorUpdate) : Prop :=
  ∃ runs fin, LeadsTo H C windows store runs fin ∧ update.Names H fin

/-- the last one of such runs is on the window, and ends as the window says -/
def ProofInputsWithWindow.Proved (w : ProofInputsWithWindow S)
    (windows : List (ProofInputsWithWindow S)) (store : LightClientStore S) : Prop :=
  ∃ runs, ∃ r : ProgramRun H (verifyStorageSlotProofs C),
    LeadsTo H C windows store (runs ++ [r]) r.finalStore ∧ r.inputs = w.proofInputs ∧
    r.outputs.outputSlot = w.expectedOutputSlot ∧
    r.outputs.outputStoreHash = w.expectedOutputStoreHash

variable {H C} {windows windows' : List (ProofInputsWithWindow S)}
  {store fin : LightClientStore S} {runs : List (ProgramRun H (verifyStorageSlotProofs C))}
  {update : FinalityChangeDetectorUpdate} {w : ProofInputsWithWindow S}

theorem LeadsTo.mono (h : LeadsTo H C windows store runs fin) (hsub : windows ⊆ windows') :
    LeadsTo H C windows' store runs fin :=
  { h with
    inputs := fun r hr => (h.inputs r hr).imp fun _ hw => ⟨hsub hw.1, hw.2⟩ }

theorem Attained.mono (h : Attained H C windows store update) (hsub : windows ⊆ windows') :
    Attained H C windows' store update := by
  obtain ⟨runs, fin, hleads, hnames⟩ := h
  exact ⟨runs, fin, hleads.mono hsub, hnames⟩

theorem ProofInputsWithWindow.Proved.mono (h : w.Proved H C windows store)
    (hsub : windows ⊆ windows') : w.Proved H C windows' store := by
  obtain ⟨runs, r, hleads, hr⟩ := h
  exact ⟨runs, r, hleads.mono hsub, hr⟩

theorem LeadsTo.nil : LeadsTo H C windows store [] store where
  inputs := fun _ hr => absurd hr List.not_mem_nil
  linked := List.IsChain.nil
  climbs := fun _ hr => absurd hr List.not_mem_nil
  path := rfl
  last := fun _ hr => absurd hr.symm (Option.some_ne_none _)

/-- a run that takes in the hash of the last store goes on from it -/
theorem LeadsTo.snoc (hinj : H.HashInjective) (h : LeadsTo H C windows store runs fin)
    {r : ProgramRun H (verifyStorageSlotProofs C)}
    (hhash : H.sha256HashHeliosStore fin = .ok r.outputs.inputStoreHash)
    (hr : ∃ w ∈ windows, r.inputs = w.proofInputs)
    (hclimbs : r.outputs.inputSlot < r.outputs.outputSlot) :
    LeadsTo H C windows store (runs ++ [r]) r.finalStore where
  inputs := by
    intro r' hr'
    rcases List.mem_append.mp hr' with hr' | hr'
    · exact h.inputs r' hr'
    · obtain rfl := List.mem_singleton.mp hr'
      exact hr
  linked := by
    refine List.isChain_append.mpr ⟨h.linked, List.IsChain.singleton r, ?_⟩
    intro r₁ hr₁ r₂ hr₂
    obtain rfl : r = r₂ := Option.some.inj hr₂
    have hout : H.sha256HashHeliosStore r₁.finalStore = .ok r₁.outputs.outputStoreHash :=
      r₁.commits.outputStoreHash
    rw [h.last r₁ hr₁, hhash] at hout
    exact (Except.ok.inj hout).symm
  climbs := by
    intro r' hr'
    rcases List.mem_append.mp hr' with hr' | hr'
    · exact h.climbs r' hr'
    · obtain rfl := List.mem_singleton.mp hr'
      exact hclimbs
  path := by
    have hstore : r.inputs.store = fin := by
      have hin : r.outputs.inputStoreHash = r.inputs.storeHash := r.commits.inputStoreHash
      exact hinj _ _ _ (hin ▸ r.commits.storeHash) hhash
    have hmessages : [r].flatMap (·.messages) = r.messages := List.append_nil _
    rw [List.flatMap_append, Machine.run_append_some _ h.path, hmessages, ← hstore]
    exact r.commits.path
  last := by
    intro r' hr'
    rw [List.getLast?_concat] at hr'
    rw [Option.some.inj hr']

/-- what a proved window announces is attained -/
theorem ProofInputsWithWindow.Proved.attained (h : w.Proved H C windows store)
    (self : EventLoop S) : Attained H C windows store (self.stageTransitionProof w).2.2 := by
  obtain ⟨runs, r, hleads, _, hslot, hhash⟩ := h
  refine ⟨runs ++ [r], r.finalStore, hleads, ?_, ?_⟩
  · show _ = Except.ok w.expectedOutputStoreHash
    rw [← hhash]
    exact r.commits.outputStoreHash
  · show _ = w.expectedOutputSlot
    rw [← hslot]
    exact r.commits.outputSlot.symm

/-! ## windows that are prepared -/

/-- a window from an attained head is proved by one run more -/
theorem Attained.proved (hinj : H.HashInjective) (h : Attained H C windows store update)
    {proxy : ConsensusHttpProxy S} (hw : w ∈ windows)
    (hprepare : prepareConsensusMptProofInputs H C proxy update.slot update.storeHash true
      = .ok w) : w.Proved H C windows store := by
  obtain ⟨runs, fin, hleads, hhash, hslot⟩ := h
  obtain ⟨p, c, storage, o, hp, hc, hin, ho, _, hout, houtHash, _⟩ :=
    prepareConsensusMptProofInputs_ok H C hprepare
  obtain ⟨hc, hvalid⟩ := (validate_eq_ok H).mp hc
  let r : ProgramRun H (verifyStorageSlotProofs C) := ⟨w.proofInputs, o, ho⟩
  -- the host's prediction is what the proved program commits
  obtain ⟨fin', hcommits⟩ := (consensusProgram_eq_ok H).mp hc
  have hsame : r.inputs.consensus = p := by
    show w.proofInputs.consensus = p
    rw [hin]
    rfl
  obtain ⟨hfin, houtputs⟩ := (hsame ▸ r.commits).unique H hcommits
  have hinHash : o.inputStoreHash = update.storeHash := by
    have hsh : o.inputStoreHash = w.proofInputs.storeHash := r.commits.inputStoreHash
    rw [hsh, hin]
    exact hp
  have hinSlot : o.inputSlot = update.slot := by
    have hstore : w.proofInputs.store = fin := by
      have hin' : o.inputStoreHash = w.proofInputs.storeHash := r.commits.inputStoreHash
      exact hinj _ _ _ (hin' ▸ r.commits.storeHash) (hinHash ▸ hhash)
    have hsl : o.inputSlot = w.proofInputs.store.slot := r.commits.inputSlot
    rw [hsl, hstore, hslot]
  have houtSlot : o.outputSlot = c.outputSlot := congrArg ConsensusProofOutputs.outputSlot houtputs
  have houtHash' : o.outputStoreHash = c.outputStoreHash :=
    congrArg ConsensusProofOutputs.outputStoreHash houtputs
  refine ⟨runs, r, hleads.snoc hinj ?_ ⟨w, hw, rfl⟩ ?_, rfl, ?_, ?_⟩
  · show _ = Except.ok o.inputStoreHash
    rw [hinHash]
    exact hhash
  · show o.inputSlot < o.outputSlot
    rw [hinSlot, houtSlot]
    exact (hvalid rfl).1
  · exact houtSlot.trans hout.symm
  · exact houtHash'.trans houtHash.symm

/-! ## the invariant -/

/-- every head that the detector knows or is told of is attained, and emitted windows are proved -/
structure Chained (H : Helios S) (C : Crypto) (store : LightClientStore S) (s : Sys S) : Prop where
  head : Attained H C (emittedWindows s.history) store ⟨s.det.slot, s.det.storeHash⟩
  next : ∀ n, s.det.nextExpectedOutput = some n → Attained H C (emittedWindows s.history) store n
  stage : ∀ u, s.stage = some u → Attained H C (emittedWindows s.history) store u
  advance : ∀ u, s.advance = some u → Attained H C (emittedWindows s.history) store u
  windows : ∀ w ∈ emittedWindows s.history, w.Proved H C (emittedWindows s.history) store

/-- a step that leaves the heads alone and emits nothing -/
theorem Chained.keep {s s' : Sys S} (h : Chained H C store s)
    (hwindows : emittedWindows s'.history = emittedWindows s.history)
    (hslot : s'.det.slot = s.det.slot) (hhash : s'.det.storeHash = s.det.storeHash)
    (hnext : s'.det.nextExpectedOutput = s.det.nextExpectedOutput)
    (hstage : s'.stage = s.stage) (hadvance : s'.advance = s.advance) :
    Chained H C store s' := by
  refine ⟨?_, ?_, ?_, ?_, ?_⟩
  · rw [hwindows, hslot, hhash]
    exact h.head
  · rw [hwindows, hnext]
    exact h.next
  · rw [hwindows, hstage]
    exact h.stage
  · rw [hwindows, hadvance]
    exact h.advance
  · rw [hwindows]
    exact h.windows

theorem Chained.announced {s : Sys S} (h : Chained H C store s)
    (hu : Announced s.history update) :
    Attained H C (emittedWindows s.history) store update := by
  obtain ⟨w, hw, self, rfl⟩ := hu
  exact (h.windows w hw).attained self

theorem filteredNext_some {det : Detector} {n : FinalityChangeDetectorUpdate}
    (h : det.filteredNext = some n) : det.nextExpectedOutput = some n := by
  unfold Detector.filteredNext at h
  split at h
  · rename_i n' hn
    split at h
    · rw [hn, h]
    · cases h
  · cases h

theorem Chained.step (hinj : H.HashInjective) {s s' : Sys S} {a : Action S} (hi : Inv H C s)
    (h : Chained H C store s) (ha : Announces s a) (hs : Stepped H C s a s') :
    Chained H C store s' := by
  cases hs with
  | sendStage update room =>
    refine ⟨h.head, h.next, ?_, h.advance, h.windows⟩
    intro u hu
    obtain rfl := Option.some.inj hu
    exact h.announced ha
  | sendAdvance update room =>
    refine ⟨h.head, h.next, h.stage, ?_, h.windows⟩
    intro u hu
    obtain rfl := Option.some.inj hu
    exact h.announced ha
  | recvStage update pc head =>
    refine ⟨h.head, ?_, fun _ hu => (Option.some_ne_none _ hu.symm).elim, h.advance, h.windows⟩
    intro n hn
    obtain rfl := Option.some.inj hn
    exact h.stage update head
  | recvAdvance update pc head =>
    refine ⟨h.advance update head, ?_, h.stage, fun _ hu => (Option.some_ne_none _ hu.symm).elim,
      h.windows⟩
    intro n hn
    exact h.next n (onAdvance_next.mp hn).1
  | sendOutput job dual pc room =>
    -- the job of the emission is the one the detector would submit now
    obtain ⟨hl, hu, env, hprepare⟩ := hi.emitting job dual pc
    rw [hi.input job hl hu] at hprepare
    obtain ⟨e, _, hcurrent, hnext⟩ := prepareJob_ok H C hprepare
    have hwindows : emittedWindows (.emitted job dual :: s.history) =
        (dual.currentWindow :: dual.nextWindow.toList) ++ emittedWindows s.history :=
      List.flatMap_cons
    have hsub : emittedWindows s.history ⊆ emittedWindows (.emitted job dual :: s.history) := by
      rw [hwindows]
      exact List.subset_append_right _ _
    refine ⟨h.head.mono hsub, fun n hn => (h.next n hn).mono hsub,
      fun u hu => (h.stage u hu).mono hsub, fun u hu => (h.advance u hu).mono hsub, ?_⟩
    intro w hw
    have hmem := hw
    rw [hwindows, List.mem_append, List.mem_cons, Option.mem_toList] at hw
    rcases hw with (rfl | hw) | hw
    · exact (h.head.mono hsub).proved hinj hmem hcurrent
    · rw [hw] at hnext
      generalize hn : s.det.jobInput.nextExpectedOutput = next at hnext
      cases hnext with
      | some hw' => exact ((h.next _ (filteredNext_some hn)).mono hsub).proved hinj hmem hw'
    · exact (h.windows w hw).mono hsub
  | recvError job e pc head => exact h.keep rfl rfl rfl rfl rfl rfl
  | recvStale job dual pc head stale => exact h.keep rfl rfl rfl rfl rfl rfl
  | recvEmit job dual pc head fresh progress next => exact h.keep rfl rfl rfl rfl rfl rfl
  | recvLagging job dual pc head fresh progress next => exact h.keep rfl rfl rfl rfl rfl rfl
  | recvIgnored job dual pc head fresh ignored => exact h.keep rfl rfl rfl rfl rfl rfl
  | tickBusy pc busy => exact h
  | tick pc idle => exact h.keep rfl rfl rfl rfl rfl rfl
  | sendJob pc room => exact h.keep rfl rfl rfl rfl rfl rfl
  | jobClosed lost pc dead => exact h.keep rfl rfl rfl rfl rfl rfl
  | dropOutput job dual pc => exact h.keep rfl rfl rfl rfl rfl rfl
  | observe => exact h.keep rfl rfl rfl rfl rfl rfl
  | actorRecv job idle head => exact h.keep rfl rfl rfl rfl rfl rfl
  | actorWork env job actor working answer => exact h.keep rfl rfl rfl rfl rfl rfl
  | actorSend job result sending room => exact h.keep rfl rfl rfl rfl rfl rfl

theorem Chained.init {head : FinalityChangeDetectorUpdate} (h : head.Names H store) :
    Chained H C store (Sys.init head.slot head.storeHash none) where
  head := ⟨[], store, LeadsTo.nil, h⟩
  next := fun _ hn => (Option.some_ne_none _ hn.symm).elim
  stage := fun _ hu => (Option.some_ne_none _ hu.symm).elim
  advance := fun _ hu => (Option.some_ne_none _ hu.symm).elim
  windows := fun _ hw => absurd hw List.not_mem_nil

/-! ## the cold start -/

/-- syncing a store changes its committee, not its slot -/
theorem getStoreWithNextSyncCommittee_slot {expectedCurrentSlot : UInt64}
    {genesisRoot : B256} {forks : S.Forks} {firstUpdate : S.Update} {synced : LightClientStore S}
    (h : getStoreWithNextSyncCommittee H expectedCurrentSlot store genesisRoot forks firstUpdate
      = .ok synced) : synced.slot = store.slot := by
  obtain ⟨_, _, h⟩ := Except.bind_eq_ok.mp h
  rw [← Except.pure_eq_ok.mp h]
  rfl

/-- **the cold start returns the slot and the hash of one store** -/
theorem coldStart_names {env : ChainEnv S} {cf : CheckpointFallback} {principal : ConsensusRpc S}
    {slot : UInt64} {storeHash : B256} (h : coldStart H env cf principal = .ok (slot, storeHash)) :
    ∃ store, FinalityChangeDetectorUpdate.Names H ⟨slot, storeHash⟩ store := by
  obtain ⟨rpc, _, h⟩ := queryWithFallback_ok _ h
  by_cases ht : rpc.timely = true
  · rw [if_pos ht] at h
    obtain ⟨_, _, h⟩ := Except.bind_eq_ok.mp h
    obtain ⟨⟨config, store⟩, _, h⟩ := Except.bind_eq_ok.mp h
    obtain ⟨firstUpdate, _, h⟩ := Except.bind_eq_ok.mp h
    obtain ⟨synced, hsynced, h⟩ := Except.bind_eq_ok.mp h
    obtain ⟨hash, hhash, h⟩ := Except.bind_eq_ok.mp h
    obtain ⟨rfl, rfl⟩ := Prod.mk.inj (Except.pure_eq_ok.mp h)
    exact ⟨synced, Except.mapError_eq_ok.mp hhash,
      getStoreWithNextSyncCommittee_slot (Except.mapError_eq_ok.mp hsynced)⟩
  · rw [if_neg ht] at h
    cases h

/-- **Emitted windows are proved from the cold start on.**  Where only the outcomes of emitted
windows are announced, in whichever order they are proved, every emitted window is the last of
linked, climbing runs of the proved program, all on emitted windows, whose messages are one run of
the light client from the store of the cold start. -/
theorem emitted_windows_proved (hinj : H.HashInjective) {env : ChainEnv S}
    {cf : CheckpointFallback} {principal : ConsensusRpc S} {slot : UInt64} {storeHash : B256}
    (hcold : coldStart H env cf principal = .ok (slot, storeHash)) {acts : List (Action S)}
    {s : Sys S} (h : (step H C).run (Sys.init slot storeHash none) acts = some s)
    (hannounces : (step H C).Steps Announces (Sys.init slot storeHash none) acts) :
    ∃ store, FinalityChangeDetectorUpdate.Names H ⟨slot, storeHash⟩ store ∧
      ∀ w ∈ emittedWindows s.history, w.Proved H C (emittedWindows s.history) store := by
  obtain ⟨store, hstore⟩ := coldStart_names hcold
  have hkeeps : ∀ s a s', Inv H C s ∧ Chained H C store s → Announces s a →
      step H C s a = some s' → Inv H C s' ∧ Chained H C store s' := by
    intro s a s' hs ha hstep
    exact ⟨hs.1.step (step_stepped hstep), hs.2.step hinj hs.1 ha (step_stepped hstep)⟩
  have halways := Machine.Steps.always hkeeps acts
    ⟨Inv.init slot storeHash none, Chained.init hstore⟩ hannounces
  exact ⟨store, hstore, (halways.last h).2.windows⟩

end

/-! ## two linked windows of the small light client -/

namespace Devnet

/-- the checkpoint at slot 32 -/
def coldCheckpoints : CheckpointFallback where
  build := .ok ()
  fetchLatestCheckpoint := fun _ => .ok (digest 32)

theorem coldStart_ok :
    coldStart helios chainEnv coldCheckpoints (consensusRpc 64) = .ok (32, digest 32) := by
  refine queryWithFallback_principal _ ?_ [] _ 20
  have hcheckpoint : getLatestCheckpoint chainEnv coldCheckpoints = .ok (digest 32) := rfl
  have hboot : bootstrapFromCheckpoint chainEnv (consensusRpc 64) (digest 32) =
      .ok ({ genesisRoot := .zero, forks := () }, bootstrapped 32) := by
    show Except.ok (_, bootstrapped (UInt64.ofNat (ofBe (digest 32).bytes))) = _
    rw [slot_digest]
  have hfirst : getFirstUpdate helios (consensusRpc 64) (bootstrapped 32).slot = .ok 0 := rfl
  have hsynced : getStoreWithNextSyncCommittee helios (consensusRpc 64).expectedCurrentSlot
      (bootstrapped 32) .zero () 0 = .ok (store 32) := rfl
  show getLatestFinalitySlotAndStoreHash helios chainEnv coldCheckpoints (consensusRpc 64) = _
  unfold getLatestFinalitySlotAndStoreHash
  simp only [hcheckpoint, hboot, hfirst, hsynced, hash_store, Except.mapError, Except.ok_bind]
  rfl

/-- the window from 32 to 64 is emitted and announced, and then the next window from 64 on -/
theorem run_mixed : (step helios crypto).run (start 32) mixedRun =
    some ((((start 32).emits (solo 32 64)).staged (update 64)).emits (dual 32 96 64 128)) := by
  have hsecond := run_emission
    (s := ((start 32).emits (solo 32 64)).staged (update 64)) ⟨rfl, rfl, rfl, rfl, rfl⟩ rfl rfl
    (prepare_dual (a := 32) (b := 96) (n := 64) (c := 128) (by decide) (by decide)) ⟨rfl, by decide⟩
    (dual_ahead (by decide))
  have hstaged : (step helios crypto).run ((start 32).emits (solo 32 64))
      [.sendStage (update 64), .recvStage] = some _ := run_staged rfl rfl (update 64)
  rw [mixedRun, Machine.run_append_some _ run_firstEmission, Machine.run_append_some _ hstaged]
  exact hsecond

theorem mixedRun_announces : (step helios crypto).Steps Announces (start 32) mixedRun := by
  have hquiet : ∀ (env : Option (JobEnv spec)) s, (step helios crypto).Steps Announces s
      (round env ++ [.recvResult, .sendOutput, .observe]) := by
    intro env
    refine Machine.Steps.of_forall fun a ha s => ?_
    simp only [round, List.cons_append, List.nil_append, List.mem_cons, List.not_mem_nil,
      or_false] at ha
    rcases ha with rfl | rfl | rfl | rfl | rfl | rfl | rfl | rfl
    all_goals trivial
  refine Machine.Steps.append (hquiet _ _) fun s hs => ?_
  obtain rfl := Option.some.inj (run_firstEmission.symm.trans hs)
  refine Machine.Steps.append ⟨?_, fun s _ => ⟨trivial, fun s _ => trivial⟩⟩
    fun s _ => hquiet _ s
  exact ⟨window 32 64, List.mem_cons_self, ⟨32, 0, ∅, digest 32⟩, rfl⟩

end Devnet

/-- the window from 64 to 128 is proved from the store of the cold start at 32 -/
theorem emitted_windows_proved_devnet :
    ∃ s store, (step Devnet.helios Devnet.crypto).run (Devnet.start 32) Devnet.mixedRun = some s ∧
      (Devnet.update 32).Names Devnet.helios store ∧
      (Devnet.window 64 128).Proved Devnet.helios Devnet.crypto (emittedWindows s.history)
        store := by
  obtain ⟨store, hstore, hproved⟩ := emitted_windows_proved Devnet.hashInjective
    Devnet.coldStart_ok Devnet.run_mixed Devnet.mixedRun_announces
  refine ⟨_, store, Devnet.run_mixed, hstore, hproved _ ?_⟩
  exact List.mem_cons_of_mem _ List.mem_cons_self

end ZkSymbiotic
