import ZkSymbiotic.Api.Rounds
import ZkSymbiotic.Rpcs.Available

/-!
# Rounds in every order of the answers

A round of the detector emits in every order in which the providers answer, or there is an order in
which it does not.

* `run_emission_iff`      a round emits what the actor prepared, if it makes progress;
* `alwaysAhead_iff`       the windows of every order, all past the threshold;
* `round_emits_iff`       the providers with which a round emits in every order.
-/

namespace ZkSymbiotic

section
variable {S : ConsensusSpec} {H : Helios S} {C : Crypto}

/-! ## a round that emits -/

/-- the way of a result that is not emitted ends at `select!` -/
theorem run_unsent {s : Sys S} {job : Job} {result : JobResult S} (hpc : s.pc = .select)
    (hres : s.result = some (job, result)) (h : (s.det.onResult result).2 = .select) :
    (step H C).run s [.recvResult, .sendOutput, .observe] = none := by
  obtain ⟨det, pc, stage, advance, job', res, output, actor, history⟩ := s
  obtain rfl : pc = .select := hpc
  obtain rfl : res = some (job, result) := hres
  simp only [Machine.run, step, h, Outcome.pc, Option.bind_some, Option.bind_none]

/-- a round of a panic does not end -/
theorem run_panic {s : Sys S} (hs : s.AtRest) {env : Option (JobEnv S)}
    (h : prepareJob H C env s.det.jobInput = .error .panic) :
    (step H C).run s (round env) = none := by
  obtain ⟨⟨slot, storeHash, latestSlot, inFlight, stale, next⟩, pc, stage, advance, job, res, output,
    actor, history⟩ := s
  obtain ⟨hpc, hfl, hjob, hactor, hres⟩ := hs
  simp only at hpc hfl hjob hactor hres
  subst hpc hfl hjob hactor hres
  simp only [round, Machine.run, step, Option.bind_some, Bool.false_eq_true, if_false]
  show Option.bind (Option.map _ (Actor.answer _ (prepareJob H C env _))) _ = _
  rw [show prepareJob H C env (Detector.jobInput _) = _ from h]
  rfl

/-- a round emits exactly what the actor prepared, if that makes progress and its next window does
not lag -/
theorem run_emission_iff {s : Sys S} (hs : s.AtRest) (hout : s.output = none)
    (hst : s.det.stale = false) {env : Option (JobEnv S)} {dual : DualProofInputsWithWindow S} :
    (step H C).run s (round env ++ [.recvResult, .sendOutput, .observe]) = some (s.emits dual) ↔
      prepareJob H C env s.det.jobInput = .ok dual ∧ s.det.Progress dual ∧
        ¬ Detector.Lags s.det.latestSlot dual := by
  refine ⟨fun h => ?_, fun ⟨hans, hp, hl⟩ => run_emission hs hout hst hans hp hl⟩
  -- where the result leaves the loop at `select!` there is nothing to send
  have hunsent : ∀ result : JobResult S,
      prepareJob H C env s.det.jobInput = result.mapError .error →
      (Detector.onResult (s.det.setInFlight true) result).2 ≠ .select := by
    intro result hans hselect
    have hstuck : (step H C).run (s.answered result) [.recvResult, .sendOutput, .observe] = none :=
      run_unsent hs.pc rfl hselect
    rw [Machine.run_append_some _ (run_round hs hans), hstuck] at h
    cases h
  cases hans : prepareJob H C env s.det.jobInput with
  | error failure =>
    cases failure with
    | error e => exact absurd rfl (hunsent (.error e) hans)
    | panic =>
      rw [Machine.run_append, run_panic hs hans] at h
      cases h
    | pending => exact absurd hans (prepareJob_ne_pending H C)
  | ok dual' =>
    have hstale : (s.det.setInFlight true).stale = false := hst
    have hp : s.det.Progress dual' := by
      by_contra hnot
      refine hunsent (.ok dual') hans ?_
      rw [Detector.onResult_ignored hstale hnot]
    have hl : ¬ Detector.Lags s.det.latestSlot dual' := by
      intro hlags
      refine hunsent (.ok dual') hans ?_
      rw [Detector.onResult_lagging hstale hp hlags]
    have hemits := run_emission hs hout hst hans hp hl
    have hheads := congrArg (fun s : Sys S => s.history.head?)
      (Option.some.inj (hemits.symm.trans h))
    obtain ⟨_, rfl⟩ := Event.emitted.inj (Option.some.inj hheads)
    exact ⟨rfl, hp, hl⟩

/-! ## windows past the threshold -/

variable (H C) in
/-- some consensus provider predicts; what any of them predicts is past the threshold and always
completed -/
def ConsensusHttpProxy.AlwaysAhead (self : ConsensusHttpProxy S)
    (start : FinalityChangeDetectorUpdate) (latestSlot : UInt64) : Prop :=
  (∃ rpc ∈ self.allProviders, ∃ prediction,
    rpc.prepare H self.env start.slot start.storeHash true = .ok prediction) ∧
  ∀ rpc ∈ self.allProviders, ∀ prediction,
    rpc.prepare H self.env start.slot start.storeHash true = .ok prediction →
      self.AlwaysCompletes H C prediction.1 ∧ latestSlot < prediction.2.outputSlot

theorem ConsensusHttpProxy.AlwaysCompletes.exists_window {self : ConsensusHttpProxy S}
    {prediction : ConsensusProofInputs S × ConsensusProofOutputs}
    (h : self.AlwaysCompletes H C prediction.1) (inputSlot : UInt64) :
    ∃ w, self.Completes H C inputSlot prediction w ∧
      w.expectedOutputSlot = prediction.2.outputSlot := by
  obtain ⟨proxy, inputBlock, outputBlock, hrequests, ⟨out, hserves⟩, _⟩ := h
  exact ⟨_, ⟨proxy, inputBlock, outputBlock, out, hrequests, hserves, rfl⟩, rfl⟩

theorem ConsensusHttpProxy.alwaysAhead_iff {self : ConsensusHttpProxy S}
    {start : FinalityChangeDetectorUpdate} {latestSlot : UInt64} :
    self.AlwaysAhead H C start latestSlot ↔ ∀ self', self.Reordered self' →
      ∃ w, prepareConsensusMptProofInputs H C self' start.slot start.storeHash true = .ok w ∧
        latestSlot < w.expectedOutputSlot := by
  constructor
  · intro ⟨hsome, hall⟩ self' horder
    obtain ⟨w, hw⟩ := always_prepares hsome
      (fun rpc hmem prediction hrpc => (hall rpc hmem prediction hrpc).1) horder
    obtain ⟨rpc, hmem, prediction, hrpc, _, _, _, _, _, _, rfl⟩ := horder.sound hw
    exact ⟨_, hw, (hall rpc hmem prediction hrpc).2⟩
  · intro h
    have hprepares : ∀ self', self.Reordered self' →
        ∃ w, prepareConsensusMptProofInputs H C self' start.slot start.storeHash true = .ok w := by
      intro self' horder
      obtain ⟨w, hw, _⟩ := h self' horder
      exact ⟨w, hw⟩
    refine ⟨(prediction_of_always hprepares).2, fun rpc hmem prediction hrpc => ?_⟩
    have halways := alwaysCompletes hprepares hmem hrpc
    refine ⟨halways, ?_⟩
    -- the order that gives a window of this prediction
    obtain ⟨w, hcompletes, hslot⟩ := halways.exists_window start.slot
    obtain ⟨self', horder, hw⟩ := hcompletes.reached hmem hrpc
    obtain ⟨w', hw', hahead⟩ := h self' horder
    obtain rfl := Except.ok.inj (hw.symm.trans hw')
    rw [← hslot]
    exact hahead

/-! ## rounds -/

theorem prepareJob_eq_solo {det : Detector} {env : JobEnv S} {current : ProofInputsWithWindow S}
    (hnext : det.filteredNext = none)
    (hcurrent : prepareConsensusMptProofInputs H C env.current det.slot det.storeHash true
      = .ok current) :
    prepareJob H C (some env) det.jobInput
      = .ok { currentWindow := current, nextWindow := none } := by
  unfold prepareJob
  rw [show det.jobInput.nextExpectedOutput = none from hnext]
  show (do
    let current ← prepareConsensusMptProofInputs H C env.current det.slot det.storeHash true
    pure { currentWindow := current, nextWindow := none } :
      Except Failure (DualProofInputsWithWindow S)) = _
  rw [hcurrent]
  rfl

theorem prepareJob_eq_dual {job : FinalityChangeDetectorJobInput} {env : JobEnv S}
    {n : FinalityChangeDetectorUpdate} {current next : ProofInputsWithWindow S}
    (hnext : job.nextExpectedOutput = some n)
    (hcurrent : prepareConsensusMptProofInputs H C env.current job.slot job.storeHash true
      = .ok current)
    (hprepared : prepareConsensusMptProofInputs H C env.next n.slot n.storeHash true = .ok next) :
    prepareJob H C (some env) job
      = .ok { currentWindow := current, nextWindow := some next } := by
  unfold prepareJob
  rw [hnext]
  show joinWindows
    (prepareConsensusMptProofInputs H C env.current job.slot job.storeHash true)
    (prepareConsensusMptProofInputs H C env.next n.slot n.storeHash true) = _
  rw [hcurrent, hprepared]
  rfl

/-- the job of the detector, prepared and past the threshold: both of its windows are -/
theorem prepareJob_progress_iff {det : Detector} {env : JobEnv S} :
    (∃ dual, prepareJob H C (some env) det.jobInput = .ok dual ∧ det.Progress dual ∧
        ¬ Detector.Lags det.latestSlot dual) ↔
      (∃ w, prepareConsensusMptProofInputs H C env.current det.slot det.storeHash true = .ok w ∧
        det.latestSlot < w.expectedOutputSlot) ∧
      ∀ n ∈ det.filteredNext,
        ∃ w, prepareConsensusMptProofInputs H C env.next n.slot n.storeHash true = .ok w ∧
          det.latestSlot < w.expectedOutputSlot := by
  have hslot : ∀ {proxy start storeHash w},
      prepareConsensusMptProofInputs H C proxy start storeHash true = .ok w →
        w.inputSlot = start := by
    intro proxy start storeHash w hw
    obtain ⟨_, _, _, _, _, _, _, _, hin, _⟩ := prepareConsensusMptProofInputs_ok H C hw
    exact hin
  constructor
  · rintro ⟨dual, hans, hp, hl⟩
    obtain ⟨_, henv, hcurrent, hnext⟩ := prepareJob_ok H C hans
    obtain rfl := Option.some.inj henv
    refine ⟨⟨dual.currentWindow, hcurrent, hp.2⟩, fun n hn => ?_⟩
    rw [show det.jobInput.nextExpectedOutput = some n from hn] at hnext
    cases hw : dual.nextWindow with
    | none =>
      rw [hw] at hnext
      cases hnext
    | some w =>
      rw [hw] at hnext
      cases hnext with
      | some hprepared =>
        exact ⟨w, hprepared, UInt64.not_le.mp fun hle => hl ⟨w, hw, hle⟩⟩
  · rintro ⟨⟨current, hcurrent, hahead⟩, hnext⟩
    cases hn : det.filteredNext with
    | none =>
      refine ⟨{ currentWindow := current, nextWindow := none }, ?_, ⟨hslot hcurrent, hahead⟩,
        fun ⟨_, hw, _⟩ => nomatch hw⟩
      exact prepareJob_eq_solo hn hcurrent
    | some n =>
      obtain ⟨next, hprepared, hbeyond⟩ := hnext n hn
      refine ⟨{ currentWindow := current, nextWindow := some next }, ?_,
        ⟨hslot hcurrent, hahead⟩, ?_⟩
      · exact prepareJob_eq_dual hn hcurrent hprepared
      · rintro ⟨w, hw, hle⟩
        obtain rfl := Option.some.inj hw
        exact UInt64.not_le.mpr hbeyond hle

/-- **When a round emits in every order of the answers.**  Of a detector at rest, exactly if all
that the consensus providers predict, for the current window and for the next one if it is asked
for, is past the threshold and completed in every order, and each is predicted by someone. -/
theorem round_emits_iff {s : Sys S} (hs : s.AtRest) (hout : s.output = none)
    (hst : s.det.stale = false) (env : JobEnv S) :
    (∀ current next, env.current.Reordered current → env.next.Reordered next →
      ∃ dual, (step H C).run s
        (round (some { current, next }) ++ [.recvResult, .sendOutput, .observe])
          = some (s.emits dual)) ↔
      env.current.AlwaysAhead H C ⟨s.det.slot, s.det.storeHash⟩ s.det.latestSlot ∧
      ∀ n ∈ s.det.filteredNext, env.next.AlwaysAhead H C n s.det.latestSlot := by
  simp only [run_emission_iff hs hout hst, prepareJob_progress_iff,
    ConsensusHttpProxy.alwaysAhead_iff]
  constructor
  · intro h
    refine ⟨fun current horder => (h current env.next horder (.refl env.next)).1, ?_⟩
    intro n hn next horder
    exact (h env.current next (.refl env.current) horder).2 n hn
  · intro ⟨hcurrent, hnext⟩ current next hordered hnordered
    exact ⟨hcurrent current hordered, fun n hn => hnext n hn next hnordered⟩

end

namespace Devnet

/-- a provider that does not answer in time -/
def late : ConsensusRpc spec := { consensusRpc 64 with timely := false }

/-- two providers, one of them late -/
def crowd : ConsensusHttpProxy spec :=
  { proxy 64 with
    allProviders := [late, consensusRpc 64]
    schedule := Shuffle.id _ }

theorem consensusRpc_prepare {a b : UInt64} (h : IsWindow a b) :
    (consensusRpc b).prepare helios chainEnv a (digest a) true
      = .ok (consensusInputs a b, predicted a b) := by
  obtain ⟨h0, hab, h32, _⟩ := h
  exact (ConsensusRpc.prepare_eq_ok helios).mpr
    ⟨rfl, prepareConsensusProofInputs_ok h0 b, validate_ok hab h32⟩

theorem executionRpc_prepare {a b : UInt64} (h : IsWindow a b) :
    executionRpc.prepare helios crypto .zero a b (consensusInputs a b)
      = .ok (inputs a b emptyStorage) := by
  obtain ⟨_, hab, _, hchunk, hend⟩ := h
  have hle := UInt64.le_of_lt hab
  exact (ExecutionRpc.prepare_ok helios crypto).mpr
    ⟨emptyStorage, contractStorage_ok hle hchunk hend,
      ⟨_, program_ok hle (emptyStorage_ok (digest b))⟩, rfl⟩

theorem crowd_ahead : crowd.AlwaysAhead helios crypto (update 32) 32 := by
  have hrpc : (consensusRpc 64).prepare helios crowd.env 32 (digest 32) true = _ :=
    consensusRpc_prepare (by decide : IsWindow 32 64)
  have hexec := executionRpc_prepare (by decide : IsWindow 32 64)
  refine ⟨⟨consensusRpc 64, List.mem_cons_of_mem _ List.mem_cons_self, _, hrpc⟩, ?_⟩
  intro rpc hmem prediction hprediction
  rcases List.mem_cons.mp hmem with rfl | hmem
  · -- the late one predicts nothing
    cases hprediction
  · obtain rfl := List.mem_singleton.mp hmem
    obtain rfl := Except.ok.inj (hrpc.symm.trans hprediction)
    exact ⟨⟨executionProxy, 32, 64, ⟨rfl, rfl, rfl⟩, ⟨_, .principal hexec⟩, .inl ⟨_, hexec⟩⟩,
      (by decide : (32 : UInt64) < 64)⟩

end Devnet

open Devnet in
/-- the round emits with the late provider first -/
theorem round_emits_devnet : ∃ dual, (step helios crypto).run (start 32)
    (round (some { current := crowd, next := crowd }) ++ [.recvResult, .sendOutput, .observe])
      = some ((start 32).emits dual) := by
  have hrest : (start 32).AtRest := ⟨rfl, rfl, rfl, rfl, rfl⟩
  have hsolo : (start 32).det.filteredNext = none := rfl
  refine (round_emits_iff hrest rfl rfl ⟨crowd, crowd⟩).mpr ⟨crowd_ahead, fun n hn => ?_⟩
    crowd crowd (.refl crowd) (.refl crowd)
  rw [hsolo] at hn
  cases hn

end ZkSymbiotic
