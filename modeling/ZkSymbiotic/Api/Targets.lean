import ZkSymbiotic.Api.Available
import ZkSymbiotic.Api.Jobs

/-!
# The targets of the two windows

Both windows of an emission are meant to end at the latest accepted finality slot.  The two are
prepared by separate requests, and their answers are compared with the threshold but not with each
other.

* `SameFinality`                the windows of every emission end at the same slot;
* `ConsensusHttpProxy.Ends`     where the providers' answers to one request can end;
* `JobEnv.OneTarget`            the answers to the two requests of a job can end in one slot only;
* `Targeted.step`               what that says about the results on their way to the loop;
* `same_finality_of_answers`    the targets are one along every run with such answers, and with no
                                others in every order in which they may come in;
* `mixed_targets_emitted`       a run that emits windows with different targets.
-/

namespace ZkSymbiotic

section
variable {S : ConsensusSpec} {H : Helios S} {C : Crypto}

/-- the next window, where there is one, ends where the current one does -/
def SameEnd (dual : DualProofInputsWithWindow S) : Prop :=
  ∀ w, dual.nextWindow = some w → w.expectedOutputSlot = dual.currentWindow.expectedOutputSlot

/-- what was emitted or is being emitted has one target -/
structure SameFinality (s : Sys S) : Prop where
  emitted : ∀ job dual, .emitted job dual ∈ s.history → SameEnd dual
  emitting : ∀ job dual, s.pc = .emitting job dual → SameEnd dual

/-- what the history gains was being emitted -/
theorem Stepped.emitted {s s' : Sys S} {a : Action S} (h : Stepped H C s a s') {job : Job}
    {dual : DualProofInputsWithWindow S} (hmem : .emitted job dual ∈ s'.history) :
    .emitted job dual ∈ s.history ∨ s.pc = .emitting job dual := by
  rcases h.history with heq | ⟨e, heq, hdue⟩
  · exact Or.inl (heq ▸ hmem)
  · rw [heq] at hmem
    rcases List.mem_cons.mp hmem with rfl | hold
    · exact Or.inr hdue
    · exact Or.inl hold

/-- what comes to be emitted is a received result that passes the checks -/
theorem Stepped.emitting {s s' : Sys S} {a : Action S} (h : Stepped H C s a s') {job : Job}
    {dual : DualProofInputsWithWindow S} (hpc : s'.pc = .emitting job dual) :
    s.pc = .emitting job dual ∨ a = .recvResult ∧ s.det.stale = false ∧
      s.result = some (job, .ok dual) ∧ s.det.Progress dual ∧
      ¬ Detector.Lags s.det.latestSlot dual := by
  cases h with
  | sendStage update room => exact Or.inl hpc
  | sendAdvance update room => exact Or.inl hpc
  | recvStage update pc head => exact Or.inl hpc
  | recvAdvance update pc head => exact Or.inl hpc
  | recvEmit j d pc head fresh progress next =>
    obtain ⟨rfl, rfl⟩ := Pc.emitting.inj hpc
    exact Or.inr ⟨rfl, fresh, head, progress, next⟩
  | tickBusy pc busy => exact Or.inl hpc
  | observe => exact Or.inl hpc
  | actorRecv j idle head => exact Or.inl hpc
  | actorWork env j actor working answer => exact Or.inl hpc
  | actorSend j result sending room => exact Or.inl hpc
  | _ => cases hpc

/-! ## answers with one target -/

variable (H C) in
/-- the answers can make up a window from `start` that ends at `target`: a consensus provider
predicts so, and an execution provider completes the prediction -/
def ConsensusHttpProxy.Ends (self : ConsensusHttpProxy S) (start : FinalityChangeDetectorUpdate)
    (target : UInt64) : Prop :=
  ∃ rpc ∈ self.allProviders, ∃ prediction,
    rpc.prepare H self.env start.slot start.storeHash true = .ok prediction ∧
    (∃ w, self.Completes H C start.slot prediction w) ∧ prediction.2.outputSlot = target

variable (H C) in
/-- whatever the answers to the two requests of a job can end at past the threshold is one slot -/
def JobEnv.OneTarget (env : JobEnv S) (job : FinalityChangeDetectorJobInput)
    (latestSlot : UInt64) : Prop :=
  ∀ n ∈ job.nextExpectedOutput, ∀ target target',
    env.current.Ends H C ⟨job.slot, job.storeHash⟩ target → env.next.Ends H C n target' →
      latestSlot < target → latestSlot < target' → target' = target

variable (H C) in
/-- where the actor works on a job that no update has overtaken, the answers have one target -/
def AgreeingAnswers (s : Sys S) (a : Action S) : Prop :=
  ∀ env job, a = .actorWork (some env) → s.actor = .working job → s.det.stale = false →
    env.OneTarget H C job.input s.det.latestSlot

/-- a window that some order of the answers gives ends where the answers can end -/
theorem ConsensusHttpProxy.Reordered.ends {self self' : ConsensusHttpProxy S}
    (h : self.Reordered self') {start : FinalityChangeDetectorUpdate} {w : ProofInputsWithWindow S}
    (hw : prepareConsensusMptProofInputs H C self' start.slot start.storeHash true = .ok w) :
    self.Ends H C start w.expectedOutputSlot := by
  obtain ⟨rpc, hmem, prediction, hrpc, hcompletes⟩ := h.sound hw
  refine ⟨rpc, hmem, prediction, hrpc, ⟨w, hcompletes⟩, ?_⟩
  obtain ⟨_, _, _, _, _, _, rfl⟩ := hcompletes
  rfl

/-- and some order ends at each such place -/
theorem ConsensusHttpProxy.Ends.reached {self : ConsensusHttpProxy S}
    {start : FinalityChangeDetectorUpdate} {target : UInt64} (h : self.Ends H C start target) :
    ∃ self', self.Reordered self' ∧ ∃ w,
      prepareConsensusMptProofInputs H C self' start.slot start.storeHash true = .ok w ∧
      w.expectedOutputSlot = target := by
  obtain ⟨rpc, hmem, prediction, hrpc, ⟨w, hcompletes⟩, rfl⟩ := h
  obtain ⟨self', horder, hw⟩ := hcompletes.reached hmem hrpc
  refine ⟨self', horder, w, hw, ?_⟩
  obtain ⟨_, _, _, _, _, _, rfl⟩ := hcompletes
  rfl

/-- what the actor makes of answers with one target, in whichever order they come in -/
theorem JobEnv.OneTarget.sameEnd {env : JobEnv S} {job : FinalityChangeDetectorJobInput}
    {latestSlot : UInt64} (h : env.OneTarget H C job latestSlot)
    {current next : ConsensusHttpProxy S} (hcurrent : env.current.Reordered current)
    (hnext : env.next.Reordered next) {dual : DualProofInputsWithWindow S}
    (hans : prepareJob H C (some { current, next }) job = .ok dual)
    (hp : latestSlot < dual.currentWindow.expectedOutputSlot)
    (hl : ¬ Detector.Lags latestSlot dual) : SameEnd dual := by
  obtain ⟨_, henv, hfirst, hsecond⟩ := prepareJob_ok H C hans
  obtain rfl := Option.some.inj henv
  intro w hw
  rw [hw] at hsecond
  generalize hn : job.nextExpectedOutput = asked at hsecond
  cases hsecond with
  | some hprepared =>
    have hahead : latestSlot < w.expectedOutputSlot := UInt64.not_le.mp fun hle => hl ⟨w, hw, hle⟩
    have hcurrentEnds : env.current.Ends H C ⟨job.slot, job.storeHash⟩
        dual.currentWindow.expectedOutputSlot := hcurrent.ends hfirst
    exact h _ hn _ _ hcurrentEnds (hnext.ends hprepared) hp hahead

/-! ## runs -/

/-- the results on their way to the loop that it would emit have one target -/
structure Targeted (s : Sys S) : Prop where
  sending : ∀ job dual, s.actor = .sending job (.ok dual) → s.det.stale = false →
    s.det.latestSlot < dual.currentWindow.expectedOutputSlot →
    ¬ Detector.Lags s.det.latestSlot dual → SameEnd dual
  result : ∀ job dual, s.result = some (job, .ok dual) → s.det.stale = false →
    s.det.latestSlot < dual.currentWindow.expectedOutputSlot →
    ¬ Detector.Lags s.det.latestSlot dual → SameEnd dual

theorem Targeted.init (slot : UInt64) (storeHash : B256)
    (next : Option FinalityChangeDetectorUpdate) :
    Targeted (Sys.init (S := S) slot storeHash next) :=
  ⟨(fun _ _ h => nomatch h), fun _ _ h => nomatch h⟩

/-- without a job on its way there is no result -/
theorem Targeted.of_no_jobs {s : Sys S} (hactor : s.actor.jobs = []) (hresult : s.result = none) :
    Targeted s := by
  refine ⟨fun job dual h => ?_, fun job dual h => ?_⟩
  · rw [h] at hactor
    cases hactor
  · rw [h] at hresult
    cases hresult

/-- nothing is on its way where the loop waits for no answer -/
theorem Inv.no_jobs {s : Sys S} (hi : Inv H C s) (hfl : s.det.inFlight = false) :
    s.actor.jobs = [] ∧ s.result = none := by
  have hnone := hi.pending
  rw [hi.inFlight, Option.isSome_eq_false_iff, Option.isNone_iff_eq_none] at hfl
  rw [hfl] at hnone
  obtain ⟨hbefore, hresult⟩ := List.append_eq_nil_iff.mp hnone
  exact ⟨(List.append_eq_nil_iff.mp hbefore).2,
    Option.map_eq_none_iff.mp (Option.toList_eq_nil_iff.mp hresult)⟩

/-- an update overtakes every job on its way -/
theorem Targeted.of_overtaken {s : Sys S} (hi : Inv H C s) {det : Detector}
    {stage advance : Option FinalityChangeDetectorUpdate} {history : List (Event S)}
    (hst : det.stale = if s.det.inFlight then true else s.det.stale) :
    Targeted { s with det := det, stage := stage, advance := advance, history := history } := by
  by_cases hfl : s.det.inFlight = true
  · have hstale : det.stale = true := hst.trans (if_pos hfl)
    refine ⟨fun _ _ _ hfresh => ?_, fun _ _ _ hfresh => ?_⟩
    · exact absurd (hstale.symm.trans hfresh) nofun
    · exact absurd (hstale.symm.trans hfresh) nofun
  · obtain ⟨hactor, hresult⟩ := hi.no_jobs (Bool.eq_false_iff.mpr hfl)
    exact .of_no_jobs hactor hresult

/-- **the step lemma** -/
theorem Targeted.step {s s' : Sys S} {a : Action S} (hi : Inv H C s) (ht : Targeted s)
    (ha : ∀ env job dual, a = .actorWork env → s.actor = .working job →
      prepareJob H C env job.input = .ok dual → s.det.stale = false →
      s.det.latestSlot < dual.currentWindow.expectedOutputSlot →
      ¬ Detector.Lags s.det.latestSlot dual → SameEnd dual)
    (h : Stepped H C s a s') : Targeted s' := by
  cases h with
  | recvStage update pc head => exact .of_overtaken hi rfl
  | recvAdvance update pc head => exact .of_overtaken hi rfl
  | recvError job e pc head => exact .of_no_jobs (hi.head head).2.2 rfl
  | recvStale job dual pc head stale => exact .of_no_jobs (hi.head head).2.2 rfl
  | recvEmit job dual pc head fresh progress next => exact .of_no_jobs (hi.head head).2.2 rfl
  | recvLagging job dual pc head fresh progress next => exact .of_no_jobs (hi.head head).2.2 rfl
  | recvIgnored job dual pc head fresh ignored => exact .of_no_jobs (hi.head head).2.2 rfl
  | sendOutput job dual pc room =>
    have hfl : s.det.inFlight = false := by
      rw [Bool.eq_false_iff]
      intro hfl
      rcases hi.pc hfl with hpc | hpc
      · exact nomatch pc.symm.trans hpc
      · exact nomatch pc.symm.trans hpc
    obtain ⟨hactor, hresult⟩ := hi.no_jobs hfl
    exact .of_no_jobs hactor hresult
  | actorRecv job idle head => exact ⟨(fun _ _ h => nomatch h), ht.2⟩
  | actorWork env job actor working answer =>
    refine ⟨fun j dual hsend hfresh hp hl => ?_, ht.2⟩
    have hsend' : actor = .sending j (.ok dual) := hsend
    rw [hsend'] at answer
    cases hans : prepareJob H C env job.input with
    | ok d =>
      rw [hans] at answer
      obtain rfl := Except.ok.inj (Actor.sending.inj (Option.some.inj answer)).2
      exact ha env job d rfl working hans hfresh hp hl
    | error failure =>
      rw [hans] at answer
      cases failure with
      | error e => cases answer
      | panic => cases answer
      | pending => cases answer
  | actorSend job result sending room =>
    refine ⟨(fun _ _ h => nomatch h), fun j dual hres => ?_⟩
    obtain ⟨rfl, rfl⟩ := Prod.mk.inj (Option.some.inj hres)
    exact ht.sending _ _ sending
  | _ => exact ⟨ht.1, ht.2⟩

/-- one step keeps the targets together where the results that it can accept have one -/
theorem SameFinality.step {s s' : Sys S} {a : Action S} (hP : SameFinality s) (ht : Targeted s)
    (h : Stepped H C s a s') : SameFinality s' := by
  refine ⟨fun job dual hmem => ?_, fun job dual hpc => ?_⟩
  · rcases h.emitted hmem with hold | hpc
    · exact hP.emitted job dual hold
    · exact hP.emitting job dual hpc
  · rcases h.emitting hpc with hold | ⟨_, hst, hres, hp, hl⟩
    · exact hP.emitting job dual hold
    · exact ht.result job dual hres hst hp.2 hl

theorem SameFinality.init (slot : UInt64) (storeHash : B256)
    (next : Option FinalityChangeDetectorUpdate) :
    SameFinality (Sys.init (S := S) slot storeHash next) :=
  ⟨(fun _ _ h => nomatch h), fun _ _ h => nomatch h⟩

theorem Targeted.of_working {s : Sys S} (hi : Inv H C s) {job : Job}
    (h : s.actor = .working job) : Targeted s := by
  obtain ⟨_, _, hres⟩ := hi.atActor (congrArg Actor.jobs h)
  refine ⟨fun j dual hsend => ?_, fun j dual hres' => ?_⟩
  · exact nomatch h.symm.trans hsend
  · exact nomatch hres.symm.trans hres'

/-- while it waits for it, the loop gets the very job back that it would submit now -/
theorem Inv.working_input {s : Sys S} (hi : Inv H C s) {job : Job} (h : s.actor = .working job)
    (hst : s.det.stale = false) : job.input = s.det.jobInput := by
  obtain ⟨ho, _, _⟩ := hi.atActor (congrArg Actor.jobs h)
  refine hi.input job (outstanding_lastJob ho) ?_
  rw [Bool.eq_false_iff]
  intro hu
  have hstale := hi.stale (by rw [ho]; rfl) hu
  exact absurd (hst.symm.trans hstale) Bool.false_ne_true

/-- the steps from the work of the actor to the loop -/
def answerIn (env : Option (JobEnv S)) : List (Action S) := [.actorWork env, .actorSend, .recvResult]

/-- a result that passes the checks comes to be emitted -/
theorem run_answerIn {s : Sys S} {job : Job} (hpc : s.pc = .select)
    (hactor : s.actor = .working job) (hres : s.result = none) (hst : s.det.stale = false)
    {env : Option (JobEnv S)} {dual : DualProofInputsWithWindow S}
    (hans : prepareJob H C env job.input = .ok dual) (hp : s.det.Progress dual)
    (hl : ¬ Detector.Lags s.det.latestSlot dual) :
    ∃ s', (step H C).run s (answerIn env) = some s' ∧ s'.pc = .emitting job dual := by
  obtain ⟨det, pc, stage, advance, queued, res, output, actor, history⟩ := s
  obtain rfl : pc = .select := hpc
  obtain rfl : actor = .working job := hactor
  obtain rfl : res = none := hres
  have hresult : det.onResult (.ok dual) = (det.setInFlight false, .emit dual) :=
    Detector.onResult_emit hst hp hl
  refine ⟨⟨det.setInFlight false, .emitting job dual, stage, advance, queued, none, output, .idle,
    .gotResult job (.ok dual) :: history⟩, ?_, rfl⟩
  simp only [answerIn, Machine.run, step, hans, Actor.answer, Option.map_some, Option.bind_some,
    hresult, Outcome.pc]

/-- **the condition on answers is exact**: they have one target exactly if every order in which they
may come in keeps the targets of the emissions together -/
theorem JobEnv.oneTarget_iff {s : Sys S} (hi : Inv H C s) (hP : SameFinality s)
    (hpc : s.pc = .select) {job : Job} (hactor : s.actor = .working job)
    (hst : s.det.stale = false) (env : JobEnv S) :
    env.OneTarget H C job.input s.det.latestSlot ↔
      ∀ current next, env.current.Reordered current → env.next.Reordered next →
        ∀ s', (step H C).run s (answerIn (some { current, next })) = some s' → SameFinality s' := by
  constructor
  · intro h current next hcurrent hnext s' hrun
    obtain ⟨s₁, h₁, hrun⟩ := Machine.run_cons_some _ hrun
    obtain ⟨s₂, h₂, hrun⟩ := Machine.run_cons_some _ hrun
    obtain ⟨s₃, h₃, hrun⟩ := Machine.run_cons_some _ hrun
    obtain rfl := Option.some.inj hrun
    have ht := Targeted.of_working hi hactor
    have ht₁ : Targeted s₁ := by
      refine ht.step hi (fun e j dual he hj hans _ hp hl => ?_) (step_stepped h₁)
      obtain rfl := Action.actorWork.inj he
      obtain rfl := Actor.working.inj (hactor.symm.trans hj)
      exact h.sameEnd hcurrent hnext hans hp hl
    have hi₁ := hi.step (step_stepped h₁)
    have ht₂ : Targeted s₂ := by
      refine ht₁.step hi₁ (fun e j dual he => ?_) (step_stepped h₂)
      cases he
    have hP₂ := (hP.step ht (step_stepped h₁)).step ht₁ (step_stepped h₂)
    exact hP₂.step ht₂ (step_stepped h₃)
  · intro h n hn target target' htarget htarget' hahead hahead'
    obtain ⟨current, hcurrent, w, hw, rfl⟩ := htarget.reached
    obtain ⟨next, hnext, w', hw', rfl⟩ := htarget'.reached
    have hans : prepareJob H C (some { current, next }) job.input
        = .ok { currentWindow := w, nextWindow := some w' } := prepareJob_eq_dual hn hw hw'
    have hslot : w.inputSlot = s.det.slot := by
      rw [show w.inputSlot = job.input.slot from prepareJob_inputSlot H C hans,
        hi.working_input hactor hst]
      rfl
    have hlags : ¬ Detector.Lags s.det.latestSlot
        { currentWindow := w, nextWindow := some w' : DualProofInputsWithWindow S } := by
      rintro ⟨v, hv, hle⟩
      obtain rfl := Option.some.inj hv
      exact UInt64.not_le.mpr hahead' hle
    obtain ⟨s', hrun, hemitting⟩ := run_answerIn hpc hactor
      (hi.atActor (congrArg Actor.jobs hactor)).2.2 hst hans ⟨hslot, hahead⟩ hlags
    exact (h current next hcurrent hnext s' hrun).emitting _ _ hemitting w' rfl

/-- **One target**: in every run whose answers have one target the windows of every emission end at
the same slot, and `latest_slot` is that slot after the emission.  Answers with more than one
target, to a job that no update has overtaken, have an order in which windows with different targets
come to be emitted. -/
theorem same_finality_of_answers (slot : UInt64) (storeHash : B256)
    (next : Option FinalityChangeDetectorUpdate) (as : List (Action S))
    (hanswers : (step H C).Steps (AgreeingAnswers H C) (Sys.init slot storeHash next) as) :
    (step H C).Always SameFinality (Sys.init slot storeHash next) as ∧
    (step H C).Always (fun s => ∀ s', step H C s .sendOutput = some s' → ∃ dual,
      s'.output = some dual ∧ s'.det.latestSlot = dual.currentWindow.expectedOutputSlot ∧
      ∀ w, dual.nextWindow = some w → w.expectedOutputSlot = s'.det.latestSlot)
      (Sys.init slot storeHash next) as ∧
    ∀ s, (step H C).run (Sys.init slot storeHash next) as = some s → s.pc = .select →
      ∀ job, s.actor = .working job → s.det.stale = false → ∀ env : JobEnv S,
        (env.OneTarget H C job.input s.det.latestSlot ↔
          ∀ current next, env.current.Reordered current → env.next.Reordered next →
            ∀ s', (step H C).run s (answerIn (some { current, next })) = some s' →
              SameFinality s') := by
  have hstep : ∀ s a s', Inv H C s ∧ Targeted s ∧ SameFinality s → AgreeingAnswers H C s a →
      step H C s a = some s' → Inv H C s' ∧ Targeted s' ∧ SameFinality s' := by
    intro s a s' ⟨hi, ht, hP⟩ ha hs
    have hs' := step_stepped hs
    refine ⟨hi.step hs', ht.step hi (fun env job dual he hj hans hst hp hl => ?_) hs', hP.step ht hs'⟩
    obtain ⟨e, rfl, _⟩ := prepareJob_ok H C hans
    exact (ha e job he hj hst).sameEnd (.refl e.current) (.refl e.next) hans hp hl
  have hall := Machine.Steps.always hstep as
    ⟨Inv.init slot storeHash next, Targeted.init slot storeHash next,
      SameFinality.init slot storeHash next⟩ hanswers
  refine ⟨hall.mono (fun _ h => h.2.2) as, hall.mono (fun s h s' hs' => ?_) as, ?_⟩
  · cases step_stepped hs' with
    | sendOutput job dual pc room => exact ⟨dual, rfl, rfl, h.2.2.emitting job dual pc⟩
  · intro s hr hpc job hactor hst env
    obtain ⟨hi, _, hP⟩ := hall.last hr
    exact JobEnv.oneTarget_iff hi hP hpc hactor hst env

/-- providers of the small light client that know one finalized slot -/
theorem Devnet.env_oneTarget (head : UInt64) (job : FinalityChangeDetectorJobInput)
    (latestSlot : UInt64) :
    JobEnv.OneTarget helios crypto ⟨proxy head, proxy head⟩ job latestSlot := by
  have hends : ∀ start target, (proxy head).Ends helios crypto start target → target = head := by
    rintro start _ ⟨rpc, hmem, prediction, hrpc, _, rfl⟩
    obtain rfl := List.mem_singleton.mp hmem
    exact consensusRpc_outputSlot hrpc
  intro n _ target target' htarget htarget' _ _
  rw [hends _ target htarget, hends _ target' htarget']

/-- the targets along a run that emits two windows at once -/
theorem same_finality_devnet :
    (step Devnet.helios Devnet.crypto).run (Devnet.start 32) Devnet.busyRun = some Devnet.busyEnd ∧
    (∃ job, .emitted job (Devnet.dual 32 96 64 96) ∈ Devnet.busyEnd.history) ∧
    (step Devnet.helios Devnet.crypto).Always SameFinality (Devnet.start 32) Devnet.busyRun := by
  have hanswers : ∀ a ∈ Devnet.busyRun, ∀ s, AgreeingAnswers Devnet.helios Devnet.crypto s a := by
    intro a ha s env job heq _ _
    subst heq
    have henv : ∃ head, some env = Devnet.env head head := by
      simp only [Devnet.busyRun, round, List.cons_append, List.nil_append, List.mem_cons,
        reduceCtorEq, Action.actorWork.injEq, List.not_mem_nil, or_false, false_or] at ha
      rcases ha with ha | ha | ha | ha
      · exact ⟨64, ha⟩
      · exact ⟨96, ha⟩
      · exact ⟨128, ha⟩
      · exact ⟨128, ha⟩
    obtain ⟨head, henv⟩ := henv
    obtain rfl := Option.some.inj henv
    exact Devnet.env_oneTarget head job.input s.det.latestSlot
  have hsecond : ∃ job, .emitted job (Devnet.dual 32 96 64 96) ∈ Devnet.twiceEmitted.history :=
    ⟨_, List.mem_cons_self⟩
  refine ⟨Devnet.run_busyRun, ?_,
    (same_finality_of_answers 32 (Devnet.digest 32) none _ (Machine.Steps.of_forall hanswers _)).1⟩
  obtain ⟨job, hmem⟩ := hsecond
  have hgrows : Devnet.twiceEmitted.history <:+ Devnet.busyEnd.history := by
    refine ⟨Devnet.busyEnd.history.take 7, rfl⟩
  exact ⟨job, hgrows.subset hmem⟩

/-- a window is emitted and staged, and then the request for the next window is answered with a later
finality than the one for the current window -/
def Devnet.mixedRun : List (Action Devnet.spec) :=
  (round (Devnet.env 64 64) ++ [.recvResult, .sendOutput, .observe]) ++
    ([.sendStage (Devnet.update 64), .recvStage] ++
    (round (Devnet.env 96 128) ++ [.recvResult, .sendOutput, .observe]))

/-- **two targets**: the emitted windows go from 32 to 96 and from 64 to 128, and `latest_slot` is
96 -/
theorem mixed_targets_emitted :
    ∃ s job, (step Devnet.helios Devnet.crypto).run (Devnet.start 32) Devnet.mixedRun = some s ∧
      .emitted job (Devnet.dual 32 96 64 128) ∈ s.history ∧ s.det.latestSlot = 96 ∧
      ¬ SameEnd (Devnet.dual 32 96 64 128) ∧ ¬ SameFinality s := by
  have h2 := run_staged (H := Devnet.helios) (C := Devnet.crypto)
    (s := (Devnet.start 32).emits (Devnet.solo 32 64)) rfl rfl (Devnet.update 64)
  have h3 := run_emission
    (s := ((Devnet.start 32).emits (Devnet.solo 32 64)).staged (Devnet.update 64))
    ⟨rfl, rfl, rfl, rfl, rfl⟩ rfl rfl
    (Devnet.prepare_dual (a := 32) (b := 96) (n := 64) (c := 128) (by decide) (by decide))
    ⟨rfl, by decide⟩ (Devnet.dual_ahead (by decide))
  have hmixed : ¬ SameEnd (Devnet.dual 32 96 64 128) := fun h =>
    absurd (h (Devnet.window 64 128) rfl) (by decide)
  have hrun : (step Devnet.helios Devnet.crypto).run (Devnet.start 32) Devnet.mixedRun
      = some ((((Devnet.start 32).emits (Devnet.solo 32 64)).staged (Devnet.update 64)).emits
        (Devnet.dual 32 96 64 128)) := by
    rw [Devnet.mixedRun, Machine.run_append_some _ Devnet.run_firstEmission,
      Machine.run_append_some _ h2]
    exact h3
  exact ⟨_, _, hrun, List.mem_cons_self, rfl, hmixed,
    fun hP => hmixed (hP.emitted _ _ List.mem_cons_self)⟩

end
end ZkSymbiotic
