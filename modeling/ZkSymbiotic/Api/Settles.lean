import ZkSymbiotic.Api.Outstanding
import ZkSymbiotic.Api.Rounds
import ZkSymbiotic.Lib.Potential

/-!
# The detector comes to rest

Without ticks and new updates the detector works for a bounded number of steps, in whichever order
they come: a stale result restarts the job, but only once for the updates that made it stale.

* `Sys.work`, `work_step`         a bound on the steps that are left, and what a step does to it;
* `Sys.due`, `due_step`           the same for the submissions;
* `Sys.Settled`, `Inv.settled`    where no step is left;
* `detector_settles`              from every reachable state on;
* `detector_work_bounded`         the steps and the jobs of whole runs;
* `detector_recovers`             from every reachable state to the next emission.
-/

namespace ZkSymbiotic

section
variable {S : ConsensusSpec}

/-! ## the work that is left -/

/-- what the detector, the actor and the observer do by themselves: no tick, no update, and the
observer stays -/
def Action.internal : Action S → Bool
  | .sendStage _ => false
  | .sendAdvance _ => false
  | .tick => false
  | .dropOutput => false
  | _ => true

/-- what comes in from outside -/
def Action.external (a : Action S) : Bool :=
  match a with
  | .sendStage _ => true
  | .sendAdvance _ => true
  | .tick => true
  | _ => false

def Action.submits : Action S → Bool
  | .sendJob => true
  | _ => false

/-- 1 for an occupied channel -/
def held {α : Type} (o : Option α) : Nat := o.toList.length

theorem held_none {α : Type} : held (none : Option α) = 0 := rfl
theorem held_some {α : Type} (a : α) : held (some a) = 1 := rfl
theorem held_le {α : Type} (o : Option α) : held o ≤ 1 := Option.length_toList_le

def Pc.work : Pc S → Nat
  | .starting => 7
  | .emitting _ _ => 2
  | _ => 0

def Pc.due : Pc S → Nat
  | .starting => 1
  | _ => 0

def Actor.work : Actor S → Nat
  | .working _ => 5
  | .sending _ _ => 4
  | _ => 0

/-- the steps up to the end of a job from its place; a job that is stale starts once more, and a
waiting update can make it stale -/
def Sys.work (s : Sys S) : Nat :=
  s.pc.work + held s.job * 6 + s.actor.work + held s.result * 3 + held s.output
    + held s.stage * 6 + held s.advance * 6 + s.det.stale.toNat * 5

/-- the submissions that are due: one at `starting`, one for a stale job or a waiting update -/
def Sys.due (s : Sys S) : Nat :=
  s.pc.due + held s.stage + held s.advance + s.det.stale.toNat

variable {H : Helios S} {C : Crypto} {s s' : Sys S} {a : Action S}

/-- an answered job is closer to its end -/
theorem answer_work {job : Job} {answer : Except Failure (DualProofInputsWithWindow S)}
    {actor : Actor S} (h : Actor.answer job answer = some actor) : actor.work ≤ 4 := by
  cases answer with
  | ok dual =>
    obtain rfl := Option.some.inj h
    exact Nat.le_refl 4
  | error failure =>
    cases failure with
    | error e =>
      obtain rfl := Option.some.inj h
      exact Nat.le_refl 4
    | panic =>
      obtain rfl := Option.some.inj h
      exact Nat.zero_le 4
    | pending => cases h

/-- a step brings in work from outside, or does some of it -/
theorem work_step (h : step H C s a = some s') :
    s'.work + a.internal.toNat ≤ s.work + a.external.toNat * 7 := by
  have hst := step_stepped h
  cases hst with
  | sendStage update room =>
    simp only [Sys.work, room, held_none, held_some, Action.internal, Action.external]
    simp only [Bool.toNat_true, Bool.toNat_false]
    omega
  | sendAdvance update room =>
    simp only [Sys.work, room, held_none, held_some, Action.internal, Action.external]
    simp only [Bool.toNat_true, Bool.toNat_false]
    omega
  | recvStage update pc head =>
    have hstale := Bool.toNat_le (s.det.onStage update).stale
    simp only [Sys.work, head, held_none, held_some, Action.internal, Action.external]
    simp only [Bool.toNat_true, Bool.toNat_false]
    omega
  | recvAdvance update pc head =>
    have hstale := Bool.toNat_le (s.det.onAdvance update).stale
    simp only [Sys.work, head, held_none, held_some, Action.internal, Action.external]
    simp only [Bool.toNat_true, Bool.toNat_false]
    omega
  | recvError job e pc head =>
    simp only [Sys.work, pc, head, held_none, held_some, Action.internal, Action.external]
    simp only [Bool.toNat_true, Bool.toNat_false, Detector.setInFlight]
    omega
  | recvStale job dual pc head stale =>
    simp only [Sys.work, pc, head, stale, held_none, held_some, Action.internal, Action.external]
    simp only [Bool.toNat_true, Bool.toNat_false, Pc.work]
    omega
  | recvEmit job dual pc head fresh progress next =>
    simp only [Sys.work, pc, head, held_none, held_some, Action.internal, Action.external]
    simp only [Bool.toNat_true, Bool.toNat_false, Detector.setInFlight, Pc.work]
    omega
  | recvLagging job dual pc head fresh progress next =>
    simp only [Sys.work, pc, head, held_none, held_some, Action.internal, Action.external]
    simp only [Bool.toNat_true, Bool.toNat_false, Detector.onEmitted, Detector.setInFlight]
    omega
  | recvIgnored job dual pc head fresh ignored =>
    simp only [Sys.work, pc, head, held_none, held_some, Action.internal, Action.external]
    simp only [Bool.toNat_true, Bool.toNat_false, Detector.setInFlight]
    omega
  | tickBusy pc busy => exact Nat.le_add_right _ _
  | tick pc idle =>
    simp only [Sys.work, pc, Action.internal, Action.external]
    simp only [Bool.toNat_true, Bool.toNat_false, Pc.work]
    omega
  | sendJob pc room =>
    simp only [Sys.work, pc, room, held_none, held_some, Action.internal, Action.external]
    simp only [Bool.toNat_true, Bool.toNat_false, Detector.setInFlight, Pc.work]
    omega
  | jobClosed lost pc dead =>
    simp only [Sys.work, pc, Action.internal, Action.external]
    simp only [Bool.toNat_true, Bool.toNat_false, Pc.work]
    omega
  | sendOutput job dual pc room =>
    simp only [Sys.work, pc, room, held_none, held_some, Action.internal, Action.external]
    simp only [Bool.toNat_true, Bool.toNat_false, Detector.onEmitted, Pc.work]
    omega
  | dropOutput job dual pc =>
    simp only [Sys.work, pc, Action.internal, Action.external]
    simp only [Bool.toNat_false, Pc.work]
    omega
  | observe =>
    cases hout : s.output with
    | none =>
      simp only [step, hout] at h
      cases h
    | some dual =>
      simp only [Sys.work, hout, held_none, held_some, Action.internal, Action.external]
      simp only [Bool.toNat_true, Bool.toNat_false]
      omega
  | actorRecv job idle head =>
    simp only [Sys.work, idle, head, held_none, held_some, Action.internal, Action.external]
    simp only [Bool.toNat_true, Bool.toNat_false, Actor.work]
    omega
  | actorWork env job actor working answer =>
    have hactor := answer_work answer
    have hworking : (Actor.working job : Actor S).work = 5 := rfl
    simp only [Sys.work, working, Action.internal, Action.external]
    simp only [Bool.toNat_true, Bool.toNat_false]
    omega
  | actorSend job result sending room =>
    simp only [Sys.work, sending, room, held_none, held_some, Action.internal, Action.external]
    simp only [Bool.toNat_true, Bool.toNat_false, Actor.work]
    omega

/-- a submission was due -/
theorem due_step (h : step H C s a = some s') :
    s'.due + a.submits.toNat ≤ s.due + a.external.toNat := by
  have hst := step_stepped h
  cases hst with
  | sendStage update room =>
    simp only [Sys.due, room, held_none, held_some, Action.submits, Action.external]
    simp only [Bool.toNat_true, Bool.toNat_false]
    omega
  | sendAdvance update room =>
    simp only [Sys.due, room, held_none, held_some, Action.submits, Action.external]
    simp only [Bool.toNat_true, Bool.toNat_false]
    omega
  | recvStage update pc head =>
    have hstale := Bool.toNat_le (s.det.onStage update).stale
    simp only [Sys.due, head, held_none, held_some, Action.submits, Action.external]
    simp only [Bool.toNat_false]
    omega
  | recvAdvance update pc head =>
    have hstale := Bool.toNat_le (s.det.onAdvance update).stale
    simp only [Sys.due, head, held_none, held_some, Action.submits, Action.external]
    simp only [Bool.toNat_false]
    omega
  | recvError job e pc head =>
    simp only [Sys.due, pc, Action.submits, Action.external, Detector.setInFlight]
    exact Nat.le_refl _
  | recvStale job dual pc head stale =>
    simp only [Sys.due, pc, stale, Action.submits, Action.external]
    simp only [Bool.toNat_true, Bool.toNat_false, Pc.due]
    omega
  | recvEmit job dual pc head fresh progress next =>
    simp only [Sys.due, pc, Action.submits, Action.external, Detector.setInFlight]
    exact Nat.le_refl _
  | recvLagging job dual pc head fresh progress next =>
    simp only [Sys.due, pc, Action.submits, Action.external, Detector.setInFlight,
      Detector.onEmitted]
    exact Nat.le_refl _
  | recvIgnored job dual pc head fresh ignored =>
    simp only [Sys.due, pc, Action.submits, Action.external, Detector.setInFlight]
    exact Nat.le_refl _
  | tickBusy pc busy => exact Nat.le_add_right _ _
  | tick pc idle =>
    simp only [Sys.due, pc, Action.submits, Action.external]
    simp only [Bool.toNat_true, Bool.toNat_false, Pc.due]
    omega
  | sendJob pc room =>
    simp only [Sys.due, pc, Action.submits, Action.external, Detector.setInFlight]
    simp only [Bool.toNat_true, Bool.toNat_false, Pc.due]
    omega
  | jobClosed lost pc dead =>
    simp only [Sys.due, pc, Action.submits, Action.external]
    simp only [Bool.toNat_true, Bool.toNat_false, Pc.due]
    omega
  | sendOutput job dual pc room =>
    simp only [Sys.due, pc, Action.submits, Action.external, Detector.onEmitted]
    exact Nat.le_refl _
  | dropOutput job dual pc =>
    simp only [Sys.due, pc, Action.submits, Action.external]
    exact Nat.le_refl _
  | observe => exact Nat.le_refl _
  | actorRecv job idle head => exact Nat.le_refl _
  | actorWork env job actor working answer => exact Nat.le_refl _
  | actorSend job result sending room => exact Nat.le_refl _

/-! ## where no step is left -/

/-- the steps that are not made from outside, with the environment of the actor -/
def Action.moves (env : Option (JobEnv S)) : List (Action S) :=
  [.recvStage, .recvAdvance, .recvResult, .sendJob, .sendOutput, .observe, .actorRecv,
    .actorWork env, .actorSend]

/-- the loop is gone; or it has received everything, and the actor has answered every job or was
lost with the last one -/
inductive Sys.Settled (s : Sys S) : Prop where
  | gone (pc : s.pc = .exited)
  | rest (atRest : s.AtRest) (stage : s.stage = none) (advance : s.advance = none)
      (output : s.output = none) (answered : outstanding s.history = none)
  | lost (job : Job) (pc : s.pc = .select) (stage : s.stage = none) (advance : s.advance = none)
      (output : s.output = none) (inFlight : s.det.inFlight = true) (dead : s.actor = .dead job)
      (unanswered : outstanding s.history = some job)

/-! ### an action that is not enabled -/

theorem recvStage_blocked (h : step H C s .recvStage = none) (pc : s.pc = .select) :
    s.stage = none := by
  cases hst : s.stage with
  | none => rfl
  | some update => simp [step, pc, hst] at h

theorem recvAdvance_blocked (h : step H C s .recvAdvance = none) (pc : s.pc = .select) :
    s.advance = none := by
  cases hadv : s.advance with
  | none => rfl
  | some update => simp [step, pc, hadv] at h

theorem recvResult_blocked (h : step H C s .recvResult = none) (pc : s.pc = .select) :
    s.result = none := by
  cases hres : s.result with
  | none => rfl
  | some r => simp [step, pc, hres] at h

theorem observe_blocked (h : step H C s .observe = none) : s.output = none := by
  cases hout : s.output with
  | none => rfl
  | some dual => simp [step, hout] at h

theorem sendOutput_blocked (h : step H C s .sendOutput = none) (hout : s.output = none)
    (job : Job) (dual : DualProofInputsWithWindow S) : s.pc ≠ .emitting job dual := by
  intro pc
  simp [step, pc, hout] at h

theorem actorRecv_blocked (h : step H C s .actorRecv = none) (idle : s.actor = .idle) :
    s.job = none := by
  cases hjob : s.job with
  | none => rfl
  | some job => simp [step, idle, hjob] at h

/-- a turn of the actor comes to an end -/
theorem actorWork_blocked {env : Option (JobEnv S)} (h : step H C s (.actorWork env) = none)
    (job : Job) : s.actor ≠ .working job := by
  intro working
  simp only [step, working, Option.map_eq_none_iff] at h
  cases hans : prepareJob H C env job.input with
  | ok dual =>
    rw [hans] at h
    cases h
  | error failure =>
    rw [hans] at h
    cases failure with
    | error e => cases h
    | panic => cases h
    | pending => exact prepareJob_ne_pending H C hans

theorem actorSend_blocked (h : step H C s .actorSend = none) (hres : s.result = none) (job : Job)
    (result : JobResult S) : s.actor ≠ .sending job result := by
  intro sending
  simp [step, sending, hres] at h

/-- with nothing outstanding the channel of the jobs has room, if it is not closed -/
theorem Inv.sendJob_enabled (hi : Inv H C s) (pc : s.pc = .starting) :
    ZkSymbiotic.step H C s .sendJob ≠ none := by
  obtain ⟨_, ho⟩ := hi.idle pc
  have hp := hi.pending
  rw [ho, Sys.pending] at hp
  have hjob : s.job = none := Option.toList_eq_nil_iff.mp
    (List.append_eq_nil_iff.mp (List.append_eq_nil_iff.mp hp).1).1
  cases hactor : s.actor with
  | dead lost => simp [ZkSymbiotic.step, pc, hactor]
  | idle => simp [ZkSymbiotic.step, pc, hactor, hjob]
  | working job => simp [ZkSymbiotic.step, pc, hactor, hjob]
  | sending job result => simp [ZkSymbiotic.step, pc, hactor, hjob]

/-- **where no step is left, all is received and answered**, or a part is gone for good -/
theorem Inv.settled (hi : Inv H C s) {env : Option (JobEnv S)}
    (h : ∀ a ∈ Action.moves env, ZkSymbiotic.step H C s a = none) : s.Settled := by
  have hout : s.output = none := observe_blocked (h .observe (by simp [Action.moves]))
  cases hpc : s.pc with
  | exited => exact .gone hpc
  | starting => exact absurd (h .sendJob (by simp [Action.moves])) (hi.sendJob_enabled hpc)
  | emitting job dual =>
    exact absurd hpc (sendOutput_blocked (h .sendOutput (by simp [Action.moves])) hout job dual)
  | select =>
    have hst : s.stage = none := recvStage_blocked (h .recvStage (by simp [Action.moves])) hpc
    have hadv : s.advance = none :=
      recvAdvance_blocked (h .recvAdvance (by simp [Action.moves])) hpc
    have hres : s.result = none := recvResult_blocked (h .recvResult (by simp [Action.moves])) hpc
    have hp := hi.pending
    rw [Sys.pending, hres] at hp
    cases hactor : s.actor with
    | idle =>
      have hjob : s.job = none := actorRecv_blocked (h .actorRecv (by simp [Action.moves])) hactor
      rw [hactor, hjob] at hp
      have ho : outstanding s.history = none := Option.toList_eq_nil_iff.mp hp.symm
      have hfl : s.det.inFlight = false := by
        rw [hi.inFlight, ho]
        rfl
      exact .rest ⟨hpc, hfl, hjob, hactor, hres⟩ hst hadv hout ho
    | working job =>
      exact absurd hactor (actorWork_blocked (h (.actorWork env) (by simp [Action.moves])) job)
    | sending job result =>
      exact absurd hactor
        (actorSend_blocked (h .actorSend (by simp [Action.moves])) hres job result)
    | dead job =>
      have hmem : job ∈ (outstanding s.history).toList := by
        rw [← hp, hactor]
        simp [Actor.jobs]
      have ho : outstanding s.history = some job := Option.mem_toList.mp hmem
      have hfl : s.det.inFlight = true := by
        rw [hi.inFlight, ho]
        rfl
      exact .lost job hpc hst hadv hout hfl hactor ho

/-- no job is outstanding while a result is sent out -/
theorem Inv.unoccupied (hi : Inv H C s) {job : Job} {dual : DualProofInputsWithWindow S}
    (pc : s.pc = .emitting job dual) : outstanding s.history = none := by
  cases ho : outstanding s.history with
  | none => rfl
  | some j =>
    have hfl : s.det.inFlight = true := by
      rw [hi.inFlight, ho]
      rfl
    rcases hi.pc hfl with h | h
    · cases pc.symm.trans h
    · cases pc.symm.trans h

/-- a job is at one place at most -/
theorem Inv.job_work_le (hi : Inv H C s) :
    held s.job * 6 + s.actor.work + held s.result * 3 ≤ held (outstanding s.history) * 6 := by
  unfold held
  rw [← hi.pending, Sys.pending]
  have hactor : s.actor.work ≤ s.actor.jobs.length * 6 := by
    cases s.actor with
    | idle => exact Nat.le_refl 0
    | working job => exact (by decide : 5 ≤ 6)
    | sending job result => exact (by decide : 4 ≤ 6)
    | dead job => exact Nat.zero_le 6
  simp only [List.length_append, Option.toList_map, List.length_map]
  omega

/-- the work of a reachable state is bounded: no job is anywhere while the loop starts or emits -/
theorem Inv.work_le (hi : Inv H C s) : s.work ≤ 25 := by
  have hjob := hi.job_work_le
  have hpc : s.pc.work + held (outstanding s.history) * 6 ≤ 7 := by
    have hone := held_le (outstanding s.history)
    cases hpc : s.pc with
    | select =>
      show 0 + _ ≤ 7
      omega
    | exited =>
      show 0 + _ ≤ 7
      omega
    | starting =>
      rw [(hi.idle hpc).2]
      exact Nat.le_refl 7
    | emitting job dual =>
      rw [hi.unoccupied hpc]
      exact (by decide : 2 ≤ 7)
  have hout := held_le s.output
  have hst := held_le s.stage
  have hadv := held_le s.advance
  have hstale : s.det.stale.toNat ≤ 1 := Bool.toNat_le _
  unfold Sys.work
  omega

/-! ## runs -/

theorem moves_internal {env : Option (JobEnv S)} (h : a ∈ Action.moves env) :
    a.internal = true := by
  have hall : (Action.moves env).all Action.internal = true := rfl
  exact List.all_eq_true.mp hall a h

theorem internal_not_external (h : a.internal = true) : a.external = false := by
  cases a with
  | sendStage update => cases h
  | sendAdvance update => cases h
  | tick => cases h
  | dropOutput => cases h
  | _ => rfl

/-- an internal step does some of the work -/
theorem work_lt (ha : a.internal = true) (h : step H C s a = some s') : s'.work < s.work := by
  have hwork := work_step h
  rw [ha, internal_not_external ha, Bool.toNat_true, Bool.toNat_false] at hwork
  omega

/-- some run of such steps goes on until the detector has settled -/
theorem Inv.exists_settled (hi : Inv H C s) (env : Option (JobEnv S)) :
    ∃ acts s', (∀ a ∈ acts, a ∈ Action.moves env) ∧
      (ZkSymbiotic.step H C).run s acts = some s' ∧ Inv H C s' ∧ s'.Settled := by
  obtain ⟨acts, s', hacts, hrun, hstuck⟩ := Machine.exists_run_stuck (m := ZkSymbiotic.step H C)
    (P := (· ∈ Action.moves env)) (fun _ _ _ ha => work_lt (moves_internal ha)) s
  have hi' : Inv H C s' :=
    Machine.run_inv (fun _ _ _ hi hs => hi.step (step_stepped hs)) hi hrun
  exact ⟨acts, s', hacts, hrun, hi', hi'.settled hstuck⟩

/-- **The detector comes to rest.**  From every reachable state on the loop, the actor and the
observer can make 25 steps at most without a tick or a new update; they can always go on, whatever
the providers answer, until all updates are received and all jobs are answered, if the loop is not
gone and the actor has not panicked; and they stop nowhere else. -/
theorem detector_settles {slot : UInt64} {storeHash : B256}
    {next : Option FinalityChangeDetectorUpdate}
    (h : (step H C).Reach (Sys.init slot storeHash next) s) (env : Option (JobEnv S)) :
    (∀ acts s', (∀ a ∈ acts, a.internal = true) → (step H C).run s acts = some s' →
      acts.length ≤ 25 ∧ ((∀ a ∈ Action.moves env, step H C s' a = none) → s'.Settled)) ∧
    ∃ acts s', (∀ a ∈ acts, a ∈ Action.moves env) ∧ (step H C).run s acts = some s' ∧
      s'.Settled := by
  have hi := inv_of_reach h
  refine ⟨fun acts s' hinternal hrun => ⟨?_, ?_⟩, ?_⟩
  · have hlength := Machine.run_length_le (fun _ _ _ => work_lt) hinternal hrun
    have hwork := hi.work_le
    omega
  · have hi' : Inv H C s' :=
      Machine.run_inv (fun _ _ _ hi hs => hi.step (step_stepped hs)) hi hrun
    exact hi'.settled
  · obtain ⟨acts, s', hacts, hrun, _, hsettled⟩ := hi.exists_settled env
    exact ⟨acts, s', hacts, hrun, hsettled⟩

/-- **The work of the detector is bounded** by what comes in: seven steps for each tick and each
update, and one submitted job. -/
theorem detector_work_bounded {slot : UInt64} {storeHash : B256}
    {next : Option FinalityChangeDetectorUpdate} {acts : List (Action S)}
    (h : (step H C).run (Sys.init slot storeHash next) acts = some s) :
    acts.countP Action.internal ≤ acts.countP Action.external * 7 ∧
      acts.countP Action.submits ≤ acts.countP Action.external := by
  have hwork := Machine.run_countP_le (p := Action.internal) (q := Action.external)
    (fun _ _ _ => work_step) h
  have hstep : ∀ s a s', step H C s a = some s' →
      Sys.due s' + a.submits.toNat ≤ Sys.due s + a.external.toNat * 1 := by
    intro s a s' hs
    rw [Nat.mul_one]
    exact due_step hs
  have hdue := Machine.run_countP_le (p := Action.submits) (q := Action.external) hstep h
  have hwork₀ : (Sys.init slot storeHash next : Sys S).work = 0 := rfl
  have hdue₀ : (Sys.init slot storeHash next : Sys S).due = 0 := rfl
  omega

/-! ## recovery -/

/-- a round up to an emission; a stale mark that was left behind costs one more answer -/
def recovery (env : Option (JobEnv S)) (stale : Bool) : List (Action S) :=
  round env ++ ((if stale then [.recvResult, .sendJob, .actorRecv, .actorWork env, .actorSend]
    else []) ++ [.recvResult, .sendOutput, .observe])

/-- the state after a stale result, as if a tick came after it -/
def Sys.unstaled (s : Sys S) (dual : DualProofInputsWithWindow S) : Sys S :=
  let job : Job := ⟨s.history.length, s.det.jobInput⟩
  { s with
    det := { s.det with stale := false }
    history := .gotResult job (.ok dual) :: .submitted job :: s.history }

theorem run_unstaled {env : Option (JobEnv S)} {dual : DualProofInputsWithWindow S}
    (hs : s.AtRest) (hst : s.det.stale = true) (hans : prepareJob H C env s.det.jobInput = .ok dual) :
    (step H C).run s (round env ++ [.recvResult]) = step H C (s.unstaled dual) .tick := by
  have hround : (step H C).run s (round env) = some (s.answered (.ok dual)) := run_round hs hans
  rw [Machine.run_append_some _ hround]
  obtain ⟨⟨slot, storeHash, latestSlot, inFlight, stale, next⟩, pc, stage, advance, job, res, output,
    actor, history⟩ := s
  obtain ⟨hpc, hfl, hjob, hactor, hres⟩ := hs
  simp only at hpc hfl hjob hactor hres hst
  subst hpc hfl hjob hactor hres hst
  rfl

theorem run_recovery {env : Option (JobEnv S)} {dual : DualProofInputsWithWindow S}
    (hs : s.AtRest) (hout : s.output = none) (hans : prepareJob H C env s.det.jobInput = .ok dual)
    (hp : s.det.Progress dual) (hl : ¬ Detector.Lags s.det.latestSlot dual) :
    ∃ s' job, (step H C).run s (recovery env s.det.stale) = some s' ∧ s'.AtRest ∧
      s'.history.head? = some (.emitted job dual) := by
  cases hst : s.det.stale with
  | false =>
    exact ⟨s.emits dual, _, run_emission hs hout hst hans hp hl,
      ⟨hs.pc, hs.inFlight, hs.job, hs.actor, hs.result⟩, rfl⟩
  | true =>
    have hrest : (s.unstaled dual).AtRest := ⟨hs.pc, hs.inFlight, hs.job, hs.actor, hs.result⟩
    have hemission := run_emission hrest hout rfl hans hp hl
    refine ⟨(s.unstaled dual).emits dual, _, ?_, ⟨hs.pc, hs.inFlight, hs.job, hs.actor, hs.result⟩,
      rfl⟩
    -- the tick of the emission is where the stale result leaves the loop
    have hsplit : recovery env true = (round env ++ [.recvResult]) ++
        ([.sendJob, .actorRecv, .actorWork env, .actorSend]
          ++ [.recvResult, .sendOutput, .observe]) := rfl
    rw [hsplit, Machine.run_append, run_unstaled hs hst hans]
    exact hemission

/-- **The detector recovers.**  From every reachable state and whatever the providers answer to what
is still on its way, the detector comes to rest, unless its loop is gone or its actor has panicked;
and from there one tick is enough to emit the windows that the providers then prepare, if they are
ahead of what was emitted. -/
theorem detector_recovers {slot : UInt64} {storeHash : B256}
    {next : Option FinalityChangeDetectorUpdate}
    (h : (step H C).Reach (Sys.init slot storeHash next) s) (env : Option (JobEnv S)) :
    ∃ acts s₁, (∀ a ∈ acts, a ∈ Action.moves env) ∧ (step H C).run s acts = some s₁ ∧
      (s₁.pc = .exited ∨ (∃ job, s₁.actor = .dead job) ∨ s₁.AtRest ∧
        ∀ env' dual, prepareJob H C env' s₁.det.jobInput = .ok dual → s₁.det.Progress dual →
          ¬ Detector.Lags s₁.det.latestSlot dual →
            ∃ s₂ job, (step H C).run s₁ (recovery env' s₁.det.stale) = some s₂ ∧ s₂.AtRest ∧
              s₂.history.head? = some (.emitted job dual)) := by
  obtain ⟨acts, s₁, hacts, hrun, _, hsettled⟩ := (inv_of_reach h).exists_settled env
  refine ⟨acts, s₁, hacts, hrun, ?_⟩
  cases hsettled with
  | gone pc => exact .inl pc
  | lost job pc stage advance output inFlight dead unanswered => exact .inr (.inl ⟨job, dead⟩)
  | rest atRest stage advance output answered =>
    exact .inr (.inr ⟨atRest, fun env' dual hans hp hl => run_recovery atRest output hans hp hl⟩)

end

/-- with the answer to its first job on the way, the detector settles offline too -/
theorem detector_settles_devnet :
    ∃ acts s', (step Devnet.helios Devnet.crypto).run
        ((Devnet.start 32).answered (.ok (Devnet.solo 32 64))) acts = some s' ∧ s'.Settled := by
  obtain ⟨acts, s', _, hrun, hsettled⟩ :=
    (detector_settles ⟨_, Devnet.run_firstRound⟩ Devnet.offline).2
  exact ⟨acts, s', hrun, hsettled⟩

/-- the detector recovers from a round whose answer is on the way while the providers are down -/
theorem detector_recovers_devnet :
    ∃ acts s₁, (step Devnet.helios Devnet.crypto).run
        ((Devnet.start 32).answered (.ok (Devnet.solo 32 64))) acts = some s₁ ∧
      (s₁.pc = .exited ∨ (∃ job, s₁.actor = .dead job) ∨ s₁.AtRest) := by
  obtain ⟨acts, s₁, _, hrun, hcases⟩ :=
    detector_recovers ⟨_, Devnet.run_firstRound⟩ Devnet.offline
  exact ⟨acts, s₁, hrun, hcases.imp_right (Or.imp_right And.left)⟩

/-- the tick of the first round pays for its other steps -/
theorem detector_work_bounded_devnet :
    (round (Devnet.env 64 64)).countP Action.internal ≤ 7 ∧
      (round (Devnet.env 64 64)).countP Action.submits ≤ 1 :=
  detector_work_bounded Devnet.run_firstRound

end ZkSymbiotic
