import ZkSymbiotic.Api.Detector
import ZkSymbiotic.Lib.Machine

/-!
# The detector at work

The loop of the detector, the validation actor, the sender of updates and the observer of the
output, with the channels of capacity one between them, as one machine.  An await of the loop that
can block is a state of its own (`Pc.starting`, `Pc.emitting`), in which it receives nothing.

* `Sys`, `step`          the machine; `Sys.history` is what was sent and received, latest first;
* `Stepped`              the steps one by one, and `step_stepped`;
* `Stepped.history`      a step adds one event at most, and it is due.
-/

namespace ZkSymbiotic

/-! ## the state -/

/-- a submitted job; `id` is the number of events before its submission, so no two have the same -/
structure Job where
  id : Nat
  input : FinalityChangeDetectorJobInput
deriving DecidableEq

section
variable (S : ConsensusSpec)

abbrev JobResult := Except Error (DualProofInputsWithWindow S)

inductive Event where
  | sentStage (update : FinalityChangeDetectorUpdate)
  | sentAdvance (update : FinalityChangeDetectorUpdate)
  | gotStage (update : FinalityChangeDetectorUpdate)
  | gotAdvance (update : FinalityChangeDetectorUpdate)
  | submitted (job : Job)
  | gotResult (job : Job) (result : JobResult S)
  | emitted (job : Job) (dual : DualProofInputsWithWindow S)

/-- where the loop is: at `select!`, sending a job, sending a result out, or gone -/
inductive Pc where
  | select
  | starting
  | emitting (job : Job) (dual : DualProofInputsWithWindow S)
  | exited

/-- a panic ends the actor; its job is lost -/
inductive Actor where
  | idle
  | working (job : Job)
  | sending (job : Job) (result : JobResult S)
  | dead (job : Job)

structure Sys where
  det : Detector
  pc : Pc S
  stage : Option FinalityChangeDetectorUpdate
  advance : Option FinalityChangeDetectorUpdate
  job : Option Job
  result : Option (Job × JobResult S)
  output : Option (DualProofInputsWithWindow S)
  actor : Actor S
  history : List (Event S)

inductive Action where
  | sendStage (update : FinalityChangeDetectorUpdate)
  | sendAdvance (update : FinalityChangeDetectorUpdate)
  | recvStage
  | recvAdvance
  | recvResult
  | tick
  | sendJob
  | sendOutput
  | dropOutput
  | observe
  | actorRecv
  | actorWork (env : Option (JobEnv S))
  | actorSend

end

section
variable {S : ConsensusSpec}

/-- the start: `in_flight` and `stale` are false and the threshold is the initial slot -/
def Sys.init (slot : UInt64) (storeHash : B256) (next : Option FinalityChangeDetectorUpdate) :
    Sys S where
  det :=
    { slot, storeHash, latestSlot := slot, inFlight := false, stale := false,
      nextExpectedOutput := next }
  pc := .select
  stage := none
  advance := none
  job := none
  result := none
  output := none
  actor := .idle
  history := []

/-! ## the machine -/

/-- where the loop goes with the result of `job` -/
def Outcome.pc (job : Job) : Outcome S → Pc S
  | .select => .select
  | .start => .starting
  | .emit dual => .emitting job dual

variable (H : Helios S) (C : Crypto)

/-- the actor with the answer to its job; a job that is still pending stays -/
def Actor.answer (job : Job) : Except Failure (DualProofInputsWithWindow S) → Option (Actor S)
  | .ok dual => some (.sending job (.ok dual))
  | .error (.error e) => some (.sending job (.error e))
  | .error .panic => some (.dead job)
  | .error .pending => none

def step : Machine (Sys S) (Action S)
  | s, .sendStage update =>
    match s.stage with
    | none => some { s with stage := some update, history := .sentStage update :: s.history }
    | some _ => none
  | s, .sendAdvance update =>
    match s.advance with
    | none => some { s with advance := some update, history := .sentAdvance update :: s.history }
    | some _ => none
  | s, .recvStage =>
    match s.pc, s.stage with
    | .select, some update =>
      some { s with
        det := s.det.onStage update, stage := none, history := .gotStage update :: s.history }
    | _, _ => none
  | s, .recvAdvance =>
    match s.pc, s.advance with
    | .select, some update =>
      some { s with
        det := s.det.onAdvance update, advance := none, history := .gotAdvance update :: s.history }
    | _, _ => none
  | s, .recvResult =>
    match s.pc, s.result with
    | .select, some (job, result) =>
      some { s with
        det := (s.det.onResult result).1, pc := (s.det.onResult result).2.pc job, result := none,
        history := .gotResult job result :: s.history }
    | _, _ => none
  | s, .tick =>
    match s.pc with
    | .select => some (if s.det.inFlight then s else { s with pc := .starting })
    | _ => none
  | s, .sendJob =>
    match s.pc, s.actor, s.job with
    | .starting, .dead _, _ => some { s with pc := .exited }
    | .starting, _, none =>
      some { s with
        det := s.det.setInFlight true, pc := .select,
        job := some ⟨s.history.length, s.det.jobInput⟩,
        history := .submitted ⟨s.history.length, s.det.jobInput⟩ :: s.history }
    | _, _, _ => none
  | s, .sendOutput =>
    match s.pc, s.output with
    | .emitting job dual, none =>
      some { s with
        det := s.det.onEmitted dual, pc := .select, output := some dual,
        history := .emitted job dual :: s.history }
    | _, _ => none
  | s, .dropOutput =>
    match s.pc with
    | .emitting _ _ => some { s with pc := .exited }
    | _ => none
  | s, .observe =>
    match s.output with
    | some _ => some { s with output := none }
    | none => none
  | s, .actorRecv =>
    match s.actor, s.job with
    | .idle, some job => some { s with actor := .working job, job := none }
    | _, _ => none
  | s, .actorWork env =>
    match s.actor with
    | .working job =>
      (Actor.answer job (prepareJob H C env job.input)).map fun actor => { s with actor := actor }
    | _ => none
  | s, .actorSend =>
    match s.actor, s.result with
    | .sending job result, none =>
      some { s with actor := .idle, result := some (job, result) }
    | _, _ => none

/-! ## what a step can do -/

/-- the steps one by one; a received result has five ways to go -/
inductive Stepped : Sys S → Action S → Sys S → Prop where
  | sendStage (s : Sys S) (update : FinalityChangeDetectorUpdate) (room : s.stage = none) :
      Stepped s (.sendStage update)
        { s with stage := some update, history := .sentStage update :: s.history }
  | sendAdvance (s : Sys S) (update : FinalityChangeDetectorUpdate) (room : s.advance = none) :
      Stepped s (.sendAdvance update)
        { s with advance := some update, history := .sentAdvance update :: s.history }
  | recvStage (s : Sys S) (update : FinalityChangeDetectorUpdate) (pc : s.pc = .select)
      (head : s.stage = some update) :
      Stepped s .recvStage
        { s with
          det := s.det.onStage update, stage := none, history := .gotStage update :: s.history }
  | recvAdvance (s : Sys S) (update : FinalityChangeDetectorUpdate) (pc : s.pc = .select)
      (head : s.advance = some update) :
      Stepped s .recvAdvance
        { s with
          det := s.det.onAdvance update, advance := none,
          history := .gotAdvance update :: s.history }
  | recvError (s : Sys S) (job : Job) (e : Error) (pc : s.pc = .select)
      (head : s.result = some (job, .error e)) :
      Stepped s .recvResult
        { s with
          det := s.det.setInFlight false, pc := .select, result := none,
          history := .gotResult job (.error e) :: s.history }
  | recvStale (s : Sys S) (job : Job) (dual : DualProofInputsWithWindow S) (pc : s.pc = .select)
      (head : s.result = some (job, .ok dual)) (stale : s.det.stale = true) :
      Stepped s .recvResult
        { s with
          det := { s.det.setInFlight false with stale := false }, pc := .starting, result := none,
          history := .gotResult job (.ok dual) :: s.history }
  | recvEmit (s : Sys S) (job : Job) (dual : DualProofInputsWithWindow S) (pc : s.pc = .select)
      (head : s.result = some (job, .ok dual)) (fresh : s.det.stale = false)
      (progress : s.det.Progress dual) (next : ¬ Detector.Lags s.det.latestSlot dual) :
      Stepped s .recvResult
        { s with
          det := s.det.setInFlight false, pc := .emitting job dual, result := none,
          history := .gotResult job (.ok dual) :: s.history }
  | recvLagging (s : Sys S) (job : Job) (dual : DualProofInputsWithWindow S) (pc : s.pc = .select)
      (head : s.result = some (job, .ok dual)) (fresh : s.det.stale = false)
      (progress : s.det.Progress dual) (next : Detector.Lags s.det.latestSlot dual) :
      Stepped s .recvResult
        { s with
          det := (s.det.setInFlight false).onEmitted dual, pc := .select, result := none,
          history := .gotResult job (.ok dual) :: s.history }
  | recvIgnored (s : Sys S) (job : Job) (dual : DualProofInputsWithWindow S) (pc : s.pc = .select)
      (head : s.result = some (job, .ok dual)) (fresh : s.det.stale = false)
      (ignored : ¬ s.det.Progress dual) :
      Stepped s .recvResult
        { s with
          det := s.det.setInFlight false, pc := .select, result := none,
          history := .gotResult job (.ok dual) :: s.history }
  | tickBusy (s : Sys S) (pc : s.pc = .select) (busy : s.det.inFlight = true) : Stepped s .tick s
  | tick (s : Sys S) (pc : s.pc = .select) (idle : s.det.inFlight = false) :
      Stepped s .tick { s with pc := .starting }
  | sendJob (s : Sys S) (pc : s.pc = .starting) (room : s.job = none) :
      Stepped s .sendJob
        { s with
          det := s.det.setInFlight true, pc := .select,
          job := some ⟨s.history.length, s.det.jobInput⟩,
          history := .submitted ⟨s.history.length, s.det.jobInput⟩ :: s.history }
  | jobClosed (s : Sys S) (lost : Job) (pc : s.pc = .starting) (dead : s.actor = .dead lost) :
      Stepped s .sendJob { s with pc := .exited }
  | sendOutput (s : Sys S) (job : Job) (dual : DualProofInputsWithWindow S)
      (pc : s.pc = .emitting job dual) (room : s.output = none) :
      Stepped s .sendOutput
        { s with
          det := s.det.onEmitted dual, pc := .select, output := some dual,
          history := .emitted job dual :: s.history }
  | dropOutput (s : Sys S) (job : Job) (dual : DualProofInputsWithWindow S)
      (pc : s.pc = .emitting job dual) : Stepped s .dropOutput { s with pc := .exited }
  | observe (s : Sys S) : Stepped s .observe { s with output := none }
  | actorRecv (s : Sys S) (job : Job) (idle : s.actor = .idle) (head : s.job = some job) :
      Stepped s .actorRecv { s with actor := .working job, job := none }
  | actorWork (s : Sys S) (env : Option (JobEnv S)) (job : Job) (actor : Actor S)
      (working : s.actor = .working job)
      (answer : Actor.answer job (prepareJob H C env job.input) = some actor) :
      Stepped s (.actorWork env) { s with actor := actor }
  | actorSend (s : Sys S) (job : Job) (result : JobResult S) (sending : s.actor = .sending job result)
      (room : s.result = none) :
      Stepped s .actorSend { s with actor := .idle, result := some (job, result) }

variable {H C}

theorem stepped_recvResult {s : Sys S} {job : Job} {result : JobResult S} (pc : s.pc = .select)
    (head : s.result = some (job, result)) :
    Stepped H C s .recvResult
      { s with
        det := (s.det.onResult result).1, pc := (s.det.onResult result).2.pc job, result := none,
        history := .gotResult job result :: s.history } := by
  cases result with
  | error e =>
    rw [Detector.onResult_error]
    exact .recvError s job e pc head
  | ok dual =>
    by_cases hstale : s.det.stale = true
    · rw [Detector.onResult_stale hstale]
      exact .recvStale s job dual pc head hstale
    have hfresh : s.det.stale = false := Bool.eq_false_iff.mpr hstale
    by_cases hp : s.det.Progress dual
    · by_cases hl : Detector.Lags s.det.latestSlot dual
      · rw [Detector.onResult_lagging hfresh hp hl]
        exact .recvLagging s job dual pc head hfresh hp hl
      · rw [Detector.onResult_emit hfresh hp hl]
        exact .recvEmit s job dual pc head hfresh hp hl
    · rw [Detector.onResult_ignored hfresh hp]
      exact .recvIgnored s job dual pc head hfresh hp

theorem step_stepped {s s' : Sys S} {a : Action S} (h : step H C s a = some s') :
    Stepped H C s a s' := by
  cases a with
  | sendStage update =>
    simp only [step] at h
    split at h
    · exact Option.some.inj h ▸ Stepped.sendStage s update ‹_›
    · cases h
  | sendAdvance update =>
    simp only [step] at h
    split at h
    · exact Option.some.inj h ▸ Stepped.sendAdvance s update ‹_›
    · cases h
  | recvStage =>
    simp only [step] at h
    split at h
    · exact Option.some.inj h ▸ Stepped.recvStage s _ ‹_› ‹_›
    · cases h
  | recvAdvance =>
    simp only [step] at h
    split at h
    · exact Option.some.inj h ▸ Stepped.recvAdvance s _ ‹_› ‹_›
    · cases h
  | recvResult =>
    simp only [step] at h
    split at h
    · exact Option.some.inj h ▸ stepped_recvResult ‹_› ‹_›
    · cases h
  | tick =>
    simp only [step] at h
    split at h
    · cases hf : s.det.inFlight with
      | true =>
        rw [hf] at h
        exact Option.some.inj h ▸ Stepped.tickBusy s ‹_› hf
      | false =>
        rw [hf] at h
        exact Option.some.inj h ▸ Stepped.tick s ‹_› hf
    · cases h
  | sendJob =>
    simp only [step] at h
    split at h
    · exact Option.some.inj h ▸ Stepped.jobClosed s _ ‹_› ‹_›
    · exact Option.some.inj h ▸ Stepped.sendJob s ‹_› ‹_›
    · cases h
  | sendOutput =>
    simp only [step] at h
    split at h
    · exact Option.some.inj h ▸ Stepped.sendOutput s _ _ ‹_› ‹_›
    · cases h
  | dropOutput =>
    simp only [step] at h
    split at h
    · exact Option.some.inj h ▸ Stepped.dropOutput s _ _ ‹_›
    · cases h
  | observe =>
    simp only [step] at h
    split at h
    · exact Option.some.inj h ▸ Stepped.observe s
    · cases h
  | actorRecv =>
    simp only [step] at h
    split at h
    · exact Option.some.inj h ▸ Stepped.actorRecv s _ ‹_› ‹_›
    · cases h
  | actorWork env =>
    simp only [step] at h
    split at h
    · obtain ⟨actor, hactor, rfl⟩ := Option.map_eq_some_iff.mp h
      exact Stepped.actorWork s env _ actor ‹_› hactor
    · cases h
  | actorSend =>
    simp only [step] at h
    split at h
    · exact Option.some.inj h ▸ Stepped.actorSend s _ _ ‹_› ‹_›
    · cases h

/-- what the state before an event has to do with it -/
def Event.Due (s : Sys S) : Event S → Prop
  | .sentStage _ => s.stage = none
  | .sentAdvance _ => s.advance = none
  | .gotStage update => s.stage = some update
  | .gotAdvance update => s.advance = some update
  | .submitted job => s.pc = .starting ∧ job = ⟨s.history.length, s.det.jobInput⟩
  | .gotResult job result => s.result = some (job, result)
  | .emitted job dual => s.pc = .emitting job dual

/-- a step records one event at most, and that one is due -/
theorem Stepped.history {s s' : Sys S} {a : Action S} (h : Stepped H C s a s') :
    s'.history = s.history ∨ ∃ e : Event S, s'.history = e :: s.history ∧ e.Due s := by
  cases h with
  | sendStage update room => exact Or.inr ⟨_, rfl, room⟩
  | sendAdvance update room => exact Or.inr ⟨_, rfl, room⟩
  | recvStage update pc head => exact Or.inr ⟨_, rfl, head⟩
  | recvAdvance update pc head => exact Or.inr ⟨_, rfl, head⟩
  | recvError job e pc head => exact Or.inr ⟨_, rfl, head⟩
  | recvStale job dual pc head stale => exact Or.inr ⟨_, rfl, head⟩
  | recvEmit job dual pc head fresh progress next => exact Or.inr ⟨_, rfl, head⟩
  | recvLagging job dual pc head fresh progress next => exact Or.inr ⟨_, rfl, head⟩
  | recvIgnored job dual pc head fresh ignored => exact Or.inr ⟨_, rfl, head⟩
  | sendJob pc room => exact Or.inr ⟨_, rfl, pc, rfl⟩
  | sendOutput job dual pc room => exact Or.inr ⟨_, rfl, pc⟩
  | tickBusy pc busy => exact Or.inl rfl
  | tick pc idle => exact Or.inl rfl
  | jobClosed lost pc dead => exact Or.inl rfl
  | dropOutput job dual pc => exact Or.inl rfl
  | observe => exact Or.inl rfl
  | actorRecv job idle head => exact Or.inl rfl
  | actorWork env job actor working answer => exact Or.inl rfl
  | actorSend job result sending room => exact Or.inl rfl

end
end ZkSymbiotic
