import ZkSymbiotic.Rpcs.Consensus

/-!
# The finality change detector

What the validation actor makes of a job, and the handlers of the detector's loop.

* `prepareJob`           one turn of the actor;
* `prepareJob_ok`        the windows of a result start where its job says;
* `Detector.onStage`, `onAdvance`, `onResult`, `onEmitted`, `jobInput`   the handlers.
-/

namespace ZkSymbiotic

/-! ## jobs -/

structure FinalityChangeDetectorUpdate where
  slot : UInt64
  storeHash : B256
deriving DecidableEq

structure FinalityChangeDetectorJobInput where
  slot : UInt64
  storeHash : B256
  nextExpectedOutput : Option FinalityChangeDetectorUpdate
deriving DecidableEq

section
variable (S : ConsensusSpec)

/-- the environment of the requests for the current and the next window -/
structure JobEnv where
  current : ConsensusHttpProxy S
  next : ConsensusHttpProxy S

end

section
variable {S : ConsensusSpec} (H : Helios S) (C : Crypto)

/-- both windows are prepared to the end (`join!`); then the error of the current one comes first -/
def joinWindows : Except Failure (ProofInputsWithWindow S) →
    Except Failure (ProofInputsWithWindow S) → Except Failure (DualProofInputsWithWindow S)
  | .error .panic, _ => .error .panic
  | _, .error .panic => .error .panic
  | .error .pending, _ => .error .pending
  | _, .error .pending => .error .pending
  | .error e, _ => .error e
  | .ok _, .error e => .error e
  | .ok current, .ok next => .ok { currentWindow := current, nextWindow := some next }

/-- one turn of `validate_and_prepare_proof_inputs_actor`; `none` is an environment in which
`ConsensusHttpProxy::from_env` fails -/
def prepareJob (env : Option (JobEnv S)) (job : FinalityChangeDetectorJobInput) :
    Except Failure (DualProofInputsWithWindow S) := do
  let env ← Except.okOr .panic env
  match job.nextExpectedOutput with
  | some next =>
    joinWindows (prepareConsensusMptProofInputs H C env.current job.slot job.storeHash true)
      (prepareConsensusMptProofInputs H C env.next next.slot next.storeHash true)
  | none => do
    let current ← prepareConsensusMptProofInputs H C env.current job.slot job.storeHash true
    pure { currentWindow := current, nextWindow := none }

theorem joinWindows_ok {current next : Except Failure (ProofInputsWithWindow S)}
    {dual : DualProofInputsWithWindow S} (h : joinWindows current next = .ok dual) :
    current = .ok dual.currentWindow ∧ ∃ w, next = .ok w ∧ dual.nextWindow = some w := by
  unfold joinWindows at h
  split at h
  case h_7 =>
    obtain rfl := Except.ok.inj h
    exact ⟨rfl, _, rfl, rfl⟩
  all_goals cases h

theorem joinWindows_pending {current next : Except Failure (ProofInputsWithWindow S)}
    (h : joinWindows current next = .error .pending) :
    current = .error .pending ∨ next = .error .pending := by
  unfold joinWindows at h
  split at h
  case h_3 => exact Or.inl rfl
  case h_4 => exact Or.inr rfl
  case h_5 =>
    cases h
    exact Or.inl rfl
  case h_6 =>
    cases h
    exact Or.inr rfl
  all_goals cases h

/-- a prepared job: its windows start where the job says -/
theorem prepareJob_ok {env : Option (JobEnv S)} {job : FinalityChangeDetectorJobInput}
    {dual : DualProofInputsWithWindow S} (h : prepareJob H C env job = .ok dual) :
    ∃ e, env = some e ∧
      prepareConsensusMptProofInputs H C e.current job.slot job.storeHash true
        = .ok dual.currentWindow ∧
      Option.Rel (fun next w =>
        prepareConsensusMptProofInputs H C e.next next.slot next.storeHash true = .ok w)
        job.nextExpectedOutput dual.nextWindow := by
  obtain ⟨e, he, h⟩ := Except.bind_eq_ok.mp h
  refine ⟨e, Except.okOr_eq_ok.mp he, ?_⟩
  cases hnext : job.nextExpectedOutput with
  | some next =>
    rw [hnext] at h
    obtain ⟨hcurrent, w, hw, hdual⟩ := joinWindows_ok h
    rw [hdual]
    exact ⟨hcurrent, Option.Rel.some hw⟩
  | none =>
    rw [hnext] at h
    obtain ⟨current, hcurrent, h⟩ := Except.bind_eq_ok.mp h
    obtain rfl := Except.pure_eq_ok.mp h
    exact ⟨hcurrent, Option.Rel.none⟩

/-- the current window of a prepared job starts at the slot of the job -/
theorem prepareJob_inputSlot {env : Option (JobEnv S)} {job : FinalityChangeDetectorJobInput}
    {dual : DualProofInputsWithWindow S} (h : prepareJob H C env job = .ok dual) :
    dual.currentWindow.inputSlot = job.slot := by
  obtain ⟨_, _, hcurrent, _⟩ := prepareJob_ok H C h
  obtain ⟨_, _, _, _, _, _, _, _, hslot, _⟩ := prepareConsensusMptProofInputs_ok H C hcurrent
  exact hslot

/-- a turn of the actor comes to an end -/
theorem prepareJob_ne_pending {env : Option (JobEnv S)} {job : FinalityChangeDetectorJobInput} :
    prepareJob H C env job ≠ .error .pending := by
  intro h
  rcases Except.bind_eq_error.mp h with h | ⟨e, _, h⟩
  · cases (Except.okOr_eq_error.mp h).2
  cases hnext : job.nextExpectedOutput with
  | some next =>
    rw [hnext] at h
    have hjoin : joinWindows
        (prepareConsensusMptProofInputs H C e.current job.slot job.storeHash true)
        (prepareConsensusMptProofInputs H C e.next next.slot next.storeHash true)
        = .error .pending := h
    rcases joinWindows_pending hjoin with h | h
    · exact prepareConsensusMptProofInputs_ne_pending H C h
    · exact prepareConsensusMptProofInputs_ne_pending H C h
  | none =>
    rw [hnext] at h
    rcases Except.bind_eq_error.mp h with h | ⟨_, _, h⟩
    · exact prepareConsensusMptProofInputs_ne_pending H C h
    · exact Except.pure_ne_error h

/-! ## the handlers of the loop -/

variable (S) in
structure Detector where
  slot : UInt64
  storeHash : B256
  latestSlot : UInt64
  inFlight : Bool
  stale : Bool
  nextExpectedOutput : Option FinalityChangeDetectorUpdate

variable (S) in
/-- what the loop does next: receive, start a job or emit -/
inductive Outcome where
  | select
  | start
  | emit (dual : DualProofInputsWithWindow S)

namespace Detector
variable (det : Detector)

def filteredNext : Option FinalityChangeDetectorUpdate :=
  match det.nextExpectedOutput with
  | some n => if n.slot ≠ det.slot then some n else none
  | none => none

/-- the job of `try_start_validation_job` -/
def jobInput : FinalityChangeDetectorJobInput where
  slot := det.slot
  storeHash := det.storeHash
  nextExpectedOutput := det.filteredNext

def onStage (update : FinalityChangeDetectorUpdate) : Detector :=
  { det with
    nextExpectedOutput := some update
    stale := if det.inFlight then true else det.stale }

def onAdvance (update : FinalityChangeDetectorUpdate) : Detector :=
  { det with
    slot := update.slot
    storeHash := update.storeHash
    latestSlot := update.slot
    stale := if det.inFlight then true else det.stale
    -- a next window that starts where the current one does now is scrubbed
    nextExpectedOutput :=
      match det.nextExpectedOutput with
      | some n => if n.slot = update.slot then none else some n
      | none => none }

def setInFlight (inFlight : Bool) : Detector := { det with inFlight }

def onEmitted (dual : DualProofInputsWithWindow S) : Detector :=
  { det with latestSlot := dual.currentWindow.expectedOutputSlot }

def onResult (result : Except Error (DualProofInputsWithWindow S)) : Detector × Outcome S :=
  let det := det.setInFlight false
  match result with
  | .error _ => (det, .select)
  | .ok dual =>
    if det.stale then ({ det with stale := false }, .start)
    else if dual.currentWindow.inputSlot = det.slot then
      if dual.currentWindow.expectedOutputSlot > det.latestSlot then
        match dual.nextWindow with
        | some nextWindow =>
          if nextWindow.expectedOutputSlot > det.latestSlot then (det, .emit dual)
          -- not emitted, but the threshold is raised as if it were
          else (det.onEmitted dual, .select)
        | none => (det, .emit dual)
      else (det, .select)
    else (det, .select)

/-! ## the five ways of a result -/

/-- the next window of `dual` is not ahead of the threshold -/
def Lags (latestSlot : UInt64) (dual : DualProofInputsWithWindow S) : Prop :=
  ∃ w, dual.nextWindow = some w ∧ w.expectedOutputSlot ≤ latestSlot

/-- the current window of `dual` starts where the detector is and is ahead of the threshold -/
def Progress (dual : DualProofInputsWithWindow S) : Prop :=
  dual.currentWindow.inputSlot = det.slot ∧
    det.latestSlot < dual.currentWindow.expectedOutputSlot

variable {det} {dual : DualProofInputsWithWindow S}

theorem onResult_error (e : Error) :
    det.onResult (S := S) (.error e) = (det.setInFlight false, .select) := rfl

theorem onResult_stale (h : det.stale = true) :
    det.onResult (.ok dual) = ({ det.setInFlight false with stale := false }, .start) := if_pos h

theorem onResult_fresh (h : det.stale = false) (hp : det.Progress dual) :
    det.onResult (.ok dual) =
      match dual.nextWindow with
      | some nextWindow =>
        if nextWindow.expectedOutputSlot > det.latestSlot then (det.setInFlight false, .emit dual)
        else ((det.setInFlight false).onEmitted dual, .select)
      | none => (det.setInFlight false, .emit dual) := by
  have hstale : ¬ (det.setInFlight false).stale = true := by
    show ¬ det.stale = true
    rw [h]
    decide
  exact (if_neg hstale).trans ((if_pos hp.1).trans (if_pos hp.2))

theorem onResult_emit (h : det.stale = false) (hp : det.Progress dual)
    (hl : ¬ Lags det.latestSlot dual) :
    det.onResult (.ok dual) = (det.setInFlight false, .emit dual) := by
  rw [onResult_fresh h hp]
  cases hn : dual.nextWindow with
  | none => rfl
  | some w => exact if_pos (UInt64.not_le.mp fun hle => hl ⟨w, hn, hle⟩)

theorem onResult_lagging (h : det.stale = false) (hp : det.Progress dual)
    (hl : Lags det.latestSlot dual) :
    det.onResult (.ok dual) = ((det.setInFlight false).onEmitted dual, .select) := by
  obtain ⟨w, hn, hle⟩ := hl
  rw [onResult_fresh h hp, hn]
  exact if_neg (UInt64.not_lt.mpr hle)

theorem onResult_ignored (h : det.stale = false) (hp : ¬ det.Progress dual) :
    det.onResult (.ok dual) = (det.setInFlight false, .select) := by
  have hstale : ¬ (det.setInFlight false).stale = true := by
    show ¬ det.stale = true
    rw [h]
    decide
  apply (if_neg hstale).trans
  by_cases hslot : dual.currentWindow.inputSlot = det.slot
  · have hahead : ¬ det.latestSlot < dual.currentWindow.expectedOutputSlot := fun ha =>
      hp ⟨hslot, ha⟩
    exact (if_pos hslot).trans (if_neg hahead)
  · exact if_neg hslot

end Detector
end
end ZkSymbiotic
