import ZkSymbiotic.Api.Progress
import ZkSymbiotic.Api.Prover

/-!
# The process as it is wired

`EventLoop::run` holds the other ends of the detector's channels.  It receives what the detector
emits and drops it, stages nothing and sends no update, so the two machines hardly meet.

* `Process`, `Process.step`   the detector and the event loop in one process;
* `Sys.Undisturbed`           a detector that was never sent an update;
* `process_stays_at_start`    no run leaves the cold start behind.
-/

namespace ZkSymbiotic

/-! ## the machine -/

section
variable (S : ConsensusSpec)

structure Process where
  detector : Sys S
  prover : ProverSys S

inductive ProcessAction where
  | detector (action : Action S)
  | finalityEvent
  | finish (task : Nat) (proved : Except Error SP1ProofWithPublicValues)
  | handle

end

section
variable {S : ConsensusSpec}

/-- what the detector does by itself; the other ends of its channels are the event loop's, which
keeps them open -/
def Action.own : Action S → Bool
  | .sendStage _ => false
  | .sendAdvance _ => false
  | .dropOutput => false
  | .observe => false
  | _ => true

/-- after the cold start, without a pipelined job -/
def Process.new (slot : UInt64) (storeHash : B256) : Process S where
  detector := Sys.init slot storeHash none
  prover := ProverSys.init slot storeHash

variable (H : Helios S) (C : Crypto)

def Process.step : Machine (Process S) (ProcessAction S) := fun s action =>
  match s.detector.pc with
  -- `process::exit` of the detector
  | .exited => none
  | _ =>
    match action with
    | .detector action =>
      if action.own then
        (ZkSymbiotic.step H C s.detector action).map fun detector => { s with detector }
      else none
    | .finalityEvent =>
      match s.detector.output with
      | some event =>
        (ProverSys.step s.prover (.finalityEvent event)).bind fun prover =>
          (ZkSymbiotic.step H C s.detector .observe).map fun detector => { detector, prover }
      | none => none
    | .finish task proved =>
      (ProverSys.step s.prover (.finish task proved)).map fun prover => { s with prover }
    | .handle => (ProverSys.step s.prover .handle).map fun prover => { s with prover }

/-- the steps one by one; each is a step of the detector, of the event loop, or of both -/
inductive Process.Stepped (s : Process S) : Process S → Prop
  | detector {action : Action S} {detector : Sys S} (own : action.own = true)
      (moves : ZkSymbiotic.step H C s.detector action = some detector) :
      Stepped s { s with detector }
  | finalityEvent {event : DualProofInputsWithWindow S} {detector : Sys S} {prover : ProverSys S}
      (receives : ProverSys.step s.prover (.finalityEvent event) = some prover)
      (moves : ZkSymbiotic.step H C s.detector .observe = some detector) :
      Stepped s { detector, prover }
  | finish {task : Nat} {proved : Except Error SP1ProofWithPublicValues} {prover : ProverSys S}
      (ends : ProverSys.step s.prover (.finish task proved) = some prover) :
      Stepped s { s with prover }
  | handle {prover : ProverSys S} (receives : ProverSys.step s.prover .handle = some prover) :
      Stepped s { s with prover }

variable {H C}

theorem Process.step_stepped {s s' : Process S} {action : ProcessAction S}
    (h : Process.step H C s action = some s') : s.Stepped H C s' := by
  unfold Process.step at h
  split at h
  · cases h
  cases action with
  | detector action =>
    by_cases hown : action.own = true
    · simp only [if_pos hown] at h
      obtain ⟨detector, hmoves, rfl⟩ := Option.map_eq_some_iff.mp h
      exact .detector hown hmoves
    · simp only [if_neg hown] at h
      cases h
  | finalityEvent =>
    simp only at h
    split at h
    · obtain ⟨prover, hreceives, h⟩ := Option.bind_eq_some_iff.mp h
      obtain ⟨detector, hmoves, rfl⟩ := Option.map_eq_some_iff.mp h
      exact .finalityEvent hreceives hmoves
    · cases h
  | finish task proved =>
    obtain ⟨prover, hends, rfl⟩ := Option.map_eq_some_iff.mp h
    exact .finish hends
  | handle =>
    obtain ⟨prover, hreceives, rfl⟩ := Option.map_eq_some_iff.mp h
    exact .handle hreceives

/-! ## the detector in the process -/

theorem Stepped.stays_exited {s s' : Sys S} {a : Action S} (h : Stepped H C s a s')
    (hpc : s.pc = .exited) : s'.pc = .exited := by
  cases h with
  | recvStage update pc head => exact absurd (pc.symm.trans hpc) nofun
  | recvAdvance update pc head => exact absurd (pc.symm.trans hpc) nofun
  | recvError job e pc head => exact absurd (pc.symm.trans hpc) nofun
  | recvStale job dual pc head stale => exact absurd (pc.symm.trans hpc) nofun
  | recvEmit job dual pc head fresh progress next => exact absurd (pc.symm.trans hpc) nofun
  | recvLagging job dual pc head fresh progress next => exact absurd (pc.symm.trans hpc) nofun
  | recvIgnored job dual pc head fresh ignored => exact absurd (pc.symm.trans hpc) nofun
  | tick pc idle => exact absurd (pc.symm.trans hpc) nofun
  | sendJob pc room => exact absurd (pc.symm.trans hpc) nofun
  | jobClosed lost pc dead => rfl
  | sendOutput job dual pc room => exact absurd (pc.symm.trans hpc) nofun
  | dropOutput job dual pc => rfl
  | _ => exact hpc

theorem Process.step_detector {s : Process S} {a : Action S} {detector : Sys S}
    (hpc : s.detector.pc ≠ .exited) (hown : a.own = true)
    (h : ZkSymbiotic.step H C s.detector a = some detector) :
    Process.step H C s (.detector a) = some { s with detector } := by
  unfold Process.step
  split
  · exact absurd ‹_› hpc
  · simp only [if_pos hown, h, Option.map_some]

/-- the event loop receives what the detector has sent out -/
theorem Process.step_finalityEvent {s : Process S} {detector : Sys S}
    (hpc : s.detector.pc ≠ .exited) (hrunning : s.prover.status = .running)
    (h : ZkSymbiotic.step H C s.detector .observe = some detector) :
    Process.step H C s .finalityEvent = some { s with detector } := by
  unfold Process.step
  split
  · exact absurd ‹_› hpc
  · cases hout : s.detector.output with
    | none =>
      simp only [ZkSymbiotic.step, hout] at h
      cases h
    | some event => simp only [ProverSys.step, if_pos hrunning, h, Option.bind_some, Option.map_some]

/-- what the detector does by itself it does in the process, as long as its loop goes on -/
theorem Process.run_detector {d' : Sys S} {actions : List (Action S)}
    (hown : ∀ a ∈ actions, a.own = true) (hpc : d'.pc ≠ .exited) (prover : ProverSys S) :
    ∀ {d : Sys S}, (ZkSymbiotic.step H C).run d actions = some d' →
      (Process.step H C).run { detector := d, prover } (actions.map .detector)
        = some { detector := d', prover } := by
  induction actions with
  | nil =>
    intro d h
    obtain rfl := Option.some.inj h
    rfl
  | cons a actions ih =>
    intro d h
    obtain ⟨d₁, hstep, hrun⟩ := Machine.run_cons_some (m := ZkSymbiotic.step H C) h
    obtain ⟨ha, hrest⟩ := List.forall_mem_cons.mp hown
    have hd : d.pc ≠ .exited := by
      intro hexited
      refine hpc (Machine.run_inv (I := fun s => s.pc = .exited) ?_ hexited h)
      exact fun _ _ _ hs hstep => (ZkSymbiotic.step_stepped hstep).stays_exited hs
    rw [List.map_cons, Machine.run_cons, Process.step_detector hd ha hstep]
    exact ih hrest hrun

/-! ## a detector without updates -/

variable (H C) in
/-- an event of a detector whose job never changes -/
def Event.OfStart (start : FinalityChangeDetectorJobInput) : Event S → Prop
  | .gotStage _ => False
  | .gotAdvance _ => False
  | .submitted job => job.input = start
  | .emitted _ dual => ∃ env, prepareJob H C env start = .ok dual
  | _ => True

/-- the job of the cold start -/
def startJob (slot : UInt64) (storeHash : B256) : FinalityChangeDetectorJobInput where
  slot
  storeHash
  nextExpectedOutput := none

variable (H C) in
/-- nothing was received that would change the job of the cold start -/
structure Sys.Undisturbed (slot : UInt64) (storeHash : B256) (s : Sys S) : Prop where
  slot_eq : s.det.slot = slot
  storeHash_eq : s.det.storeHash = storeHash
  next : s.det.nextExpectedOutput = none
  stage : s.stage = none
  advance : s.advance = none
  history : ∀ e ∈ s.history, e.OfStart H C (startJob slot storeHash)

section
variable {slot : UInt64} {storeHash : B256} {s s' : Sys S}

theorem Sys.Undisturbed.init :
    (Sys.init slot storeHash none : Sys S).Undisturbed H C slot storeHash where
  slot_eq := rfl
  storeHash_eq := rfl
  next := rfl
  stage := rfl
  advance := rfl
  history := fun _ h => absurd h List.not_mem_nil

theorem Sys.Undisturbed.jobInput (h : s.Undisturbed H C slot storeHash) :
    s.det.jobInput = startJob slot storeHash := by
  unfold Detector.jobInput Detector.filteredNext startJob
  rw [h.slot_eq, h.storeHash_eq, h.next]

/-- what a step records is of the job of the cold start -/
theorem Sys.Undisturbed.records (h : s.Undisturbed H C slot storeHash) (hi : Inv H C s) {e : Event S}
    (he : e.Due s) : e.OfStart H C (startJob slot storeHash) := by
  cases e with
  | gotStage update => exact absurd (h.stage.symm.trans he) nofun
  | gotAdvance update => exact absurd (h.advance.symm.trans he) nofun
  | submitted job =>
    obtain ⟨_, rfl⟩ := he
    exact h.jobInput
  | emitted job dual =>
    obtain ⟨hlast, hupdated, env, henv⟩ := hi.emitting job dual he
    rw [hi.input job hlast hupdated, h.jobInput] at henv
    exact ⟨env, henv⟩
  | _ => exact trivial

/-- steps of the detector's own, and the reception of its output, leave it undisturbed -/
theorem Sys.Undisturbed.step (h : s.Undisturbed H C slot storeHash) (hi : Inv H C s) {a : Action S}
    (ha : a.own = true ∨ a = .observe) (hs : Stepped H C s a s') :
    s'.Undisturbed H C slot storeHash := by
  have hhistory : ∀ e ∈ s'.history, e.OfStart H C (startJob slot storeHash) := by
    rcases hs.history with heq | ⟨e, heq, hdue⟩
    · exact heq ▸ h.history
    · exact heq ▸ List.forall_mem_cons.mpr ⟨h.records hi hdue, h.history⟩
  have hsent : a.own = false → a ≠ .observe → False := by
    intro hown hne
    rcases ha with ha | ha
    · rw [hown] at ha
      cases ha
    · exact hne ha
  cases hs with
  | sendStage update room => exact (hsent rfl nofun).elim
  | sendAdvance update room => exact (hsent rfl nofun).elim
  | recvStage update pc head => exact absurd (h.stage.symm.trans head) nofun
  | recvAdvance update pc head => exact absurd (h.advance.symm.trans head) nofun
  | dropOutput job dual pc => exact (hsent rfl nofun).elim
  | _ => exact ⟨h.slot_eq, h.storeHash_eq, h.next, h.stage, h.advance, hhistory⟩

end

/-! ## runs of the process -/

variable (H C) in
structure Process.AtStart (slot : UInt64) (storeHash : B256) (s : Process S) : Prop where
  prover : s.prover = ProverSys.init slot storeHash
  detector : s.detector.Undisturbed H C slot storeHash
  inv : Inv H C s.detector
  climbing : Climbing slot s.detector

theorem Process.AtStart.new (slot : UInt64) (storeHash : B256) :
    (Process.new slot storeHash : Process S).AtStart H C slot storeHash where
  prover := rfl
  detector := .init
  inv := Inv.init slot storeHash none
  climbing := Climbing.init slot storeHash none

theorem Process.AtStart.step {slot : UInt64} {storeHash : B256} {s s' : Process S}
    (h : s.AtStart H C slot storeHash) (hs : s.Stepped H C s') : s'.AtStart H C slot storeHash := by
  cases hs with
  | detector own moves =>
    have hstepped := ZkSymbiotic.step_stepped moves
    exact ⟨h.prover, h.detector.step h.inv (.inl own) hstepped, h.inv.step hstepped,
      h.climbing.step hstepped⟩
  | finalityEvent receives moves =>
    have hstepped := ZkSymbiotic.step_stepped moves
    rw [h.prover] at receives
    obtain rfl := Option.some.inj receives
    exact ⟨rfl, h.detector.step h.inv (.inr rfl) hstepped, h.inv.step hstepped,
      h.climbing.step hstepped⟩
  | finish ends =>
    -- there is no task to end
    rw [h.prover] at ends
    cases ends
  | handle receives =>
    rw [h.prover] at receives
    cases receives

/-- **The process stays at its cold start.**  In every run, whatever the providers answer, the event
loop is as it began, with no job staged and none at the prover; the detector still starts its windows
at the slot and store of the cold start; and all it has emitted are single windows prepared from
there, each ending later than the ones before. -/
theorem process_stays_at_start {slot : UInt64} {storeHash : B256} {actions : List (ProcessAction S)}
    {s : Process S} (h : (Process.step H C).run (Process.new slot storeHash) actions = some s) :
    s.prover = ProverSys.init slot storeHash ∧
    s.detector.det.jobInput = startJob slot storeHash ∧
    (∀ job dual, .emitted job dual ∈ s.detector.history → dual.nextWindow = none ∧
      ∃ proxy, prepareConsensusMptProofInputs H C proxy slot storeHash true
        = .ok dual.currentWindow) ∧
    (emittedSlots s.detector.history).Pairwise (fun later earlier => earlier < later) ∧
    ∀ v ∈ emittedSlots s.detector.history, slot < v := by
  have hs : s.AtStart H C slot storeHash := Machine.run_inv (I := Process.AtStart H C slot storeHash)
    (fun _ _ _ hs hstep => hs.step (Process.step_stepped hstep)) (.new slot storeHash) h
  refine ⟨hs.prover, hs.detector.jobInput, fun job dual hmem => ?_, ?_⟩
  · obtain ⟨env, henv⟩ := hs.detector.history _ hmem
    obtain ⟨e, _, hcurrent, hnext⟩ := prepareJob_ok H C henv
    refine ⟨?_, e.current, hcurrent⟩
    cases hw : dual.nextWindow with
    | none => rfl
    | some w =>
      rw [hw] at hnext
      cases hnext
  · have hquiet : ∀ u, .gotAdvance u ∉ s.detector.history := fun u hu => hs.detector.history _ hu
    have hsuffix : s.detector.history ++ [] <:+ s.detector.history := by
      rw [List.append_nil]
    exact hs.climbing.climbs.window hquiet hsuffix

end

namespace Devnet

/-- the process up to its first window, which the event loop receives -/
def firstWindow : List (ProcessAction spec) :=
  (round (env 64 64) ++ [Action.recvResult, Action.sendOutput]).map .detector ++ [.finalityEvent]

theorem run_firstWindow :
    (Process.step helios crypto).run (Process.new 32 (digest 32)) firstWindow
      = some
          { detector := (start 32).emits (solo 32 64)
            prover := ProverSys.init 32 (digest 32) } := by
  have hrun := run_firstEmission
  rw [show round (env 64 64) ++ [Action.recvResult, .sendOutput, .observe]
    = (round (env 64 64) ++ [Action.recvResult, .sendOutput]) ++ [.observe] from rfl,
    Machine.run_append] at hrun
  obtain ⟨d, hd, hobserve⟩ := Option.bind_eq_some_iff.mp hrun
  obtain ⟨_, hstep, hlast⟩ := Machine.run_cons_some (m := step helios crypto) hobserve
  obtain rfl := Option.some.inj hlast
  have hpc : d.pc ≠ .exited := by
    intro hexited
    exact absurd ((step_stepped hstep).stays_exited hexited) nofun
  have hown : ∀ a ∈ round (env 64 64) ++ [Action.recvResult, Action.sendOutput], a.own = true := by
    simp [round, Action.own]
  have hdetector : (Process.step helios crypto).run (Process.new 32 (digest 32))
      ((round (env 64 64) ++ [Action.recvResult, Action.sendOutput]).map .detector)
        = some { detector := d, prover := ProverSys.init 32 (digest 32) } :=
    Process.run_detector hown hpc _ hd
  rw [firstWindow, Machine.run_append_some _ hdetector, Machine.run_cons,
    Process.step_finalityEvent hpc rfl hstep]
  rfl

end Devnet

/-- the first window of the process starts at its cold start -/
theorem process_stays_at_start_devnet :
    ∃ proxy, prepareConsensusMptProofInputs Devnet.helios Devnet.crypto proxy 32 (Devnet.digest 32)
      true = .ok (Devnet.window 32 64) := by
  obtain ⟨_, _, hemitted, _⟩ := process_stays_at_start Devnet.run_firstWindow
  exact (hemitted _ (Devnet.solo 32 64) List.mem_cons_self).2

end ZkSymbiotic
