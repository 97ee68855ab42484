import ZkSymbiotic.Api.Prover
import ZkSymbiotic.Lib.Potential

/-!
# The prover jobs come to an end

Between two staged jobs the tasks end and their results are handled, in any order.  This stops after
a bounded number of steps, with every job handled or with the result that ended the process.

* `ProverSys.work`    what the tasks and the channel still have to do;
* `Inv.drained`       without tasks and results the table is empty;
* `prover_drains`     every way to go on without a new job.
-/

namespace ZkSymbiotic

section
variable {S : ConsensusSpec}

/-- a task ends, or its result is handled -/
def ProverAction.settles : ProverAction S → Bool
  | .finish _ _ => true
  | .handle => true
  | _ => false

namespace ProverSys
variable {s s' : ProverSys S}

/-! ## the work that is left -/

/-- a task has its end and its result before it -/
def work (s : ProverSys S) : Nat := s.tasks.length * 2 + s.queue.length

/-- a step that settles ends a task or handles the first result -/
inductive Settled (s : ProverSys S) : ProverSys S → Prop
  | finish {task : Nat} {job : FinalityUpdateJob S} (h : s.tasks[task]? = some job)
      (proved : Except Error SP1ProofWithPublicValues) : Settled s (s.finish task job proved)
  | handle {result : ProverJobResult} {queue : List ProverJobResult}
      (h : s.queue = result :: queue) : Settled s (s.handle result queue)

theorem step_settled {a : ProverAction S} (ha : a.settles = true) (h : step s a = some s') :
    s.status = .running ∧ s.Settled s' := by
  unfold step at h
  split at h
  case isFalse => cases h
  case isTrue hrun =>
    refine ⟨hrun, ?_⟩
    cases a with
    | stage w => cases ha
    | finalityEvent event => cases ha
    | finish task proved =>
      obtain ⟨job, hjob, rfl⟩ := Option.map_eq_some_iff.mp h
      exact .finish hjob proved
    | handle =>
      cases hqueue : s.queue with
      | nil =>
        rw [hqueue] at h
        cases h
      | cons result queue =>
        rw [hqueue] at h
        obtain rfl := Option.some.inj h
        exact .handle hqueue

theorem handle_tasks (result : ProverJobResult) (queue : List ProverJobResult) :
    (s.handle result queue).tasks = s.tasks := by
  unfold ProverSys.handle
  split
  · rfl
  · rfl

theorem handle_queue (result : ProverJobResult) (queue : List ProverJobResult) :
    (s.handle result queue).queue = queue := by
  unfold ProverSys.handle
  split
  · rfl
  · rfl

theorem handle_staged (result : ProverJobResult) (queue : List ProverJobResult) :
    (s.handle result queue).staged = s.staged := by
  unfold ProverSys.handle
  split
  · rfl
  · rfl

theorem Settled.work_lt (h : s.Settled s') : s'.work < s.work := by
  unfold work
  cases h with
  | finish htask proved =>
    obtain ⟨hlt, _⟩ := List.getElem?_eq_some_iff.mp htask
    show (s.tasks.eraseIdx _).length * 2 + (s.queue ++ [_]).length < _
    rw [List.length_eraseIdx_of_lt hlt, List.length_append, List.length_singleton]
    omega
  | handle hqueue =>
    rw [handle_tasks, handle_queue, hqueue, List.length_cons]
    omega

theorem Settled.staged (h : s.Settled s') : s'.staged = s.staged := by
  cases h with
  | finish htask proved => rfl
  | handle hqueue => exact handle_staged _ _

theorem run_staged {actions : List (ProverAction S)} : ∀ {s : ProverSys S},
    (∀ a ∈ actions, a.settles = true) → step.run s actions = some s' → s'.staged = s.staged := by
  induction actions with
  | nil =>
    intro s _ h
    obtain rfl := Option.some.inj h
    rfl
  | cons a actions ih =>
    intro s hsettles h
    obtain ⟨ha, hrest⟩ := List.forall_mem_cons.mp hsettles
    obtain ⟨s₁, hstep, hrun⟩ := Machine.run_cons_some (m := step) h
    exact (ih hrest hrun).trans (step_settled ha hstep).2.staged

/-! ## where the work ends -/

/-- the loop runs on exactly as long as no handled result has ended it -/
def StatusKept (s : ProverSys S) : Prop :=
  s.status = .running ↔ ∀ p ∈ s.handled, p.1.status = .running

theorem StatusKept.handle (hi : s.Inv) (h : s.StatusKept) (hrun : s.status = .running)
    {result : ProverJobResult} {queue : List ProverJobResult} (hqueue : s.queue = result :: queue) :
    (s.handle result queue).StatusKept := by
  obtain ⟨_, w, _, _, _, hlookup⟩ := hi.lookup_head hqueue
  rw [handle_eq hlookup]
  show result.status = .running ↔ ∀ p ∈ s.handled ++ [(result, w)], p.1.status = .running
  constructor
  · intro hresult p hp
    rcases List.mem_append.mp hp with hp | hp
    · exact h.mp hrun p hp
    · obtain rfl := List.mem_singleton.mp hp
      exact hresult
  · intro hall
    exact hall (result, w) (List.mem_append_right _ List.mem_cons_self)

theorem StatusKept.stepped (hi : s.Inv) (h : s.StatusKept) (hrun : s.status = .running)
    (hs : s.Stepped s') : s'.StatusKept := by
  cases hs with
  | stage w => exact h
  | finish htask proved => exact h
  | finalityEvent => exact h
  | handle hqueue => exact h.handle hi hrun hqueue

theorem statusKept_of_run {currentSlot : UInt64} {storeHash : B256}
    {actions : List (ProverAction S)}
    (h : step.run (init currentSlot storeHash) actions = some s) (hfew : s.staged.length < 2^64) :
    s.Inv ∧ s.StatusKept := by
  refine Machine.run_inv (I := fun s => s.staged.length < 2^64 → s.Inv ∧ s.StatusKept) ?_
    (fun _ => ⟨Inv.init currentSlot storeHash, ?_⟩) h hfew
  · intro s action s' hs hstep hfew'
    obtain ⟨hrun, hstepped⟩ := step_stepped hstep
    obtain ⟨hi, hkept⟩ := hs (lt_of_le_of_lt hstepped.staged_le hfew')
    exact ⟨hi.stepped hstepped hfew', hkept.stepped hi hrun hstepped⟩
  · exact ⟨fun _ _ hp => absurd hp List.not_mem_nil, fun _ => rfl⟩

/-- without tasks and results every staged job has been handled -/
theorem Inv.drained (hi : s.Inv) (htasks : s.tasks = []) (hqueue : s.queue = []) :
    s.handledIds.Perm s.stagedIds ∧ ∀ id, id ∉ s.loop.proverJobs := by
  have hsent : (s.sent.map Prod.fst).map (·.jobId) = s.handledIds := by
    have hids := hi.sentIds
    rw [hqueue, List.map_nil, List.append_nil] at hids
    rw [← hids, List.map_map]
    exact (List.map_congr_left hi.named).symm
  have hjobs := hi.jobs.map fun job => job.jobId
  rw [htasks, List.nil_append, hsent, List.map_map] at hjobs
  refine ⟨hjobs.symm, fun id hid => ?_⟩
  obtain ⟨hstaged, hnew⟩ := (hi.exact.keys id).mp hid
  exact hnew (hjobs.mem_iff.mp hstaged)

/-- where nothing settles any more, a result has ended the loop or all is drained -/
theorem Inv.stuck (hi : s.Inv) (hkept : s.StatusKept)
    (hstuck : ∀ a : ProverAction S, a.settles = true → step s a = none) :
    (∃ p ∈ s.handled, p.1.status = .exited) ∨
      s.handledIds.Perm s.stagedIds ∧ ∀ id, id ∉ s.loop.proverJobs := by
  by_cases hrun : s.status = .running
  · right
    refine hi.drained ?_ ?_
    · cases htasks : s.tasks with
      | nil => rfl
      | cons job tasks =>
        have hnone := hstuck (.finish 0 (.error (.msg ""))) rfl
        simp only [step, if_pos hrun, htasks, List.getElem?_cons_zero, Option.map_some] at hnone
        cases hnone
    · cases hqueue : s.queue with
      | nil => rfl
      | cons result queue =>
        have hnone := hstuck .handle rfl
        simp only [step, if_pos hrun, hqueue] at hnone
        cases hnone
  · left
    have hsome : ¬ ∀ p ∈ s.handled, p.1.status = .running := fun hall => hrun (hkept.mpr hall)
    push Not at hsome
    obtain ⟨p, hp, hne⟩ := hsome
    refine ⟨p, hp, ?_⟩
    cases hstatus : p.1.status with
    | running => exact absurd hstatus hne
    | exited => rfl
    | panicked => exact absurd hstatus p.1.status_ne_panicked

/-- **The prover jobs come to an end.**  From every reachable state, in whichever order the tasks end
and whatever the prover answers: without a new job at most two steps for each task and one for each
result are left; where no more is possible, a result with public values of a wrong length has ended
the process, or every staged job has been handled once and the table is empty; and some order gets
there. -/
theorem prover_drains {currentSlot : UInt64} {storeHash : B256} {before : List (ProverAction S)}
    (h : step.run (init currentSlot storeHash) before = some s) (hfew : s.staged.length < 2^64) :
    (∀ actions s', (∀ a ∈ actions, ProverAction.settles a = true) → step.run s actions = some s' →
      actions.length ≤ s.tasks.length * 2 + s.queue.length ∧
      ((∀ a : ProverAction S, a.settles = true → step s' a = none) →
        (∃ p ∈ s'.handled, p.1.status = .exited) ∨
          s'.handledIds.Perm s.stagedIds ∧ ∀ id, id ∉ s'.loop.proverJobs)) ∧
    ∃ actions s', (∀ a ∈ actions, ProverAction.settles a = true) ∧ step.run s actions = some s' ∧
      ∀ a : ProverAction S, a.settles = true → step s' a = none := by
  have hwork : ∀ (s : ProverSys S) (a : ProverAction S) (s' : ProverSys S), a.settles = true →
      step s a = some s' → s'.work < s.work :=
    fun _ _ _ ha hstep => (step_settled ha hstep).2.work_lt
  refine ⟨fun actions s' hsettles hrun => ⟨?_, fun hstuck => ?_⟩, ?_⟩
  · have hlength := Machine.run_length_le hwork hsettles hrun
    exact le_trans (Nat.le_add_left _ _) hlength
  · have hstaged := run_staged hsettles hrun
    have hreach : step.run (init currentSlot storeHash) (before ++ actions) = some s' :=
      (Machine.run_append_some _ h actions).trans hrun
    obtain ⟨hi, hkept⟩ := statusKept_of_run hreach (hstaged ▸ hfew)
    have hids : s'.stagedIds = s.stagedIds := by
      unfold stagedIds
      rw [hstaged]
    exact hids ▸ hi.stuck hkept hstuck
  · exact Machine.exists_run_stuck hwork s

end ProverSys

end

/-- of the two jobs of `proverRun` one is handled and the other one's result waits -/
theorem prover_drains_devnet : ∃ s,
    ProverSys.step.run (.init 32 (Devnet.digest 32)) Devnet.proverRun = some s ∧
    ∀ actions s', (∀ a ∈ actions, ProverAction.settles a = true) →
      ProverSys.step.run s actions = some s' → actions.length ≤ 1 := by
  refine ⟨_, rfl, fun actions s' hsettles hrun => ?_⟩
  have hdrains := ProverSys.prover_drains
    (show ProverSys.step.run (.init 32 (Devnet.digest 32)) Devnet.proverRun = some _ from rfl)
    (by decide)
  exact (hdrains.1 actions s' hsettles hrun).1

end ZkSymbiotic
