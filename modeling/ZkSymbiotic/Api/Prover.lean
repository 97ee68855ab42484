import Mathlib.Data.List.Nodup
import ZkSymbiotic.Codec
import ZkSymbiotic.Lib.Machine
import ZkSymbiotic.Api.EventLoop

/-!
# The table of prover jobs

The event loop, the prover tasks that it has spawned and the channel they answer on, as one machine:
tasks end in any order, and the loop handles their results one by one.

* `ProverSys`, `step`     the machine; `staged`, `sent` and `handled` are what has happened so far;
* `ProverSys.Inv`         every staged job is at its task, in the channel or handled;
* `prover_jobs_exact`     the table is exact, and no `unwrap` of an entry panics.
-/

namespace ZkSymbiotic

/-! ## results and their handlers -/

/-- only the public values of a proof are read -/
structure SP1ProofWithPublicValues where
  publicValues : Bytes

structure ProverJobOutput where
  jobId : UInt64
  inputHead : UInt64
  proof : SP1ProofWithPublicValues

structure ProverJobError where
  jobId : UInt64
  error : Error

abbrev ProverJobResult := Except ProverJobError ProverJobOutput

def ProverJobResult.jobId : ProverJobResult → UInt64
  | .ok output => output.jobId
  | .error err => err.jobId

inductive LoopStatus where
  | running
  | exited
  | panicked
deriving DecidableEq

/-- where a result leaves the loop: public values of a wrong length end it -/
def ProverJobResult.status : ProverJobResult → LoopStatus
  | .ok output =>
    if output.proof.publicValues.length = ProofOutputs.size then .running else .exited
  | .error _ => .running

theorem ProverJobResult.status_ne_panicked (result : ProverJobResult) :
    result.status ≠ .panicked := by
  unfold ProverJobResult.status
  split
  · split
    · exact nofun
    · exact nofun
  · exact nofun

section
variable (S : ConsensusSpec)

/-- what a handler leaves: the loop, the inputs that it looked up, and what it returned -/
structure Handled where
  loop : EventLoop S
  inputsWithWindow : ProofInputsWithWindow S
  result : Except Failure Unit

structure ProverSys where
  loop : EventLoop S
  tasks : List (FinalityUpdateJob S)
  queue : List ProverJobResult
  status : LoopStatus
  staged : List (FinalityUpdateJob S × ProofInputsWithWindow S)
  sent : List (FinalityUpdateJob S × ProverJobResult)
  handled : List (ProverJobResult × ProofInputsWithWindow S)

inductive ProverAction where
  | stage (inputsWithWindow : ProofInputsWithWindow S)
  | finish (task : Nat) (proved : Except Error SP1ProofWithPublicValues)
  | finalityEvent (event : DualProofInputsWithWindow S)
  | handle

end

section
variable {S : ConsensusSpec}

/-- the prover answers, or fails at the encoding, the proof or the join -/
def finalityUpdateJob (job : FinalityUpdateJob S)
    (proved : Except Error SP1ProofWithPublicValues) : Except Error ProverJobOutput := do
  let proof ← proved
  return { proof, inputHead := job.inputHead, jobId := job.jobId }

/-- what the spawned task sends -/
def FinalityUpdateJob.result (job : FinalityUpdateJob S)
    (proved : Except Error SP1ProofWithPublicValues) : ProverJobResult :=
  match finalityUpdateJob job proved with
  | .ok proverJobOutput => .ok proverJobOutput
  | .error error => .error { jobId := job.jobId, error }

namespace EventLoop

def new (currentSlot : UInt64) (storeHash : B256) : EventLoop S where
  currentSlot := currentSlot
  jobId := 0
  proverJobs := ∅
  storeHash := storeHash

/-- `get` with its `unwrap`, then `remove` -/
def takeJob (self : EventLoop S) (jobId : UInt64) :
    Except Failure (ProofInputsWithWindow S × EventLoop S) := do
  let inputsWithWindow ← Except.okOr .panic (self.proverJobs.lookup jobId)
  return (inputsWithWindow, { self with proverJobs := self.proverJobs.erase jobId })

def handleProverSuccess (self : EventLoop S) (jobId : UInt64) (proof : SP1ProofWithPublicValues) :
    Except Failure (Handled S) := do
  let (inputsWithWindow, loop) ← self.takeJob jobId
  let result := (ProofOutputs.fromBytes proof.publicValues).map fun _ => ()
  return { loop, inputsWithWindow, result }

def handleProverFailure (self : EventLoop S) (err : ProverJobError) :
    Except Failure (Handled S) := do
  let (inputsWithWindow, loop) ← self.takeJob err.jobId
  return { loop, inputsWithWindow, result := .ok () }

/-- the arm of the job receiver in `run` -/
def handleJobResult (self : EventLoop S) : ProverJobResult → Except Failure (Handled S)
  | .ok output => self.handleProverSuccess output.jobId output.proof
  | .error err => self.handleProverFailure err

end EventLoop

/-- an error of a handler is the end of the process -/
def Handled.status (handled : Handled S) : LoopStatus :=
  match handled.result with
  | .ok _ => .running
  | .error .panic => .panicked
  | .error _ => .exited

/-! ## the machine -/

namespace ProverSys

def init (currentSlot : UInt64) (storeHash : B256) : ProverSys S where
  loop := .new currentSlot storeHash
  tasks := []
  queue := []
  status := .running
  staged := []
  sent := []
  handled := []

/-- the update for the detector is sent while the loop is held: only tasks go on meanwhile -/
def stage (s : ProverSys S) (w : ProofInputsWithWindow S) : ProverSys S :=
  let (loop, job, _) := s.loop.stageTransitionProof w
  { s with loop, tasks := s.tasks ++ [job], staged := s.staged ++ [(job, w)] }

def finish (s : ProverSys S) (task : Nat) (job : FinalityUpdateJob S)
    (proved : Except Error SP1ProofWithPublicValues) : ProverSys S :=
  { s with
    tasks := s.tasks.eraseIdx task
    queue := s.queue ++ [job.result proved]
    sent := s.sent ++ [(job, job.result proved)] }

def handle (s : ProverSys S) (result : ProverJobResult) (queue : List ProverJobResult) :
    ProverSys S :=
  match s.loop.handleJobResult result with
  | .error _ => { s with queue, status := .panicked }
  | .ok handled =>
    { s with
      loop := handled.loop
      queue
      status := handled.status
      handled := s.handled ++ [(result, handled.inputsWithWindow)] }

def step : Machine (ProverSys S) (ProverAction S) := fun s action =>
  if s.status = .running then
    match action with
    | .stage w => some (s.stage w)
    | .finish task proved => s.tasks[task]?.map fun job => s.finish task job proved
    -- the arm of the finality events is empty
    | .finalityEvent _ => some s
    | .handle =>
      match s.queue with
      | [] => none
      | result :: queue => some (s.handle result queue)
  else none

/-- the steps one by one -/
inductive Stepped (s : ProverSys S) : ProverSys S → Prop
  | stage (w : ProofInputsWithWindow S) : Stepped s (s.stage w)
  | finish {task : Nat} {job : FinalityUpdateJob S} (h : s.tasks[task]? = some job)
      (proved : Except Error SP1ProofWithPublicValues) : Stepped s (s.finish task job proved)
  | finalityEvent : Stepped s s
  | handle {result : ProverJobResult} {queue : List ProverJobResult}
      (h : s.queue = result :: queue) : Stepped s (s.handle result queue)

theorem step_stepped {s s' : ProverSys S} {action : ProverAction S}
    (h : step s action = some s') : s.status = .running ∧ s.Stepped s' := by
  unfold step at h
  split at h
  case isFalse => cases h
  case isTrue hrun =>
    refine ⟨hrun, ?_⟩
    cases action with
    | stage w =>
      obtain rfl := Option.some.inj h
      exact .stage w
    | finish task proved =>
      obtain ⟨job, hjob, rfl⟩ := Option.map_eq_some_iff.mp h
      exact .finish hjob proved
    | finalityEvent =>
      obtain rfl := Option.some.inj h
      exact .finalityEvent
    | handle =>
      cases hqueue : s.queue with
      | nil =>
        rw [hqueue] at h
        cases h
      | cons result queue =>
        rw [hqueue] at h
        obtain rfl := Option.some.inj h
        exact .handle hqueue

/-! ## where every job is -/

def stagedIds (s : ProverSys S) : List UInt64 := s.staged.map fun p => p.1.jobId

def handledIds (s : ProverSys S) : List UInt64 := s.handled.map fun p => p.1.jobId

/-- the numbers that were given out are 1, 2, … -/
structure Inv (s : ProverSys S) : Prop where
  jobs : (s.staged.map Prod.fst).Perm (s.tasks ++ s.sent.map Prod.fst)
  results : s.sent.map Prod.snd = s.handled.map Prod.fst ++ s.queue
  numbers : s.staged.map (fun p => p.1.jobId.toNat) = List.range' 1 s.staged.length
  counter : s.loop.jobId.toNat = s.staged.length
  inputs : ∀ p ∈ s.staged, p.1.inputs = p.2.proofInputs
  named : ∀ p ∈ s.sent, p.2.jobId = p.1.jobId
  table : ∀ id w, s.loop.proverJobs.lookup id = some w ↔
    (∃ job, (job, w) ∈ s.staged ∧ job.jobId = id) ∧ id ∉ s.handledIds
  looked : ∀ p ∈ s.handled, ∃ job, (job, p.2) ∈ s.staged ∧ job.jobId = p.1.jobId
  safe : s.status ≠ .panicked

theorem Inv.init (currentSlot : UInt64) (storeHash : B256) :
    (init currentSlot storeHash : ProverSys S).Inv where
  jobs := List.Perm.nil
  results := rfl
  numbers := rfl
  counter := rfl
  inputs := fun _ h => absurd h List.not_mem_nil
  named := fun _ h => absurd h List.not_mem_nil
  table := by
    intro id w
    constructor
    · intro h
      cases h
    · rintro ⟨⟨job, hjob, _⟩, _⟩
      cases hjob
  looked := fun _ h => absurd h List.not_mem_nil
  safe := nofun

variable {s s' : ProverSys S}

theorem Inv.stagedIds_nodup (hi : s.Inv) : s.stagedIds.Nodup := by
  have hnumbers : (s.stagedIds.map UInt64.toNat).Nodup := by
    rw [stagedIds, List.map_map]
    exact hi.numbers ▸ List.nodup_range'
  exact hnumbers.of_map

/-- a number that was given out is that of one job -/
theorem Inv.staged_inj (hi : s.Inv) {p q : FinalityUpdateJob S × ProofInputsWithWindow S}
    (hp : p ∈ s.staged) (hq : q ∈ s.staged) (h : p.1.jobId = q.1.jobId) : p = q :=
  List.inj_on_of_nodup_map hi.stagedIds_nodup hp hq h

theorem Inv.sent_mem (hi : s.Inv) {job : FinalityUpdateJob S} {result : ProverJobResult}
    (h : (job, result) ∈ s.sent) : ∃ w, (job, w) ∈ s.staged := by
  have hjob : job ∈ s.staged.map Prod.fst :=
    hi.jobs.mem_iff.mpr (List.mem_append_right _ (List.mem_map.mpr ⟨_, h, rfl⟩))
  obtain ⟨⟨_, w⟩, hmem, rfl⟩ := List.mem_map.mp hjob
  exact ⟨w, hmem⟩

theorem Inv.sentIds (hi : s.Inv) :
    (s.sent.map fun p => p.2.jobId) = s.handledIds ++ s.queue.map ProverJobResult.jobId := by
  have hmap := congrArg (List.map ProverJobResult.jobId) hi.results
  rw [List.map_append, List.map_map, List.map_map] at hmap
  exact hmap

theorem Inv.sentIds_nodup (hi : s.Inv) : (s.sent.map fun p => p.2.jobId).Nodup := by
  have hids : (s.sent.map fun p => p.2.jobId) = (s.sent.map Prod.fst).map (·.jobId) := by
    rw [List.map_map]
    exact List.map_congr_left hi.named
  have hperm := hi.jobs.map fun job => job.jobId
  have hnodup : ((s.staged.map Prod.fst).map fun job => job.jobId).Nodup := by
    rw [List.map_map]
    exact hi.stagedIds_nodup
  rw [hids]
  rw [hperm.nodup_iff, List.map_append] at hnodup
  exact hnodup.of_append_right

theorem Inv.queued_new (hi : s.Inv) {result : ProverJobResult} {queue : List ProverJobResult}
    (hqueue : s.queue = result :: queue) : result.jobId ∉ s.handledIds := by
  have hnodup := hi.sentIds_nodup
  rw [hi.sentIds, hqueue, List.map_cons] at hnodup
  intro hold
  exact List.disjoint_of_nodup_append hnodup hold List.mem_cons_self

/-- the result at the head of the channel is that of an entry of the table -/
theorem Inv.lookup_head (hi : s.Inv) {result : ProverJobResult} {queue : List ProverJobResult}
    (hqueue : s.queue = result :: queue) : ∃ job w, (job, result) ∈ s.sent ∧ (job, w) ∈ s.staged ∧
      job.jobId = result.jobId ∧ s.loop.proverJobs.lookup result.jobId = some w := by
  have hsent : result ∈ s.sent.map Prod.snd := by
    rw [hi.results, hqueue]
    exact List.mem_append_right _ List.mem_cons_self
  obtain ⟨⟨job, result'⟩, hmem, hresult⟩ := List.mem_map.mp hsent
  obtain rfl : result' = result := hresult
  obtain ⟨w, hw⟩ := hi.sent_mem hmem
  have hid : job.jobId = result'.jobId := (hi.named _ hmem).symm
  exact ⟨job, w, hmem, hw, hid, (hi.table _ w).mpr ⟨⟨job, hw, hid⟩, hi.queued_new hqueue⟩⟩

/-! ## the handlers -/

theorem takeJob_eq {loop : EventLoop S} {id : UInt64} {w : ProofInputsWithWindow S}
    (h : loop.proverJobs.lookup id = some w) :
    loop.takeJob id = .ok (w, { loop with proverJobs := loop.proverJobs.erase id }) := by
  unfold EventLoop.takeJob
  rw [h]
  rfl

/-- reading the outputs of a proof may fail, but never panics -/
theorem fromBytes_status (b : Bytes) {loop : EventLoop S} {w : ProofInputsWithWindow S} :
    Handled.status ⟨loop, w, (ProofOutputs.fromBytes b).map fun _ => ()⟩
      = if b.length = ProofOutputs.size then .running else .exited := by
  rcases ProofOutputs.fromBytes_cases b with ⟨x, rfl, hread⟩ | ⟨hlen, e, hread⟩
  · rw [hread, if_pos x.layout_length]
    rfl
  · rw [hread, if_neg hlen]
    rfl

/-- where the table has the entry of a result, its handler takes it out -/
theorem handleJobResult_eq {loop : EventLoop S} {result : ProverJobResult}
    {w : ProofInputsWithWindow S} (h : loop.proverJobs.lookup result.jobId = some w) :
    ∃ handled, loop.handleJobResult result = .ok handled ∧ handled.inputsWithWindow = w ∧
      handled.loop = { loop with proverJobs := loop.proverJobs.erase result.jobId } ∧
      handled.status = result.status := by
  cases result with
  | ok output =>
    refine ⟨_, Except.bind_eq_ok.mpr ⟨_, takeJob_eq h, rfl⟩, rfl, rfl, ?_⟩
    exact fromBytes_status output.proof.publicValues
  | error err => exact ⟨_, Except.bind_eq_ok.mpr ⟨_, takeJob_eq h, rfl⟩, rfl, rfl, rfl⟩

/-- the state after the result of an entry of the table -/
def took (s : ProverSys S) (result : ProverJobResult) (queue : List ProverJobResult)
    (w : ProofInputsWithWindow S) : ProverSys S :=
  { s with
    loop := { s.loop with proverJobs := s.loop.proverJobs.erase result.jobId }
    queue
    status := result.status
    handled := s.handled ++ [(result, w)] }

theorem handle_eq {result : ProverJobResult} {w : ProofInputsWithWindow S}
    (h : s.loop.proverJobs.lookup result.jobId = some w) (queue : List ProverJobResult) :
    s.handle result queue = s.took result queue w := by
  obtain ⟨handled, hhandled, hinputs, hloop, hstatus⟩ := handleJobResult_eq h
  unfold ProverSys.handle took
  rw [hhandled, ← hloop, ← hinputs, ← hstatus]

theorem took_handledIds (s : ProverSys S) (result : ProverJobResult)
    (queue : List ProverJobResult) (w : ProofInputsWithWindow S) :
    (s.took result queue w).handledIds = s.handledIds ++ [result.jobId] := List.map_append

/-! ## what the steps preserve -/

/-- the counter gives out a number that is new -/
theorem Inv.next_toNat (hi : s.Inv) (hfew : s.staged.length + 1 < 2^64) :
    (s.loop.jobId + 1).toNat = s.staged.length + 1 := by
  have hone : (1 : UInt64).toNat = 1 := rfl
  rw [UInt64.toNat_add, hi.counter, hone]
  exact Nat.mod_eq_of_lt hfew

theorem Inv.next_new (hi : s.Inv) (hfew : s.staged.length + 1 < 2^64) {p}
    (hp : p ∈ s.staged) : p.1.jobId ≠ s.loop.jobId + 1 := by
  intro heq
  have hmem : p.1.jobId.toNat ∈ List.range' 1 s.staged.length := by
    rw [← hi.numbers]
    exact List.mem_map.mpr ⟨p, hp, rfl⟩
  rw [heq, hi.next_toNat hfew, List.mem_range'_1] at hmem
  omega

/-- the new entry is that of the new job, and no other one changes -/
theorem Inv.stage_table (hi : s.Inv) (hfew : s.staged.length + 1 < 2^64)
    (w : ProofInputsWithWindow S) (id : UInt64) (v : ProofInputsWithWindow S) :
    (s.stage w).loop.proverJobs.lookup id = some v ↔
      (∃ job, (job, v) ∈ (s.stage w).staged ∧ job.jobId = id) ∧ id ∉ (s.stage w).handledIds := by
  show (s.loop.proverJobs.insert (s.loop.jobId + 1) w).lookup id = some v ↔
    (∃ job, (job, v) ∈ s.staged ++ [_] ∧ job.jobId = id) ∧ id ∉ s.handledIds
  by_cases hid : id = s.loop.jobId + 1
  · subst hid
    rw [AList.lookup_insert, Option.some.injEq]
    constructor
    · rintro rfl
      refine ⟨⟨_, List.mem_append_right _ List.mem_cons_self, rfl⟩, fun hold => ?_⟩
      obtain ⟨p, hp, hpid⟩ := List.mem_map.mp hold
      obtain ⟨job, hjob, hjobId⟩ := hi.looked p hp
      exact hi.next_new hfew hjob (hjobId.trans hpid)
    · rintro ⟨⟨job, hjob, hjobId⟩, _⟩
      rcases List.mem_append.mp hjob with hjob | hjob
      · exact absurd hjobId (hi.next_new hfew hjob)
      · obtain ⟨_, rfl⟩ := Prod.mk.inj (List.mem_singleton.mp hjob)
        rfl
  · rw [AList.lookup_insert_ne hid, hi.table id v]
    refine and_congr_left fun _ => exists_congr fun job => and_congr_left fun hjobId => ?_
    rw [List.mem_append, List.mem_singleton]
    refine ⟨Or.inl, fun hjob => hjob.resolve_right fun hnew => hid ?_⟩
    obtain ⟨rfl, _⟩ := Prod.mk.inj hnew
    exact hjobId.symm

theorem Inv.stage (hi : s.Inv) (hfew : s.staged.length + 1 < 2^64)
    (w : ProofInputsWithWindow S) : (s.stage w).Inv where
  jobs := by
    show ((s.staged ++ [_]).map Prod.fst).Perm ((s.tasks ++ [_]) ++ s.sent.map Prod.fst)
    rw [List.map_append, List.append_assoc]
    refine (hi.jobs.append_right _).trans ?_
    rw [List.append_assoc]
    exact List.perm_append_comm.append_left _
  results := hi.results
  numbers := by
    show (s.staged ++ [_]).map _ = List.range' 1 (s.staged ++ [_]).length
    rw [List.map_append, hi.numbers, List.length_append, List.length_singleton, List.range'_concat]
    show _ ++ [(s.loop.jobId + 1).toNat] = _
    rw [hi.next_toNat hfew, Nat.one_mul, Nat.add_comm]
  counter := by
    show (s.loop.jobId + 1).toNat = (s.staged ++ [_]).length
    rw [hi.next_toNat hfew, List.length_append, List.length_singleton]
  inputs := by
    intro p hp
    rcases List.mem_append.mp hp with hp | hp
    · exact hi.inputs p hp
    · obtain rfl := List.mem_singleton.mp hp
      rfl
  named := hi.named
  table := hi.stage_table hfew w
  looked := by
    intro p hp
    obtain ⟨job, hjob, hid⟩ := hi.looked p hp
    exact ⟨job, List.mem_append_left _ hjob, hid⟩
  safe := hi.safe

theorem Inv.finish (hi : s.Inv) {task : Nat} {job : FinalityUpdateJob S}
    (htask : s.tasks[task]? = some job) (proved : Except Error SP1ProofWithPublicValues) :
    (s.finish task job proved).Inv where
  jobs := by
    obtain ⟨hlt, hget⟩ := List.getElem?_eq_some_iff.mp htask
    have htasks : s.tasks.Perm (job :: s.tasks.eraseIdx task) := by
      have hperm := List.getElem_cons_eraseIdx_perm hlt
      rw [hget] at hperm
      exact hperm.symm
    show (s.staged.map Prod.fst).Perm (s.tasks.eraseIdx task ++ (s.sent ++ [_]).map Prod.fst)
    rw [List.map_append, ← List.append_assoc]
    refine hi.jobs.trans ((htasks.append_right _).trans ?_)
    exact (List.perm_append_singleton job _).symm
  results := by
    show (s.sent ++ [_]).map Prod.snd = _ ++ (s.queue ++ [_])
    rw [List.map_append, hi.results, List.append_assoc]
    rfl
  numbers := hi.numbers
  counter := hi.counter
  inputs := hi.inputs
  named := by
    intro p hp
    rcases List.mem_append.mp hp with hp | hp
    · exact hi.named p hp
    · obtain rfl := List.mem_singleton.mp hp
      cases proved with
      | ok proof => rfl
      | error error => rfl
  table := hi.table
  looked := hi.looked
  safe := hi.safe

theorem Inv.handle (hi : s.Inv) {result : ProverJobResult} {queue : List ProverJobResult}
    (hqueue : s.queue = result :: queue) : (s.handle result queue).Inv := by
  obtain ⟨job, w, _, hw, hjob, hlookup⟩ := hi.lookup_head hqueue
  rw [handle_eq hlookup]
  refine ⟨hi.jobs, ?_, hi.numbers, hi.counter, hi.inputs, hi.named, ?_, ?_,
    result.status_ne_panicked⟩
  · show s.sent.map Prod.snd = (s.handled ++ [(result, w)]).map Prod.fst ++ queue
    rw [hi.results, hqueue, List.map_append, List.append_assoc]
    rfl
  · intro id v
    rw [took_handledIds, List.mem_append, List.mem_singleton, not_or]
    show (s.loop.proverJobs.erase result.jobId).lookup id = some v ↔
      (∃ job, (job, v) ∈ s.staged ∧ job.jobId = id) ∧ id ∉ s.handledIds ∧ id ≠ result.jobId
    by_cases hid : id = result.jobId
    · subst hid
      rw [AList.lookup_erase]
      exact ⟨nofun, fun h => absurd rfl h.2.2⟩
    · rw [AList.lookup_erase_ne hid, hi.table id v, and_iff_left hid]
  · intro p hp
    rcases List.mem_append.mp hp with hp | hp
    · exact hi.looked p hp
    · obtain rfl := List.mem_singleton.mp hp
      exact ⟨job, hw, hjob⟩

theorem Inv.stepped (hi : s.Inv) (h : s.Stepped s') (hfew : s'.staged.length < 2^64) : s'.Inv := by
  cases h with
  | stage w =>
    refine hi.stage ?_ w
    have hlen : (s.stage w).staged.length = s.staged.length + 1 := List.length_append
    omega
  | finish htask proved => exact hi.finish htask proved
  | finalityEvent => exact hi
  | handle hqueue => exact hi.handle hqueue

theorem Stepped.staged_le (h : s.Stepped s') : s.staged.length ≤ s'.staged.length := by
  cases h with
  | stage w =>
    have hlen : (s.stage w).staged.length = s.staged.length + 1 := List.length_append
    omega
  | finish _ _ => exact le_refl _
  | finalityEvent => exact le_refl _
  | handle _ =>
    unfold ProverSys.handle
    split
    · exact le_refl _
    · exact le_refl _

/-- by induction on the run: with few jobs at its end there were few before -/
theorem inv_of_run {currentSlot : UInt64} {storeHash : B256} {actions : List (ProverAction S)}
    (h : step.run (init currentSlot storeHash) actions = some s) (hfew : s.staged.length < 2^64) :
    s.Inv := by
  refine Machine.run_inv (I := fun s => s.staged.length < 2^64 → s.Inv) ?_
    (fun _ => Inv.init currentSlot storeHash) h hfew
  intro s action s' hi hstep hfew'
  have hstepped := (step_stepped hstep).2
  exact (hi (lt_of_le_of_lt hstepped.staged_le hfew')).stepped hstepped hfew'

/-! ## the table is exact -/

/-- the results in the channel are handled one after the other, if none of them ends the loop -/
theorem Inv.drains {queue : List ProverJobResult} : ∀ {s : ProverSys S}, s.Inv →
    s.status = .running → s.queue = queue → (∀ result ∈ queue, result.status = .running) →
      ∃ s', step.run s (List.replicate queue.length .handle) = some s' ∧ s'.queue = [] ∧
        s'.sent = s.sent ∧ s'.Inv := by
  induction queue with
  | nil => intro s hi _ hqueue _; exact ⟨s, rfl, hqueue, rfl, hi⟩
  | cons result queue ih =>
    intro s hi hrun hqueue hkeep
    obtain ⟨hresult, hkeep⟩ := List.forall_mem_cons.mp hkeep
    obtain ⟨_, w, _, _, _, hlookup⟩ := hi.lookup_head hqueue
    have hstep : step s .handle = some (s.took result queue w) := by
      unfold step
      rw [if_pos hrun]
      simp only [hqueue]
      rw [handle_eq hlookup]
    have hi' : (s.took result queue w).Inv := handle_eq hlookup queue ▸ hi.handle hqueue
    obtain ⟨s', hs', hempty, hsent, hinv⟩ := ih hi' hresult rfl hkeep
    refine ⟨s', ?_, hempty, hsent, hinv⟩
    rw [List.length_cons, List.replicate_succ, Machine.run_cons, hstep]
    exact hs'

/-- the keys are the numbers of the staged jobs that are not handled, and none is given out twice;
a result is handled once, in the order of the channel and with the inputs that its task was given;
no entry is missed, and what waits in the channel can be handled -/
structure Exact (s : ProverSys S) : Prop where
  keys : ∀ id, id ∈ s.loop.proverJobs ↔ id ∈ s.stagedIds ∧ id ∉ s.handledIds
  stagedOnce : s.stagedIds.Nodup
  sentOnce : (s.sent.map fun p => p.2.jobId).Nodup
  handledOnce : s.sent.map Prod.snd = s.handled.map Prod.fst ++ s.queue
  inputs : ∀ p ∈ s.handled, ∃ job, (job, p.1) ∈ s.sent ∧ (job, p.2) ∈ s.staged ∧
    job.inputs = p.2.proofInputs
  noPanic : s.status ≠ .panicked
  drains : s.status = .running → (∀ result ∈ s.queue, result.status = .running) →
    ∃ s', step.run s (List.replicate s.queue.length .handle) = some s' ∧
      s'.handled.map Prod.fst = s.sent.map Prod.snd

theorem Inv.exact (hi : s.Inv) : s.Exact where
  keys := by
    intro id
    rw [← AList.lookup_isSome, Option.isSome_iff_exists]
    constructor
    · rintro ⟨w, hw⟩
      obtain ⟨⟨job, hjob, hid⟩, hnew⟩ := (hi.table id w).mp hw
      exact ⟨List.mem_map.mpr ⟨_, hjob, hid⟩, hnew⟩
    · rintro ⟨hstaged, hnew⟩
      obtain ⟨⟨job, w⟩, hjob, hid⟩ := List.mem_map.mp hstaged
      exact ⟨w, (hi.table id w).mpr ⟨⟨job, hjob, hid⟩, hnew⟩⟩
  stagedOnce := hi.stagedIds_nodup
  sentOnce := hi.sentIds_nodup
  handledOnce := hi.results
  inputs := by
    rintro ⟨result, w⟩ hp
    obtain ⟨job, hjob, hid⟩ := hi.looked _ hp
    have hsent : result ∈ s.sent.map Prod.snd := by
      rw [hi.results]
      exact List.mem_append_left _ (List.mem_map.mpr ⟨_, hp, rfl⟩)
    obtain ⟨⟨job', _⟩, hmem, rfl⟩ := List.mem_map.mp hsent
    obtain ⟨w', hw'⟩ := hi.sent_mem hmem
    have hsame := hi.staged_inj hjob hw' (hid.trans (hi.named _ hmem))
    obtain ⟨rfl, _⟩ := Prod.mk.inj hsame
    exact ⟨job, hmem, hjob, hi.inputs _ hjob⟩
  noPanic := hi.safe
  drains := by
    intro hrun hkeep
    obtain ⟨s', hs', hempty, hsent, hinv⟩ := hi.drains hrun rfl hkeep
    refine ⟨s', hs', ?_⟩
    rw [← hsent, hinv.results, hempty, List.append_nil]

/-- **The table of prover jobs is exact** in every state of every run with fewer than 2^64 jobs. -/
theorem prover_jobs_exact (currentSlot : UInt64) (storeHash : B256)
    {actions : List (ProverAction S)}
    (h : step.run (init currentSlot storeHash) actions = some s)
    (hfew : s.staged.length < 2^64) : s.Exact :=
  (inv_of_run h hfew).exact

end ProverSys

end

/-- two jobs, of which the second one ends first and is handled -/
def Devnet.proverRun : List (ProverAction Devnet.spec) :=
  [.stage (Devnet.window 32 64), .stage (Devnet.window 64 96),
    .finish 1 (.ok ⟨zeros ProofOutputs.size⟩), .finish 0 (.error (.msg "out of memory")), .handle]

theorem prover_jobs_exact_devnet : ∃ s,
    ProverSys.step.run (.init 32 (Devnet.digest 32)) Devnet.proverRun = some s ∧ s.Exact ∧
      1 ∈ s.loop.proverJobs ∧ 2 ∉ s.loop.proverJobs := by
  refine ⟨_, rfl, ?_⟩
  have hexact := ProverSys.prover_jobs_exact 32 (Devnet.digest 32)
    (show ProverSys.step.run _ Devnet.proverRun = some _ from rfl) (by decide)
  refine ⟨hexact, ?_, ?_⟩
  · rw [hexact.keys]
    decide
  · rw [hexact.keys]
    decide

end ZkSymbiotic
