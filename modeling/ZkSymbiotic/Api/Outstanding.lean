import ZkSymbiotic.Api.System

/-!
# The outstanding job

What a history says about the last job, and the invariant that ties it to the detector, the channels
and the actor.

* `outstanding`, `lastJob`, `updated`   the job without an answer, the job submitted last, and
                                        whether an update was received since a submission;
* `lastJob_split`                       where the last job stands in the history;
* `Inv`, `Inv.step`, `inv_of_reach`     the invariant of all reachable states;
* `reach_under_inv`                     the rule for what holds along with it.
-/

namespace ZkSymbiotic

section
variable {S : ConsensusSpec}

/-! ## histories -/

/-- the receipt of a stage or advance update -/
def Event.IsUpdate : Event S → Prop
  | .gotStage _ => True
  | .gotAdvance _ => True
  | _ => False

def outstanding : List (Event S) → Option Job
  | [] => none
  | .submitted job :: _ => some job
  | .gotResult _ _ :: _ => none
  | _ :: h => outstanding h

def lastJob : List (Event S) → Option Job
  | [] => none
  | .submitted job :: _ => some job
  | _ :: h => lastJob h

def updated : List (Event S) → Bool
  | [] => false
  | .submitted _ :: _ => false
  | .gotStage _ :: _ => true
  | .gotAdvance _ :: _ => true
  | _ :: h => updated h

theorem outstanding_lastJob {h : List (Event S)} {job : Job} (ho : outstanding h = some job) :
    lastJob h = some job := by
  induction h with
  | nil => cases ho
  | cons e h ih =>
    cases e with
    | submitted j => exact ho
    | gotResult j r => cases ho
    | sentStage u => exact ih ho
    | sentAdvance u => exact ih ho
    | gotStage u => exact ih ho
    | gotAdvance u => exact ih ho
    | emitted j d => exact ih ho

/-- the events since the last submission: none is an answer where the job is outstanding, and
`updated` says whether one is an update -/
theorem lastJob_split {h : List (Event S)} {job : Job} (hl : lastJob h = some job) :
    ∃ newer older, h = newer ++ .submitted job :: older ∧
      (outstanding h = some job → ∀ j r, .gotResult j r ∉ newer) ∧
      (updated h = true ↔ ∃ e ∈ newer, e.IsUpdate) := by
  induction h with
  | nil => cases hl
  | cons e h ih =>
    have hother : lastJob h = some job →
        (outstanding (e :: h) = some job → outstanding h = some job ∧ ∀ j r, e ≠ .gotResult j r) →
        (updated (e :: h) = true ↔ e.IsUpdate ∨ updated h = true) →
        ∃ newer older, e :: h = newer ++ .submitted job :: older ∧
          (outstanding (e :: h) = some job → ∀ j r, .gotResult j r ∉ newer) ∧
          (updated (e :: h) = true ↔ ∃ e' ∈ newer, e'.IsUpdate) := by
      intro hl hout hup
      obtain ⟨newer, older, rfl, hans, hiff⟩ := ih hl
      refine ⟨e :: newer, older, rfl, fun ho j r hmem => ?_, ?_⟩
      · obtain ⟨ho, hne⟩ := hout ho
        rcases List.mem_cons.mp hmem with h | h
        · exact hne j r h.symm
        · exact hans ho j r h
      · rw [hup, hiff]
        simp only [List.mem_cons, exists_eq_or_imp]
    have hquiet : (∀ j r, e ≠ .gotResult j r) → outstanding (e :: h) = outstanding h →
        (outstanding (e :: h) = some job → outstanding h = some job ∧ ∀ j r, e ≠ .gotResult j r) :=
      fun hne heq ho => ⟨heq ▸ ho, hne⟩
    cases e with
    | submitted j =>
      obtain rfl : j = job := Option.some.inj hl
      refine ⟨[], h, rfl, fun _ _ _ => List.not_mem_nil, ?_⟩
      simp [updated]
    | gotResult j r => exact hother hl (fun ho => nomatch ho) (by simp [updated, Event.IsUpdate])
    | sentStage u =>
      exact hother hl (hquiet (fun _ _ h => nomatch h) rfl) (by simp [updated, Event.IsUpdate])
    | sentAdvance u =>
      exact hother hl (hquiet (fun _ _ h => nomatch h) rfl) (by simp [updated, Event.IsUpdate])
    | gotStage u =>
      exact hother hl (hquiet (fun _ _ h => nomatch h) rfl) (by simp [updated, Event.IsUpdate])
    | gotAdvance u =>
      exact hother hl (hquiet (fun _ _ h => nomatch h) rfl) (by simp [updated, Event.IsUpdate])
    | emitted j d =>
      exact hother hl (hquiet (fun _ _ h => nomatch h) rfl) (by simp [updated, Event.IsUpdate])

/-! ## the invariant -/

/-- the job the actor has, a lost one included -/
def Actor.jobs : Actor S → List Job
  | .idle => []
  | .working job => [job]
  | .sending job _ => [job]
  | .dead job => [job]

/-- the jobs on their way through the channels and the actor -/
def Sys.pending (s : Sys S) : List Job :=
  s.job.toList ++ s.actor.jobs ++ (s.result.map Prod.fst).toList

variable (H : Helios S) (C : Crypto)

/-- the actor can answer the job so -/
def Produced (job : Job) (result : JobResult S) : Prop :=
  ∃ env, prepareJob H C env job.input = result.mapError .error

structure Inv (s : Sys S) : Prop where
  pending : s.pending = (outstanding s.history).toList
  inFlight : s.det.inFlight = (outstanding s.history).isSome
  /-- a job is outstanding only while the loop is at `select!` -/
  pc : s.det.inFlight = true → s.pc = .select ∨ s.pc = .exited
  stale : (outstanding s.history).isSome = true → updated s.history = true → s.det.stale = true
  /-- as long as no update is received the next job would be the last one again -/
  input : ∀ job, lastJob s.history = some job → updated s.history = false →
    job.input = s.det.jobInput
  sending : ∀ job result, s.actor = .sending job result → Produced H C job result
  result : ∀ job result, s.result = some (job, result) → Produced H C job result
  emitting : ∀ job dual, s.pc = .emitting job dual →
    lastJob s.history = some job ∧ updated s.history = false ∧ Produced H C job (.ok dual)

variable {H C}

/-- a received result is the one of the outstanding job -/
theorem Inv.head {s : Sys S} (hi : Inv H C s) {job : Job} {result : JobResult S}
    (h : s.result = some (job, result)) :
    outstanding s.history = some job ∧ s.job = none ∧ s.actor.jobs = [] := by
  have hp := hi.pending
  rw [Sys.pending, h] at hp
  cases ho : outstanding s.history with
  | none =>
    rw [ho] at hp
    simp at hp
  | some j =>
    rw [ho] at hp
    have hlast : (s.job.toList ++ s.actor.jobs) ++ [job] = [] ++ [j] := hp
    obtain ⟨hnil, hjob⟩ := List.append_inj' hlast rfl
    obtain ⟨hchan, hactor⟩ := List.append_eq_nil_iff.mp hnil
    obtain rfl : job = j := (List.cons.inj hjob).1
    exact ⟨rfl, Option.toList_eq_nil_iff.mp hchan, hactor⟩

/-- where the result was not stale its job is the last word -/
theorem Inv.fresh {s : Sys S} (hi : Inv H C s) {job : Job} {result : JobResult S}
    (h : s.result = some (job, result)) (hs : s.det.stale = false) :
    lastJob s.history = some job ∧ updated s.history = false := by
  obtain ⟨ho, _, _⟩ := hi.head h
  refine ⟨outstanding_lastJob ho, ?_⟩
  rw [Bool.eq_false_iff]
  intro hu
  have hst := hi.stale (by rw [ho]; rfl) hu
  rw [hs] at hst
  cases hst

/-- a job is sent only when none is outstanding -/
theorem Inv.idle {s : Sys S} (hi : Inv H C s) (pc : s.pc = .starting) :
    s.det.inFlight = false ∧ outstanding s.history = none := by
  have hfl : s.det.inFlight = false := by
    rw [Bool.eq_false_iff]
    intro hf
    rcases hi.pc hf with h | h
    · exact nomatch pc.symm.trans h
    · exact nomatch pc.symm.trans h
  refine ⟨hfl, ?_⟩
  rw [← Option.isNone_iff_eq_none, ← Option.not_isSome, ← hi.inFlight, hfl]
  rfl

theorem Inv.init (slot : UInt64) (storeHash : B256) (next : Option FinalityChangeDetectorUpdate) :
    Inv H C (Sys.init slot storeHash next) where
  pending := rfl
  inFlight := rfl
  pc := fun h => nomatch h
  stale := fun h => nomatch h
  input := fun _ h => nomatch h
  sending := fun _ _ h => nomatch h
  result := fun _ _ h => nomatch h
  emitting := fun _ _ h => nomatch h

/-- the state after a received result, whatever the loop does with it -/
theorem Inv.recv {s : Sys S} (hi : Inv H C s) {job : Job} {result : JobResult S}
    (head : s.result = some (job, result)) {det : Detector} {pc : Pc S}
    (hfl : det.inFlight = false) (hin : det.jobInput = s.det.jobInput)
    (hpc : ∀ j dual, pc = .emitting j dual → lastJob s.history = some j ∧
      updated s.history = false ∧ Produced H C j (.ok dual)) :
    Inv H C
      { s with det := det, pc := pc, result := none, history := .gotResult job result :: s.history } := by
  obtain ⟨_, hjob, hactor⟩ := hi.head head
  refine ⟨?_, hfl, ?_, (fun h => nomatch h), ?_, hi.sending, (fun _ _ h => nomatch h),
    hpc⟩
  · show s.job.toList ++ s.actor.jobs ++ [] = []
    rw [hjob, hactor]
    rfl
  · intro h
    rw [hfl] at h
    cases h
  · intro j hl hu
    exact (hi.input j hl hu).trans hin.symm

theorem Inv.step {s s' : Sys S} {a : Action S} (hi : Inv H C s) (h : Stepped H C s a s') :
    Inv H C s' := by
  cases h with
  | sendStage update room => exact ⟨hi.1, hi.2, hi.3, hi.4, hi.5, hi.6, hi.7, hi.8⟩
  | sendAdvance update room => exact ⟨hi.1, hi.2, hi.3, hi.4, hi.5, hi.6, hi.7, hi.8⟩
  | recvStage update pc head =>
    refine ⟨hi.1, hi.2, hi.3, fun ho _ => ?_, (fun _ _ h => nomatch h), hi.6, hi.7,
      fun j d h => ?_⟩
    · have hfl : s.det.inFlight = true := hi.inFlight.trans ho
      exact if_pos hfl
    · exact nomatch pc.symm.trans h
  | recvAdvance update pc head =>
    refine ⟨hi.1, hi.2, hi.3, fun ho _ => ?_, (fun _ _ h => nomatch h), hi.6, hi.7,
      fun j d h => ?_⟩
    · have hfl : s.det.inFlight = true := hi.inFlight.trans ho
      exact if_pos hfl
    · exact nomatch pc.symm.trans h
  | recvError job e pc head => exact hi.recv head rfl rfl fun _ _ h => nomatch h
  | recvStale job dual pc head stale => exact hi.recv head rfl rfl fun _ _ h => nomatch h
  | recvEmit job dual pc head fresh progress next =>
    refine hi.recv head rfl rfl fun j d h => ?_
    obtain ⟨rfl, rfl⟩ := Pc.emitting.inj h
    obtain ⟨hl, hu⟩ := hi.fresh head fresh
    exact ⟨hl, hu, hi.result _ _ head⟩
  | recvLagging job dual pc head fresh progress next =>
    exact hi.recv head rfl rfl fun _ _ h => nomatch h
  | recvIgnored job dual pc head fresh ignored =>
    exact hi.recv head rfl rfl fun _ _ h => nomatch h
  | tickBusy pc busy => exact hi
  | tick pc idle =>
    refine ⟨hi.1, hi.2, fun h => ?_, hi.4, hi.5, hi.6, hi.7, fun _ _ h => nomatch h⟩
    exact absurd h (by rw [idle]; decide)
  | sendJob pc room =>
    obtain ⟨_, ho⟩ := hi.idle pc
    have hp := hi.pending
    rw [Sys.pending, room, ho] at hp
    obtain ⟨hactor, hresult⟩ := List.append_eq_nil_iff.mp hp
    refine ⟨?_, rfl, fun _ => Or.inl rfl, (fun _ h => nomatch h), fun j hl _ => ?_, hi.6, hi.7,
      (fun _ _ h => nomatch h)⟩
    · show [_] ++ s.actor.jobs ++ (s.result.map Prod.fst).toList = [_]
      rw [hresult, List.append_nil, (List.append_eq_nil_iff.mp hactor).2]
      rfl
    · obtain rfl := Option.some.inj hl
      rfl
  | jobClosed lost pc dead =>
    exact ⟨hi.1, hi.2, fun _ => Or.inr rfl, hi.4, hi.5, hi.6, hi.7, fun _ _ h => nomatch h⟩
  | sendOutput job dual pc room =>
    refine ⟨hi.1, hi.2, fun _ => Or.inl rfl, hi.4, hi.5, hi.6, hi.7, fun _ _ h => nomatch h⟩
  | dropOutput job dual pc =>
    exact ⟨hi.1, hi.2, fun _ => Or.inr rfl, hi.4, hi.5, hi.6, hi.7, fun _ _ h => nomatch h⟩
  | observe => exact ⟨hi.1, hi.2, hi.3, hi.4, hi.5, hi.6, hi.7, hi.8⟩
  | actorRecv job idle head =>
    have hp := hi.pending
    rw [Sys.pending, head, idle] at hp
    exact ⟨hp, hi.2, hi.3, hi.4, hi.5, (fun _ _ h => nomatch h), hi.7, hi.8⟩
  | actorWork env job actor working answer =>
    have hp := hi.pending
    rw [Sys.pending, working] at hp
    have hactor : actor.jobs = [job] ∧
        ∀ j result, actor = .sending j result → Produced H C j result := by
      cases hans : prepareJob H C env job.input with
      | ok dual =>
        rw [hans] at answer
        obtain rfl := Option.some.inj answer
        refine ⟨rfl, fun j result h => ?_⟩
        obtain ⟨rfl, rfl⟩ := Actor.sending.inj h
        exact ⟨env, hans⟩
      | error failure =>
        rw [hans] at answer
        cases failure with
        | error e =>
          obtain rfl := Option.some.inj answer
          refine ⟨rfl, fun j result h => ?_⟩
          obtain ⟨rfl, rfl⟩ := Actor.sending.inj h
          exact ⟨env, hans⟩
        | panic =>
          obtain rfl := Option.some.inj answer
          exact ⟨rfl, fun j result h => nomatch h⟩
        | pending => cases answer
    refine ⟨?_, hi.2, hi.3, hi.4, hi.5, hactor.2, hi.7, hi.8⟩
    rw [Sys.pending, hactor.1]
    exact hp
  | actorSend job result sending room =>
    have hp := hi.pending
    rw [Sys.pending, sending, room] at hp
    refine ⟨?_, hi.2, hi.3, hi.4, hi.5, (fun _ _ h => nomatch h), fun j r h => ?_, hi.8⟩
    · show s.job.toList ++ [] ++ [job] = _
      rw [List.append_nil, ← hp]
      exact (List.append_nil _).symm
    · obtain ⟨rfl, rfl⟩ := Prod.mk.inj (Option.some.inj h)
      exact hi.sending _ _ sending

/-- **every reachable state** satisfies the invariant -/
theorem inv_of_reach {slot : UInt64} {storeHash : B256} {next : Option FinalityChangeDetectorUpdate}
    {s : Sys S} (h : (step H C).Reach (Sys.init slot storeHash next) s) : Inv H C s :=
  h.inv (fun _ _ _ hi hs => hi.step (step_stepped hs)) (Inv.init slot storeHash next)

/-- what a step keeps under the invariant holds in every reachable state -/
theorem reach_under_inv {X : Sys S → Prop} {slot : UInt64} {storeHash : B256}
    {next : Option FinalityChangeDetectorUpdate} (hinit : X (Sys.init slot storeHash next))
    (hstep : ∀ s s' a, Inv H C s → X s → Stepped H C s a s' → X s') {s : Sys S}
    (h : (step H C).Reach (Sys.init slot storeHash next) s) : X s := by
  have hboth : Inv H C s ∧ X s := Machine.Reach.inv (I := fun s => Inv H C s ∧ X s)
    (fun s a s' hi hs => ⟨hi.1.step (step_stepped hs), hstep s s' a hi.1 hi.2 (step_stepped hs)⟩)
    ⟨Inv.init slot storeHash next, hinit⟩ h
  exact hboth.2

end
end ZkSymbiotic
