import Mathlib.Data.List.Count
import ZkSymbiotic.Api.Freshness

/-!
# One job at a time

A job is at one place at a time, in its channel, at the actor or in the channel of results, until the
loop has its answer; the flag `in_flight` says whether there is one.  So the two channels between the
loop and the actor are empty whenever something is sent through them.

* `JobLog`, `JobLog.step`   submissions, answers and the outstanding job add up along a run;
* `actor_answers`           the actor alone brings the outstanding job to an answer;
* `one_job_outstanding`     all of it, in every reachable state.
-/

namespace ZkSymbiotic

section
variable {S : ConsensusSpec} {H : Helios S} {C : Crypto}

/-! ## counting -/

def Event.submits (job : Job) : Event S → Bool
  | .submitted j => j = job
  | _ => false

def Event.answers (job : Job) : Event S → Bool
  | .gotResult j _ => j = job
  | _ => false

variable (H C) in
/-- each submission has its answer or is outstanding, and the answers are ones the actor can give -/
structure JobLog (history : List (Event S)) : Prop where
  balance : ∀ job, (outstanding history).toList.count job + history.countP (Event.answers job)
    = history.countP (Event.submits job)
  produced : ∀ job result, .gotResult job result ∈ history → Produced H C job result

theorem JobLog.nil : JobLog H C ([] : List (Event S)) :=
  ⟨fun _ => rfl, fun _ _ h => nomatch h⟩

/-- an event that neither submits nor answers -/
theorem JobLog.quiet {history : List (Event S)} (hj : JobLog H C history) {e : Event S}
    (hout : outstanding (e :: history) = outstanding history)
    (hsub : ∀ job, e.submits job = false) (hans : ∀ job, e.answers job = false)
    (hne : ∀ job result, e ≠ .gotResult job result) : JobLog H C (e :: history) := by
  refine ⟨fun job => ?_, fun job result hmem => ?_⟩
  · have hs : ¬ e.submits job = true := Bool.eq_false_iff.mp (hsub job)
    have ha : ¬ e.answers job = true := Bool.eq_false_iff.mp (hans job)
    rw [hout, List.countP_cons_of_neg hs, List.countP_cons_of_neg ha]
    exact hj.balance job
  · rcases List.mem_cons.mp hmem with rfl | hold
    · exact absurd rfl (hne job result)
    · exact hj.produced job result hold

theorem JobLog.step {s s' : Sys S} {a : Action S} (hi : Inv H C s) (hj : JobLog H C s.history)
    (h : Stepped H C s a s') : JobLog H C s'.history := by
  rcases h.history with heq | ⟨e, heq, hdue⟩
  · exact heq ▸ hj
  rw [heq]
  cases e with
  | submitted j =>
    obtain ⟨_, ho⟩ := hi.idle hdue.1
    refine ⟨fun job => ?_, fun job result hmem => ?_⟩
    · have hb := hj.balance job
      rw [ho] at hb
      have hans : ¬ (Event.submitted j : Event S).answers job = true := Bool.false_ne_true
      rw [List.countP_cons_of_neg hans, List.countP_cons, ← hb]
      show [j].count job + _ = _ + (if decide (j = job) = true then 1 else 0)
      rw [List.count_singleton, Option.toList_none, List.count_nil]
      simp only [beq_iff_eq, decide_eq_true_eq]
      omega
    · rcases List.mem_cons.mp hmem with hnew | hold
      · cases hnew
      · exact hj.produced job result hold
  | gotResult j r =>
    obtain ⟨ho, _⟩ := hi.head hdue
    refine ⟨fun job => ?_, fun job result hmem => ?_⟩
    · have hb := hj.balance job
      rw [ho] at hb
      have hsub : ¬ (Event.gotResult j r : Event S).submits job = true := Bool.false_ne_true
      rw [List.countP_cons, List.countP_cons_of_neg hsub, ← hb]
      show [].count job + (_ + (if decide (j = job) = true then 1 else 0)) = [j].count job + _
      rw [List.count_singleton, List.count_nil]
      simp only [beq_iff_eq, decide_eq_true_eq]
      omega
    · rcases List.mem_cons.mp hmem with hnew | hold
      · obtain ⟨rfl, rfl⟩ := Event.gotResult.inj hnew
        exact hi.result _ _ hdue
      · exact hj.produced job result hold
  | sentStage u => exact hj.quiet rfl (fun _ => rfl) (fun _ => rfl) (fun _ _ h => nomatch h)
  | sentAdvance u => exact hj.quiet rfl (fun _ => rfl) (fun _ => rfl) (fun _ _ h => nomatch h)
  | gotStage u => exact hj.quiet rfl (fun _ => rfl) (fun _ => rfl) (fun _ _ h => nomatch h)
  | gotAdvance u => exact hj.quiet rfl (fun _ => rfl) (fun _ => rfl) (fun _ _ h => nomatch h)
  | emitted j d => exact hj.quiet rfl (fun _ => rfl) (fun _ => rfl) (fun _ _ h => nomatch h)

theorem jobLog_of_reach {slot : UInt64} {storeHash : B256}
    {next : Option FinalityChangeDetectorUpdate} {s : Sys S}
    (h : (step H C).Reach (Sys.init slot storeHash next) s) : JobLog H C s.history :=
  reach_under_inv (X := fun s => JobLog H C s.history) JobLog.nil (fun _ _ _ hi hj h => hj.step hi h) h

/-- no job is submitted twice: the number of a job says where its submission stands -/
theorem Recorded.submits_le_one {history : List (Event S)} (hr : Recorded history) (job : Job) :
    history.countP (Event.submits job) ≤ 1 := by
  induction history with
  | nil => exact Nat.zero_le 1
  | cons e h ih =>
    have hrest : Recorded h :=
      ⟨fun j older hsuf => hr.ids j older (hsuf.trans (List.suffix_cons e h)),
        fun j d h' hsuf => hr.emitted j d h' (hsuf.trans (List.suffix_cons e h))⟩
    by_cases he : e.submits job = true
    · have hzero : h.countP (Event.submits job) = 0 := by
        rw [List.countP_eq_zero]
        intro e' hmem he'
        cases e with
        | submitted j =>
          cases e' with
          | submitted j' =>
            obtain rfl : j = job := of_decide_eq_true he
            obtain rfl : j' = j := of_decide_eq_true he'
            obtain ⟨newer, older, rfl⟩ := List.append_of_mem hmem
            -- both submissions would stand at the same place
            have hid := hr.ids j' _ (List.suffix_refl _)
            have hid' := hrest.ids j' older (List.suffix_append newer _)
            rw [hid, List.length_append, List.length_cons] at hid'
            omega
          | _ => cases he'
        | _ => cases he
      rw [List.countP_cons_of_pos he, hzero]
    · rw [List.countP_cons_of_neg he]
      exact ih hrest

/-! ## where the outstanding job is -/

theorem Actor.jobs_eq_nil {actor : Actor S} : actor.jobs = [] ↔ actor = .idle := by
  cases actor with
  | idle => exact iff_of_true rfl rfl
  | working job => exact iff_of_false (fun h => nomatch h) (fun h => nomatch h)
  | sending job result => exact iff_of_false (fun h => nomatch h) (fun h => nomatch h)
  | dead job => exact iff_of_false (fun h => nomatch h) (fun h => nomatch h)

/-- a job at the actor is the outstanding one, and the channels are empty -/
theorem Inv.atActor {s : Sys S} (hi : Inv H C s) {job : Job} (h : s.actor.jobs = [job]) :
    outstanding s.history = some job ∧ s.job = none ∧ s.result = none := by
  have hp := hi.pending
  rw [Sys.pending, h] at hp
  cases ho : outstanding s.history with
  | none =>
    rw [ho] at hp
    simp at hp
  | some j =>
    rw [ho, Option.toList_some, List.append_assoc, List.append_eq_singleton_iff] at hp
    rcases hp with ⟨hchan, hrest⟩ | ⟨_, hrest⟩
    · obtain ⟨rfl, hres⟩ := List.cons.inj hrest
      exact ⟨rfl, Option.toList_eq_nil_iff.mp hchan,
        Option.map_eq_none_iff.mp (Option.toList_eq_nil_iff.mp hres)⟩
    · cases hrest

/-- a job in its channel is the outstanding one, and the actor waits for it -/
theorem Inv.queued {s : Sys S} (hi : Inv H C s) {job : Job} (h : s.job = some job) :
    outstanding s.history = some job ∧ s.actor = .idle ∧ s.result = none := by
  have hp := hi.pending
  rw [Sys.pending, h, Option.toList_some, List.append_assoc, List.singleton_append] at hp
  cases ho : outstanding s.history with
  | none =>
    rw [ho] at hp
    cases hp
  | some j =>
    rw [ho] at hp
    obtain ⟨rfl, hrest⟩ := List.cons.inj hp
    obtain ⟨hactor, hres⟩ := List.append_eq_nil_iff.mp hrest
    exact ⟨rfl, Actor.jobs_eq_nil.mp hactor,
      Option.map_eq_none_iff.mp (Option.toList_eq_nil_iff.mp hres)⟩

/-- a job is sent into an empty channel -/
theorem Inv.jobRoom {s : Sys S} (hi : Inv H C s) (pc : s.pc = .starting) : s.job = none := by
  cases hjob : s.job with
  | none => rfl
  | some job => exact nomatch (hi.idle pc).2.symm.trans (hi.queued hjob).1

/-! ## the answer -/

/-- what the actor has yet to do for the outstanding job -/
def Sys.turn (s : Sys S) (env : Option (JobEnv S)) : List (Action S) :=
  match s.actor, s.job with
  | .idle, some _ => [.actorRecv, .actorWork env, .actorSend]
  | .working _, _ => [.actorWork env, .actorSend]
  | .sending _ _, _ => [.actorSend]
  | _, _ => []

theorem answer_ne_panic {env : Option (JobEnv S)} {job : Job}
    (h : prepareJob H C env job.input ≠ .error .panic) : ∃ result,
      Actor.answer job (prepareJob H C env job.input) = some (.sending job result) := by
  cases hans : prepareJob H C env job.input with
  | ok dual => exact ⟨.ok dual, rfl⟩
  | error failure =>
    cases failure with
    | error e => exact ⟨.error e, rfl⟩
    | panic => exact absurd hans h
    | pending => exact absurd hans (prepareJob_ne_pending H C)

theorem run_work {s : Sys S} {job : Job} (hactor : s.actor = .working job) (hres : s.result = none)
    {env : Option (JobEnv S)} (h : prepareJob H C env job.input ≠ .error .panic) :
    ∃ s' result, (step H C).run s [.actorWork env, .actorSend] = some s' ∧
      s'.result = some (job, result) := by
  obtain ⟨result, hans⟩ := answer_ne_panic h
  obtain ⟨det, pc, stage, advance, queued, res, output, actor, history⟩ := s
  obtain rfl : actor = .working job := hactor
  obtain rfl : res = none := hres
  refine ⟨⟨det, pc, stage, advance, queued, some (job, result), output, .idle, history⟩, result, ?_,
    rfl⟩
  simp only [Machine.run, step, hans]
  rfl

/-- **a job comes to its answer** by the steps of a live actor alone -/
theorem actor_answers {s : Sys S} (hi : Inv H C s) (alive : ∀ lost, s.actor ≠ .dead lost)
    {job : Job} (ho : outstanding s.history = some job) {env : Option (JobEnv S)}
    (h : prepareJob H C env job.input ≠ .error .panic) :
    ∃ s' result, (step H C).run s (s.turn env) = some s' ∧ s'.result = some (job, result) := by
  cases hactor : s.actor with
  | idle =>
    cases hjob : s.job with
    | some j =>
      obtain ⟨ho', _, hres⟩ := hi.queued hjob
      obtain rfl : j = job := Option.some.inj (ho'.symm.trans ho)
      obtain ⟨s', result, hrun, hs'⟩ :=
        run_work (s := { s with actor := .working j, job := none }) rfl hres h
      refine ⟨s', result, ?_, hs'⟩
      have hrecv : step H C s .actorRecv = some { s with actor := .working j, job := none } := by
        simp only [step, hactor, hjob]
      rw [Sys.turn, hactor, hjob, Machine.run_cons, hrecv]
      exact hrun
    | none =>
      have hp := hi.pending
      rw [Sys.pending, hactor, hjob, ho] at hp
      cases hres : s.result with
      | none =>
        rw [hres] at hp
        cases hp
      | some answered =>
        rw [hres] at hp
        obtain rfl : answered.1 = job := (List.cons.inj hp).1
        refine ⟨s, answered.2, ?_, hres⟩
        rw [Sys.turn, hactor, hjob, Machine.run_nil]
  | working j =>
    obtain ⟨ho', _, hres⟩ := hi.atActor (congrArg Actor.jobs hactor)
    obtain rfl : j = job := Option.some.inj (ho'.symm.trans ho)
    rw [Sys.turn, hactor]
    exact run_work hactor hres h
  | sending j result =>
    obtain ⟨ho', _, hres⟩ := hi.atActor (congrArg Actor.jobs hactor)
    obtain rfl : j = job := Option.some.inj (ho'.symm.trans ho)
    refine ⟨{ s with actor := .idle, result := some (j, result) }, result, ?_, rfl⟩
    rw [Sys.turn, hactor]
    simp only [Machine.run, step, hactor, hres]
    rfl
  | dead lost => exact absurd hactor (alive lost)

/-- the windows that were asked for -/
structure Fits (job : Job) (dual : DualProofInputsWithWindow S) : Prop where
  inputSlot : dual.currentWindow.inputSlot = job.input.slot
  storeHash : dual.currentWindow.proofInputs.storeHash = job.input.storeHash
  next : dual.nextWindow.isSome = job.input.nextExpectedOutput.isSome

theorem Produced.fits {job : Job} {dual : DualProofInputsWithWindow S}
    (h : Produced H C job (.ok dual)) : Fits job dual := by
  obtain ⟨env, henv⟩ := h
  obtain ⟨_, _, hcurrent, hnext⟩ := prepareJob_ok H C henv
  obtain ⟨p, _, storage, _, hhash, _, hin, _⟩ := prepareConsensusMptProofInputs_ok H C hcurrent
  refine ⟨prepareJob_inputSlot H C henv, ?_, ?_⟩
  · rw [hin, ← hhash]
    rfl
  · generalize job.input.nextExpectedOutput = asked at hnext ⊢
    generalize dual.nextWindow = got at hnext ⊢
    cases hnext with
    | some _ => rfl
    | none => rfl

/-- **One job at a time**, in every reachable state: what is queued, at the actor (a lost job
included) or answered is one job if `in_flight` is set and none otherwise; every job is submitted
once and has its one answer or is pending; `Ok` answers are the windows asked for; the channels have
room for whatever is sent; and a live actor brings a pending job to its answer. -/
theorem one_job_outstanding (slot : UInt64) (storeHash : B256)
    (next : Option FinalityChangeDetectorUpdate) (s : Sys S)
    (h : (step H C).Reach (Sys.init slot storeHash next) s) :
    s.pending.length = (if s.det.inFlight then 1 else 0) ∧
    (∀ job, s.pending.count job + s.history.countP (Event.answers job)
        = s.history.countP (Event.submits job) ∧
      s.history.countP (Event.submits job) ≤ 1) ∧
    (∀ job dual, .gotResult job (.ok dual) ∈ s.history ∨ s.result = some (job, .ok dual) ∨
      s.actor = .sending job (.ok dual) → Fits job dual) ∧
    (s.pc = .starting → s.job = none) ∧
    (∀ job result, s.actor = .sending job result → s.result = none) ∧
    ((∀ lost, s.actor ≠ .dead lost) → ∀ job ∈ s.pending, ∀ env,
      prepareJob H C env job.input ≠ .error .panic →
        ∃ s' result, (step H C).run s (s.turn env) = some s' ∧ s'.result = some (job, result)) := by
  have hi := inv_of_reach h
  have hj := jobLog_of_reach h
  refine ⟨?_, fun job => ⟨?_, (recorded_of_reach h).submits_le_one job⟩, ?_, hi.jobRoom, ?_, ?_⟩
  · rw [hi.pending, hi.inFlight]
    cases outstanding s.history with
    | none => rfl
    | some job => rfl
  · rw [hi.pending]
    exact hj.balance job
  · rintro job dual (hgot | hres | hsend)
    · exact (hj.produced _ _ hgot).fits
    · exact (hi.result _ _ hres).fits
    · exact (hi.sending _ _ hsend).fits
  · intro job result hsend
    exact (hi.atActor (congrArg Actor.jobs hsend)).2.2
  · intro alive job hmem env hpanic
    rw [hi.pending, Option.mem_toList] at hmem
    exact actor_answers hi alive hmem hpanic

/-- a job of the small light client, queued and then answered -/
theorem one_job_outstanding_devnet :
    ∃ s : Sys Devnet.spec, (step Devnet.helios Devnet.crypto).Reach (Devnet.start 32) s ∧
      s.pending.length = 1 ∧
      ∃ s' job result, (step Devnet.helios Devnet.crypto).run s (s.turn (Devnet.env 64 64))
        = some s' ∧ s'.result = some (job, result) := by
  have hrun : (step Devnet.helios Devnet.crypto).run (Devnet.start 32) [.tick, .sendJob] = some _ :=
    rfl
  obtain ⟨hone, _, _, _, _, hturn⟩ :=
    one_job_outstanding 32 (Devnet.digest 32) none _ ⟨_, hrun⟩
  refine ⟨_, ⟨_, hrun⟩, hone, ?_⟩
  obtain ⟨s', result, h, hs'⟩ := hturn (fun _ h => nomatch h) _ List.mem_cons_self (Devnet.env 64 64)
    (fun h => nomatch (Devnet.prepare_solo (by decide)).symm.trans h)
  exact ⟨s', _, result, h, hs'⟩

end
end ZkSymbiotic
