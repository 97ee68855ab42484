import ZkSymbiotic.Api.Freshness

/-!
# The stale flag

`stale` stands for an outstanding job that an update has overtaken.  The flag is cleared where such
a job answers `Ok`, but not where it answers `Err`; then the next job is dropped although nothing has
overtaken it.

* `Overtaken`                   a job without an answer that was submitted before an update;
* `Answered`, `Answered.step`   a job that is not outstanding has its answer;
* `stale_means_overtaken_iff`   the flag means what it stands for along a run exactly if no `Err` is
                                received while it is set;
* `fresh_result_dropped`        a run in which a fresh result is dropped.
-/

namespace ZkSymbiotic

section
variable {S : ConsensusSpec} {H : Helios S} {C : Crypto}

/-- the job was submitted before a received update and has no answer yet -/
def Overtaken (history : List (Event S)) (job : Job) : Prop :=
  ∃ newer older, history = newer ++ .submitted job :: older ∧
    (∀ result, .gotResult job result ∉ newer) ∧ ∃ e ∈ newer, e.IsUpdate

/-- a submitted job is outstanding or has its answer -/
def Answered (history : List (Event S)) : Prop :=
  ∀ job newer older, history = newer ++ .submitted job :: older →
    outstanding history = some job ∨ ∃ result, .gotResult job result ∈ newer

theorem Answered.step {s s' : Sys S} {a : Action S} (hi : Inv H C s) (ha : Answered s.history)
    (h : Stepped H C s a s') : Answered s'.history := by
  rcases h.history with heq | ⟨e, heq, hdue⟩
  · exact heq ▸ ha
  rw [heq]
  intro job newer older hsplit
  cases newer with
  | nil =>
    obtain ⟨rfl, _⟩ := List.cons.inj hsplit
    exact Or.inl rfl
  | cons e' newer =>
    obtain ⟨rfl, hrest⟩ := List.cons.inj hsplit
    have hold := ha job newer older hrest
    have hlater : (∃ result, .gotResult job result ∈ newer) →
        ∃ result, .gotResult job result ∈ e :: newer := by
      intro ⟨result, hmem⟩
      exact ⟨result, List.mem_cons_of_mem e hmem⟩
    cases e with
    | submitted j =>
      rcases hold with ho | hans
      · rw [(hi.idle hdue.1).2] at ho
        cases ho
      · exact Or.inr (hlater hans)
    | gotResult j result =>
      rcases hold with ho | hans
      · obtain rfl : j = job := Option.some.inj ((hi.head hdue).1.symm.trans ho)
        exact Or.inr ⟨result, List.mem_cons_self⟩
      · exact Or.inr (hlater hans)
    | sentStage u => exact hold.imp_right hlater
    | sentAdvance u => exact hold.imp_right hlater
    | gotStage u => exact hold.imp_right hlater
    | gotAdvance u => exact hold.imp_right hlater
    | emitted j dual => exact hold.imp_right hlater

/-- the overtaken job is the outstanding one -/
theorem overtaken_iff {history : List (Event S)} (hr : Recorded history) (ha : Answered history)
    {job : Job} :
    Overtaken history job ↔ outstanding history = some job ∧ updated history = true := by
  refine ⟨fun ⟨newer, older, hsplit, hans, hup⟩ => ?_, fun ⟨ho, hu⟩ => ?_⟩
  · have ho : outstanding history = some job := by
      rcases ha job newer older hsplit with ho | ⟨result, hmem⟩
      · exact ho
      · exact absurd hmem (hans result)
    obtain ⟨newer', older', hsplit', _, hup'⟩ := lastJob_split (outstanding_lastJob ho)
    -- both places are the one that the number of the job says
    have hid := hr.ids job older ⟨newer, hsplit.symm⟩
    have hid' := hr.ids job older' ⟨newer', hsplit'.symm⟩
    have hlen : (.submitted job :: older).length = ((.submitted job :: older').length : Nat) := by
      rw [List.length_cons, List.length_cons, ← hid, ← hid']
    obtain ⟨rfl, _⟩ := List.append_inj' (hsplit.symm.trans hsplit') hlen
    exact ⟨ho, hup'.mpr hup⟩
  · obtain ⟨newer, older, hsplit, hans, hup⟩ := lastJob_split (outstanding_lastJob ho)
    exact ⟨newer, older, hsplit, hans ho job, hup.mp hu⟩

/-! ## what the flag stands for -/

/-- `stale` is set only while there is an overtaken job, and only overtaken jobs are dropped -/
structure StaleMeansOvertaken (s : Sys S) : Prop where
  flag : s.det.stale = true → ∃ job, Overtaken s.history job
  dropped : ∀ job dual, s.result = some (job, .ok dual) → s.det.stale = true →
    Overtaken s.history job

/-- an `Err` is received while the flag is set -/
def ErrWhileStale (s : Sys S) (a : Action S) : Prop :=
  a = .recvResult ∧ s.det.stale = true ∧ ∃ job e, s.result = some (job, .error e)

/-- what is known of the reachable states -/
structure Known (H : Helios S) (C : Crypto) (s : Sys S) : Prop where
  inv : Inv H C s
  recorded : Recorded s.history
  answered : Answered s.history

theorem Known.step {s s' : Sys S} {a : Action S} (hk : Known H C s) (h : Stepped H C s a s') :
    Known H C s' :=
  ⟨hk.inv.step h, hk.recorded.step hk.inv h, hk.answered.step hk.inv h⟩

theorem Known.init (slot : UInt64) (storeHash : B256) (next : Option FinalityChangeDetectorUpdate) :
    Known H C (Sys.init slot storeHash next) := by
  refine ⟨Inv.init slot storeHash next, Recorded.nil, ?_⟩
  intro job newer older hsplit
  exact absurd hsplit.symm (List.append_ne_nil_of_right_ne_nil _ (List.cons_ne_nil _ _))

theorem known_of_run {slot : UInt64} {storeHash : B256}
    {next : Option FinalityChangeDetectorUpdate} {as : List (Action S)} {s : Sys S}
    (h : (step H C).run (Sys.init slot storeHash next) as = some s) : Known H C s :=
  Machine.run_inv (I := Known H C) (fun _ _ _ hk hs => hk.step (step_stepped hs))
    (Known.init slot storeHash next) h

/-- in terms of the flag alone -/
theorem staleMeansOvertaken_iff {s : Sys S} (hk : Known H C s) :
    StaleMeansOvertaken s ↔
      (s.det.stale = true → s.det.inFlight = true ∧ updated s.history = true) := by
  have hiff := @overtaken_iff S s.history hk.recorded hk.answered
  refine ⟨fun h hst => ?_, fun h => ?_⟩
  · obtain ⟨job, hjob⟩ := h.flag hst
    obtain ⟨ho, hu⟩ := hiff.mp hjob
    rw [hk.inv.inFlight, ho]
    exact ⟨rfl, hu⟩
  · refine ⟨fun hst => ?_, fun job dual hres hst => ?_⟩
    · obtain ⟨hfl, hu⟩ := h hst
      rw [hk.inv.inFlight] at hfl
      obtain ⟨job, ho⟩ := Option.isSome_iff_exists.mp hfl
      exact ⟨job, hiff.mpr ⟨ho, hu⟩⟩
    · exact hiff.mpr ⟨(hk.inv.head hres).1, (h hst).2⟩

/-- where nothing is in flight the flag has to be clear -/
theorem stale_eq_false {s : Sys S}
    (hP : s.det.stale = true → s.det.inFlight = true ∧ updated s.history = true)
    (hfl : s.det.inFlight = false) : s.det.stale = false := by
  rw [Bool.eq_false_iff]
  intro hst
  rw [(hP hst).1] at hfl
  cases hfl

/-- one step keeps the meaning of the flag exactly if it is not an `Err` received while it is set -/
theorem stale_step {s s' : Sys S} {a : Action S} (hk : Known H C s)
    (hP : s.det.stale = true → s.det.inFlight = true ∧ updated s.history = true)
    (h : Stepped H C s a s') :
    (s'.det.stale = true → s'.det.inFlight = true ∧ updated s'.history = true) ↔
      ¬ ErrWhileStale s a := by
  have hnot : a ≠ .recvResult → ¬ ErrWhileStale s a := fun hne he => hne he.1
  have hclear : ∀ {job : Job} {dual : DualProofInputsWithWindow S},
      s.result = some (job, .ok dual) → ¬ ErrWhileStale s a := by
    intro job dual hres ⟨_, _, job', e, herr⟩
    rw [hres] at herr
    cases herr
  cases h with
  | recvStage update pc head =>
    refine iff_of_true (fun hst => ?_) (hnot (fun h => nomatch h))
    by_cases hfl : s.det.inFlight = true
    · exact ⟨hfl, rfl⟩
    · have hst' : s.det.stale = true := (if_neg hfl).symm.trans hst
      exact ⟨(hP hst').1, rfl⟩
  | recvAdvance update pc head =>
    refine iff_of_true (fun hst => ?_) (hnot (fun h => nomatch h))
    by_cases hfl : s.det.inFlight = true
    · exact ⟨hfl, rfl⟩
    · have hst' : s.det.stale = true := (if_neg hfl).symm.trans hst
      exact ⟨(hP hst').1, rfl⟩
  | recvError job e pc head =>
    refine ⟨fun hP' ⟨_, hst, _⟩ => ?_, fun hno hst => absurd ⟨rfl, hst, job, e, head⟩ hno⟩
    exact Bool.false_ne_true (hP' hst).1
  | recvStale job dual pc head stale =>
    exact iff_of_true (fun hst => absurd hst Bool.false_ne_true) (hclear head)
  | recvEmit job dual pc head fresh progress next =>
    exact iff_of_true (fun hst => absurd (fresh.symm.trans hst) Bool.false_ne_true) (hclear head)
  | recvLagging job dual pc head fresh progress next =>
    exact iff_of_true (fun hst => absurd (fresh.symm.trans hst) Bool.false_ne_true) (hclear head)
  | recvIgnored job dual pc head fresh ignored =>
    exact iff_of_true (fun hst => absurd (fresh.symm.trans hst) Bool.false_ne_true) (hclear head)
  | sendJob pc room =>
    have hfalse := stale_eq_false hP (hk.inv.idle pc).1
    exact iff_of_true (fun hst => absurd (hfalse.symm.trans hst) Bool.false_ne_true)
      (hnot (fun h => nomatch h))
  | _ => exact iff_of_true hP (hnot (fun h => nomatch h))

/-- **The stale flag**: along a run it is set only while a job that an update has overtaken is
outstanding, and only such jobs are dropped, exactly if no `Err` is received while it is set. -/
theorem stale_means_overtaken_iff (slot : UInt64) (storeHash : B256)
    (next : Option FinalityChangeDetectorUpdate) (as : List (Action S)) (s : Sys S)
    (hr : (step H C).run (Sys.init slot storeHash next) as = some s) :
    (step H C).Always StaleMeansOvertaken (Sys.init slot storeHash next) as ↔
      (step H C).Steps (fun s a => ¬ ErrWhileStale s a) (Sys.init slot storeHash next) as := by
  have hinit : StaleMeansOvertaken (Sys.init (S := S) slot storeHash next) :=
    ⟨fun h => absurd h Bool.false_ne_true, fun _ _ h => nomatch h⟩
  refine Machine.always_iff_steps (I := Known H C) (fun _ _ _ hk hs => hk.step (step_stepped hs))
    (fun s a s' hk hP hs => ?_) (Known.init slot storeHash next) hinit hr
  have hs' := step_stepped hs
  rw [staleMeansOvertaken_iff (hk.step hs')]
  exact stale_step hk ((staleMeansOvertaken_iff hk).mp hP) hs'

/-- the flag along a run in which an advance overtakes an answer -/
theorem stale_means_overtaken_devnet :
    (step Devnet.helios Devnet.crypto).run (Devnet.start 32) Devnet.busyRun = some Devnet.busyEnd ∧
    (step Devnet.helios Devnet.crypto).Always StaleMeansOvertaken (Devnet.start 32)
      Devnet.busyRun := by
  refine ⟨Devnet.run_busyRun,
    (stale_means_overtaken_iff 32 (Devnet.digest 32) none _ _ Devnet.run_busyRun).mpr ?_⟩
  have hok : ∀ {s : Sys Devnet.spec} {job : Job} {dual : DualProofInputsWithWindow Devnet.spec},
      s.result = some (job, .ok dual) → ¬ ErrWhileStale s .recvResult := by
    intro s job dual hres ⟨_, _, _, _, herr⟩
    exact nomatch hres.symm.trans herr
  exact Devnet.steps_busyRun (fun s a ha herr => ha herr.1) (hok rfl) (hok rfl) (hok rfl) (hok rfl)

/-- a round fails while an update comes in, and the next round succeeds -/
def Devnet.errWhileStale : List (Action Devnet.spec) :=
  round Devnet.offline ++ ([.sendStage (Devnet.update 64), .recvStage, .recvResult] ++
    round (Devnet.env 96 96))

/-- after the failed round: nothing is in flight and the flag is set -/
def Devnet.afterErr : Sys Devnet.spec :=
  let job : Job := ⟨0, ⟨32, Devnet.digest 32, none⟩⟩
  { Devnet.start 32 with
    det :=
      { slot := 32, storeHash := Devnet.digest 32, latestSlot := 32, inFlight := false,
        stale := true, nextExpectedOutput := some (Devnet.update 64) }
    history :=
      [.gotResult job (.error Devnet.timedOut), .gotStage (Devnet.update 64),
        .sentStage (Devnet.update 64), .submitted job] }

/-- **a fresh result is dropped**: its job was submitted after the last received update, but the flag
is still set by the job before it -/
theorem fresh_result_dropped :
    ∃ s job dual, (step Devnet.helios Devnet.crypto).run (Devnet.start 32) Devnet.errWhileStale
        = some s ∧
      s.result = some (job, .ok dual) ∧ s.det.stale = true ∧ (∀ j, ¬ Overtaken s.history j) ∧
      ¬ StaleMeansOvertaken s ∧
      ∃ s', step Devnet.helios Devnet.crypto s .recvResult = some s' ∧ s'.pc = .starting := by
  have h1 : (step Devnet.helios Devnet.crypto).run (Devnet.start 32) (round Devnet.offline)
      = some ((Devnet.start 32).answered (.error Devnet.timedOut)) :=
    run_round ⟨rfl, rfl, rfl, rfl, rfl⟩ (Devnet.prepare_offline _)
  have h2 : (step Devnet.helios Devnet.crypto).run
      ((Devnet.start 32).answered (.error Devnet.timedOut))
      [.sendStage (Devnet.update 64), .recvStage, .recvResult] = some Devnet.afterErr := rfl
  have h3 : (step Devnet.helios Devnet.crypto).run Devnet.afterErr (round (Devnet.env 96 96))
      = some (Devnet.afterErr.answered (.ok (Devnet.dual 32 96 64 96))) :=
    run_round ⟨rfl, rfl, rfl, rfl, rfl⟩ (Devnet.prepare_dual (by decide) (by decide))
  have hrun : (step Devnet.helios Devnet.crypto).run (Devnet.start 32) Devnet.errWhileStale
      = some (Devnet.afterErr.answered (.ok (Devnet.dual 32 96 64 96))) := by
    unfold Devnet.errWhileStale
    rw [Machine.run_append_some _ h1, Machine.run_append_some _ h2, h3]
  have hk := known_of_run hrun
  have hno : ∀ j, ¬ Overtaken (Devnet.afterErr.answered (.ok (Devnet.dual 32 96 64 96))).history j :=
    fun j hj => Bool.false_ne_true ((overtaken_iff hk.recorded hk.answered).mp hj).2
  refine ⟨_, _, _, hrun, rfl, rfl, hno, fun hP => ?_, _, rfl, rfl⟩
  obtain ⟨j, hj⟩ := hP.flag rfl
  exact hno j hj

end
end ZkSymbiotic
