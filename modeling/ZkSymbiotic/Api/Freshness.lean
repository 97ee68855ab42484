import ZkSymbiotic.Api.Outstanding
import ZkSymbiotic.Api.Rounds

/-!
# What is emitted is fresh

A result that is sent out answers the very job that the loop would submit at that moment, and no
update was received since that job was submitted.

* `Recorded`, `Recorded.step`   jobs have different numbers, emissions follow their submission;
* `emissions_fresh`             the emitted windows of every run.
-/

namespace ZkSymbiotic

section
variable {S : ConsensusSpec} {H : Helios S} {C : Crypto}

/-- what a history says about its submissions and emissions -/
structure Recorded (history : List (Event S)) : Prop where
  ids : ∀ job older, (.submitted job :: older) <:+ history → job.id = older.length
  emitted : ∀ job dual h, (.emitted job dual :: h) <:+ history →
    lastJob h = some job ∧ updated h = false

theorem Recorded.nil : Recorded ([] : List (Event S)) :=
  ⟨fun _ _ h => List.cons_ne_nil _ _ (List.suffix_nil.mp h) |>.elim,
    fun _ _ _ h => List.cons_ne_nil _ _ (List.suffix_nil.mp h) |>.elim⟩

theorem Recorded.step {s s' : Sys S} {a : Action S} (hi : Inv H C s) (hr : Recorded s.history)
    (h : Stepped H C s a s') : Recorded s'.history := by
  rcases h.history with heq | ⟨e, heq, hdue⟩
  · exact heq ▸ hr
  rw [heq]
  refine ⟨fun job older hsuf => ?_, fun job dual h hsuf => ?_⟩
  · rcases List.suffix_cons_iff.mp hsuf with hnew | hold
    · obtain ⟨rfl, rfl⟩ := List.cons.inj hnew
      obtain ⟨_, rfl⟩ := hdue
      rfl
    · exact hr.ids job older hold
  · rcases List.suffix_cons_iff.mp hsuf with hnew | hold
    · obtain ⟨rfl, rfl⟩ := List.cons.inj hnew
      obtain ⟨hl, hu, _⟩ := hi.emitting job dual hdue
      exact ⟨hl, hu⟩
    · exact hr.emitted job dual h hold

theorem recorded_of_reach {slot : UInt64} {storeHash : B256}
    {next : Option FinalityChangeDetectorUpdate} {s : Sys S}
    (h : (step H C).Reach (Sys.init slot storeHash next) s) : Recorded s.history :=
  reach_under_inv (X := fun s => Recorded s.history) Recorded.nil (fun _ _ _ hi hr h => hr.step hi h) h

/-- **Freshness**, in every reachable state: what the loop sends out was computed by a job whose
slot, store hash and filtered next window are the detector's at this moment; an emission in the
history stands after the submission of its job with no received update in between; and a result that
is not stale starts at the detector's slot. -/
theorem emissions_fresh (slot : UInt64) (storeHash : B256)
    (next : Option FinalityChangeDetectorUpdate) (s : Sys S)
    (h : (step H C).Reach (Sys.init slot storeHash next) s) :
    (∀ s', step H C s .sendOutput = some s' → ∃ job dual,
      s'.output = some dual ∧ s'.history = .emitted job dual :: s.history ∧
      (∃ env, prepareJob H C env job.input = .ok dual) ∧
      job.input.slot = s.det.slot ∧ job.input.storeHash = s.det.storeHash ∧
      job.input.nextExpectedOutput = s.det.filteredNext) ∧
    (∀ job dual h, (.emitted job dual :: h) <:+ s.history → ∃ newer older,
      h = newer ++ .submitted job :: older ∧ job.id = older.length ∧
      ∀ e ∈ newer, ¬ e.IsUpdate) ∧
    (∀ job dual, s.result = some (job, .ok dual) → s.det.stale = false →
      dual.currentWindow.inputSlot = s.det.slot) := by
  have hi := inv_of_reach h
  have hr := recorded_of_reach h
  refine ⟨fun s' hs' => ?_, fun job dual h' hsuf => ?_, fun job dual hres hst => ?_⟩
  · cases step_stepped hs' with
    | sendOutput job dual pc room =>
      obtain ⟨hl, hu, hp⟩ := hi.emitting job dual pc
      have hin := hi.input job hl hu
      refine ⟨job, dual, rfl, rfl, hp, ?_, ?_, ?_⟩
      · rw [hin]
        rfl
      · rw [hin]
        rfl
      · rw [hin]
        rfl
  · obtain ⟨hl, hu⟩ := hr.emitted job dual h' hsuf
    obtain ⟨newer, older, rfl, _, hup⟩ := lastJob_split hl
    have hold : (.submitted job :: older) <:+ s.history :=
      (List.suffix_append newer _).trans ((List.suffix_cons _ _).trans hsuf)
    refine ⟨newer, older, rfl, hr.ids job older hold, fun e he hupd => ?_⟩
    have htrue := hup.mpr ⟨e, he, hupd⟩
    rw [hu] at htrue
    cases htrue
  · obtain ⟨hl, hu⟩ := hi.fresh hres hst
    obtain ⟨env, henv⟩ := hi.result job _ hres
    rw [prepareJob_inputSlot H C henv, hi.input job hl hu]
    rfl

/-- the first round of the small light client ends with an emission -/
theorem emissions_fresh_devnet :
    ∃ (s s' : Sys Devnet.spec) (job : Job),
      step Devnet.helios Devnet.crypto s .sendOutput = some s' ∧
      s'.history = .emitted job (Devnet.solo 32 64) :: s.history ∧
      job.input.slot = s.det.slot ∧ job.input.nextExpectedOutput = s.det.filteredNext := by
  have hreach := Machine.Reach.step (a := Action.recvResult) _ ⟨_, Devnet.run_firstRound⟩ rfl
  obtain ⟨hsend, _⟩ := emissions_fresh 32 (Devnet.digest 32) none _ hreach
  obtain ⟨job, dual, hout, hhist, _, hslot, _, hnext⟩ := hsend _ rfl
  obtain rfl : Devnet.solo 32 64 = dual := Option.some.inj hout
  exact ⟨_, _, job, rfl, hhist, hslot, hnext⟩

end
end ZkSymbiotic
