import ZkSymbiotic.Api.System
import ZkSymbiotic.Api.Rounds

/-!
# The threshold for new results

`latest_slot` is the slot that a result has to beat.  It follows emissions and advances, except where
a result whose next window lags is dropped: that raises the threshold as an emission would.

* `threshold`                   what the history says the threshold is;
* `latestSlot_eq_threshold_iff`  the two agree along a run exactly if no lagging result is received;
* `lagging_result_raises`       a run after which they differ.
-/

namespace ZkSymbiotic

section
variable {S : ConsensusSpec} {H : Helios S} {C : Crypto}

/-- the slot where the last emission since the last advance ends, or of that advance, or the initial
one -/
def threshold (slot : UInt64) : List (Event S) → UInt64
  | [] => slot
  | .emitted _ dual :: _ => dual.currentWindow.expectedOutputSlot
  | .gotAdvance update :: _ => update.slot
  | _ :: h => threshold slot h

def LatestIsThreshold (slot : UInt64) (s : Sys S) : Prop :=
  s.det.latestSlot = threshold slot s.history

/-- a result that is not stale is received whose current window makes progress while its next window
is not ahead of the threshold -/
def LaggingResult (s : Sys S) (a : Action S) : Prop :=
  a = .recvResult ∧ s.det.stale = false ∧ ∃ job dual, s.result = some (job, .ok dual) ∧
    s.det.Progress dual ∧ Detector.Lags s.det.latestSlot dual

/-- one step keeps the threshold exactly if it does not receive a lagging result -/
theorem threshold_step {slot : UInt64} {s s' : Sys S} {a : Action S}
    (hP : LatestIsThreshold slot s) (h : Stepped H C s a s') :
    LatestIsThreshold slot s' ↔ ¬ LaggingResult s a := by
  have hnot : a ≠ .recvResult → ¬ LaggingResult s a := fun hne hl => hne hl.1
  have hother : ∀ {job : Job} {dual : DualProofInputsWithWindow S},
      s.result = some (job, .ok dual) → (s.det.stale = false → s.det.Progress dual →
        ¬ Detector.Lags s.det.latestSlot dual) → ¬ LaggingResult s a := by
    intro job dual hres hn ⟨_, hst, job', dual', hres', hp, hl⟩
    rw [hres, Option.some.injEq, Prod.mk.injEq, Except.ok.injEq] at hres'
    obtain ⟨_, rfl⟩ := hres'
    exact hn hst hp hl
  cases h with
  | recvAdvance update pc head => exact iff_of_true rfl (hnot (fun h => nomatch h))
  | sendOutput job dual pc room => exact iff_of_true rfl (hnot (fun h => nomatch h))
  | recvError job e pc head =>
    refine iff_of_true hP (fun ⟨_, _, job', dual, hres, _⟩ => ?_)
    rw [head] at hres
    cases hres
  | recvStale job dual pc head stale =>
    refine iff_of_true hP (hother head (fun hst => ?_))
    rw [stale] at hst
    cases hst
  | recvEmit job dual pc head fresh progress next =>
    exact iff_of_true hP (hother head (fun _ _ => next))
  | recvLagging job dual pc head fresh progress next =>
    refine iff_of_false (fun heq => ?_) (fun hno => hno ⟨rfl, fresh, job, dual, head, progress, next⟩)
    -- the threshold of the history is still the old one, below the new `latest_slot`
    have hlt : s.det.latestSlot < dual.currentWindow.expectedOutputSlot := progress.2
    have heq' : dual.currentWindow.expectedOutputSlot = threshold slot s.history := heq
    rw [heq', ← hP] at hlt
    exact UInt64.lt_irrefl _ hlt
  | recvIgnored job dual pc head fresh ignored =>
    exact iff_of_true hP (hother head (fun _ hp => absurd hp ignored))
  | _ => exact iff_of_true hP (hnot (fun h => nomatch h))

/-- **The threshold**: along a run `latest_slot` is the end of the last emission since the last
advance, or else the slot of that advance, exactly if no lagging result is received. -/
theorem latestSlot_eq_threshold_iff (slot : UInt64) (storeHash : B256)
    (next : Option FinalityChangeDetectorUpdate) (as : List (Action S)) (s : Sys S)
    (hr : (step H C).run (Sys.init slot storeHash next) as = some s) :
    (step H C).Always (LatestIsThreshold slot) (Sys.init slot storeHash next) as ↔
      (step H C).Steps (fun s a => ¬ LaggingResult s a) (Sys.init slot storeHash next) as :=
  Machine.always_iff_steps (I := fun _ => True) (fun _ _ _ _ _ => trivial)
    (fun _ _ _ _ hP hs => threshold_step hP (step_stepped hs)) trivial rfl hr

/-- the threshold along a run with three emissions and an advance -/
theorem latestSlot_eq_threshold_devnet :
    (step Devnet.helios Devnet.crypto).run (Devnet.start 32) Devnet.busyRun = some Devnet.busyEnd ∧
    (step Devnet.helios Devnet.crypto).Always (LatestIsThreshold 32) (Devnet.start 32)
      Devnet.busyRun := by
  refine ⟨Devnet.run_busyRun,
    (latestSlot_eq_threshold_iff 32 (Devnet.digest 32) none _ _ Devnet.run_busyRun).mpr ?_⟩
  have hahead : ∀ {s : Sys Devnet.spec} {job : Job} {dual : DualProofInputsWithWindow Devnet.spec},
      s.result = some (job, .ok dual) → ¬ Detector.Lags s.det.latestSlot dual →
      ¬ LaggingResult s .recvResult := by
    intro s job dual hres hl ⟨_, _, _, _, hres', _, hlags⟩
    obtain rfl := Except.ok.inj (Prod.mk.inj (Option.some.inj (hres.symm.trans hres'))).2
    exact hl hlags
  refine Devnet.steps_busyRun (fun s a ha hl => ha hl.1) (hahead rfl Devnet.solo_ahead)
    (hahead rfl (Devnet.dual_ahead (by decide))) (fun hl => ?_) (hahead rfl Devnet.solo_ahead)
  -- the overtaken answer is stale
  exact nomatch hl.2.1

/-! ## a lagging result -/

namespace Devnet

/-- a window is emitted and staged, a dual window is emitted, and then the providers of the next
window are behind those of the current one -/
def laggingRun : List (Action spec) :=
  (round (env 64 64) ++ [.recvResult, .sendOutput, .observe]) ++
    ([.sendStage (update 64), .recvStage] ++
    ((round (env 96 96) ++ [.recvResult, .sendOutput, .observe]) ++
    (round (env 128 96) ++ [.recvResult])))

end Devnet

/-- **a result that is not emitted raises the threshold**: from 96, where the last emission ends, to
128 -/
theorem lagging_result_raises :
    ∃ s, (step Devnet.helios Devnet.crypto).run (Devnet.start 32) Devnet.laggingRun = some s ∧
      s.pc = .select ∧ s.det.latestSlot = 128 ∧ threshold 32 s.history = 96 ∧
      ¬ LatestIsThreshold 32 s := by
  have h3 : (step Devnet.helios Devnet.crypto).run Devnet.twiceEmitted
      (round (Devnet.env 128 96) ++ [.recvResult])
      = (step Devnet.helios Devnet.crypto).run
        (Devnet.twiceEmitted.answered (.ok (Devnet.dual 32 128 64 96))) [.recvResult] :=
    Machine.run_append_some _ (run_round ⟨rfl, rfl, rfl, rfl, rfl⟩
      (Devnet.prepare_dual (by decide) (by decide))) _
  have hrun := (Devnet.run_twiceEmitted (round (Devnet.env 128 96) ++ [.recvResult])).trans h3
  have hne : ¬ (128 : UInt64) = 96 := by decide
  exact ⟨_, hrun, rfl, rfl, rfl, hne⟩

end
end ZkSymbiotic
