import ZkSymbiotic.Api.System
import ZkSymbiotic.Rpcs.Devnet

/-!
# Rounds of the detector

A round is a tick, the submission of a job, and the way of its answer back to the loop.

* `run_round`          every answer the actor can give comes in;
* `run_emission`       an answer that makes progress goes out to the observer;
* `steps_emission`     a condition on the received results, along such a round;
* `Devnet.prepare_solo`, `Devnet.prepare_dual`   answers of the small light client;
* `Devnet.run_firstEmission`   its first round, with the emission;
* `Devnet.busyRun`     emissions, updates and an answer that one of them overtakes.
-/

namespace ZkSymbiotic

section
variable {S : ConsensusSpec} {H : Helios S} {C : Crypto}

/-- a round in which the actor works in the environment `env` -/
def round (env : Option (JobEnv S)) : List (Action S) :=
  [.tick, .sendJob, .actorRecv, .actorWork env, .actorSend]

/-- the state after a round -/
def Sys.answered (s : Sys S) (result : JobResult S) : Sys S :=
  { s with
    det := s.det.setInFlight true
    result := some (⟨s.history.length, s.det.jobInput⟩, result)
    history := .submitted ⟨s.history.length, s.det.jobInput⟩ :: s.history }

/-- at `select!`, with nothing on its way -/
structure Sys.AtRest (s : Sys S) : Prop where
  pc : s.pc = .select
  inFlight : s.det.inFlight = false
  job : s.job = none
  actor : s.actor = .idle
  result : s.result = none

theorem run_round {s : Sys S} (hs : s.AtRest) {env : Option (JobEnv S)} {result : JobResult S}
    (h : prepareJob H C env s.det.jobInput = result.mapError .error) :
    (step H C).run s (round env) = some (s.answered result) := by
  obtain ⟨⟨slot, storeHash, latestSlot, inFlight, stale, next⟩, pc, stage, advance, job, res, output,
    actor, history⟩ := s
  obtain ⟨hpc, hfl, hjob, hactor, hres⟩ := hs
  simp only at hpc hfl hjob hactor hres
  subst hpc hfl hjob hactor hres
  have hans : ∀ job, Actor.answer job (result.mapError .error) = some (.sending job result) := by
    intro job
    cases result with
    | ok dual => rfl
    | error e => rfl
  simp only [round, Machine.run, step, Option.bind_some, Bool.false_eq_true, if_false]
  show Option.bind (Option.map _ (Actor.answer _ (prepareJob H C env _))) _ = _
  rw [show prepareJob H C env (Detector.jobInput _) = _ from h, hans]
  rfl

/-- the state after the answer to the round was sent out and observed -/
def Sys.emits (s : Sys S) (dual : DualProofInputsWithWindow S) : Sys S :=
  let job : Job := ⟨s.history.length, s.det.jobInput⟩
  { s with
    det := s.det.onEmitted dual
    output := none
    history := .emitted job dual :: .gotResult job (.ok dual) :: .submitted job :: s.history }

/-- a round whose answer makes progress, up to the observer -/
theorem run_emission {s : Sys S} (hs : s.AtRest) (hout : s.output = none)
    (hst : s.det.stale = false) {env : Option (JobEnv S)} {dual : DualProofInputsWithWindow S}
    (hans : prepareJob H C env s.det.jobInput = .ok dual) (hp : s.det.Progress dual)
    (hl : ¬ Detector.Lags s.det.latestSlot dual) :
    (step H C).run s (round env ++ [.recvResult, .sendOutput, .observe]) = some (s.emits dual) := by
  have hround : (step H C).run s (round env) = some (s.answered (.ok dual)) := run_round hs hans
  rw [Machine.run_append_some _ hround]
  obtain ⟨⟨slot, storeHash, latestSlot, inFlight, stale, next⟩, pc, stage, advance, job, res, output,
    actor, history⟩ := s
  obtain ⟨hpc, hfl, hjob, hactor, hres⟩ := hs
  simp only at hpc hfl hjob hactor hres hout hst
  subst hpc hfl hjob hactor hres hout hst
  have h : Detector.onResult ⟨slot, storeHash, latestSlot, true, false, next⟩ (.ok dual)
      = (⟨slot, storeHash, latestSlot, false, false, next⟩, .emit dual) :=
    Detector.onResult_emit rfl hp hl
  simp only [Machine.run, step, Sys.answered, Detector.setInFlight]
  rw [h]
  rfl

/-- the state after a stage update has come in -/
def Sys.staged (s : Sys S) (update : FinalityChangeDetectorUpdate) : Sys S :=
  { s with
    det := s.det.onStage update
    history := .gotStage update :: .sentStage update :: s.history }

theorem run_staged {s : Sys S} (hpc : s.pc = .select) (hst : s.stage = none)
    (update : FinalityChangeDetectorUpdate) :
    (step H C).run s [.sendStage update, .recvStage] = some (s.staged update) := by
  obtain ⟨det, pc, stage, advance, job, res, output, actor, history⟩ := s
  obtain rfl : pc = .select := hpc
  obtain rfl : stage = none := hst
  rfl

/-- the state after an advance update has come in -/
def Sys.advanced (s : Sys S) (update : FinalityChangeDetectorUpdate) : Sys S :=
  { s with
    det := s.det.onAdvance update
    history := .gotAdvance update :: .sentAdvance update :: s.history }

theorem run_advanced {s : Sys S} (hpc : s.pc = .select) (hadv : s.advance = none)
    (update : FinalityChangeDetectorUpdate) :
    (step H C).run s [.sendAdvance update, .recvAdvance] = some (s.advanced update) := by
  obtain ⟨det, pc, stage, advance, job, res, output, actor, history⟩ := s
  obtain rfl : pc = .select := hpc
  obtain rfl : advance = none := hadv
  rfl

/-! ## conditions on the received results -/

section
variable {G : Sys S → Action S → Prop}

theorem steps_append {as bs : List (Action S)} {s s' : Sys S}
    (hquiet : ∀ s a, a ≠ .recvResult → G s a) (has : .recvResult ∉ as)
    (hrun : (step H C).run s as = some s') (h : (step H C).Steps G s' bs) :
    (step H C).Steps G s (as ++ bs) :=
  Machine.Steps.of_forall_append (fun a ha s => hquiet s a fun heq => has (heq ▸ ha)) hrun h

theorem recvResult_notMem_round (env : Option (JobEnv S)) : Action.recvResult ∉ round env := by
  simp [round]

/-- a round whose answer is emitted -/
theorem steps_emission {s : Sys S} (hquiet : ∀ s a, a ≠ .recvResult → G s a) (hs : s.AtRest)
    (hout : s.output = none) (hst : s.det.stale = false) {env : Option (JobEnv S)}
    {dual : DualProofInputsWithWindow S} (hans : prepareJob H C env s.det.jobInput = .ok dual)
    (hp : s.det.Progress dual) (hl : ¬ Detector.Lags s.det.latestSlot dual)
    (hrecv : G (s.answered (.ok dual)) .recvResult) {bs : List (Action S)}
    (h : (step H C).Steps G (s.emits dual) bs) :
    (step H C).Steps G s (round env ++ ([.recvResult, .sendOutput, .observe] ++ bs)) := by
  have hround : (step H C).run s (round env) = some (s.answered (.ok dual)) := run_round hs hans
  have hemits := run_emission hs hout hst hans hp hl
  rw [Machine.run_append_some _ hround] at hemits
  refine steps_append hquiet (recvResult_notMem_round env) hround ⟨hrecv, fun s₁ hs₁ => ?_⟩
  rw [Machine.run_cons, hs₁] at hemits
  exact steps_append hquiet (by simp) hemits h

end

end

namespace Devnet

def update (slot : UInt64) : FinalityChangeDetectorUpdate := ⟨slot, digest slot⟩

/-- the providers have finalized `b` when they are asked for the current window, and `c` when they
are asked for the next one -/
def env (b c : UInt64) : Option (JobEnv spec) := some { current := proxy b, next := proxy c }

def solo (a b : UInt64) : DualProofInputsWithWindow spec where
  currentWindow := window a b
  nextWindow := none

def dual (a b n c : UInt64) : DualProofInputsWithWindow spec where
  currentWindow := window a b
  nextWindow := some (window n c)

theorem prepare_solo {a b c : UInt64} (h : IsWindow a b) :
    prepareJob helios crypto (env b c)
      { slot := a, storeHash := digest a, nextExpectedOutput := none } = .ok (solo a b) := by
  show prepareConsensusMptProofInputs helios crypto (proxy b) a (digest a) true >>= _ = _
  rw [prepare_ok h]
  rfl

theorem prepare_dual {a b n c : UInt64} (h : IsWindow a b) (hn : IsWindow n c) :
    prepareJob helios crypto (env b c)
      { slot := a, storeHash := digest a, nextExpectedOutput := some (update n) }
      = .ok (dual a b n c) := by
  show joinWindows (prepareConsensusMptProofInputs helios crypto (proxy b) a (digest a) true)
    (prepareConsensusMptProofInputs helios crypto (proxy c) n (digest n) true) = _
  rw [prepare_ok h, prepare_ok hn]
  rfl

/-- all providers are out of reach -/
def down : ConsensusHttpProxy spec :=
  { proxy 0 with
    allProviders := [{ consensusRpc 0 with timely := false }]
    schedule := Shuffle.id _ }

def offline : Option (JobEnv spec) := some { current := down, next := down }

def timedOut : Error :=
  .context "All multiplexed requests failed: " (.msg "Provider timed out after 300s")

theorem prepare_offline (job : FinalityChangeDetectorJobInput) :
    prepareJob helios crypto offline job = .error (.error timedOut) := by
  have hdown : ∀ slot storeHash,
      prepareConsensusMptProofInputs helios crypto down slot storeHash true
        = .error (.error timedOut) := fun _ _ => rfl
  obtain ⟨slot, storeHash, next⟩ := job
  cases next with
  | none =>
    show (do
      let current ← prepareConsensusMptProofInputs helios crypto down slot storeHash true
      pure { currentWindow := current, nextWindow := none } :
        Except Failure (DualProofInputsWithWindow spec)) = _
    rw [hdown]
    rfl
  | some n =>
    show joinWindows (prepareConsensusMptProofInputs helios crypto down slot storeHash true)
      (prepareConsensusMptProofInputs helios crypto down n.slot n.storeHash true) = _
    rw [hdown, hdown]
    rfl

/-- the detector started at a slot, with no staged job -/
def start (slot : UInt64) : Sys spec := Sys.init slot (digest slot) none

/-- without a next window there is none that lags -/
theorem solo_ahead {latestSlot a b : UInt64} : ¬ Detector.Lags latestSlot (solo a b) :=
  fun ⟨_, hw, _⟩ => nomatch hw

theorem dual_ahead {latestSlot a b n c : UInt64} (h : latestSlot < c) :
    ¬ Detector.Lags latestSlot (dual a b n c) := by
  intro ⟨w, hw, hle⟩
  obtain rfl := Option.some.inj hw
  exact UInt64.not_le.mpr h hle

/-- the first round -/
theorem run_firstRound : (step helios crypto).run (start 32) (round (env 64 64))
    = some ((start 32).answered (.ok (solo 32 64))) :=
  run_round ⟨rfl, rfl, rfl, rfl, rfl⟩ (prepare_solo (by decide))

/-- and its emission -/
theorem run_firstEmission : (step helios crypto).run (start 32)
      (round (env 64 64) ++ [.recvResult, .sendOutput, .observe])
    = some ((start 32).emits (solo 32 64)) :=
  run_emission ⟨rfl, rfl, rfl, rfl, rfl⟩ rfl rfl (prepare_solo (by decide)) ⟨rfl, by decide⟩ solo_ahead

/-! ## a busy run -/

/-- a window was emitted and staged -/
def onceEmitted : Sys spec := ((start 32).emits (solo 32 64)).staged (update 64)

/-- two emissions, and the stage update between them -/
def twiceEmitted : Sys spec := onceEmitted.emits (dual 32 96 64 96)

theorem run_onceEmitted (as : List (Action spec)) :
    (step helios crypto).run (start 32)
        ((round (env 64 64) ++ [.recvResult, .sendOutput, .observe]) ++
          ([.sendStage (update 64), .recvStage] ++ as))
      = (step helios crypto).run onceEmitted as := by
  have h2 := run_staged (H := helios) (C := crypto) (s := (start 32).emits (solo 32 64)) rfl rfl
    (update 64)
  rw [Machine.run_append_some _ run_firstEmission, Machine.run_append_some _ h2]
  rfl

theorem run_twiceEmitted (as : List (Action spec)) :
    (step helios crypto).run (start 32)
        ((round (env 64 64) ++ [.recvResult, .sendOutput, .observe]) ++
          ([.sendStage (update 64), .recvStage] ++
          ((round (env 96 96) ++ [.recvResult, .sendOutput, .observe]) ++ as)))
      = (step helios crypto).run twiceEmitted as := by
  have h3 := run_emission (s := onceEmitted)
    ⟨rfl, rfl, rfl, rfl, rfl⟩ rfl rfl
    (prepare_dual (a := 32) (b := 96) (n := 64) (c := 96) (by decide) (by decide))
    ⟨rfl, by decide⟩ (dual_ahead (by decide))
  rw [run_onceEmitted, Machine.run_append_some _ h3]
  rfl

/-- the advance to 64 comes in while an answer to the job of 32 and 64 waits -/
def overtaken : Sys spec := (twiceEmitted.answered (.ok (dual 32 128 64 128))).advanced (update 64)

/-- that answer was dropped -/
def dropped : Sys spec :=
  { overtaken with
    det := { overtaken.det.setInFlight false with stale := false }
    result := none
    history :=
      .gotResult ⟨twiceEmitted.history.length, twiceEmitted.det.jobInput⟩ (.ok (dual 32 128 64 128))
        :: overtaken.history }

/-- two windows are emitted with a stage update between them, an advance overtakes the third answer,
and the answer to the job after it is emitted -/
def busyRun : List (Action spec) :=
  (round (env 64 64) ++ [.recvResult, .sendOutput, .observe]) ++
    ([.sendStage (update 64), .recvStage] ++
    ((round (env 96 96) ++ [.recvResult, .sendOutput, .observe]) ++
    (round (env 128 128) ++ ([.sendAdvance (update 64), .recvAdvance] ++
    [.recvResult, .sendJob, .actorRecv, .actorWork (env 128 128), .actorSend, .recvResult,
      .sendOutput, .observe]))))

def busyEnd : Sys spec := dropped.emits (solo 64 128)

theorem overtaken_recvResult :
    step helios crypto overtaken .recvResult = some { dropped with pc := .starting } := rfl

theorem dropped_tick : step helios crypto dropped .tick = some { dropped with pc := .starting } := rfl

theorem run_third : (step helios crypto).run twiceEmitted (round (env 128 128))
    = some (twiceEmitted.answered (.ok (dual 32 128 64 128))) :=
  run_round ⟨rfl, rfl, rfl, rfl, rfl⟩ (prepare_dual (by decide) (by decide))

theorem run_overtaken : (step helios crypto).run (twiceEmitted.answered (.ok (dual 32 128 64 128)))
    [.sendAdvance (update 64), .recvAdvance] = some overtaken := run_advanced rfl rfl (update 64)

theorem run_busyRun : (step helios crypto).run (start 32) busyRun = some busyEnd := by
  have hlast : (step helios crypto).run dropped
      (round (env 128 128) ++ [.recvResult, .sendOutput, .observe]) = some busyEnd :=
    run_emission ⟨rfl, rfl, rfl, rfl, rfl⟩ rfl rfl (prepare_solo (by decide)) ⟨rfl, by decide⟩
      solo_ahead
  rw [busyRun, run_twiceEmitted, Machine.run_append_some _ run_third,
    Machine.run_append_some _ run_overtaken, Machine.run_cons, overtaken_recvResult]
  rw [round, List.cons_append, Machine.run_cons, dropped_tick] at hlast
  exact hlast

/-- a condition on the received results, of which there are four -/
theorem steps_busyRun {G : Sys spec → Action spec → Prop}
    (hquiet : ∀ s a, a ≠ .recvResult → G s a)
    (hfirst : G ((start 32).answered (.ok (solo 32 64))) .recvResult)
    (hsecond : G (onceEmitted.answered (.ok (dual 32 96 64 96))) .recvResult)
    (hthird : G overtaken .recvResult)
    (hfourth : G (dropped.answered (.ok (solo 64 128))) .recvResult) :
    (step helios crypto).Steps G (start 32) busyRun := by
  have hlast : (step helios crypto).Steps G dropped
      (round (env 128 128) ++ ([.recvResult, .sendOutput, .observe] ++ [])) :=
    steps_emission hquiet ⟨rfl, rfl, rfl, rfl, rfl⟩ rfl rfl (prepare_solo (by decide))
      ⟨rfl, by decide⟩ solo_ahead hfourth trivial
  rw [busyRun, List.append_assoc]
  refine steps_emission hquiet ⟨rfl, rfl, rfl, rfl, rfl⟩ rfl rfl (prepare_solo (by decide))
    ⟨rfl, by decide⟩ solo_ahead hfirst ?_
  refine steps_append hquiet (by simp) (run_staged rfl rfl (update 64)) ?_
  rw [List.append_assoc]
  refine steps_emission hquiet ⟨rfl, rfl, rfl, rfl, rfl⟩ rfl rfl
    (prepare_dual (by decide) (by decide)) ⟨rfl, by decide⟩ (dual_ahead (by decide)) hsecond ?_
  refine steps_append hquiet (recvResult_notMem_round _) run_third ?_
  refine steps_append hquiet (by simp) run_overtaken ⟨hthird, fun s hs => ?_⟩
  obtain rfl := Option.some.inj (overtaken_recvResult.symm.trans hs)
  exact hlast.2 _ dropped_tick

end Devnet

end ZkSymbiotic
