import ZkSymbiotic.Api.Outstanding
import ZkSymbiotic.Api.Rounds

/-!
# The next window starts ahead

The sender stages slots in increasing order and advances to staged ones.  Stage and advance updates
come through two channels, so an advance can be received before a stage update that was sent before
it; then the detector is ahead of its own next window, which is scrubbed only where the two are equal.

* `SenderOk`, `sequential`      the sender's discipline, and the machine under it;
* `Order`, `Order.step`         what the discipline leaves of the order of slots;
* `next_ahead_iff`              next windows start ahead along a run exactly if no advance overtakes
                                the next window, and then all dual jobs look ahead;
* `overtaken_next_submitted`    a dual job whose next window starts behind its current one.
-/

namespace ZkSymbiotic

section
variable {S : ConsensusSpec} {H : Helios S} {C : Crypto}

/-! ## the sender -/

/-- the staged slots; a next window that is there from the start counts as staged -/
def stagedSlots (next : Option FinalityChangeDetectorUpdate) : List (Event S) → List UInt64
  | [] => (next.map (·.slot)).toList
  | .sentStage update :: h => update.slot :: stagedSlots next h
  | _ :: h => stagedSlots next h

def advancedSlots : List (Event S) → List UInt64
  | [] => []
  | .sentAdvance update :: h => update.slot :: advancedSlots h
  | _ :: h => advancedSlots h

/-- stage slots increase above the initial slot, advance slots increase among the staged ones -/
def SenderOk (slot : UInt64) (next : Option FinalityChangeDetectorUpdate) (s : Sys S) :
    Action S → Prop
  | .sendStage update => slot < update.slot ∧ ∀ v ∈ stagedSlots next s.history, v < update.slot
  | .sendAdvance update => update.slot ∈ stagedSlots next s.history ∧
      ∀ v ∈ advancedSlots s.history, v < update.slot
  | _ => True

instance (slot : UInt64) (next : Option FinalityChangeDetectorUpdate) (s : Sys S) :
    (a : Action S) → Decidable (SenderOk slot next s a)
  | .sendStage update =>
    @instDecidableAnd _ _ inferInstance (List.decidableBAll (· < update.slot) _)
  | .sendAdvance update =>
    @instDecidableAnd _ _ inferInstance (List.decidableBAll (· < update.slot) _)
  | .recvStage | .recvAdvance | .recvResult | .tick | .sendJob | .sendOutput | .dropOutput
  | .observe | .actorRecv | .actorWork _ | .actorSend => isTrue trivial

variable (H C) in
/-- the machine with a sequential sender -/
def sequential (slot : UInt64) (next : Option FinalityChangeDetectorUpdate) :
    Machine (Sys S) (Action S) :=
  (step H C).guard (SenderOk slot next)

/-! ## the order of slots -/

structure Order (slot : UInt64) (next : Option FinalityChangeDetectorUpdate) (s : Sys S) :
    Prop where
  staged : ∀ v ∈ stagedSlots next s.history, slot < v
  /-- the stage update on its way is the last one sent -/
  stage : ∀ update, s.stage = some update → update.slot ∈ stagedSlots next s.history ∧
    ∀ v ∈ stagedSlots next s.history, v ≤ update.slot
  advance : ∀ update, s.advance = some update → update.slot ∈ stagedSlots next s.history
  current : s.det.slot = slot ∨ s.det.slot ∈ stagedSlots next s.history

theorem Order.init {slot : UInt64} {storeHash : B256} {next : Option FinalityChangeDetectorUpdate}
    (hnext : ∀ n, next = some n → slot < n.slot) :
    Order slot next (Sys.init (S := S) slot storeHash next) := by
  refine ⟨fun v hv => ?_, (fun _ h => nomatch h), (fun _ h => nomatch h), Or.inl rfl⟩
  obtain ⟨n, hn, rfl⟩ := Option.map_eq_some_iff.mp (Option.mem_toList.mp hv)
  exact hnext n hn

theorem Order.step {slot : UInt64} {next : Option FinalityChangeDetectorUpdate} {s s' : Sys S}
    {a : Action S} (ho : Order slot next s) (hs : SenderOk slot next s a)
    (h : Stepped H C s a s') : Order slot next s' := by
  cases h with
  | sendStage update room =>
    obtain ⟨habove, hinc⟩ := hs
    refine ⟨fun v hv => ?_, fun u hu => ?_, fun u hu => ?_, ?_⟩
    · rcases List.mem_cons.mp hv with rfl | hv
      · exact habove
      · exact ho.staged v hv
    · obtain rfl : update = u := Option.some.inj hu
      refine ⟨List.mem_cons_self, fun v hv => ?_⟩
      rcases List.mem_cons.mp hv with rfl | hv
      · exact UInt64.le_refl _
      · exact UInt64.le_of_lt (hinc v hv)
    · exact List.mem_cons_of_mem _ (ho.advance u hu)
    · exact ho.current.imp_right (List.mem_cons_of_mem _)
  | sendAdvance update room =>
    refine ⟨ho.staged, ho.stage, fun u hu => ?_, ho.current⟩
    obtain rfl : update = u := Option.some.inj hu
    exact hs.1
  | recvStage update pc head =>
    exact ⟨ho.staged, (fun _ h => nomatch h), ho.advance, ho.current⟩
  | recvAdvance update pc head =>
    exact ⟨ho.staged, ho.stage, (fun _ h => nomatch h), Or.inr (ho.advance update head)⟩
  | _ => exact ⟨ho.1, ho.2, ho.3, ho.4⟩

/-- a stage update is never received late: its slot is not behind the current one -/
theorem Order.current_le {slot : UInt64} {next : Option FinalityChangeDetectorUpdate} {s : Sys S}
    (ho : Order slot next s) {update : FinalityChangeDetectorUpdate}
    (h : s.stage = some update) : s.det.slot ≤ update.slot := by
  obtain ⟨hmem, hmax⟩ := ho.stage update h
  rcases ho.current with hc | hc
  · rw [hc]
    exact UInt64.le_of_lt (ho.staged _ hmem)
  · exact hmax _ hc

/-! ## next windows -/

/-- the next window does not start behind the current one -/
def NextAhead (s : Sys S) : Prop :=
  ∀ n, s.det.nextExpectedOutput = some n → s.det.slot ≤ n.slot

/-- the submitted dual jobs have their next window ahead -/
def DualJobsAhead (s : Sys S) : Prop :=
  ∀ job n, .submitted job ∈ s.history → job.input.nextExpectedOutput = some n →
    job.input.slot < n.slot

/-- an advance is received that leads past the start of the next window -/
def OvertakingAdvance (s : Sys S) (a : Action S) : Prop :=
  a = .recvAdvance ∧ ∃ update n, s.advance = some update ∧ s.det.nextExpectedOutput = some n ∧
    n.slot < update.slot

/-- an advance leaves the next window alone, unless it starts where the current one does now -/
theorem onAdvance_next {det : Detector} {update n : FinalityChangeDetectorUpdate} :
    (det.onAdvance update).nextExpectedOutput = some n ↔
      det.nextExpectedOutput = some n ∧ n.slot ≠ update.slot := by
  unfold Detector.onAdvance
  cases hold : det.nextExpectedOutput with
  | none => simp
  | some m =>
    by_cases he : m.slot = update.slot
    · simp only [if_pos he]
      refine iff_of_false nofun fun h => h.2 ?_
      exact Option.some.inj h.1 ▸ he
    · simp only [if_neg he]
      refine (and_iff_left_of_imp fun h => ?_).symm
      exact Option.some.inj h ▸ he

/-- one step keeps the next window ahead exactly if it is not an overtaking advance -/
theorem nextAhead_step {slot : UInt64} {next : Option FinalityChangeDetectorUpdate} {s s' : Sys S}
    {a : Action S} (ho : Order slot next s) (hP : NextAhead s) (h : Stepped H C s a s') :
    NextAhead s' ↔ ¬ OvertakingAdvance s a := by
  have hnot : a ≠ .recvAdvance → ¬ OvertakingAdvance s a := fun hne he => hne he.1
  cases h with
  | recvStage update pc head =>
    refine iff_of_true (fun n hn => ?_) (hnot (by rintro ⟨⟩))
    obtain rfl : update = n := Option.some.inj hn
    exact ho.current_le head
  | recvAdvance update pc head =>
    constructor
    · rintro hP' ⟨_, u, n, hu, hn, hlt⟩
      obtain rfl : update = u := Option.some.inj (head.symm.trans hu)
      have hne : n.slot ≠ update.slot := fun he => UInt64.lt_irrefl _ (he ▸ hlt)
      exact UInt64.not_le.mpr hlt (hP' n (onAdvance_next.mpr ⟨hn, hne⟩))
    · intro hno n hn
      have hold := (onAdvance_next.mp hn).1
      exact UInt64.not_lt.mp fun hlt => hno ⟨rfl, update, n, head, hold, hlt⟩
  | _ => exact iff_of_true hP (hnot (by rintro ⟨⟩))

/-- a job that is submitted while the next window is ahead looks ahead -/
theorem filteredNext_ahead {s : Sys S} (hP : NextAhead s) {n : FinalityChangeDetectorUpdate}
    (hn : s.det.filteredNext = some n) : s.det.slot < n.slot := by
  unfold Detector.filteredNext at hn
  cases hold : s.det.nextExpectedOutput with
  | none =>
    rw [hold] at hn
    cases hn
  | some m =>
    rw [hold] at hn
    by_cases he : m.slot ≠ s.det.slot
    · simp only [if_pos he] at hn
      obtain rfl := Option.some.inj hn
      exact UInt64.lt_of_le_of_ne (hP m hold) (Ne.symm he)
    · simp only [if_neg he] at hn
      cases hn

theorem dualJobsAhead_step {s s' : Sys S} {a : Action S} (hP : NextAhead s)
    (hD : DualJobsAhead s) (h : Stepped H C s a s') : DualJobsAhead s' := by
  intro job n hmem hn
  rcases h.history with heq | ⟨e, heq, hdue⟩
  · rw [heq] at hmem
    exact hD job n hmem hn
  · rw [heq] at hmem
    rcases List.mem_cons.mp hmem with rfl | hold
    · obtain ⟨_, rfl⟩ := hdue
      exact filteredNext_ahead hP hn
    · exact hD job n hold hn

/-- **Next windows**: with a sequential sender, the next window does not start behind the current one
along a run exactly if no advance overtakes it; and then every dual job that is submitted has its
next window ahead. -/
theorem next_ahead_iff (slot : UInt64) (storeHash : B256)
    (next : Option FinalityChangeDetectorUpdate) (hnext : ∀ n, next = some n → slot < n.slot)
    (as : List (Action S)) (s : Sys S)
    (hr : (sequential H C slot next).run (Sys.init slot storeHash next) as = some s) :
    ((sequential H C slot next).Always NextAhead (Sys.init slot storeHash next) as ↔
      (sequential H C slot next).Steps (fun s a => ¬ OvertakingAdvance s a)
        (Sys.init slot storeHash next) as) ∧
    ((sequential H C slot next).Steps (fun s a => ¬ OvertakingAdvance s a)
        (Sys.init slot storeHash next) as →
      (sequential H C slot next).Always DualJobsAhead (Sys.init slot storeHash next) as) := by
  have hinit : NextAhead (Sys.init (S := S) slot storeHash next) := fun n hn =>
    UInt64.le_of_lt (hnext n hn)
  have hstep : ∀ s a s', Order slot next s → sequential H C slot next s a = some s' →
      Order slot next s' ∧ Stepped H C s a s' := by
    intro s a s' ho hs
    obtain ⟨hok, hs⟩ := (Machine.guard_some _).mp hs
    exact ⟨ho.step hok (step_stepped hs), step_stepped hs⟩
  refine ⟨Machine.always_iff_steps (I := Order slot next) (fun s a s' ho hs => (hstep s a s' ho hs).1)
    (fun s a s' ho hP hs => nextAhead_step ho hP (hstep s a s' ho hs).2) (Order.init hnext) hinit hr,
    fun hG => ?_⟩
  have hall := Machine.Steps.always
    (I := fun s => Order slot next s ∧ NextAhead s ∧ DualJobsAhead s)
    (fun s a s' ⟨ho, hP, hD⟩ hg hs => ?_) as ⟨Order.init hnext, hinit, (fun _ _ h => nomatch h)⟩ hG
  · exact Machine.Always.mono (fun _ h => h.2.2) as hall
  · obtain ⟨ho', hs'⟩ := hstep s a s' ho hs
    exact ⟨ho', (nextAhead_step ho hP hs').mpr hg, dualJobsAhead_step hP hD hs'⟩

/-- the slot 64 is staged and advanced to while its first dual job is worked on, and 96 is staged
before the answer to that job is received -/
def Devnet.orderedRun : List (Action Devnet.spec) :=
  [.sendStage (Devnet.update 64), .recvStage] ++ (round (Devnet.env 96 96) ++
    [.sendAdvance (Devnet.update 64), .recvAdvance, .sendStage (Devnet.update 96), .recvStage,
      .recvResult, .sendJob])

/-- the job before the advance looks from 32 to 64, and the one after it from 64 to 96 -/
theorem next_ahead_devnet :
    ∃ s job, (sequential Devnet.helios Devnet.crypto 32 none).run (Devnet.start 32)
        Devnet.orderedRun = some s ∧ .submitted job ∈ s.history ∧
      job.input = ⟨64, Devnet.digest 64, some (Devnet.update 96)⟩ ∧
      (sequential Devnet.helios Devnet.crypto 32 none).Always DualJobsAhead (Devnet.start 32)
        Devnet.orderedRun := by
  have hround : ∀ a ∈ round (Devnet.env 96 96), ∀ s, SenderOk 32 none s a ∧ a ≠ .recvAdvance := by
    intro a ha s
    simp only [round, List.mem_cons, List.not_mem_nil, or_false] at ha
    rcases ha with rfl | rfl | rfl | rfl | rfl
    all_goals exact ⟨trivial, by simp⟩
  have hrun : (step Devnet.helios Devnet.crypto).run
      ((Devnet.start 32).staged (Devnet.update 64)) (round (Devnet.env 96 96)) = some
        (((Devnet.start 32).staged (Devnet.update 64)).answered (.ok (Devnet.dual 32 96 64 96))) :=
    run_round ⟨rfl, rfl, rfl, rfl, rfl⟩ (Devnet.prepare_dual (by decide) (by decide))
  have h1 : (sequential Devnet.helios Devnet.crypto 32 none).run (Devnet.start 32)
      [.sendStage (Devnet.update 64), .recvStage] = some
        ((Devnet.start 32).staged (Devnet.update 64)) := rfl
  have h2 := (Machine.guard_run _ (fun a ha s => (hround a ha s).1) _).trans hrun
  have hrest : (sequential Devnet.helios Devnet.crypto 32 none).run
      (((Devnet.start 32).staged (Devnet.update 64)).answered (.ok (Devnet.dual 32 96 64 96)))
      [.sendAdvance (Devnet.update 64), .recvAdvance, .sendStage (Devnet.update 96), .recvStage,
        .recvResult, .sendJob] = some _ := rfl
  have h3 : (sequential Devnet.helios Devnet.crypto 32 none).run (Devnet.start 32)
      Devnet.orderedRun = some _ :=
    (Machine.run_append_some _ h1 _).trans ((Machine.run_append_some _ h2 _).trans hrest)
  refine ⟨_, _, h3, List.mem_cons_self, rfl,
    (next_ahead_iff 32 (Devnet.digest 32) none (by simp) _ _ h3).2 ?_⟩
  have hquiet : ∀ s a, a ≠ .recvAdvance → ¬ OvertakingAdvance (S := Devnet.spec) s a :=
    fun s a ha hov => ha hov.1
  refine Machine.Steps.of_forall_append (fun a ha s => hquiet s a ?_) h1 ?_
  · rintro rfl
    simp at ha
  refine Machine.Steps.of_forall_append (fun a ha s => hquiet s a (hround a ha s).2) h2 ?_
  refine ⟨hquiet _ _ (by simp), fun s hs => ?_⟩
  obtain rfl := Option.some.inj hs
  refine ⟨?_, fun s _ => Machine.Steps.of_forall (fun a ha s => hquiet s a ?_) s⟩
  · rintro ⟨_, u, n, hu, hn, hlt⟩
    obtain rfl := Option.some.inj hu
    obtain rfl := Option.some.inj hn
    exact UInt64.lt_irrefl _ hlt
  · rintro rfl
    simp at ha

/-- the slots 64 and 96 are staged, the job of 64 fails, and the advance to 96 is received while the
stage update of 96 still waits -/
def Devnet.overtakingRun : List (Action Devnet.spec) :=
  [.sendStage (Devnet.update 64), .recvStage, .sendStage (Devnet.update 96),
    .sendAdvance (Devnet.update 96), .recvAdvance, .tick, .sendJob]

/-- **a next window behind the current one**: the submitted job has its current window at 96 and its
next window at 64 -/
theorem overtaken_next_submitted :
    ∃ s job n, (sequential Devnet.helios Devnet.crypto 32 none).run (Devnet.start 32)
        Devnet.overtakingRun = some s ∧
      .submitted job ∈ s.history ∧ job.input.nextExpectedOutput = some n ∧
      job.input.slot = 96 ∧ n.slot = 64 ∧ ¬ DualJobsAhead s := by
  refine ⟨_, _, _, rfl, List.mem_cons_self, rfl, rfl, rfl, fun hD => ?_⟩
  exact absurd (hD _ _ List.mem_cons_self rfl) (by decide)

end
end ZkSymbiotic
