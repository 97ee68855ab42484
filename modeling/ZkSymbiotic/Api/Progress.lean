import ZkSymbiotic.Api.Outstanding
import ZkSymbiotic.Api.Rounds

/-!
# Emissions make progress

Between two advances the emitted windows end later and later, and all of them later than the slot the
detector is at, whatever the providers answer.  An advance lowers the threshold to its own slot, so
the order starts again there.

* `lastAdvance`, `sinceAdvance`   the slot of the last received advance, and where the windows emitted
                                  since then end;
* `Climbing`, `Climbing.step`     the threshold is above both, and what is being emitted above it;
* `emissions_climb`               the order of the emissions of every run.
-/

namespace ZkSymbiotic

section
variable {S : ConsensusSpec} {H : Helios S} {C : Crypto}

/-! ## histories -/

/-- the slot of the last received advance, or the initial one -/
def lastAdvance (slot : UInt64) : List (Event S) → UInt64
  | [] => slot
  | .gotAdvance update :: _ => update.slot
  | _ :: h => lastAdvance slot h

/-- where the emitted current windows end, latest first -/
def emittedSlots : List (Event S) → List UInt64
  | [] => []
  | .emitted _ dual :: h => dual.currentWindow.expectedOutputSlot :: emittedSlots h
  | _ :: h => emittedSlots h

/-- the same, of the windows emitted since the last received advance -/
def sinceAdvance : List (Event S) → List UInt64
  | [] => []
  | .gotAdvance _ :: _ => []
  | .emitted _ dual :: h => dual.currentWindow.expectedOutputSlot :: sinceAdvance h
  | _ :: h => sinceAdvance h

theorem lastAdvance_append {window : List (Event S)} (hno : ∀ u, .gotAdvance u ∉ window)
    (slot : UInt64) (earlier : List (Event S)) :
    lastAdvance slot (window ++ earlier) = lastAdvance slot earlier := by
  induction window with
  | nil => rfl
  | cons e window ih =>
    have hrest := ih fun u hu => hno u (List.mem_cons_of_mem e hu)
    cases e with
    | gotAdvance u => exact absurd List.mem_cons_self (hno u)
    | _ => exact hrest

theorem sinceAdvance_append {window : List (Event S)} (hno : ∀ u, .gotAdvance u ∉ window)
    (earlier : List (Event S)) :
    sinceAdvance (window ++ earlier) = emittedSlots window ++ sinceAdvance earlier := by
  induction window with
  | nil => rfl
  | cons e window ih =>
    have hrest := ih fun u hu => hno u (List.mem_cons_of_mem e hu)
    cases e with
    | gotAdvance u => exact absurd List.mem_cons_self (hno u)
    | emitted j dual => exact congrArg (dual.currentWindow.expectedOutputSlot :: ·) hrest
    | _ => exact hrest

/-- each emission ends after the last advance before it and after the emissions since that advance -/
def Climbs (slot : UInt64) (history : List (Event S)) : Prop :=
  ∀ job dual older, (.emitted job dual :: older) <:+ history →
    lastAdvance slot older < dual.currentWindow.expectedOutputSlot ∧
    ∀ v ∈ sinceAdvance older, v < dual.currentWindow.expectedOutputSlot

theorem Climbs.cons {slot : UInt64} {history : List (Event S)} (hc : Climbs slot history)
    {e : Event S} (hne : ∀ job dual, e ≠ .emitted job dual) : Climbs slot (e :: history) := by
  intro job dual older hsuf
  rcases List.suffix_cons_iff.mp hsuf with hnew | hold
  · exact absurd (List.cons.inj hnew).1.symm (hne job dual)
  · exact hc job dual older hold

/-- emissions without an advance between them -/
theorem Climbs.window {slot : UInt64} {history : List (Event S)} (hc : Climbs slot history)
    {window : List (Event S)} (hno : ∀ u, .gotAdvance u ∉ window) {earlier : List (Event S)}
    (hsuf : window ++ earlier <:+ history) :
    (emittedSlots window).Pairwise (fun later earlier => earlier < later) ∧
      ∀ v ∈ emittedSlots window, lastAdvance slot earlier < v := by
  induction window with
  | nil => exact ⟨List.Pairwise.nil, fun _ h => nomatch h⟩
  | cons e window ih =>
    have hno' : ∀ u, .gotAdvance u ∉ window := fun u hu => hno u (List.mem_cons_of_mem e hu)
    obtain ⟨hpair, habove⟩ := ih hno' ((List.suffix_cons e _).trans hsuf)
    cases e with
    | emitted job dual =>
      obtain ⟨hadvance, hsince⟩ := hc job dual (window ++ earlier) hsuf
      rw [lastAdvance_append hno'] at hadvance
      rw [sinceAdvance_append hno'] at hsince
      refine ⟨List.pairwise_cons.mpr ⟨fun v hv => hsince v (List.mem_append_left _ hv), hpair⟩, ?_⟩
      intro v hv
      rcases List.mem_cons.mp hv with rfl | hv
      · exact hadvance
      · exact habove v hv
    | _ => exact ⟨hpair, habove⟩

/-! ## the invariant -/

structure Climbing (slot : UInt64) (s : Sys S) : Prop where
  slot_le : s.det.slot ≤ s.det.latestSlot
  slot_eq : s.det.slot = lastAdvance slot s.history
  emitted_le : ∀ v ∈ sinceAdvance s.history, v ≤ s.det.latestSlot
  emitting : ∀ job dual, s.pc = .emitting job dual →
    s.det.Progress dual ∧ ¬ Detector.Lags s.det.latestSlot dual
  climbs : Climbs slot s.history

theorem Climbing.init (slot : UInt64) (storeHash : B256)
    (next : Option FinalityChangeDetectorUpdate) :
    Climbing slot (Sys.init (S := S) slot storeHash next) where
  slot_le := UInt64.le_refl slot
  slot_eq := rfl
  emitted_le := fun _ h => nomatch h
  emitting := fun _ _ h => nomatch h
  climbs := fun _ _ _ h => nomatch List.suffix_nil.mp h

theorem Climbing.step {slot : UInt64} {s s' : Sys S} {a : Action S} (hc : Climbing slot s)
    (h : Stepped H C s a s') : Climbing slot s' := by
  have hcons : ∀ {e : Event S}, (∀ job dual, e ≠ .emitted job dual) → Climbs slot (e :: s.history) :=
    fun hne => hc.climbs.cons hne
  cases h with
  | sendStage update room => exact ⟨hc.1, hc.2, hc.3, hc.4, hcons (fun _ _ h => nomatch h)⟩
  | sendAdvance update room => exact ⟨hc.1, hc.2, hc.3, hc.4, hcons (fun _ _ h => nomatch h)⟩
  | recvStage update pc head =>
    exact ⟨hc.1, hc.2, hc.3, (fun _ _ h => nomatch pc.symm.trans h), hcons (fun _ _ h => nomatch h)⟩
  | recvAdvance update pc head =>
    exact ⟨UInt64.le_refl update.slot, rfl, (fun _ h => nomatch h),
      (fun _ _ h => nomatch pc.symm.trans h), hcons (fun _ _ h => nomatch h)⟩
  | recvError job e pc head =>
    exact ⟨hc.1, hc.2, hc.3, (fun _ _ h => nomatch h), hcons (fun _ _ h => nomatch h)⟩
  | recvStale job dual pc head stale =>
    exact ⟨hc.1, hc.2, hc.3, (fun _ _ h => nomatch h), hcons (fun _ _ h => nomatch h)⟩
  | recvEmit job dual pc head fresh progress next =>
    refine ⟨hc.1, hc.2, hc.3, fun j d h => ?_, hcons (fun _ _ h => nomatch h)⟩
    obtain ⟨rfl, rfl⟩ := Pc.emitting.inj h
    exact ⟨progress, next⟩
  | recvLagging job dual pc head fresh progress next =>
    -- nothing is emitted, and the threshold goes up
    have hup := UInt64.le_of_lt progress.2
    exact ⟨UInt64.le_trans hc.slot_le hup, hc.2, fun v hv => UInt64.le_trans (hc.emitted_le v hv) hup,
      (fun _ _ h => nomatch h), hcons (fun _ _ h => nomatch h)⟩
  | recvIgnored job dual pc head fresh ignored =>
    exact ⟨hc.1, hc.2, hc.3, (fun _ _ h => nomatch h), hcons (fun _ _ h => nomatch h)⟩
  | tickBusy pc busy => exact hc
  | tick pc idle => exact ⟨hc.1, hc.2, hc.3, (fun _ _ h => nomatch h), hc.5⟩
  | sendJob pc room =>
    exact ⟨hc.1, hc.2, hc.3, (fun _ _ h => nomatch h), hcons (fun _ _ h => nomatch h)⟩
  | jobClosed lost pc dead => exact ⟨hc.1, hc.2, hc.3, (fun _ _ h => nomatch h), hc.5⟩
  | sendOutput job dual pc room =>
    obtain ⟨⟨_, hahead⟩, _⟩ := hc.emitting job dual pc
    have hup := UInt64.le_of_lt hahead
    refine ⟨UInt64.le_trans hc.slot_le hup, hc.2, fun v hv => ?_, (fun _ _ h => nomatch h),
      fun j d older hsuf => ?_⟩
    · rcases List.mem_cons.mp hv with rfl | hv
      · exact UInt64.le_refl _
      · exact UInt64.le_trans (hc.emitted_le v hv) hup
    · rcases List.suffix_cons_iff.mp hsuf with hnew | hold
      · obtain ⟨hem, rfl⟩ := List.cons.inj hnew
        obtain ⟨rfl, rfl⟩ := Event.emitted.inj hem
        refine ⟨?_, fun v hv => UInt64.lt_of_le_of_lt (hc.emitted_le v hv) hahead⟩
        rw [← hc.slot_eq]
        exact UInt64.lt_of_le_of_lt hc.slot_le hahead
      · exact hc.climbs j d older hold
  | dropOutput job dual pc => exact ⟨hc.1, hc.2, hc.3, (fun _ _ h => nomatch h), hc.5⟩
  | observe => exact ⟨hc.1, hc.2, hc.3, hc.4, hc.5⟩
  | actorRecv job idle head => exact ⟨hc.1, hc.2, hc.3, hc.4, hc.5⟩
  | actorWork env job actor working answer => exact ⟨hc.1, hc.2, hc.3, hc.4, hc.5⟩
  | actorSend job result sending room => exact ⟨hc.1, hc.2, hc.3, hc.4, hc.5⟩

/-- **Progress**, in every reachable state: the threshold is not below the current slot; an emission
starts at the current slot and both its windows end above the threshold as it was; and emissions
without an advance between them end later and later, above the slot of the advance before them. -/
theorem emissions_climb (slot : UInt64) (storeHash : B256)
    (next : Option FinalityChangeDetectorUpdate) (s : Sys S)
    (h : (step H C).Reach (Sys.init slot storeHash next) s) :
    s.det.slot ≤ s.det.latestSlot ∧
    (∀ s', step H C s .sendOutput = some s' → ∃ job dual,
      s'.output = some dual ∧ s'.history = .emitted job dual :: s.history ∧
      dual.currentWindow.inputSlot = s.det.slot ∧
      s.det.latestSlot < dual.currentWindow.expectedOutputSlot ∧
      ∀ w, dual.nextWindow = some w → s.det.latestSlot < w.expectedOutputSlot) ∧
    (∀ later window earlier, s.history = later ++ (window ++ earlier) →
      (∀ u, .gotAdvance u ∉ window) →
        (emittedSlots window).Pairwise (fun later earlier => earlier < later) ∧
        ∀ v ∈ emittedSlots window, lastAdvance slot earlier < v) ∧
    s.det.slot = lastAdvance slot s.history := by
  have hc : Climbing slot s := h.inv (I := Climbing slot)
    (fun _ _ _ hc hs => hc.step (step_stepped hs)) (Climbing.init slot storeHash next)
  refine ⟨hc.slot_le, fun s' hs' => ?_, fun later window earlier heq hno => ?_, hc.slot_eq⟩
  · cases step_stepped hs' with
    | sendOutput job dual pc room =>
      obtain ⟨hp, hl⟩ := hc.emitting job dual pc
      exact ⟨job, dual, rfl, rfl, hp.1, hp.2, fun w hw => UInt64.not_le.mp fun hle => hl ⟨w, hw, hle⟩⟩
  · exact hc.climbs.window hno ⟨later, heq.symm⟩

/-- two emissions of the small light client, without an advance between them -/
theorem emissions_climb_devnet :
    ∃ s : Sys Devnet.spec, (step Devnet.helios Devnet.crypto).Reach (Devnet.start 32) s ∧
      emittedSlots s.history = [96, 64] ∧ (64 : UInt64) < 96 ∧ (32 : UInt64) < 64 := by
  have h2 := run_emission (s := (Devnet.start 32).emits (Devnet.solo 32 64))
    ⟨rfl, rfl, rfl, rfl, rfl⟩ rfl rfl
    (Devnet.prepare_solo (a := 32) (b := 96) (c := 96) (by decide)) ⟨rfl, by decide⟩ Devnet.solo_ahead
  have hreach : (step Devnet.helios Devnet.crypto).Reach (Devnet.start 32)
      (((Devnet.start 32).emits (Devnet.solo 32 64)).emits (Devnet.solo 32 96)) :=
    ⟨_, (Machine.run_append_some _ Devnet.run_firstEmission _).trans h2⟩
  obtain ⟨_, _, hwindow, _⟩ := emissions_climb 32 (Devnet.digest 32) none _ hreach
  have hno : ∀ u, .gotAdvance u ∉ (((Devnet.start 32).emits (Devnet.solo 32 64)).emits
      (Devnet.solo 32 96)).history := by
    intro u
    simp [Sys.emits, Devnet.start, Sys.init]
  obtain ⟨hpair, habove⟩ := hwindow [] _ [] (List.append_nil _).symm hno
  have hslots : emittedSlots (((Devnet.start 32).emits (Devnet.solo 32 64)).emits
      (Devnet.solo 32 96)).history = [96, 64] := rfl
  rw [hslots] at hpair habove
  exact ⟨_, hreach, hslots, (List.pairwise_cons.mp hpair).1 64 List.mem_cons_self,
    habove 64 (List.mem_cons_of_mem 96 List.mem_cons_self)⟩

end
end ZkSymbiotic
