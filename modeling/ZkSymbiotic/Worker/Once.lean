import ZkSymbiotic.Worker.Runs

/-!
# Once, and only when final

* `verified_once`           one packet id is verified by one transaction of the worker at most, and
                            none is sent for a verified one unless the check was outdated;
* `early_packets_dropped`   a handler that asks too early is over for good;
* `handlers_return`         a handler asks six questions at most, in their order, and can always go
                            on until it has returned.
-/

namespace ZkSymbiotic.DvnWorker

section
variable {ε Digest : Type} [DecidableEq Digest] {setup : Setup ε Digest}
  {encode : Digest → Bytes} {acts acts' : List (WorkerAction Digest)} {a : WorkerAction Digest}
  {s s' : WorkerSys Digest}

/-! ## once -/

/-- at most one transaction of a packet id was accepted -/
def WorkerSys.Once (s : WorkerSys Digest) : Prop :=
  ∀ (k k' : Nat) (tx tx' : Tx Digest), s.txs[k]? = some tx → s.txs[k']? = some tx' →
    tx.mined = some true → tx'.mined = some true → tx.call.packetId = tx'.call.packetId → k = k'

theorem WorkerSys.Once.step (h : s.Once) (hinv : s.Inv setup encode acts)
    (hs : Stepped setup encode s a s') : s'.Once := by
  -- an accepted transaction was accepted before, or its packet id was new
  have hcases : ∀ k (tx' : Tx Digest), s'.txs[k]? = some tx' → tx'.mined = some true →
      s.txs[k]? = some tx' ∨ s.dvn.verified tx'.call.packetId = false ∧
        ∃ block, a = .mine k block false := by
    intro k tx' hk hmined
    rcases hs.txs hk with hold | ⟨_, _, _, _, _, _, _, hnone⟩ |
      ⟨tx, _, _, _, hcall, hfalse | ⟨_, hnew, _, block, rfl, _⟩⟩
    · exact .inl hold
    · rw [hnone] at hmined
      cases hmined
    · rw [hfalse] at hmined
      cases hmined
    · exact .inr ⟨hcall ▸ hnew, block, rfl⟩
  intro k k' tx tx' hk hk' hmined hmined' hid
  rcases hcases k tx hk hmined with hold | ⟨hnew, block, ha⟩
  · rcases hcases k' tx' hk' hmined' with hold' | ⟨hnew', _⟩
    · exact h k k' tx tx' hold hold' hmined hmined' hid
    · rw [← hid, (hinv.accepted k tx hold hmined).1] at hnew'
      cases hnew'
  · rcases hcases k' tx' hk' hmined' with hold' | ⟨_, block', ha'⟩
    · rw [hid, (hinv.accepted k' tx' hold' hmined').1] at hnew
      cases hnew
    · rw [ha] at ha'
      cases ha'
      rfl

/-- the check of the handler came out as unverified -/
def Passed (acts : List (WorkerAction Digest)) (i : Nat) : Prop :=
  .answer i (.verified (some false)) ∈ acts

/-- since the state `before`, a handler has got past its check only by the answer that the packet is
not verified -/
structure Past (before : WorkerSys Digest) (acts : List (WorkerAction Digest))
    (s : WorkerSys Digest) : Prop where
  handlers : ∀ (i : Nat) (h : Handler Digest), s.handlers[i]? = some h →
    h.stage = .verified ∨ h.stage = .returned ∨ Passed acts i ∨
      ∃ g, before.handlers[i]? = some g ∧ g.stage ≠ .verified
  txs : ∀ tx ∈ s.txs, Passed acts tx.handler ∨
    ∃ g, before.handlers[tx.handler]? = some g ∧ g.stage ≠ .verified

omit [DecidableEq Digest] in
theorem Past.start (hinv : s.Inv setup encode acts) : Past s [] s := by
  refine ⟨fun i h hi => ?_, fun tx htx => ?_⟩
  · by_cases hstage : h.stage = .verified
    · exact .inl hstage
    · exact .inr (.inr (.inr ⟨h, hi, hstage⟩))
  · have hsent := hinv.sent tx htx
    obtain ⟨g, _, hg, _⟩ := hsent.built
    refine .inr ⟨g, hg, fun hstage => ?_⟩
    rcases hsent.ended g hg with h | h
    · rw [hstage] at h
      cases h
    · rw [hstage] at h
      cases h

theorem Past.step {before : WorkerSys Digest} (h : Past before acts s)
    (hs : Stepped setup encode s a s') : Past before (acts ++ [a]) s' := by
  have hmono : ∀ i, (Passed acts i ∨ ∃ g, before.handlers[i]? = some g ∧ g.stage ≠ .verified) →
      Passed (acts ++ [a]) i ∨ ∃ g, before.handlers[i]? = some g ∧ g.stage ≠ .verified :=
    fun i hpast => hpast.imp_left fun hmem => List.mem_append_left _ hmem
  refine ⟨?_, ?_⟩
  · intro i h' hi
    rcases hs.handlers hi with hold | ⟨_, _, _, hstage, _⟩ | ⟨g, answer, _, rfl, hg, _, hr⟩
    · exact (h.handlers i h' hold).imp_right fun hrest => hrest.imp_right (hmono i)
    · exact .inl hstage
    · rcases h.handlers i g hg with hstage | hstage | hpast
      · rw [hstage] at hr
        generalize h'.stage = stage at hr
        cases hr with
        | unverified =>
          exact .inr (.inr (.inl (List.mem_append_right _ (List.mem_singleton.mpr rfl))))
        | returned hawaits => exact .inr (.inl rfl)
      · exact .inr (.inl (hr.ended (.inr hstage)))
      · exact .inr (.inr (hmono i hpast))
  · intro tx' htx
    obtain ⟨k, hk⟩ := List.mem_iff_getElem?.mp htx
    rcases hs.txs hk with hold | ⟨g, _, _, rfl, hg, _, hr, _⟩ | ⟨tx, hold, _, hhandler, _⟩
    · exact hmono _ (h.txs tx' (List.mem_of_getElem? hold))
    · -- only a handler with a request sends
      rcases h.handlers _ g hg with hv | hret | hpast
      · rw [hv] at hr
        cases hr
      · rw [hret] at hr
        cases hr
      · exact hmono _ hpast
    · rw [hhandler]
      exact hmono _ (h.txs tx (List.mem_of_getElem? hold))

/-- no transaction for a verified packet id is accepted any more -/
theorem WorkerSys.accepted_before {packetId : Digest} (hv : s.dvn.verified packetId = true)
    (h : (WorkerSys.step setup encode).run s acts = some s') {k : Nat} {tx : Tx Digest}
    (hk : s'.txs[k]? = some tx) (hid : tx.call.packetId = packetId) (hmined : tx.mined = some true) :
    s.txs[k]? = some tx := by
  have hrun := Machine.run_inv
    (I := fun s₁ : WorkerSys Digest => s₁.dvn.verified packetId = true ∧
      ∀ (k : Nat) (tx : Tx Digest), s₁.txs[k]? = some tx → tx.call.packetId = packetId →
        tx.mined = some true → s.txs[k]? = some tx)
    (fun s₁ a s₂ hI hs => ?_) ⟨hv, fun _ _ hk _ _ => hk⟩ h
  · exact hrun.2 k tx hk hid hmined
  · have hstep := WorkerSys.step_stepped hs
    refine ⟨hstep.verified hI.1, fun k tx hk hid hmined => ?_⟩
    rcases hstep.txs hk with hold | ⟨_, _, _, _, _, _, _, hnone⟩ |
      ⟨_, _, _, _, hcall, hfalse | ⟨_, hnew, _⟩⟩
    · exact hI.2 k tx hold hid hmined
    · rw [hnone] at hmined
      cases hmined
    · rw [hfalse] at hmined
      cases hmined
    · rw [← hcall, hid, hI.1] at hnew
      cases hnew

/-- the check of the handler is answered with an old entry: the packet id is verified already -/
def Outdated (setup : Setup ε Digest) (encode : Digest → Bytes) (packetId : Digest)
    (s : WorkerSys Digest) (acts : List (WorkerAction Digest)) (i : Nat) : Prop :=
  ∃ s₁, (WorkerSys.step setup encode).Takes s acts s₁ (.answer i (.verified (some false))) ∧
    s₁.dvn.verified packetId = true

theorem Passed.outdated {i : Nat} (hpassed : Passed acts i) {packetId : Digest}
    (hv : s.dvn.verified packetId = true)
    (h : (WorkerSys.step setup encode).run s acts = some s') :
    Outdated setup encode packetId s acts i := by
  obtain ⟨s₁, htakes⟩ := Machine.exists_takes h hpassed
  exact ⟨s₁, htakes, htakes.inv (fun _ _ _ hv hs => (WorkerSys.step_stepped hs).verified hv) hv⟩

/-- **verified once**: of the worker's transactions for one packet id, whichever handlers sent them,
whatever others call and whatever the nodes answer, one is accepted at most.  Once a packet id is
verified, by anybody, no transaction for it is accepted any more, and it is sent only by handlers
that were past their check then or got an outdated answer to it. -/
theorem verified_once (h : (WorkerSys.step setup encode).run .start acts = some s)
    (h' : (WorkerSys.step setup encode).run s acts' = some s') :
    s.Once ∧ ∀ packetId, s.dvn.verified packetId = true →
      ∀ (k : Nat) (tx : Tx Digest), s'.txs[k]? = some tx → tx.call.packetId = packetId →
        (tx.mined = some true → s.txs[k]? = some tx) ∧
        (Outdated setup encode packetId s acts' tx.handler ∨
          ∃ g, s.handlers[tx.handler]? = some g ∧ g.stage ≠ .verified) := by
  have hinv := WorkerSys.run_inv h
  constructor
  · have hrun := Machine.run_inv_history
      (J := fun acts s => s.Inv setup encode acts ∧ s.Once)
      (fun _ _ _ _ hJ hs => ⟨hJ.1.step hs, hJ.2.step hJ.1 (WorkerSys.step_stepped hs)⟩)
      ⟨WorkerSys.Inv.start, by rintro k k' tx tx' hk; cases hk⟩ h
    exact hrun.2
  · intro packetId hv k tx hk hid
    refine ⟨WorkerSys.accepted_before hv h' hk hid, ?_⟩
    have hpast := Machine.run_inv_history (J := Past s)
      (fun _ _ _ _ hJ hs => hJ.step (WorkerSys.step_stepped hs)) (Past.start hinv) h'
    exact (hpast.txs tx (List.mem_of_getElem? hk)).imp_left fun hpassed => hpassed.outdated hv h'

/-! ## too early -/

/-- the handler asked for the block number, and the answer was not 64 blocks on -/
def Early (acts : List (WorkerAction Digest)) (i : Nat) (event : PacketSent Digest) : Prop :=
  ∃ currentBlock, .answer i (.blockNumber (some currentBlock)) ∈ acts ∧
    currentBlock < event.blockNumber + 64

/-- a handler that asked too early has returned and has sent nothing -/
def Dropped (acts : List (WorkerAction Digest)) (s : WorkerSys Digest) : Prop :=
  ∀ (i : Nat) (h : Handler Digest), s.handlers[i]? = some h → Early acts i h.event →
    h.stage = .returned ∧ ∀ tx ∈ s.txs, tx.handler ≠ i

/-- answers are given to handlers only -/
def Known (acts : List (WorkerAction Digest)) (s : WorkerSys Digest) : Prop :=
  ∀ i answer, .answer i answer ∈ acts → ∃ h, s.handlers[i]? = some h

theorem Known.step (h : Known acts s) (hs : Stepped setup encode s a s') :
    Known (acts ++ [a]) s' := by
  intro i answer hmem
  rcases List.mem_append.mp hmem with hmem | hmem
  · obtain ⟨g, hg⟩ := h i answer hmem
    obtain ⟨g', hg', _⟩ := hs.handlers_keep hg
    exact ⟨g', hg'⟩
  · obtain rfl := List.mem_singleton.mp hmem
    obtain ⟨_, _, _, _, hi, _⟩ := hs.answered
    exact ⟨_, hi⟩

/-- a handler without a request has no new transaction -/
theorem Stepped.txs_of_no_request (hs : Stepped setup encode s a s') {i : Nat}
    (hstage : ∀ h, s.handlers[i]? = some h → ∀ request, h.stage ≠ .send request)
    (hold : ∀ tx ∈ s.txs, tx.handler ≠ i) : ∀ tx ∈ s'.txs, tx.handler ≠ i := by
  intro tx' htx hhandler
  obtain ⟨k, hk⟩ := List.mem_iff_getElem?.mp htx
  rcases hs.txs hk with hmem | ⟨g, _, _, _, hg, _, hr, _⟩ | ⟨tx, hmem, _, hsame, _⟩
  · exact hold tx' (List.mem_of_getElem? hmem) hhandler
  · rw [hhandler] at hg
    have hnot := hstage g hg
    generalize g.stage = stage at hr hnot
    cases hr with
    | sent hcall => exact hnot _ rfl
    | lost hcall => exact hnot _ rfl
  · exact hold tx (List.mem_of_getElem? hmem) (hsame ▸ hhandler)

theorem Dropped.step (h : Dropped acts s) (hknown : Known acts s) (hinv : s.Inv setup encode acts)
    (hs : Stepped setup encode s a s') : Dropped (acts ++ [a]) s' := by
  intro i h' hi hearly
  suffices h'.stage = .returned ∧
      (∀ g, s.handlers[i]? = some g → ∀ request, g.stage ≠ .send request) ∧
      ∀ tx ∈ s.txs, tx.handler ≠ i from
    ⟨this.1, hs.txs_of_no_request this.2.1 this.2.2⟩
  obtain ⟨currentBlock, hmem, hlt⟩ := hearly
  rcases List.mem_append.mp hmem with hmem | hmem
  · have hearly : ∀ event : PacketSent Digest, h'.event = event → Early acts i event := by
      rintro _ rfl
      exact ⟨currentBlock, hmem, hlt⟩
    have hreturned : ∀ g : Handler Digest, s.handlers[i]? = some g → g.stage = .returned →
        ∀ g', s.handlers[i]? = some g' → ∀ request, g'.stage ≠ .send request := by
      intro g hg hret g' hg' request hsend
      obtain rfl := Option.some.inj (hg.symm.trans hg')
      exact nomatch hret.symm.trans hsend
    rcases hs.handlers hi with hold | ⟨_, _, _, _, hnone⟩ | ⟨g, _, _, _, hg, hevent, hr⟩
    · obtain ⟨hstage, htxs⟩ := h i h' hold (hearly _ rfl)
      exact ⟨hstage, hreturned h' hold hstage, htxs⟩
    · obtain ⟨g, hg⟩ := hknown i _ hmem
      cases hg.symm.trans hnone
    · obtain ⟨hstage, htxs⟩ := h i g hg (hearly _ hevent)
      exact ⟨hr.ended (.inr hstage), hreturned g hg hstage, htxs⟩
  · -- the answer of this step
    obtain rfl := List.mem_singleton.mp hmem
    obtain ⟨g, stage, call?, hg, hg', hr⟩ := hs.answered
    obtain rfl := Option.some.inj (hg'.symm.trans hi)
    generalize hst : g.stage = before at hr
    cases hr with
    | final hle hhash => exact absurd hlt (Nat.not_lt.mpr hle)
    | returned hawaits =>
      refine ⟨rfl, fun g' hg' request hsend => ?_, fun tx htx hhandler => ?_⟩
      · obtain rfl := Option.some.inj (hg.symm.trans hg')
        rw [← hst, hsend] at hawaits
        cases hawaits
      · rcases (hinv.sent tx htx).ended g (hhandler ▸ hg) with hended | hended
        · rw [← hst, hended] at hawaits
          cases hawaits
        · rw [← hst, hended] at hawaits
          cases hawaits

/-- the calls of others -/
def others (acts : List (WorkerAction Digest)) : List (DvnBlock × Submission Digest) :=
  acts.filterMap fun
    | .submit block call => some (block, call)
    | _ => none

/-- while the worker has sent nothing, the contract is what the others made it -/
theorem others_run (h : (WorkerSys.step setup encode).run .start acts = some s) :
    s.txs = [] → (ZkSymbiotic.Dvn.step encode).run .init (others acts) = some s.dvn := by
  have hrun := Machine.run_inv_history (J := fun acts (s : WorkerSys Digest) =>
    s.txs = [] → (ZkSymbiotic.Dvn.step encode).run .init (others acts) = some s.dvn)
    (m := WorkerSys.step setup encode) ?_ (fun _ => rfl) h
  · exact hrun
  intro acts s a s' hJ hs hempty
  have hothers : others (acts ++ [a]) = others acts ++ others [a] := List.filterMap_append
  rw [hothers]
  cases WorkerSys.step_stepped hs with
  | submitted hdvn =>
    rw [Machine.run_append_some _ (hJ hempty)]
    show (ZkSymbiotic.Dvn.step encode s.dvn _).bind _ = _
    rw [hdvn]
    rfl
  | started hparse => exact (List.append_nil (others acts)).symm ▸ hJ hempty
  | ignored log => exact (List.append_nil (others acts)).symm ▸ hJ hempty
  | resumed hi hr =>
    exact (List.append_nil (others acts)).symm ▸ hJ (List.append_eq_nil_iff.mp hempty).1
  | accepted hk hpending hnew hattested =>
    have hlen := congrArg List.length hempty
    rw [List.length_set, List.length_nil, List.length_eq_zero_iff] at hlen
    rw [hlen] at hk
    cases hk
  | reverted hk hpending =>
    have hlen := congrArg List.length hempty
    rw [List.length_set, List.length_nil, List.length_eq_zero_iff] at hlen
    rw [hlen] at hk
    cases hk

/-- **packets that are heard of too early are dropped**: a handler that asks for the block number
before the block of its log has 64 confirmations never sends a transaction and never asks again; if
that is so for every handler, the worker leaves the contract to the others -/
theorem early_packets_dropped (h : (WorkerSys.step setup encode).run .start acts = some s) :
    Dropped acts s ∧
    ((∀ (i : Nat) (g : Handler Digest) (currentBlock : Nat), s.handlers[i]? = some g →
        .answer i (.blockNumber (some currentBlock)) ∈ acts →
        currentBlock < g.event.blockNumber + 64) →
      s.txs = [] ∧ (ZkSymbiotic.Dvn.step encode).run .init (others acts) = some s.dvn) := by
  have hrun := Machine.run_inv_history
    (J := fun acts s => s.Inv setup encode acts ∧ Known acts s ∧ Dropped acts s)
    (fun _ _ _ _ hJ hs => ⟨hJ.1.step hs, hJ.2.1.step (WorkerSys.step_stepped hs),
      hJ.2.2.step hJ.2.1 hJ.1 (WorkerSys.step_stepped hs)⟩)
    ⟨WorkerSys.Inv.start, fun _ _ hmem => (List.not_mem_nil hmem).elim,
      fun _ _ hi => (Option.some_ne_none _ hi.symm).elim⟩ h
  refine ⟨hrun.2.2, fun hearly => ?_⟩
  have hempty : s.txs = [] := by
    refine List.eq_nil_iff_forall_not_mem.mpr fun tx htx => ?_
    obtain ⟨g, request, hg, hbuilt, _⟩ := ((WorkerSys.run_inv h).sent tx htx).built
    obtain ⟨currentBlock, hmem, hle⟩ := hbuilt.final
    exact absurd (hearly _ g currentBlock hg hmem) (Nat.not_lt.mpr hle)
  exact ⟨hempty, others_run h hempty⟩

/-! ## the questions of a handler -/

/-- which of the six questions an answer is one to -/
def Answer.rank : Answer → Nat
  | .verified _ => 0
  | .blockNumber _ => 1
  | .relay _ => 2
  | .proof _ => 3
  | .sent _ => 4
  | .receipt => 5

theorem Answer.rank_lt (answer : Answer) : answer.rank < 6 := by
  cases answer <;> simp only [Answer.rank, Nat.reduceLT, Nat.lt_add_one, Nat.zero_lt_succ]

/-- the question a stage is at -/
def Stage.rank : Stage Digest → Nat
  | .verified => 0
  | .finality => 1
  | .relay _ => 2
  | .proof _ _ => 3
  | .send _ => 4
  | .wait => 5
  | .returned => 6

/-- the questions of one handler that were answered, in their order -/
def questions (i : Nat) (acts : List (WorkerAction Digest)) : List Nat :=
  acts.filterMap fun
    | .answer j answer => if j = i then some answer.rank else none
    | _ => none

omit [DecidableEq Digest] in
theorem Stage.awaits_iff {stage : Stage Digest} {answer : Answer} :
    stage.awaits answer = true ↔ answer.rank = stage.rank := by
  cases stage <;> cases answer <;> simp [Stage.awaits, Answer.rank, Stage.rank]

section
omit [DecidableEq Digest]
variable {event : PacketSent Digest} {stage stage' : Stage Digest} {answer : Answer}
  {call? : Option (Submission Digest)}

theorem Resumed.rank (hr : Resumed setup event stage answer stage' call?) :
    answer.rank = stage.rank ∧ (stage' = .returned ∨ stage'.rank = stage.rank + 1) := by
  cases hr with
  | returned hawaits => exact ⟨Stage.awaits_iff.mp hawaits, .inl rfl⟩
  | lost hcall => exact ⟨rfl, .inl rfl⟩
  | _ => exact ⟨rfl, .inr rfl⟩

/-- a handler resumes with every answer to what it waits for -/
theorem exists_resume (h : stage.awaits answer = true) :
    ∃ next, resume setup { event, stage } answer = some next := by
  cases stage with
  | verified =>
    cases answer with
    | verified answer =>
      cases answer with
      | none => exact ⟨_, rfl⟩
      | some verified => cases verified <;> exact ⟨_, rfl⟩
    | _ => cases h
  | finality =>
    cases answer with
    | blockNumber answer =>
      cases answer with
      | none => exact ⟨_, rfl⟩
      | some currentBlock =>
        simp only [resume]
        split
        · split
          · exact ⟨_, rfl⟩
          · exact ⟨_, rfl⟩
        · exact ⟨_, rfl⟩
    | _ => cases h
  | relay messageHash =>
    cases answer with
    | relay response => exact ⟨_, rfl⟩
    | _ => cases h
  | proof messageHash relay =>
    cases answer with
    | proof response => exact ⟨_, rfl⟩
    | _ => cases h
  | send request =>
    cases answer with
    | sent sending =>
      simp only [resume]
      cases setup.call? request with
      | none => exact ⟨_, rfl⟩
      | some call => cases sending <;> exact ⟨_, rfl⟩
    | _ => cases h
  | wait =>
    cases answer with
    | receipt => exact ⟨_, rfl⟩
    | _ => cases h
  | returned => cases answer <;> cases h

end

theorem WorkerSys.answer_enabled {i : Nat} {g : Handler Digest} (hg : s.handlers[i]? = some g)
    (answer : Answer) :
    (∃ s', WorkerSys.step setup encode s (.answer i answer) = some s') ↔
      answer.rank = g.stage.rank := by
  constructor
  · rintro ⟨s', hs⟩
    obtain ⟨g', _, _, hg', _, hr⟩ := (step_stepped hs).answered
    obtain rfl := Option.some.inj (hg.symm.trans hg')
    exact hr.rank.1
  · intro hrank
    obtain ⟨next, hnext⟩ : ∃ next, resume setup g answer = some next :=
      exists_resume (Stage.awaits_iff.mpr hrank)
    simp only [WorkerSys.step, hg, Option.bind_eq_bind, Option.bind_some, hnext]
    exact ⟨_, rfl⟩

/-- the questions of a handler so far are the first ones, and it is at the next one or has
returned -/
structure Asked (i : Nat) (acts : List (WorkerAction Digest)) (s : WorkerSys Digest) (n : Nat) :
    Prop where
  questions : questions i acts = List.range n
  le : n ≤ 6
  none : s.handlers[i]? = none → n = 0
  stage : ∀ g, s.handlers[i]? = some g → g.stage = .returned ∨ g.stage.rank = n

theorem Asked.step {i n : Nat} (h : Asked i acts s n) (hs : Stepped setup encode s a s') :
    ∃ n', Asked i (acts ++ [a]) s' n' := by
  by_cases ha : ∃ answer, a = .answer i answer
  · obtain ⟨answer, rfl⟩ := ha
    obtain ⟨g, stage, call?, hg, hg', hr⟩ := hs.answered
    obtain ⟨hrank, hnext⟩ := hr.rank
    have hn : answer.rank = n := by
      rcases h.stage g hg with hret | hn
      · rw [hret] at hrank
        cases answer <;> cases hrank
      · exact hrank.trans hn
    refine ⟨n + 1, ?_, hn ▸ answer.rank_lt, fun hnone => ?_, fun g' hg₁ => ?_⟩
    · have hone :
          DvnWorker.questions i [(.answer i answer : WorkerAction Digest)] = [answer.rank] := by
        simp only [DvnWorker.questions, List.filterMap_cons, if_true, List.filterMap_nil]
      rw [DvnWorker.questions, List.filterMap_append, List.range_succ, ← hn]
      exact congrArg₂ _ (hn ▸ h.questions) hone
    · rw [hg'] at hnone
      cases hnone
    · obtain rfl := Option.some.inj (hg'.symm.trans hg₁)
      rcases hnext with hret | hnext
      · exact .inl hret
      · exact .inr (by rw [hnext, ← hrank, hn])
  · have hnil : DvnWorker.questions i [a] = [] := by
      cases a with
      | answer j answer =>
        have hne : j ≠ i := fun heq => ha ⟨answer, heq ▸ rfl⟩
        simp only [DvnWorker.questions, List.filterMap_cons, if_neg hne, List.filterMap_nil]
      | _ => rfl
    refine ⟨n, ?_, h.le, fun hnone => h.none ?_, fun g' hg' => ?_⟩
    · rw [DvnWorker.questions, List.filterMap_append]
      exact (congrArg₂ _ h.questions hnil).trans (List.append_nil _)
    · by_contra hsome
      obtain ⟨g, hg⟩ := Option.ne_none_iff_exists'.mp hsome
      obtain ⟨g', hg', _⟩ := hs.handlers_keep hg
      rw [hnone] at hg'
      cases hg'
    · rcases hs.handlers hg' with hold | ⟨_, _, _, hstage, hnone⟩ | ⟨_, answer, _, rfl, _⟩
      · exact h.stage g' hold
      · refine .inr ?_
        rw [hstage, h.none hnone]
        rfl
      · exact absurd ⟨answer, rfl⟩ ha

/-- **a handler asks six questions at most, in their order**: whatever the answers are and however
the handlers interleave, those that were answered to one handler are the first ones, each once; the
handler can go on with every answer to the next one and with nothing else, unless it has returned -/
theorem handlers_return (h : (WorkerSys.step setup encode).run .start acts = some s) (i : Nat) :
    ∃ n ≤ 6, questions i acts = List.range n ∧
      ∀ g, s.handlers[i]? = some g → ∀ answer,
        (∃ s', WorkerSys.step setup encode s (.answer i answer) = some s') ↔
          g.stage ≠ .returned ∧ answer.rank = n := by
  have hstart : Asked i [] (WorkerSys.start : WorkerSys Digest) 0 :=
    ⟨rfl, Nat.zero_le 6, fun _ => rfl, fun _ hg => (Option.some_ne_none _ hg.symm).elim⟩
  have hrun := Machine.run_inv_history
    (J := fun acts (s : WorkerSys Digest) => ∃ n, Asked i acts s n)
    (fun _ _ _ _ hJ hs => hJ.elim fun _ hasked => hasked.step (WorkerSys.step_stepped hs))
    ⟨0, hstart⟩ h
  obtain ⟨n, hasked⟩ := hrun
  refine ⟨n, hasked.le, hasked.questions, fun g hg answer => ?_⟩
  rw [WorkerSys.answer_enabled hg]
  constructor
  · intro hrank
    have hne : g.stage ≠ .returned := by
      intro hret
      rw [hret] at hrank
      exact absurd hrank (Nat.ne_of_lt answer.rank_lt)
    exact ⟨hne, hrank.trans ((hasked.stage g hg).resolve_left hne)⟩
  · rintro ⟨hne, hrank⟩
    exact hrank.trans ((hasked.stage g hg).resolve_left hne).symm

end

/-! ## on a concrete worker -/

namespace Devnet

/-- after the packet is verified its log is delivered again, and a node that is behind answers the
check; the two transactions that are left are mined -/
def late : List (WorkerAction Bytes) :=
  [.log packetLog, .answer 2 (.verified (some false)), .answer 2 (.blockNumber (some 170)),
    .answer 2 (.relay none), .answer 2 (.proof none), .answer 2 (.sent .replied),
    .mine 1 lenient false, .mine 2 lenient false, .answer 0 .receipt]

def afterLate : WorkerSys Bytes :=
  crew packetEvent [.returned, .returned, .wait]
    [{ handler := 1, call := relayed, mined := some true },
      { handler := 0, call := mocked, mined := some false },
      { handler := 2, call := mocked, mined := some false }]
    (ZkSymbiotic.Dvn.init.submitted relayed)

theorem relayed_verified :
    (ZkSymbiotic.Dvn.init.submitted relayed).verified packetEvent.packetId = true := by
  rw [Dvn.submitted_verified]
  exact Function.update_self ..

theorem late_run : (WorkerSys.step setup id).run afterTwice late = some afterLate := by
  have hfinal : packetEvent.blockNumber + 64 ≤ 170 :=
    Nat.le_trans packetEvent_final (by decide)
  have hmocked : callDvn id lenient (ZkSymbiotic.Dvn.init.submitted relayed) mocked =
      (false, ZkSymbiotic.Dvn.init.submitted relayed) := callDvn_verified relayed_verified
  refine run_step (crew_log packetLog_parsed) ?_
  refine run_step (crew_answer (i := 2) rfl rfl) ?_
  refine run_step (crew_answer (i := 2) rfl (resume_final hfinal packetEvent_hash)) ?_
  refine run_step (crew_answer (i := 2) rfl rfl) ?_
  refine run_step (crew_answer (i := 2) rfl resume_proof) ?_
  refine run_step (crew_answer (i := 2) rfl (resume_replied (call?_mock _ _))) ?_
  refine run_step (crew_mine (k := 1) rfl hmocked) ?_
  refine run_step (crew_mine (k := 2) rfl hmocked) ?_
  exact run_step (crew_answer (i := 0) rfl rfl) rfl

end Devnet

/-- three transactions for one packet, the last one on an outdated answer -/
theorem verified_once_devnet :
    (WorkerSys.step Devnet.setup id).run .start Devnet.twice = some Devnet.afterTwice ∧
    (WorkerSys.step Devnet.setup id).run Devnet.afterTwice Devnet.late = some Devnet.afterLate ∧
    Devnet.afterTwice.Once ∧
    ∀ (k : Nat) (tx : Tx Bytes), Devnet.afterLate.txs[k]? = some tx →
      tx.call.packetId = Devnet.packetEvent.packetId →
      (tx.mined = some true → Devnet.afterTwice.txs[k]? = some tx) ∧
      (Outdated Devnet.setup id Devnet.packetEvent.packetId Devnet.afterTwice Devnet.late
          tx.handler ∨
        ∃ g, Devnet.afterTwice.handlers[tx.handler]? = some g ∧ g.stage ≠ .verified) := by
  obtain ⟨hone, hpast⟩ := verified_once Devnet.twice_run Devnet.late_run
  exact ⟨Devnet.twice_run, Devnet.late_run, hone, hpast _ Devnet.relayed_verified⟩

/-- at 63 confirmations -/
theorem early_packets_dropped_devnet : ∃ s : WorkerSys Bytes,
    (WorkerSys.step Devnet.setup id).run .start
      [.log Devnet.packetLog, .answer 0 (.verified (some false)),
        .answer 0 (.blockNumber (some 163))] = some s ∧
    s.txs = [] ∧ s.dvn = .init := by
  have hlt : 163 < Devnet.packetEvent.blockNumber + 64 := by
    show 163 < 100 + 64
    decide
  have hrun : (WorkerSys.step Devnet.setup id).run .start
      [.log Devnet.packetLog, .answer 0 (.verified (some false)),
        .answer 0 (.blockNumber (some 163))] = some _ := early_run Devnet.packetLog_parsed hlt
  obtain ⟨_, hothers⟩ := early_packets_dropped hrun
  obtain ⟨htxs, hdvn⟩ := hothers (by
    intro i g currentBlock hi hmem
    have hi : [_][i]? = some g := hi
    simp only [List.mem_cons, reduceCtorEq, WorkerAction.answer.injEq, Answer.blockNumber.injEq,
      Option.some.injEq, and_false, List.not_mem_nil, or_false, false_or] at hmem
    obtain ⟨rfl, rfl⟩ := hmem
    obtain rfl := Option.some.inj hi
    exact hlt)
  exact ⟨_, hrun, htxs, rfl⟩

/-- the first handler has gone the whole way and asks nothing more -/
theorem handlers_return_devnet :
    (WorkerSys.step Devnet.setup id).run .start (Devnet.twice ++ Devnet.late)
      = some Devnet.afterLate ∧
    ∀ answer, ¬ ∃ s', WorkerSys.step Devnet.setup id Devnet.afterLate (.answer 0 answer)
      = some s' := by
  have hrun : (WorkerSys.step Devnet.setup id).run .start (Devnet.twice ++ Devnet.late)
      = some Devnet.afterLate :=
    (Machine.run_append_some _ Devnet.twice_run _).trans Devnet.late_run
  obtain ⟨n, _, _, hnext⟩ := handlers_return hrun 0
  exact ⟨hrun, fun answer hstep => ((hnext _ rfl answer).mp hstep).1 rfl⟩

end ZkSymbiotic.DvnWorker
