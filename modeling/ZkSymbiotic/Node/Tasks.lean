import ZkSymbiotic.Node.Loop

/-!
# The task events of the sum node

The cursor of a chain stands for the events that are done with.  It is moved before they are processed
and stays where it is when an answer fails, so the rest of the batch is not asked for again.

* `Handled`, `NoneLost`     what was made of an event, and that the cursor says so;
* `honest`                  the loop with clients that answer with the events of the chain;
* `processNewTasks_split`   a batch is processed up to the first failure;
* `none_lost_iff`           along a run no event is lost exactly if no call fails before the end of
                            what is new in a batch;
* `failed_sign_loses`       a run that loses two events to one failed call.
-/

namespace ZkSymbiotic.SumNode

/-! ## handled events -/

/-- the event was seen not to be in created state, or was signed and stored -/
def Event.Handles (chainID : Int64) (evt : SumTaskCreateTask) : Event → Prop
  | .skipped chainID' evt' status => chainID' = chainID ∧ evt' = evt ∧ status ≠ taskCreated
  | .stored chainID' evt' _ => chainID' = chainID ∧ evt' = evt
  | _ => False

def Handled (history : List Event) (chainID : Int64) (evt : SumTaskCreateTask) : Prop :=
  ∃ e ∈ history, e.Handles chainID evt

theorem handled_cons {e : Event} {history : List Event} {chainID : Int64}
    {evt : SumTaskCreateTask} :
    Handled (e :: history) chainID evt ↔ e.Handles chainID evt ∨ Handled history chainID evt := by
  unfold Handled
  rw [List.exists_mem_cons_iff]

/-- every event in a block below the cursor of its chain is handled -/
def NoneLost (created : Int64 → List SumTaskCreateTask) (s : State) : Prop :=
  ∀ chainID, ∀ evt ∈ created chainID, evt.raw.blockNumber < s.node.lastBlocks chainID →
    Handled s.node.history chainID evt

section
variable (cfg : Config)

/-- the calls made for the event of this log do not fail -/
def CreateTaskLog.Succeeds (chainID : Int64) (log : CreateTaskLog) : Prop :=
  ∃ evt verdict, log.event = some evt ∧ newTask cfg chainID evt log.replies = .ok verdict

variable {cfg}

theorem handled_settle {node : Node} {chainID chainID' : Int64} {evt evt' : SumTaskCreateTask}
    {replies : TaskReplies} {verdict : Verdict} (h : newTask cfg chainID evt replies = .ok verdict) :
    Handled (node.settle chainID evt verdict).history chainID' evt' ↔
      Handled node.history chainID' evt' ∨ chainID' = chainID ∧ evt' = evt := by
  obtain ⟨status, _, ⟨hne, rfl⟩ | ⟨_, _, _, _, _, _, _, rfl⟩⟩ := (newTask_eq_ok cfg).mp h
  · refine handled_cons.trans (Or.comm.trans (or_congr_right ?_))
    show chainID = chainID' ∧ evt = evt' ∧ status ≠ taskCreated ↔ _
    rw [eq_comm, eq_comm (a := evt)]
    exact and_congr_right fun _ => and_iff_left hne
  · refine handled_cons.trans (Or.comm.trans (or_congr_right ?_))
    show chainID = chainID' ∧ evt = evt' ↔ _
    rw [eq_comm, eq_comm (a := evt)]

variable (cfg) in
/-- `node'` is `node` with the events of `done` settled, and `rest` starts with a failure -/
structure Processed (chainID : Int64) (node node' : Node) (done rest : List CreateTaskLog) :
    Prop where
  succeed : ∀ log ∈ done, log.Succeeds cfg chainID
  stop : ∀ log later, rest = log :: later → ¬ log.Succeeds cfg chainID
  lastBlocks : node'.lastBlocks = node.lastBlocks
  handled : ∀ chainID' evt, Handled node'.history chainID' evt ↔
    Handled node.history chainID' evt ∨ chainID' = chainID ∧ some evt ∈ done.map (·.event)

/-- where the first event fails nothing is settled -/
theorem Processed.none {chainID : Int64} (node : Node) {log : CreateTaskLog}
    (h : ¬ log.Succeeds cfg chainID) (events : List CreateTaskLog) :
    Processed cfg chainID node node [] (log :: events) where
  succeed := fun _ h => nomatch h
  stop := by
    intro log' later heq
    obtain ⟨rfl, _⟩ := List.cons.inj heq
    exact h
  lastBlocks := rfl
  handled := by simp

variable (cfg) in
/-- **how far a batch is processed**: up to a log whose calls fail, or to the end -/
theorem processNewTasks_split (chainID : Int64) (node : Node) (events : List CreateTaskLog) :
    ∃ done rest, events = done ++ rest ∧
      Processed cfg chainID node (processNewTasks cfg chainID node events).1 done rest := by
  induction events generalizing node with
  | nil =>
    refine ⟨[], [], rfl, (fun _ h => nomatch h), (fun _ _ h => nomatch h), rfl, fun _ _ => ?_⟩
    simp [processNewTasks]
  | cons log events ih =>
    cases hevt : log.event with
    | none =>
      have hfail : ¬ log.Succeeds cfg chainID := fun ⟨_, _, h, _⟩ => nomatch hevt.symm.trans h
      have heq : processNewTasks cfg chainID node (log :: events) = (node, none) := by
        simp only [processNewTasks, hevt]
      rw [heq]
      exact ⟨[], log :: events, rfl, Processed.none node hfail events⟩
    | some evt =>
      cases hnew : newTask cfg chainID evt log.replies with
      | error err =>
        have hfail : ¬ log.Succeeds cfg chainID := by
          intro ⟨evt', _, h, hok⟩
          obtain rfl := Option.some.inj (hevt.symm.trans h)
          exact nomatch hnew.symm.trans hok
        have heq : processNewTasks cfg chainID node (log :: events) = (node, some err) := by
          simp only [processNewTasks, hevt, hnew]
        rw [heq]
        exact ⟨[], log :: events, rfl, Processed.none node hfail events⟩
      | ok verdict =>
        obtain ⟨done, rest, rfl, hdone⟩ := ih (node.settle chainID evt verdict)
        have heq : processNewTasks cfg chainID node (log :: (done ++ rest))
            = processNewTasks cfg chainID (node.settle chainID evt verdict) (done ++ rest) := by
          simp only [processNewTasks, hevt, hnew]
        have hsettle : (node.settle chainID evt verdict).lastBlocks = node.lastBlocks := by
          cases verdict with
          | skip status => rfl
          | sign state => rfl
        rw [heq]
        refine ⟨log :: done, rest, rfl,
          List.forall_mem_cons.mpr ⟨⟨evt, verdict, hevt, hnew⟩, hdone.succeed⟩, hdone.stop,
          hdone.lastBlocks.trans hsettle, fun chainID' evt' => ?_⟩
        rw [hdone.handled, handled_settle hnew, List.map_cons, List.mem_cons, hevt,
          Option.some.injEq, and_or_left, or_assoc]

/-! ## visits -/

/-- what a visit gets to process -/
structure Batch where
  chainID : Int64
  endBlockNumber : UInt64
  events : List CreateTaskLog

def State.batch (s : State) : Action cfg → Option Batch
  | .visit replies =>
    match s.pc, replies.blockByNumber with
    | .visiting (chainID :: _), .ok endBlockNumber =>
      match replies.filterCreateTask (s.node.lastBlocks chainID) endBlockNumber with
      | .ok events => some { chainID, endBlockNumber, events }
      | .error _ => none
    | _, _ => none
  | _ => none

/-- the chain's events between the blocks of a `FilterCreateTask` call, both included -/
def eventsBetween (created : List SumTaskCreateTask) (start fin : UInt64) :
    List SumTaskCreateTask :=
  created.filter fun evt => start ≤ evt.raw.blockNumber ∧ evt.raw.blockNumber ≤ fin

/-- `FilterCreateTask` is answered with the chain's events -/
def HonestFilter (created : Int64 → List SumTaskCreateTask) (s : State) (a : Action cfg) : Prop :=
  ∀ b ∈ s.batch a, b.events.map (·.event) =
    (eventsBetween (created b.chainID) (s.node.lastBlocks b.chainID) b.endBlockNumber).map some

instance (created : Int64 → List SumTaskCreateTask) (s : State) (a : Action cfg) :
    Decidable (HonestFilter created s a) :=
  inferInstanceAs (Decidable (∀ b ∈ s.batch a, _ = _))

variable (cfg) in
def honest (created : Int64 → List SumTaskCreateTask) : Machine State (Action cfg) :=
  (step cfg).guard (HonestFilter created)

/-- a call fails at an event of a batch, and that event or a later one is not among the events before
it and was not handled by an earlier visit (where the cursor wraps to 0, the whole chain is asked for
again) -/
def LosesEvent (s : State) (a : Action cfg) : Prop :=
  ∃ b ∈ s.batch a, b.endBlockNumber + 1 ≠ 0 ∧ ∃ done log later, b.events = done ++ log :: later ∧
    ¬ log.Succeeds cfg b.chainID ∧ ∃ evt, some evt ∈ (log :: later).map (·.event) ∧
      some evt ∉ done.map (·.event) ∧ ¬ Handled s.node.history b.chainID evt

/-! ## what a step loses -/

/-- a cursor behind the head, unless it wraps to 0 -/
theorem lt_cursor_iff {block head : UInt64} :
    block < head + 1 ↔ head + 1 ≠ 0 ∧ block ≤ head := by
  by_cases h : head + 1 = 0
  · rw [h]
    exact iff_of_false UInt64.not_lt_zero fun hne => hne.1 rfl
  have hwrap : (head + 1).toNat = head.toNat + 1 := by
    have hlt := head.toNat_lt
    rw [UInt64.toNat_add]
    refine Nat.mod_eq_of_lt (lt_of_le_of_ne hlt fun heq => h ?_)
    apply UInt64.toNat_inj.mp
    rw [UInt64.toNat_add]
    show (head.toNat + UInt64.toNat 1) % 2^64 = 0
    rw [heq, Nat.mod_self]
  rw [and_iff_right h, UInt64.lt_iff_toNat_lt, UInt64.le_iff_toNat_le, hwrap]
  exact Nat.lt_succ_iff

theorem mem_eventsBetween {created : List SumTaskCreateTask} {start fin : UInt64}
    {evt : SumTaskCreateTask} : evt ∈ eventsBetween created start fin ↔
      evt ∈ created ∧ start ≤ evt.raw.blockNumber ∧ evt.raw.blockNumber ≤ fin := by
  unfold eventsBetween
  rw [List.mem_filter, decide_eq_true_iff]

theorem handled_kept {node node' : Node} (h : Kept node node') {chainID : Int64}
    {evt : SumTaskCreateTask} (hh : Handled node.history chainID evt) :
    Handled node'.history chainID evt := by
  obtain ⟨_, submitted, hhistory, _⟩ := h
  obtain ⟨e, hmem, he⟩ := hh
  rw [hhistory]
  exact ⟨e, List.mem_append_right submitted hmem, he⟩

theorem NoneLost.of_handled {created : Int64 → List SumTaskCreateTask} {s s' : State}
    (hP : NoneLost created s) (hblocks : s'.node.lastBlocks = s.node.lastBlocks)
    (hhandled : ∀ chainID evt, Handled s.node.history chainID evt →
      Handled s'.node.history chainID evt) : NoneLost created s' := by
  intro chainID evt hevt hlt
  rw [hblocks] at hlt
  exact hhandled chainID evt (hP chainID evt hevt hlt)

/-- the lost events are those of the batch that are neither settled by the visit nor handled before -/
theorem losesEvent_iff {s : State} {a : Action cfg} {b : Batch} (hb : s.batch a = some b)
    {node node' : Node} {done rest : List CreateTaskLog} (hevents : b.events = done ++ rest)
    (hdone : Processed cfg b.chainID node node' done rest) :
    LosesEvent s a ↔ b.endBlockNumber + 1 ≠ 0 ∧ ∃ evt, some evt ∈ b.events.map (·.event) ∧
      some evt ∉ done.map (·.event) ∧ ¬ Handled s.node.history b.chainID evt := by
  constructor
  · rintro ⟨b', hb', hwrap, done', log, later, hsplit, hfail, evt, hevt, hnew, hunhandled⟩
    obtain rfl := Option.some.inj (hb.symm.trans hb')
    refine ⟨hwrap, evt, ?_, fun hsettled => hnew ?_, hunhandled⟩
    · rw [hsplit, List.map_append]
      exact List.mem_append_right _ hevt
    -- the failing log stops the batch, so what is settled stands before it
    · have heq : done ++ rest = done' ++ log :: later := hevents.symm.trans hsplit
      rcases List.append_eq_append_iff.mp heq with ⟨more, rfl, _⟩ | ⟨more, rfl, hmore⟩
      · rw [List.map_append]
        exact List.mem_append_left _ hsettled
      · cases more with
        | nil =>
          rw [List.append_nil] at hsettled
          exact hsettled
        | cons log' more =>
          obtain ⟨rfl, _⟩ := List.cons.inj hmore
          exact absurd (hdone.succeed log (List.mem_append_right done' List.mem_cons_self)) hfail
  · rintro ⟨hwrap, evt, hevt, hunsettled, hunhandled⟩
    rw [hevents, List.map_append] at hevt
    have hrest := (List.mem_append.mp hevt).resolve_left hunsettled
    cases rest with
    | nil => cases hrest
    | cons log later =>
      exact ⟨b, hb, hwrap, done, log, later, hevents, hdone.stop log later rfl, evt, hrest,
        hunsettled, hunhandled⟩

/-- a visit moves the cursor of its chain, and settles what it processes of its batch -/
theorem Processed.visited {node node' : Node} {b : Batch} {done rest : List CreateTaskLog}
    (hdone : Processed cfg b.chainID
      ((node.asks b.chainID b.endBlockNumber).moveCursor b.chainID b.endBlockNumber) node' done rest) :
    (∀ chainID, node'.lastBlocks chainID =
      if chainID = b.chainID then b.endBlockNumber + 1 else node.lastBlocks chainID) ∧
    ∀ chainID evt, Handled node'.history chainID evt ↔
      Handled node.history chainID evt ∨ chainID = b.chainID ∧ some evt ∈ done.map (·.event) := by
  refine ⟨fun chainID => ?_, fun chainID evt => ?_⟩
  · rw [hdone.lastBlocks]
    exact Function.update_apply _ _ _ _
  · rw [hdone.handled]
    exact or_congr_left (handled_cons.trans (or_iff_right id))

/-- the new cursor of a visited chain is justified exactly if the visit loses no event -/
theorem noneLost_visit {created : Int64 → List SumTaskCreateTask} {s : State} {a : Action cfg}
    {b : Batch} (hP : NoneLost created s) (hhonest : HonestFilter created s a)
    (hbatch : s.batch a = some b) (chainIDs : List Int64) :
    NoneLost created
      { node := (processNewTasks cfg b.chainID
          ((s.node.asks b.chainID b.endBlockNumber).moveCursor b.chainID b.endBlockNumber)
          b.events).1
        pc := .visiting chainIDs } ↔ ¬ LosesEvent s a := by
  obtain ⟨done, rest, hevents, hdone⟩ := processNewTasks_split cfg b.chainID
    ((s.node.asks b.chainID b.endBlockNumber).moveCursor b.chainID b.endBlockNumber) b.events
  generalize (processNewTasks cfg b.chainID _ b.events).1 = node' at hdone ⊢
  obtain ⟨hcursor, hhandled⟩ := hdone.visited
  rw [losesEvent_iff hbatch hevents hdone]
  have hmem : ∀ evt, some evt ∈ b.events.map (·.event) ↔ evt ∈
      eventsBetween (created b.chainID) (s.node.lastBlocks b.chainID) b.endBlockNumber := by
    intro evt
    rw [hhonest b hbatch]
    exact List.mem_map_of_injective (Option.some_injective _)
  constructor
  · rintro hP' ⟨hwrap, evt, hevt, hunsettled, hunhandled⟩
    obtain ⟨hcreated, _, hle⟩ := mem_eventsBetween.mp ((hmem evt).mp hevt)
    have hlt : evt.raw.blockNumber < node'.lastBlocks b.chainID := by
      rw [hcursor, if_pos rfl]
      exact lt_cursor_iff.mpr ⟨hwrap, hle⟩
    rcases (hhandled _ _).mp (hP' b.chainID evt hcreated hlt) with hold | ⟨_, hsettled⟩
    · exact hunhandled hold
    · exact hunsettled hsettled
  · intro hno chainID evt hcreated hlt
    have hlt' : evt.raw.blockNumber < node'.lastBlocks chainID := hlt
    rw [hcursor] at hlt'
    apply (hhandled chainID evt).mpr
    by_cases hchain : chainID = b.chainID
    · subst hchain
      rw [if_pos rfl] at hlt'
      obtain ⟨hwrap, hle⟩ := lt_cursor_iff.mp hlt'
      by_cases hstart : s.node.lastBlocks b.chainID ≤ evt.raw.blockNumber
      · by_contra hnot
        obtain ⟨hunhandled, hunsettled⟩ := not_or.mp hnot
        have hevt := (hmem evt).mpr (mem_eventsBetween.mpr ⟨hcreated, hstart, hle⟩)
        exact hno ⟨hwrap, evt, hevt, fun hsettled => hunsettled ⟨rfl, hsettled⟩, hunhandled⟩
      · exact Or.inl (hP b.chainID evt hcreated (UInt64.not_le.mp hstart))
    · rw [if_neg hchain] at hlt'
      exact Or.inl (hP chainID evt hcreated hlt')

/-- one step keeps the cursors justified exactly if it loses no event -/
theorem noneLost_step {created : Int64 → List SumTaskCreateTask} {s s' : State} {a : Action cfg}
    (hP : NoneLost created s) (hhonest : HonestFilter created s a) (h : Stepped cfg s a s') :
    NoneLost created s' ↔ ¬ LosesEvent s a := by
  have hquiet : s.batch a = none → ¬ LosesEvent s a := by
    intro hnone ⟨b, hb, _⟩
    cases hnone.symm.trans hb
  cases h with
  | tick order pc => exact iff_of_true hP (hquiet rfl)
  | noHead replies chainID chainIDs err pc head =>
    refine iff_of_true hP (hquiet ?_)
    simp only [State.batch, pc, head]
  | noEvents replies chainID chainIDs endBlockNumber err pc head logs =>
    refine iff_of_true (hP.of_handled rfl fun chainID' evt hh => ?_) (hquiet ?_)
    · exact handled_cons.mpr (Or.inr hh)
    · simp only [State.batch, pc, head, logs]
  | visit replies chainID chainIDs endBlockNumber events pc head logs =>
    have hbatch : s.batch (.visit replies : Action cfg)
        = some { chainID, endBlockNumber, events } := by
      simp only [State.batch, pc, head, logs]
    exact noneLost_visit hP hhonest hbatch chainIDs
  | fetchResults replies pc =>
    have hkept := fetchResults_kept replies s.node (replies.taskOrder s.node.tasks.keys).order
    exact iff_of_true (hP.of_handled hkept.1 fun _ _ hh => handled_kept hkept hh) (hquiet rfl)
  | done pc => exact iff_of_true hP (hquiet rfl)

/-- **No event is lost**: with clients that answer with the chain's events, along a run every event
below the cursor of its chain is handled exactly if no step loses an event. -/
theorem none_lost_iff (cfg : Config) (created : Int64 → List SumTaskCreateTask)
    (as : List (Action cfg)) (s : State) (hr : (honest cfg created).run State.init as = some s) :
    (honest cfg created).Always (NoneLost created) State.init as ↔
      (honest cfg created).Steps (fun s a => ¬ LosesEvent s a) State.init as := by
  have hinit : NoneLost created State.init := by
    intro chainID evt _ hlt
    exact absurd hlt UInt64.not_lt_zero
  refine Machine.always_iff_steps (I := fun _ => True) (fun _ _ _ _ _ => trivial)
    (fun s a s' _ hP hs => ?_) trivial hinit hr
  obtain ⟨hhonest, hs⟩ := (Machine.guard_some _).mp hs
  exact noneLost_step hP hhonest (step_stepped hs)

/-- where no call fails nothing is lost -/
theorem not_losesEvent {s : State} {a : Action cfg}
    (h : ∀ b ∈ s.batch a, ∀ log ∈ b.events, log.Succeeds cfg b.chainID) : ¬ LosesEvent s a := by
  rintro ⟨b, hb, _, done, log, later, hsplit, hfail, _⟩
  refine hfail (h b hb log ?_)
  rw [hsplit]
  exact List.mem_append_right done List.mem_cons_self

/-! ## a small chain -/

/-- a visit that is answered with the finalized head and the events of the chain -/
def truthful (created : List SumTaskCreateTask) (head : UInt64)
    (replies : SumTaskCreateTask → TaskReplies) : VisitReplies where
  blockByNumber := .ok head
  filterCreateTask := fun start fin =>
    .ok ((eventsBetween created start fin).map fun evt =>
      { event := some evt, replies := replies evt })

theorem truthful_batch {s : State} {created : List SumTaskCreateTask} {head : UInt64}
    {replies : SumTaskCreateTask → TaskReplies} {b : Batch}
    (h : s.batch (.visit (truthful created head replies) : Action cfg) = some b) :
    b.events = (eventsBetween created (s.node.lastBlocks b.chainID) b.endBlockNumber).map
      fun evt => { event := some evt, replies := replies evt } := by
  simp only [State.batch, truthful] at h
  split at h
  · rename_i chainID _ _ hpc hhead
    obtain rfl := Except.ok.inj hhead
    obtain rfl := Option.some.inj h
    rfl
  · cases h

end

namespace Devnet

def cfg : Config where
  chains := [1]
  nodup := List.nodup_singleton 1
  pack := fun taskID result => .ok (taskID.bytes ++ beBytes 32 result)
  privateKey := .ok ()
  newKeyedTransactorWithChainID := fun _ => .ok ()

def task (blockNumber : UInt64) : SumTaskCreateTask where
  taskId := FixedBytes.ofNat 32 blockNumber.toNat
  task := { numberA := 2, numberB := 3, nonce := 0, createdAt := 0 }
  raw := { blockNumber, index := 0 }

/-- a task in each of the first blocks -/
def created (_ : Int64) : List SumTaskCreateTask := [task 1, task 2, task 3]

/-- the relay signs for epoch 7 -/
def signed (_ : SumTaskCreateTask) : TaskReplies where
  getTaskStatus := .ok taskCreated
  getSuggestedEpoch := .ok 7
  signMessage := fun _ => .ok { requestHash := "0x07", epoch := 7 }

/-- the relay fails to sign at one event -/
def failsAt (evt evt' : SumTaskCreateTask) : TaskReplies :=
  if evt' = evt then
    { signed evt with signMessage := fun _ => .error (.call "deadline exceeded") }
  else signed evt

/-- no proof is aggregated yet -/
def noProof : FetchReplies cfg where
  taskOrder := Shuffle.id
  chainOrder := fun _ => Shuffle.id _
  getTaskStatus := fun _ _ => .ok taskCreated
  getAggregationProof := fun _ _ => .error (.call "not found")
  statusOrder := fun _ => Shuffle.id
  respondTask := fun _ _ => .ok ()

/-- a tick at the finalized head 3 -/
def tick (replies : SumTaskCreateTask → TaskReplies) : List (Action cfg) :=
  [.tick (Shuffle.id _), .visit (truthful (created 1) 3 replies), .fetchResults noProof]

theorem honest_tick (replies : SumTaskCreateTask → TaskReplies) (s : State) :
    (honest cfg created).run s (tick replies) = (step cfg).run s (tick replies) := by
  refine Machine.guard_run _ (fun a ha s b hb => ?_) s
  rcases List.mem_cons.mp ha with rfl | ha
  · cases hb
  rcases List.mem_cons.mp ha with rfl | ha
  · rw [truthful_batch hb, List.map_map]
    rfl
  · obtain rfl := List.mem_singleton.mp ha
    cases hb

end Devnet

/-- a tick in which no call fails -/
theorem none_lost_devnet :
    (honest Devnet.cfg Devnet.created).Always (NoneLost Devnet.created) State.init
      (Devnet.tick Devnet.signed) := by
  have hrun : ∃ s, (honest Devnet.cfg Devnet.created).run State.init
      (Devnet.tick Devnet.signed) = some s := by
    rw [Devnet.honest_tick]
    exact ⟨_, rfl⟩
  obtain ⟨s, hrun⟩ := hrun
  apply (none_lost_iff Devnet.cfg Devnet.created _ s hrun).mpr
  refine Machine.Steps.of_forall (fun a ha s => not_losesEvent fun b hb log hlog => ?_) _
  rcases List.mem_cons.mp ha with rfl | ha
  · cases hb
  rcases List.mem_cons.mp ha with rfl | ha
  · rw [truthful_batch hb] at hlog
    obtain ⟨evt, _, rfl⟩ := List.mem_map.mp hlog
    exact ⟨evt, _, rfl, rfl⟩
  · obtain rfl := List.mem_singleton.mp ha
    cases hb

/-- **events are lost**: the relay fails to sign the second task, and after the tick the cursor is
behind the third one too, at which nobody has looked -/
theorem failed_sign_loses :
    ∃ s, (honest Devnet.cfg Devnet.created).run State.init
        (Devnet.tick (Devnet.failsAt (Devnet.task 2))) = some s ∧
      s.pc = .waiting ∧ s.node.lastBlocks 1 = 4 ∧ s.node.tasks.keys = [(Devnet.task 1).taskId] ∧
      ¬ Handled s.node.history 1 (Devnet.task 2) ∧ ¬ Handled s.node.history 1 (Devnet.task 3) ∧
      ¬ NoneLost Devnet.created s := by
  have hrun : ∃ s state, (step Devnet.cfg).run State.init
        (Devnet.tick (Devnet.failsAt (Devnet.task 2))) = some s ∧
      s.pc = .waiting ∧ s.node.lastBlocks 1 = 4 ∧ s.node.tasks.keys = [(Devnet.task 1).taskId] ∧
      s.node.history = [.stored 1 (Devnet.task 1) state, .filtered 1 0 3] :=
    ⟨_, _, rfl, rfl, rfl, rfl, rfl⟩
  obtain ⟨s, state, hrun, hpc, hblocks, htasks, hhistory⟩ := hrun
  have hunhandled : ∀ evt, Devnet.task 1 ≠ evt → ¬ Handled s.node.history 1 evt := by
    intro evt hne hh
    rw [hhistory] at hh
    rcases handled_cons.mp hh with ⟨_, heq⟩ | hh
    · exact hne heq
    · rcases handled_cons.mp hh with hh | ⟨_, hmem, _⟩
      · exact hh
      · cases hmem
  have h2 := hunhandled (Devnet.task 2) (by decide)
  have h3 := hunhandled (Devnet.task 3) (by decide)
  refine ⟨s, (Devnet.honest_tick _ _).trans hrun, hpc, hblocks, htasks, h2, h3, fun hP => h2 ?_⟩
  refine hP 1 (Devnet.task 2) (List.mem_cons_of_mem _ List.mem_cons_self) ?_
  rw [hblocks]
  decide

end ZkSymbiotic.SumNode
