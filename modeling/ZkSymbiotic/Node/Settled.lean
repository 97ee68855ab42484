import ZkSymbiotic.Node.Tasks

/-!
# Settled tasks of the sum node

A chain is asked for a task until it has responded, and a pass over the tasks drops a task whose
chains have all responded, or are all without the task or behind its expiry.

* `FetchReplies.finalStatus`   what a pass leaves in `Statuses`, from what it finds and is answered;
* `TaskState.Settled`, `Mixed`   every chain has responded or sees the task expired, and chains of
                               both kinds;
* `FetchReplies.Mixed`         that a pass makes the task mixed;
* `Visited`                    what a pass makes of one task;
* `mixed_always`               a mixed task is never dropped while its chains keep their answers;
* `settled_leave_iff`          along a run no settled task is left behind exactly if no pass makes a
                               mixed one;
* `mixed_task_stays`           a run that submits the response to an expired task twice.
-/

namespace ZkSymbiotic.SumNode

/-! ## statuses -/

def TaskState.Settled (state : TaskState) : Prop :=
  ∀ chainID status, state.statuses.lookup chainID = some status →
    status = taskResponded ∨ status = taskExpired

/-- settled, with chains of both kinds -/
structure TaskState.Mixed (state : TaskState) : Prop where
  settled : state.Settled
  responded : ∃ chainID, state.statuses.lookup chainID = some taskResponded
  expired : ∃ chainID, state.statuses.lookup chainID = some taskExpired

theorem statuses_all_iff {statuses : AList fun _ : Int64 => UInt8} {p : UInt8 → Bool} :
    statuses.entries.all (fun entry => p entry.2) = true ↔
      ∀ chainID status, statuses.lookup chainID = some status → p status = true := by
  rw [List.all_eq_true]
  constructor
  · intro h chainID status hlookup
    exact h ⟨chainID, status⟩ (AList.mem_lookup_iff.mp hlookup)
  · rintro h ⟨chainID, status⟩ hentry
    exact h chainID status (AList.mem_lookup_iff.mpr hentry)

theorem allResponded_iff {statuses : AList fun _ : Int64 => UInt8} :
    allResponded statuses = true ↔
      ∀ chainID status, statuses.lookup chainID = some status → status = taskResponded := by
  unfold allResponded
  rw [statuses_all_iff (p := fun status => status == taskResponded)]
  simp only [beq_iff_eq]

theorem allNotFoundOrExpired_iff {statuses : AList fun _ : Int64 => UInt8} :
    allNotFoundOrExpired statuses = true ↔
      ∀ chainID status, statuses.lookup chainID = some status →
        status = taskNotFound ∨ status = taskExpired := by
  unfold allNotFoundOrExpired
  rw [statuses_all_iff (p := fun status => status == taskNotFound || status == taskExpired)]
  simp only [Bool.or_eq_true, beq_iff_eq]

/-- a settled task is dropped unless it is mixed -/
theorem TaskState.Settled.dropped_iff {state : TaskState} (h : state.Settled) :
    (allNotFoundOrExpired state.statuses || allResponded state.statuses) = true ↔
      ¬ state.Mixed := by
  rw [Bool.or_eq_true, allNotFoundOrExpired_iff, allResponded_iff]
  constructor
  · rintro (hdead | hall) ⟨_, ⟨responded, hresponded⟩, ⟨expired, hexpired⟩⟩
    · exact absurd (hdead responded taskResponded hresponded) (by decide)
    · exact absurd (hall expired taskExpired hexpired) (by decide)
  · intro hmixed
    by_cases hsome : ∃ chainID, state.statuses.lookup chainID = some taskResponded
    · right
      intro chainID status hstatus
      refine (h chainID status hstatus).resolve_right fun hexpired => ?_
      exact hmixed ⟨h, hsome, chainID, by rw [hstatus, hexpired]⟩
    · left
      intro chainID status hstatus
      refine Or.inr ((h chainID status hstatus).resolve_left fun hresponded => hsome ⟨chainID, ?_⟩)
      rw [hstatus, hresponded]

/-! ## polling -/

/-- a chain that has not responded is asked -/
def polledStatus (getTaskStatus : Int64 → Except GoError UInt8)
    (statuses : AList fun _ : Int64 => UInt8) (chainIDs : List Int64) (chainID : Int64) :
    Option UInt8 :=
  if chainID ∈ chainIDs ∧ statuses.lookup chainID ≠ some taskResponded then
    (getTaskStatus chainID).toOption
  else statuses.lookup chainID

theorem polledStatus_congr {getTaskStatus : Int64 → Except GoError UInt8}
    {statuses : AList fun _ : Int64 => UInt8} {chainIDs chainIDs' : List Int64} {chainID : Int64}
    (h : chainID ∈ chainIDs ↔ chainID ∈ chainIDs') :
    polledStatus getTaskStatus statuses chainIDs chainID
      = polledStatus getTaskStatus statuses chainIDs' chainID := by
  simp only [polledStatus, h]

theorem getD_eq_taskResponded {status : Option UInt8} :
    status.getD taskCreated = taskResponded ↔ status = some taskResponded := by
  cases status with
  | none => decide
  | some status => exact Option.some_inj.symm

/-- a responded chain is left out, and the others are asked as before -/
theorem polledStatus_skip {getTaskStatus : Int64 → Except GoError UInt8}
    {statuses : AList fun _ : Int64 => UInt8} {asked : Int64}
    (h : statuses.lookup asked = some taskResponded) (chainIDs : List Int64) (chainID : Int64) :
    polledStatus getTaskStatus statuses (asked :: chainIDs) chainID
      = polledStatus getTaskStatus statuses chainIDs chainID := by
  by_cases hchain : chainID = asked
  · subst hchain
    unfold polledStatus
    rw [if_neg fun hne => hne.2 h, if_neg fun hne => hne.2 h]
  · exact polledStatus_congr (List.mem_cons.trans (or_iff_right hchain))

/-- an answer is what a later poll of the same chain gives -/
theorem polledStatus_insert {getTaskStatus : Int64 → Except GoError UInt8}
    {statuses : AList fun _ : Int64 => UInt8} {asked : Int64} {status : UInt8}
    (h : statuses.lookup asked ≠ some taskResponded) (hanswer : getTaskStatus asked = .ok status)
    (chainIDs : List Int64) (chainID : Int64) :
    polledStatus getTaskStatus statuses (asked :: chainIDs) chainID
      = polledStatus getTaskStatus (statuses.insert asked status) chainIDs chainID := by
  by_cases hchain : chainID = asked
  · subst hchain
    unfold polledStatus
    rw [if_pos ⟨List.mem_cons_self, h⟩, AList.lookup_insert, hanswer]
    exact (ite_self _).symm
  · rw [polledStatus_congr (List.mem_cons.trans (or_iff_right hchain))]
    unfold polledStatus
    rw [AList.lookup_insert_ne hchain]

theorem updateStatuses_lookup {getTaskStatus : Int64 → Except GoError UInt8}
    {chainIDs : List Int64} : ∀ {statuses statuses' : AList fun _ : Int64 => UInt8},
      updateStatuses getTaskStatus statuses chainIDs = (statuses', none) → ∀ chainID,
        statuses'.lookup chainID = polledStatus getTaskStatus statuses chainIDs chainID := by
  induction chainIDs with
  | nil =>
    intro statuses statuses' h chainID
    obtain ⟨rfl, _⟩ := Prod.mk.inj h
    exact (if_neg fun hmem => absurd hmem.1 List.not_mem_nil).symm
  | cons asked chainIDs ih =>
    intro statuses statuses' h chainID
    simp only [updateStatuses, getD_eq_taskResponded] at h
    split at h
    · rename_i hresponded
      rw [polledStatus_skip hresponded]
      exact ih h chainID
    · rename_i hasked
      split at h
      · cases h
      · rename_i status hanswer
        rw [polledStatus_insert hasked hanswer]
        exact ih h chainID

section
variable {cfg : Config}

/-- what a pass leaves in `Statuses` for a chain -/
def FetchReplies.finalStatus (replies : FetchReplies cfg) (taskID : B256) (state : TaskState) :
    Int64 → Option UInt8 :=
  polledStatus (replies.getTaskStatus taskID) state.statuses cfg.chains

/-- every chain ends up responded or expired, and there are chains of both kinds -/
structure FetchReplies.Mixed (replies : FetchReplies cfg) (taskID : B256) (state : TaskState) :
    Prop where
  settled : ∀ chainID status, replies.finalStatus taskID state chainID = some status →
    status = taskResponded ∨ status = taskExpired
  responded : ∃ chainID, replies.finalStatus taskID state chainID = some taskResponded
  expired : ∃ chainID, replies.finalStatus taskID state chainID = some taskExpired

/-! ## one task -/

/-- the polled task was dropped, or stands in `tasks` with its new statuses -/
def Visited (replies : FetchReplies cfg) (taskID : B256) (state : TaskState)
    (result : Option TaskState) : Prop :=
  ∃ state', (∀ chainID, state'.statuses.lookup chainID = replies.finalStatus taskID state chainID) ∧
    result = if allNotFoundOrExpired state'.statuses || allResponded state'.statuses then none
      else some state'

theorem mixed_iff_of_lookup {replies : FetchReplies cfg} {taskID : B256} {state left : TaskState}
    (h : ∀ chainID, left.statuses.lookup chainID = replies.finalStatus taskID state chainID) :
    left.Mixed ↔ replies.Mixed taskID state := by
  constructor
  · rintro ⟨hsettled, hresponded, hexpired⟩
    unfold TaskState.Settled at hsettled
    simp only [h] at hsettled hresponded hexpired
    exact ⟨hsettled, hresponded, hexpired⟩
  · rintro ⟨hsettled, hresponded, hexpired⟩
    simp only [← h] at hsettled hresponded hexpired
    exact ⟨hsettled, hresponded, hexpired⟩

/-- a mixed task is left behind -/
theorem Visited.of_mixed {replies : FetchReplies cfg} {taskID : B256} {state : TaskState}
    {result : Option TaskState} (h : Visited replies taskID state result)
    (hmixed : replies.Mixed taskID state) : ∃ left, result = some left ∧ left.Mixed := by
  obtain ⟨left, hstatus, hresult⟩ := h
  have hleft := (mixed_iff_of_lookup hstatus).mpr hmixed
  refine ⟨left, ?_, hleft⟩
  rw [hresult, if_neg fun hdropped => hleft.settled.dropped_iff.mp hdropped hleft]

/-- a visit leaves a settled task behind exactly if it is mixed -/
theorem Visited.settled_iff {replies : FetchReplies cfg} {taskID : B256} {state : TaskState}
    {result : Option TaskState} (h : Visited replies taskID state result) :
    (∃ left, result = some left ∧ left.Settled) ↔ replies.Mixed taskID state := by
  constructor
  · rintro ⟨left, hleft, hsettled⟩
    obtain ⟨state', hstatus, hresult⟩ := h
    rw [hresult] at hleft
    split at hleft
    · cases hleft
    · rename_i hkept
      obtain rfl := Option.some.inj hleft
      refine (mixed_iff_of_lookup hstatus).mp (not_not.mp fun hmixed => hkept ?_)
      exact hsettled.dropped_iff.mpr hmixed
  · intro hmixed
    obtain ⟨left, hleft, hmixed⟩ := h.of_mixed hmixed
    exact ⟨left, hleft, hmixed.settled⟩

theorem processProof_tasks (replies : FetchReplies cfg) (taskID : B256) (node : Node) :
    (processProof cfg replies taskID node).1.tasks = node.tasks := by
  unfold processProof
  split
  · rfl
  split
  · rfl
  · rfl

theorem updateStatuses_finalStatus {replies : FetchReplies cfg} {taskID : B256} {state : TaskState}
    {statuses : AList fun _ : Int64 => UInt8}
    (h : updateStatuses (replies.getTaskStatus taskID) state.statuses
      (replies.chainOrder taskID).order = (statuses, none)) (chainID : Int64) :
    statuses.lookup chainID = replies.finalStatus taskID state chainID := by
  rw [updateStatuses_lookup h]
  exact polledStatus_congr (replies.chainOrder taskID).mem_order

/-- the other tasks are as before -/
def SameOthers (taskID : B256) (node node' : Node) : Prop :=
  ∀ other, other ≠ taskID → node'.tasks.lookup other = node.tasks.lookup other

theorem sameOthers_setTask (node : Node) (taskID : B256) (state : TaskState) :
    SameOthers taskID node (node.setTask taskID state) :=
  fun _ hne => AList.lookup_insert_ne hne

theorem sameOthers_deleteTask (node : Node) (taskID : B256) :
    SameOthers taskID node (node.deleteTask taskID) :=
  fun _ hne => AList.lookup_erase_ne hne

theorem SameOthers.trans {taskID : B256} {node node' node'' : Node}
    (h : SameOthers taskID node node') (h' : SameOthers taskID node' node'') :
    SameOthers taskID node node'' :=
  fun other hne => (h' other hne).trans (h other hne)

section
variable {replies : FetchReplies cfg} {node : Node} {taskID : B256} {state : TaskState}
  {statuses : AList fun _ : Int64 => UInt8}

theorem visited_deleteTask
    (hstatus : ∀ chainID, statuses.lookup chainID = replies.finalStatus taskID state chainID)
    (hdropped : (allNotFoundOrExpired statuses || allResponded statuses) = true) :
    Visited replies taskID state ((node.deleteTask taskID).tasks.lookup taskID) := by
  refine ⟨{ state with statuses }, hstatus, ?_⟩
  rw [if_pos hdropped]
  exact AList.lookup_erase _ _

theorem visited_setTask
    (hstatus : ∀ chainID, statuses.lookup chainID = replies.finalStatus taskID state chainID)
    (hkept : ¬ (allNotFoundOrExpired statuses || allResponded statuses) = true)
    (aggProof : Option Bytes) : Visited replies taskID state
      ((node.setTask taskID { state with statuses, aggProof }).tasks.lookup taskID) := by
  refine ⟨{ state with statuses, aggProof }, hstatus, ?_⟩
  rw [if_neg hkept]
  exact AList.lookup_insert _

/-- a visit that does not end the pass changes its task alone -/
theorem fetchResult_visited {node' : Node}
    (h : fetchResult cfg replies node taskID state = (node', none)) :
    Visited replies taskID state (node'.tasks.lookup taskID) ∧ SameOthers taskID node node' := by
  cases hpolled : updateStatuses (replies.getTaskStatus taskID) state.statuses
      (replies.chainOrder taskID).order with
  | mk statuses failed =>
    simp only [fetchResult, hpolled] at h
    split at h
    · cases h
    have hstatus := updateStatuses_finalStatus hpolled
    have hset := sameOthers_setTask node taskID { state with statuses }
    split at h
    · rename_i hdropped
      obtain ⟨rfl, _⟩ := Prod.mk.inj h
      exact ⟨visited_deleteTask hstatus hdropped, hset.trans (sameOthers_deleteTask _ taskID)⟩
    rename_i hkept
    split at h
    · obtain ⟨rfl, _⟩ := Prod.mk.inj h
      rw [SameOthers, processProof_tasks]
      exact ⟨visited_setTask hstatus hkept state.aggProof, hset⟩
    split at h
    · obtain ⟨rfl, _⟩ := Prod.mk.inj h
      exact ⟨visited_setTask hstatus hkept state.aggProof, hset⟩
    · cases h
    -- the task is set once more with its new proof
    · rename_i resp _
      obtain ⟨rfl, _⟩ := Prod.mk.inj h
      rw [SameOthers, processProof_tasks]
      exact ⟨visited_setTask hstatus hkept resp.proof, hset.trans (sameOthers_setTask _ taskID _)⟩

end

/-! ## a pass -/

/-- a pass that returns nil visits the tasks of its order -/
theorem fetchResults_visited {replies : FetchReplies cfg} {order : List B256}
    (hnodup : order.Nodup) : ∀ {node node' : Node},
      fetchResults cfg replies node order = (node', none) →
      (∀ taskID ∈ order, ∀ state, node.tasks.lookup taskID = some state →
        Visited replies taskID state (node'.tasks.lookup taskID)) ∧
      (∀ taskID, taskID ∉ order ∨ node.tasks.lookup taskID = none →
        node'.tasks.lookup taskID = node.tasks.lookup taskID) := by
  induction order with
  | nil =>
    intro node node' h
    obtain ⟨rfl, _⟩ := Prod.mk.inj h
    exact ⟨nofun, fun _ _ => rfl⟩
  | cons first order ih =>
    intro node node' h
    obtain ⟨hfirst, hnodup⟩ := List.nodup_cons.mp hnodup
    simp only [fetchResults] at h
    split at h
    · rename_i hnone
      obtain ⟨hvisited, hother⟩ := ih hnodup h
      refine ⟨fun taskID hmem state hstate => ?_, fun taskID hout => ?_⟩
      · rcases List.mem_cons.mp hmem with rfl | hmem
        · cases hnone.symm.trans hstate
        · exact hvisited taskID hmem state hstate
      · exact hother taskID (hout.imp_left fun hnot hmem => hnot (List.mem_cons_of_mem first hmem))
    rename_i state hstate
    split at h
    · cases h
    rename_i node₁ hone
    obtain ⟨hvisited₁, hother₁⟩ := fetchResult_visited hone
    obtain ⟨hvisited, hother⟩ := ih hnodup h
    refine ⟨fun taskID hmem state' hstate' => ?_, fun taskID hout => ?_⟩
    · by_cases heq : taskID = first
      · subst heq
        obtain rfl := Option.some.inj (hstate.symm.trans hstate')
        rw [hother taskID (Or.inl hfirst)]
        exact hvisited₁
      · rw [← hother₁ taskID heq] at hstate'
        exact hvisited taskID ((List.mem_cons.mp hmem).resolve_left heq) state' hstate'
    · have hne : taskID ≠ first := by
        rintro rfl
        rcases hout with hout | hout
        · exact hout List.mem_cons_self
        · cases hstate.symm.trans hout
      rw [← hother₁ taskID hne] at hout ⊢
      exact hother taskID (hout.imp_left fun hnot hmem => hnot (List.mem_cons_of_mem first hmem))

/-- no pending task is settled -/
def Node.NoneSettled (node : Node) : Prop :=
  ∀ taskID state, node.tasks.lookup taskID = some state → ¬ state.Settled

/-- the order of a pass goes through every pending task once -/
theorem taskOrder_nodup (replies : FetchReplies cfg) (node : Node) :
    (replies.taskOrder node.tasks.keys).order.Nodup :=
  (replies.taskOrder _).perm.nodup_iff.mpr node.tasks.nodupKeys

section
variable {replies : FetchReplies cfg} {node node' : Node}
  (h : fetchResults cfg replies node (replies.taskOrder node.tasks.keys).order = (node', none))
include h

theorem pass_visited {taskID : B256} {state : TaskState}
    (hstate : node.tasks.lookup taskID = some state) :
    Visited replies taskID state (node'.tasks.lookup taskID) := by
  refine (fetchResults_visited (taskOrder_nodup replies node) h).1 taskID ?_ state hstate
  exact (replies.taskOrder _).mem_order.mpr
    (AList.mem_keys.mp (AList.lookup_isSome.mp (hstate ▸ rfl)))

/-- a pass brings no new task -/
theorem pass_none {taskID : B256} (hnone : node.tasks.lookup taskID = none) :
    node'.tasks.lookup taskID = none := by
  rw [(fetchResults_visited (taskOrder_nodup replies node) h).2 taskID (Or.inr hnone), hnone]

/-- a pass leaves no settled task behind exactly if none of its tasks is mixed -/
theorem noneSettled_iff : node'.NoneSettled ↔
    ∀ taskID state, node.tasks.lookup taskID = some state → ¬ replies.Mixed taskID state := by
  constructor
  · intro hnone taskID state hstate hmixed
    obtain ⟨left, hleft, hsettled⟩ := (pass_visited h hstate).settled_iff.mpr hmixed
    exact hnone taskID left hleft hsettled
  · intro hmixed taskID left hleft hsettled
    cases hstate : node.tasks.lookup taskID with
    | none => cases (pass_none h hstate).symm.trans hleft
    | some state =>
      refine hmixed taskID state hstate ((pass_visited h hstate).settled_iff.mp ?_)
      exact ⟨left, hleft, hsettled⟩

end

/-! ## a mixed task stays -/

/-- the task is pending and mixed -/
def MixedPending (taskID : B256) (s : State) : Prop :=
  ∃ state, s.node.tasks.lookup taskID = some state ∧ state.Mixed

/-- the task is not created again, and the chains that have not responded still see it expired in a
pass that returns nil -/
structure StaysExpired (taskID : B256) (s : State) (a : Action cfg) : Prop where
  created : ∀ b ∈ s.batch a, ∀ log ∈ b.events, ∀ evt ∈ log.event, evt.taskId ≠ taskID
  expired : ∀ replies, a = .fetchResults replies →
    (∃ node', fetchResults cfg replies s.node (replies.taskOrder s.node.tasks.keys).order
      = (node', none)) ∧
    ∀ state, s.node.tasks.lookup taskID = some state → ∀ chainID,
      state.statuses.lookup chainID ≠ some taskResponded →
        replies.getTaskStatus taskID chainID = .ok taskExpired

theorem processNewTasks_lookup {chainID : Int64} {taskID : B256} {events : List CreateTaskLog}
    (h : ∀ log ∈ events, ∀ evt ∈ log.event, evt.taskId ≠ taskID) : ∀ node : Node,
      (processNewTasks cfg chainID node events).1.tasks.lookup taskID
        = node.tasks.lookup taskID := by
  induction events with
  | nil => intro node; rfl
  | cons log events ih =>
    intro node
    obtain ⟨hlog, hevents⟩ := List.forall_mem_cons.mp h
    unfold processNewTasks
    split
    · rfl
    rename_i evt hevt
    split
    · rfl
    rename_i verdict _
    rw [ih hevents]
    cases verdict with
    | skip status => rfl
    | sign state => exact AList.lookup_insert_ne (Ne.symm (hlog evt hevt))

/-- a poll of such chains leaves the task mixed -/
theorem TaskState.Mixed.stays {taskID : B256} {state : TaskState} {replies : FetchReplies cfg}
    (h : state.Mixed) (hanswers : ∀ chainID, state.statuses.lookup chainID ≠ some taskResponded →
      replies.getTaskStatus taskID chainID = .ok taskExpired) : replies.Mixed taskID state := by
  obtain ⟨hsettled, ⟨responded, hresponded⟩, ⟨expired, hexpired⟩⟩ := h
  refine ⟨fun chainID status hfinal => ?_, ⟨responded, ?_⟩, ⟨expired, ?_⟩⟩
  · unfold FetchReplies.finalStatus polledStatus at hfinal
    split at hfinal
    · rename_i hasked
      rw [hanswers chainID hasked.2] at hfinal
      exact Or.inr (Option.some.inj hfinal).symm
    · exact hsettled chainID status hfinal
  · exact (if_neg fun hasked => hasked.2 hresponded).trans hresponded
  · unfold FetchReplies.finalStatus polledStatus
    split
    · rename_i hasked
      rw [hanswers expired hasked.2]
      rfl
    · exact hexpired

theorem MixedPending.step {taskID : B256} {s s' : State} {a : Action cfg}
    (h : MixedPending taskID s) (hstays : StaysExpired taskID s a) (hstep : Stepped cfg s a s') :
    MixedPending taskID s' := by
  cases hstep with
  | tick order pc => exact h
  | noHead replies chainID chainIDs err pc head => exact h
  | noEvents replies chainID chainIDs endBlockNumber err pc head logs => exact h
  | visit replies chainID chainIDs endBlockNumber events pc head logs =>
    have hbatch : s.batch (.visit replies : Action cfg)
        = some { chainID, endBlockNumber, events } := by
      simp only [State.batch, pc, head, logs]
    obtain ⟨state, hstate, hmixed⟩ := h
    refine ⟨state, ?_, hmixed⟩
    rw [processNewTasks_lookup (hstays.created _ hbatch)]
    exact hstate
  | fetchResults replies pc =>
    obtain ⟨state, hstate, hmixed⟩ := h
    obtain ⟨⟨node', hnil⟩, hanswers⟩ := hstays.expired replies rfl
    have hnode : (fetch cfg s.node replies).node = node' := by
      unfold fetch
      rw [hnil]
    rw [MixedPending, hnode]
    exact (pass_visited hnil hstate).of_mixed (hmixed.stays (hanswers state hstate))
  | done pc => exact h

/-- **A mixed task stays for good.** Along a run it is left behind by every pass, as long as its
chains keep their answers and it is not created again. -/
theorem mixed_always {taskID : B256} (actions : List (Action cfg)) {s : State}
    (h : MixedPending taskID s) (hsteps : (step cfg).Steps (StaysExpired taskID) s actions) :
    (step cfg).Always (MixedPending taskID) s actions :=
  Machine.Steps.always (fun _ _ _ hmixed hstays hstep =>
    hmixed.step hstays (step_stepped hstep)) actions h hsteps

/-! ## the loop -/

/-- a pass of the loop that returns nil leaves no settled task behind -/
def SettledLeave (s : State) (a : Action cfg) : Prop :=
  ∀ replies node', a = .fetchResults replies →
    fetchResults cfg replies s.node (replies.taskOrder s.node.tasks.keys).order = (node', none) →
      node'.NoneSettled

/-- no pending task of a pass that returns nil is mixed -/
def NoneMixed (s : State) (a : Action cfg) : Prop :=
  ∀ replies node', a = .fetchResults replies →
    fetchResults cfg replies s.node (replies.taskOrder s.node.tasks.keys).order = (node', none) →
      ∀ taskID state, s.node.tasks.lookup taskID = some state → ¬ replies.Mixed taskID state

/-- **Settled tasks leave the node unless their chains disagree.** From any state, along any run,
every pass that returns nil leaves no task behind whose chains have all responded or see it expired,
exactly if no such pass has a pending task that ends up responded on one chain, expired on another,
and one of the two on every chain. -/
theorem settled_leave_iff (cfg : Config) (actions : List (Action cfg)) (s : State) :
    (step cfg).Steps SettledLeave s actions ↔ (step cfg).Steps NoneMixed s actions := by
  refine Machine.steps_congr (fun s a => ?_) actions
  unfold SettledLeave NoneMixed
  refine forall_congr' fun replies => forall_congr' fun node' => ?_
  exact imp_congr_right fun _ => forall_congr' fun hnil => noneSettled_iff hnil

end

/-! ## a task with an answer on one chain only -/

namespace Devnet

def twoChains : Config := { cfg with chains := [1, 2], nodup := by decide }

/-- the first chain has responded, on the second one the task is expired -/
def disagree : FetchReplies twoChains where
  taskOrder := Shuffle.id
  chainOrder := fun _ => Shuffle.id _
  getTaskStatus := fun _ chainID => .ok (if chainID = 1 then taskResponded else taskExpired)
  getAggregationProof := fun _ _ => .ok (some { proof := some [7] })
  statusOrder := fun _ => Shuffle.id
  respondTask := fun _ _ => .ok ()

/-- a tick at the finalized head 3, with one task on the first chain -/
def disagreeTick : List (Action twoChains) :=
  [.tick (Shuffle.id _), .visit (truthful [task 1] 3 signed), .visit (truthful [] 3 signed),
    .fetchResults disagree]

end Devnet

/-- after two ticks the task is still there, and its response was submitted to the second chain in
each of them -/
theorem mixed_task_stays :
    ∃ s state, (step Devnet.twoChains).run State.init
        (Devnet.disagreeTick ++ Devnet.disagreeTick) = some s ∧
      s.node.tasks.lookup (Devnet.task 1).taskId = some state ∧ state.Settled ∧
      s.node.history.filter (fun e => e matches .responded _ _)
        = [.responded 2 (Devnet.task 1).taskId, .responded 2 (Devnet.task 1).taskId] ∧
      ¬ (step Devnet.twoChains).Steps SettledLeave State.init Devnet.disagreeTick := by
  have hrun : ∃ s state, (step Devnet.twoChains).run State.init
        (Devnet.disagreeTick ++ Devnet.disagreeTick) = some s ∧
      s.node.tasks.lookup (Devnet.task 1).taskId = some state ∧
      state.statuses.entries = [⟨2, taskExpired⟩, ⟨1, taskResponded⟩] ∧
      s.node.history.filter (fun e => e matches .responded _ _)
        = [.responded 2 (Devnet.task 1).taskId, .responded 2 (Devnet.task 1).taskId] :=
    ⟨_, _, rfl, rfl, rfl, rfl⟩
  obtain ⟨s, state, hrun, hstate, hstatuses, hhistory⟩ := hrun
  have hsettled : ∀ state : TaskState,
      state.statuses.entries = [⟨2, taskExpired⟩, ⟨1, taskResponded⟩] → state.Settled := by
    intro state hstatuses chainID status hlookup
    have hentry := AList.mem_lookup_iff.mp hlookup
    rw [hstatuses] at hentry
    rcases List.mem_cons.mp hentry with hentry | hentry
    · cases hentry
      exact Or.inr rfl
    · cases List.mem_singleton.mp hentry
      exact Or.inl rfl
  refine ⟨s, state, hrun, hstate, hsettled state hstatuses, hhistory, ?_⟩
  rintro ⟨_, hsteps⟩
  obtain ⟨_, hsteps⟩ := hsteps _ rfl
  obtain ⟨_, hsteps⟩ := hsteps _ rfl
  obtain ⟨hpass, _⟩ := hsteps _ rfl
  exact hpass _ _ rfl rfl (Devnet.task 1).taskId _ rfl (hsettled _ rfl)

end ZkSymbiotic.SumNode
