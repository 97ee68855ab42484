import ZkSymbiotic.Node.Settled

/-!
# The responses of the sum node

A response goes from a `CreateTask` event over a signature and an aggregated proof to the chains, in
several ticks and through two maps.

* `Reads`, `Polls`           the batches and the passes of a run, and how far they get;
* `Signed`, `Aggregated`, `Accepted`   where the parts of a response come from;
* `Traced`, `Traced.step`    the invariant: tasks and responses are traced to the answers to the calls
                             of a run;
* `responses_traced`         every accepted response of every run;
* `pass_responds`            which responses a pass submits, each once.
-/

namespace ZkSymbiotic.SumNode

section
variable {cfg : Config}

/-! ## where a response comes from -/

/-- the log is of a batch that the run reads, and the calls for the logs before it do not fail, so its
own are made -/
def Reads (as : List (Action cfg)) (log : CreateTaskLog) : Prop :=
  ∃ s a b done later, (step cfg).Takes State.init as s a ∧ b ∈ s.batch a ∧
    b.events = done ++ log :: later ∧ ∀ earlier ∈ done, earlier.Succeeds cfg b.chainID

/-- the task is what became of an event: the relay signed its id with the sum of its numbers, under
the suggested epoch, while the contract had the task in created state -/
structure Signed (as : List (Action cfg)) (taskID : B256) (task : TaskState)
    (log : CreateTaskLog) (evt : SumTaskCreateTask) (suggestedEpoch : UInt64) (msg : Bytes)
    (resp : SignMessageResponse) : Prop where
  reads : Reads as log
  event : log.event = some evt
  id : evt.taskId = taskID
  created : log.replies.getTaskStatus = .ok taskCreated
  message : cfg.pack taskID (evt.task.numberA + evt.task.numberB) = .ok msg
  epoch : log.replies.getSuggestedEpoch = .ok suggestedEpoch
  signature : log.replies.signMessage
    { keyTag := 15, message := msg, requiredEpoch := suggestedEpoch } = .ok resp
  result : task.result = evt.task.numberA + evt.task.numberB
  sigEpoch : task.sigEpoch = resp.epoch.toInt64
  sigRequestHash : task.sigRequestHash = resp.requestHash

def IsSigned (as : List (Action cfg)) (taskID : B256) (task : TaskState) : Prop :=
  ∃ log evt suggestedEpoch msg resp, Signed as taskID task log evt suggestedEpoch msg resp

/-- a pass of the run gets to the task: the tasks before it do not end the pass -/
def Reaches (as : List (Action cfg)) (replies : FetchReplies cfg) (taskID : B256)
    (task : TaskState) : Prop :=
  ∃ s before after node, (step cfg).Takes State.init as s (.fetchResults replies) ∧
    (replies.taskOrder s.node.tasks.keys).order = before ++ taskID :: after ∧
    fetchResults cfg replies s.node before = (node, none) ∧ node.tasks.lookup taskID = some task

/-- a pass of the run gets to the task, polls these statuses for it without a failure, and goes on
with it -/
structure Polls (as : List (Action cfg)) (replies : FetchReplies cfg) (taskID : B256)
    (task : TaskState) (statuses : AList fun _ : Int64 => UInt8) : Prop where
  reaches : Reaches as replies taskID task
  polled : updateStatuses (replies.getTaskStatus taskID) task.statuses
    (replies.chainOrder taskID).order = (statuses, none)
  kept : ¬ (allNotFoundOrExpired statuses || allResponded statuses) = true

/-- a pass asked the relay for the proof for the request of a task without one, and got this one -/
def Aggregated (as : List (Action cfg)) (taskID : B256) (requestHash : String)
    (proof : Option Bytes) : Prop :=
  ∃ replies task statuses resp, Polls as replies taskID task statuses ∧ task.aggProof = none ∧
    task.sigRequestHash = requestHash ∧
    replies.getAggregationProof taskID requestHash = .ok (some resp) ∧ resp.proof = proof

/-- the proof that the pass submits for the task: the one that was kept, or else the answer of the
relay -/
def FetchReplies.Submits (replies : FetchReplies cfg) (taskID : B256) (task : TaskState)
    (proof : Option Bytes) : Prop :=
  task.aggProof.isSome = true ∧ proof = task.aggProof ∨
    ∃ resp, task.aggProof = none ∧
      replies.getAggregationProof taskID task.sigRequestHash = .ok (some resp) ∧ proof = resp.proof

variable (cfg) in
/-- in the loop over the statuses the chain gets its turn, the submissions before it being taken, and
takes the response -/
structure TakenInTurn (respondTask : Int64 → RespondTaskArgs → Except GoError Unit) (taskID : B256)
    (task : TaskState) (order : List Int64) (chainID : Int64) : Prop where
  turn : ∃ done later, order = done ++ chainID :: later ∧
    (respondAll cfg respondTask taskID task done).2 = none
  pending : task.statuses.lookup chainID ≠ some taskResponded
  transactor : cfg.newKeyedTransactorWithChainID chainID = .ok ()
  taken : respondTask chainID
    { taskID, result := task.result, epoch := task.sigEpoch, proof := task.aggProof } = .ok ()

/-- a pass asked the chain for the status of the task, which was not responded, and submitted this
response to it, which the chain took -/
def Accepted (as : List (Action cfg)) (chainID : Int64) (args : RespondTaskArgs) : Prop :=
  ∃ replies task statuses status, Polls as replies args.taskID task statuses ∧
    task.statuses.lookup chainID ≠ some taskResponded ∧
    replies.getTaskStatus args.taskID chainID = .ok status ∧ status ≠ taskResponded ∧
    replies.Submits args.taskID task args.proof ∧ cfg.privateKey = .ok () ∧
    args.result = task.result ∧ args.epoch = task.sigEpoch ∧
    TakenInTurn cfg replies.respondTask args.taskID { task with statuses, aggProof := args.proof }
      (replies.statusOrder args.taskID statuses.keys).order chainID

theorem IsSigned.of_eq {as : List (Action cfg)} {taskID : B256} {task task' : TaskState}
    (h : IsSigned as taskID task) (hresult : task'.result = task.result)
    (hepoch : task'.sigEpoch = task.sigEpoch)
    (hrequest : task'.sigRequestHash = task.sigRequestHash) : IsSigned as taskID task' := by
  obtain ⟨log, evt, suggestedEpoch, msg, resp, h⟩ := h
  exact ⟨log, evt, suggestedEpoch, msg, resp,
    { h with
      result := hresult.trans h.result
      sigEpoch := hepoch.trans h.sigEpoch
      sigRequestHash := hrequest.trans h.sigRequestHash }⟩

/-! ## the invariant -/

/-- a pending task: signed, with statuses of configured chains, and a proof of the relay if any -/
structure TaskTraced (as : List (Action cfg)) (taskID : B256) (task : TaskState) : Prop where
  signed : IsSigned as taskID task
  chains : ∀ chainID ∈ task.statuses.keys, chainID ∈ cfg.chains
  proof : ∀ bytes, task.aggProof = some bytes →
    Aggregated as taskID task.sigRequestHash (some bytes)

/-- a response of the sum of a signed task, with its epoch and the proof for its request -/
structure ResponseTraced (as : List (Action cfg)) (chainID : Int64) (taskID : B256) : Prop where
  chain : chainID ∈ cfg.chains
  traced : ∃ task proof, IsSigned as taskID task ∧
    Aggregated as taskID task.sigRequestHash proof ∧
    Accepted as chainID { taskID, result := task.result, epoch := task.sigEpoch, proof }

structure Traced (as : List (Action cfg)) (node : Node) : Prop where
  tasks : ∀ taskID task, node.tasks.lookup taskID = some task → TaskTraced as taskID task
  responses : ∀ chainID taskID, .responded chainID taskID ∈ node.history →
    ResponseTraced as chainID taskID

theorem traced_init : Traced ([] : List (Action cfg)) Node.init where
  tasks := by
    intro taskID task htask
    rw [Node.init, AList.lookup_empty] at htask
    cases htask
  responses := fun _ _ h => absurd h List.not_mem_nil

/-! ### more actions -/

theorem IsSigned.append {as : List (Action cfg)} {taskID : B256} {task : TaskState}
    (h : IsSigned as taskID task) (bs : List (Action cfg)) : IsSigned (as ++ bs) taskID task := by
  obtain ⟨log, evt, suggestedEpoch, msg, resp, h⟩ := h
  obtain ⟨s, a, b, done, later, htakes, hbatch⟩ := h.reads
  exact ⟨log, evt, suggestedEpoch, msg, resp,
    { h with reads := ⟨s, a, b, done, later, htakes.append bs, hbatch⟩ }⟩

theorem Polls.append {as : List (Action cfg)} {replies : FetchReplies cfg} {taskID : B256}
    {task : TaskState} {statuses : AList fun _ : Int64 => UInt8}
    (h : Polls as replies taskID task statuses) (bs : List (Action cfg)) :
    Polls (as ++ bs) replies taskID task statuses := by
  obtain ⟨s, before, after, node, htakes, hreached⟩ := h.reaches
  exact ⟨⟨s, before, after, node, htakes.append bs, hreached⟩, h.polled, h.kept⟩

theorem Aggregated.append {as : List (Action cfg)} {taskID : B256} {requestHash : String}
    {proof : Option Bytes} (h : Aggregated as taskID requestHash proof) (bs : List (Action cfg)) :
    Aggregated (as ++ bs) taskID requestHash proof := by
  obtain ⟨replies, task, statuses, resp, hpolls, hanswer⟩ := h
  exact ⟨replies, task, statuses, resp, hpolls.append bs, hanswer⟩

theorem TaskTraced.append {as : List (Action cfg)} {taskID : B256} {task : TaskState}
    (h : TaskTraced as taskID task) (bs : List (Action cfg)) : TaskTraced (as ++ bs) taskID task :=
  ⟨h.signed.append bs, h.chains, fun bytes hbytes => (h.proof bytes hbytes).append bs⟩

theorem ResponseTraced.append {as : List (Action cfg)} {chainID : Int64} {taskID : B256}
    (h : ResponseTraced as chainID taskID) (bs : List (Action cfg)) :
    ResponseTraced (as ++ bs) chainID taskID := by
  obtain ⟨hchain, task, proof, hsigned, hproof, replies, polled, statuses, status, hpolls,
    haccepted⟩ := h
  exact ⟨hchain, task, proof, hsigned.append bs, hproof.append bs, replies, polled, statuses,
    status, hpolls.append bs, haccepted⟩

theorem Traced.append {as : List (Action cfg)} {node : Node} (h : Traced as node)
    (bs : List (Action cfg)) : Traced (as ++ bs) node :=
  ⟨fun taskID task htask => (h.tasks taskID task htask).append bs,
    fun chainID taskID hmem => (h.responses chainID taskID hmem).append bs⟩

/-! ### the parts of a step -/

section
variable {as : List (Action cfg)} {node : Node} {taskID : B256} {task : TaskState}

theorem Traced.setTask (h : Traced as node) (htask : TaskTraced as taskID task) :
    Traced as (node.setTask taskID task) where
  tasks := by
    intro taskID' task' hlookup
    by_cases heq : taskID' = taskID
    · subst heq
      rw [Node.setTask, AList.lookup_insert] at hlookup
      exact Option.some.inj hlookup ▸ htask
    · rw [Node.setTask, AList.lookup_insert_ne heq] at hlookup
      exact h.tasks taskID' task' hlookup
  responses := h.responses

theorem Traced.deleteTask (h : Traced as node) (taskID : B256) :
    Traced as (node.deleteTask taskID) where
  tasks := by
    intro taskID' task' hlookup
    by_cases heq : taskID' = taskID
    · subst heq
      rw [Node.deleteTask, AList.lookup_erase] at hlookup
      cases hlookup
    · rw [Node.deleteTask, AList.lookup_erase_ne heq] at hlookup
      exact h.tasks taskID' task' hlookup
  responses := h.responses

/-- events that are no responses -/
theorem Traced.record (h : Traced as node) {e : Event} (he : ∀ chainID taskID,
    e ≠ .responded chainID taskID) : Traced as { node with history := e :: node.history } where
  tasks := h.tasks
  responses := by
    intro chainID taskID hmem
    rcases List.mem_cons.mp hmem with heq | hmem
    · exact absurd heq.symm (he chainID taskID)
    · exact h.responses chainID taskID hmem

theorem Traced.settle (h : Traced as node) {chainID : Int64} {evt : SumTaskCreateTask}
    {log : CreateTaskLog} {verdict : Verdict} (hreads : Reads as log) (hevt : log.event = some evt)
    (hnew : newTask cfg chainID evt log.replies = .ok verdict) :
    Traced as (node.settle chainID evt verdict) := by
  obtain ⟨status, hstatus, ⟨_, rfl⟩ | ⟨rfl, msg, suggestedEpoch, resp, hmsg, hepoch, hresp, rfl⟩⟩ :=
    (newTask_eq_ok cfg).mp hnew
  · exact h.record (by simp)
  · refine (h.setTask ⟨⟨log, evt, suggestedEpoch, msg, resp, ?_⟩, ?_, ?_⟩).record (by simp)
    · exact ⟨hreads, hevt, rfl, hstatus, hmsg, hepoch, hresp, rfl, rfl, rfl⟩
    · exact fun chainID hmem => absurd hmem List.not_mem_nil
    · exact fun _ heq => absurd heq.symm (Option.some_ne_none _)

/-- the events of a batch are read one after the other -/
theorem Traced.processNewTasks {chainID : Int64} {events : List CreateTaskLog} :
    ∀ {node : Node}, Traced as node →
      (∀ done log later, events = done ++ log :: later →
        (∀ earlier ∈ done, earlier.Succeeds cfg chainID) → Reads as log) →
      Traced as (SumNode.processNewTasks cfg chainID node events).1 := by
  induction events with
  | nil => intro node h _; exact h
  | cons log events ih =>
    intro node h hreads
    have hlog : Reads as log :=
      hreads [] log events rfl fun _ hmem => absurd hmem List.not_mem_nil
    unfold SumNode.processNewTasks
    split
    · exact h
    rename_i evt hevt
    split
    · exact h
    · rename_i verdict hnew
      refine ih (h.settle hlog hevt hnew) fun done log' later heq hdone => ?_
      refine hreads (log :: done) log' later (by rw [heq, List.cons_append]) ?_
      exact List.forall_mem_cons.mpr ⟨⟨evt, verdict, hevt, hnew⟩, hdone⟩

/-! ### the parts of a pass -/

/-- polling asks configured chains only -/
theorem updateStatuses_keys {getTaskStatus : Int64 → Except GoError UInt8}
    {chains chainIDs : List Int64} (hchainIDs : ∀ chainID ∈ chainIDs, chainID ∈ chains) :
    ∀ {statuses : AList fun _ : Int64 => UInt8}, (∀ chainID ∈ statuses.keys, chainID ∈ chains) →
      ∀ chainID ∈ (updateStatuses getTaskStatus statuses chainIDs).1.keys, chainID ∈ chains := by
  induction chainIDs with
  | nil => intro statuses h; exact h
  | cons asked chainIDs ih =>
    intro statuses h
    obtain ⟨hasked, hrest⟩ := List.forall_mem_cons.mp hchainIDs
    unfold updateStatuses
    split
    · exact ih hrest h
    split
    · exact h
    · refine ih hrest fun chainID hmem => ?_
      rw [AList.keys_insert] at hmem
      rcases List.mem_cons.mp hmem with rfl | hmem
      · exact hasked
      · exact h chainID (List.mem_of_mem_erase hmem)

theorem TakenInTurn.mem {respondTask : Int64 → RespondTaskArgs → Except GoError Unit}
    {order : List Int64} {chainID : Int64}
    (h : TakenInTurn cfg respondTask taskID task order chainID) : chainID ∈ order := by
  obtain ⟨done, later, rfl, _⟩ := h.turn
  exact List.mem_append_right done List.mem_cons_self

/-- one more chain that does not end the loop comes first -/
theorem TakenInTurn.cons {respondTask : Int64 → RespondTaskArgs → Except GoError Unit}
    {order : List Int64} {first chainID : Int64}
    (h : TakenInTurn cfg respondTask taskID task order chainID)
    (hfirst : ∀ done, (respondAll cfg respondTask taskID task (first :: done)).2
      = (respondAll cfg respondTask taskID task done).2) :
    TakenInTurn cfg respondTask taskID task (first :: order) chainID := by
  obtain ⟨⟨done, later, rfl, hdone⟩, hpending, htransactor, htaken⟩ := h
  exact ⟨⟨first :: done, later, rfl, (hfirst done).trans hdone⟩, hpending, htransactor, htaken⟩

/-- a recorded response was taken by its chain in turn -/
theorem mem_respondAll {respondTask : Int64 → RespondTaskArgs → Except GoError Unit}
    {order : List Int64} {e : Event} (h : e ∈ (respondAll cfg respondTask taskID task order).1) :
    ∃ chainID, e = .responded chainID taskID ∧
      TakenInTurn cfg respondTask taskID task order chainID := by
  induction order with
  | nil => cases h
  | cons first order ih =>
    simp only [respondAll, getD_eq_taskResponded] at h
    split at h
    · rename_i hresponded
      obtain ⟨chainID, heq, hturn⟩ := ih h
      refine ⟨chainID, heq, hturn.cons fun done => ?_⟩
      simp only [respondAll, getD_eq_taskResponded, if_pos hresponded]
    rename_i hpending
    split at h
    · cases h
    rename_i htransactor
    split at h
    · cases h
    rename_i htaken
    rcases List.mem_append.mp h with h | h
    · obtain ⟨chainID, heq, hturn⟩ := ih h
      refine ⟨chainID, heq, hturn.cons fun done => ?_⟩
      simp only [respondAll, getD_eq_taskResponded, if_neg hpending, htransactor, htaken]
    · exact ⟨first, List.mem_singleton.mp h, ⟨[], order, rfl, rfl⟩, hpending, htransactor, htaken⟩

section
variable {replies : FetchReplies cfg}

/-- the polled task has statuses of configured chains -/
theorem polled_chains (htask : TaskTraced as taskID task)
    {statuses : AList fun _ : Int64 => UInt8} {failed : Option GoError}
    (hpolled : updateStatuses (replies.getTaskStatus taskID) task.statuses
      (replies.chainOrder taskID).order = (statuses, failed)) :
    ∀ chainID ∈ statuses.keys, chainID ∈ cfg.chains := by
  have hkeys : ∀ chainID ∈ (updateStatuses (replies.getTaskStatus taskID) task.statuses
      (replies.chainOrder taskID).order).1.keys, chainID ∈ cfg.chains :=
    updateStatuses_keys (fun _ hmem => (replies.chainOrder taskID).mem_order.mp hmem) htask.chains
  rw [hpolled] at hkeys
  exact hkeys

/-- the chains that have not responded after the poll were asked in it -/
theorem polled_open (htask : TaskTraced as taskID task) {statuses : AList fun _ : Int64 => UInt8}
    (hpolled : updateStatuses (replies.getTaskStatus taskID) task.statuses
      (replies.chainOrder taskID).order = (statuses, none)) {chainID : Int64}
    (hkey : chainID ∈ statuses.keys) (hopen : statuses.lookup chainID ≠ some taskResponded) :
    chainID ∈ cfg.chains ∧ task.statuses.lookup chainID ≠ some taskResponded ∧
      ∃ status, replies.getTaskStatus taskID chainID = .ok status ∧ status ≠ taskResponded := by
  have hchain : chainID ∈ cfg.chains := polled_chains htask hpolled chainID hkey
  refine ⟨hchain, ?_⟩
  obtain ⟨status, hstatus⟩ := Option.isSome_iff_exists.mp
    (AList.lookup_isSome.mpr (AList.mem_keys.mpr hkey))
  have hne : status ≠ taskResponded := by
    rintro rfl
    exact hopen hstatus
  have hfinal := updateStatuses_finalStatus hpolled chainID
  rw [hstatus, FetchReplies.finalStatus, polledStatus] at hfinal
  split at hfinal
  · rename_i hasked
    refine ⟨hasked.2, status, ?_, hne⟩
    cases hanswer : replies.getTaskStatus taskID chainID with
    | error err =>
      rw [hanswer] at hfinal
      cases hfinal
    | ok status' =>
      rw [hanswer] at hfinal
      rw [Option.some.inj hfinal]
  · -- a chain that is not asked has responded before
    rename_i hnot
    refine absurd ⟨hchain, fun hresponded => ?_⟩ hnot
    rw [hresponded] at hfinal
    exact hne (Option.some.inj hfinal)

theorem Traced.processProof (h : Traced as node) {statuses : AList fun _ : Int64 => UInt8}
    {aggProof : Option Bytes} (hpolls : Polls as replies taskID task statuses)
    (htask : TaskTraced as taskID task)
    (hlookup : node.tasks.lookup taskID = some { task with statuses, aggProof })
    (hsubmits : replies.Submits taskID task aggProof)
    (hproof : Aggregated as taskID task.sigRequestHash aggProof) :
    Traced as (SumNode.processProof cfg replies taskID node).1 := by
  unfold SumNode.processProof
  split
  · exact h
  rename_i hkey
  rw [hlookup]
  refine ⟨h.tasks, fun chainID taskID' hmem => ?_⟩
  rcases List.mem_append.mp hmem with hmem | hmem
  · obtain ⟨chainID', heq, hturn⟩ := mem_respondAll hmem
    obtain ⟨rfl, rfl⟩ := Event.responded.inj heq
    obtain ⟨hchain, hasked, status, hstatus, hne⟩ := polled_open htask hpolls.polled
      ((replies.statusOrder _ _).mem_order.mp hturn.mem) hturn.pending
    exact ⟨hchain, task, aggProof, htask.signed, hproof, replies, task, statuses, status, hpolls,
      hasked, hstatus, hne, hsubmits, hkey, rfl, rfl, hturn⟩
  · exact h.responses chainID taskID' hmem

/-- one task of a pass -/
theorem Traced.fetchResult (h : Traced as node) (htask : TaskTraced as taskID task)
    (hreaches : Reaches as replies taskID task) :
    Traced as (SumNode.fetchResult cfg replies node taskID task).1 := by
  cases hpolled : updateStatuses (replies.getTaskStatus taskID) task.statuses
      (replies.chainOrder taskID).order with
  | mk statuses failed =>
    have hpolledTask : TaskTraced as taskID { task with statuses } :=
      ⟨htask.signed.of_eq rfl rfl rfl, polled_chains htask hpolled, htask.proof⟩
    have hset := h.setTask hpolledTask
    simp only [SumNode.fetchResult, hpolled]
    split
    · exact hset
    split
    · exact hset.deleteTask taskID
    rename_i hkept
    have hpolls : Polls as replies taskID task statuses := ⟨hreaches, hpolled, hkept⟩
    split
    · rename_i bytes hbytes
      refine hset.processProof hpolls htask (AList.lookup_insert _) (Or.inl ⟨?_, rfl⟩) ?_
      · rw [hbytes]
        rfl
      · rw [hbytes]
        exact htask.proof bytes hbytes
    rename_i hbytes
    split
    · exact hset
    · exact hset
    · rename_i resp hresp
      have hproof : Aggregated as taskID task.sigRequestHash resp.proof :=
        ⟨replies, task, statuses, resp, hpolls, hbytes, rfl, hresp, rfl⟩
      have hproved : TaskTraced as taskID { task with statuses, aggProof := resp.proof } := by
        refine ⟨htask.signed.of_eq rfl rfl rfl, hpolledTask.chains, fun bytes hbytes => ?_⟩
        exact hbytes ▸ hproof
      exact (hset.setTask hproved).processProof hpolls htask (AList.lookup_insert _)
        (Or.inr ⟨resp, hbytes, hresp, rfl⟩) hproof

/-- the tasks of a pass that gets to them in this order -/
theorem Traced.fetchResults {order : List B256} : ∀ {node : Node}, Traced as node →
    (∀ before taskID after node', order = before ++ taskID :: after →
      SumNode.fetchResults cfg replies node before = (node', none) →
      ∀ task, node'.tasks.lookup taskID = some task → Reaches as replies taskID task) →
    Traced as (SumNode.fetchResults cfg replies node order).1 := by
  induction order with
  | nil => intro node h _; exact h
  | cons first order ih =>
    intro node h hreaches
    simp only [SumNode.fetchResults]
    split
    · rename_i hnone
      refine ih h fun before taskID after node' heq hbefore => ?_
      refine hreaches (first :: before) taskID after node' (by rw [heq, List.cons_append]) ?_
      simp only [SumNode.fetchResults, hnone, hbefore]
    · rename_i task htask
      have hone := h.fetchResult (h.tasks first task htask)
        (hreaches [] first order node rfl rfl task htask)
      split
      · rename_i node' stop hres
        rw [hres] at hone
        exact hone
      · rename_i node₁ hres
        rw [hres] at hone
        refine ih hone fun before taskID after node' heq hbefore => ?_
        refine hreaches (first :: before) taskID after node' (by rw [heq, List.cons_append]) ?_
        simp only [SumNode.fetchResults, htask, hres, hbefore]

end

end

/-! ## runs -/

/-- one step, with the actions up to it -/
theorem Traced.step {as : List (Action cfg)} {s s' : State} {a : Action cfg}
    (h : Traced as s.node) (hrun : (SumNode.step cfg).run State.init as = some s)
    (hstep : SumNode.step cfg s a = some s') : Traced (as ++ [a]) s'.node := by
  have happend := h.append [a]
  have htakes := Machine.Takes.last hrun hstep
  cases step_stepped hstep with
  | tick order pc => exact happend
  | noHead replies chainID chainIDs err pc head => exact happend
  | noEvents replies chainID chainIDs endBlockNumber err pc head logs =>
    exact happend.record (by simp)
  | visit replies chainID chainIDs endBlockNumber events pc head logs =>
    have hbatch : s.batch (.visit replies : Action cfg)
        = some { chainID, endBlockNumber, events } := by
      simp only [State.batch, pc, head, logs]
    have hmoved : Traced _ ((s.node.asks chainID endBlockNumber).moveCursor chainID
        endBlockNumber) :=
      ⟨happend.tasks, (happend.record (e := .filtered chainID _ endBlockNumber) (by simp)).responses⟩
    refine hmoved.processNewTasks fun done log later heq hdone => ?_
    exact ⟨s, _, _, done, later, htakes, hbatch, heq, hdone⟩
  | fetchResults replies pc =>
    refine happend.fetchResults fun before taskID after node heq hbefore task htask => ?_
    exact ⟨s, before, after, node, htakes, heq, hbefore, htask⟩
  | done pc => exact happend

/-- **Responses are traced to signed sums.**  In every run, whatever the chains and the relay answer,
a response that a configured chain has taken carries the sum of the numbers of a `CreateTask` event
of that id that some chain answered with, the epoch of the relay's signature of this id and sum, and
a proof that the relay returned for the request of this signature; and in the pass that submitted it
the chain had not responded.  The answers are those of the calls that the run makes. -/
theorem responses_traced {as : List (Action cfg)} {s : State}
    (h : (step cfg).run State.init as = some s) {chainID : Int64} {taskID : B256}
    (hresponded : .responded chainID taskID ∈ s.node.history) :
    chainID ∈ cfg.chains ∧ ∃ log evt suggestedEpoch msg resp proof, Reads as log ∧
      log.event = some evt ∧ evt.taskId = taskID ∧
      log.replies.getTaskStatus = .ok taskCreated ∧
      cfg.pack taskID (evt.task.numberA + evt.task.numberB) = .ok msg ∧
      log.replies.getSuggestedEpoch = .ok suggestedEpoch ∧
      log.replies.signMessage { keyTag := 15, message := msg, requiredEpoch := suggestedEpoch }
        = .ok resp ∧
      Aggregated as taskID resp.requestHash proof ∧
      Accepted as chainID
        { taskID
          result := evt.task.numberA + evt.task.numberB
          epoch := resp.epoch.toInt64
          proof } := by
  obtain ⟨_, htraced⟩ : (step cfg).run State.init as = some s ∧ Traced as s.node :=
    Machine.run_inv_history
      (J := fun as (s : State) => (step cfg).run State.init as = some s ∧ Traced as s.node)
      (fun as s a s' ⟨hrun, htraced⟩ hs =>
        ⟨Machine.run_concat _ hrun hs, htraced.step hrun hs⟩)
      ⟨rfl, traced_init⟩ h
  obtain ⟨hchain, task, proof, ⟨log, evt, suggestedEpoch, msg, resp, hsigned⟩, hproof, haccepted⟩ :=
    htraced.responses chainID taskID hresponded
  rw [hsigned.sigRequestHash] at hproof
  rw [hsigned.result, hsigned.sigEpoch] at haccepted
  exact ⟨hchain, log, evt, suggestedEpoch, msg, resp, proof, hsigned.reads, hsigned.event,
    hsigned.id, hsigned.created, hsigned.message, hsigned.epoch, hsigned.signature, hproof,
    haccepted⟩

/-! ## what a pass submits -/

/-- a chain is due a response in a pass: it has answered something else than responded, some chain
has neither lost the task nor seen it expire, and there is a proof -/
structure FetchReplies.Due (replies : FetchReplies cfg) (taskID : B256) (task : TaskState)
    (chainID : Int64) : Prop where
  status : ∃ status, replies.finalStatus taskID task chainID = some status ∧
    status ≠ taskResponded
  live : ∃ chainID' status, replies.finalStatus taskID task chainID' = some status ∧
    status ≠ taskNotFound ∧ status ≠ taskExpired
  proof : task.aggProof.isSome ∨
    ∃ resp, replies.getAggregationProof taskID task.sigRequestHash = .ok (some resp)

/-- the call of the pass for a due response of the task fails -/
def FetchReplies.Fails (replies : FetchReplies cfg) (taskID : B256) (task : TaskState) : Prop :=
  cfg.privateKey ≠ .ok () ∨ ∃ chainID proof, replies.Due taskID task chainID ∧
    replies.Submits taskID task proof ∧
    (cfg.newKeyedTransactorWithChainID chainID ≠ .ok () ∨
      replies.respondTask chainID
        { taskID, result := task.result, epoch := task.sigEpoch, proof } ≠ .ok ())

/-- these responses of one task are due, each is there once, and none is missing but for a failure -/
structure FetchReplies.Responds (replies : FetchReplies cfg) (taskID : B256) (task : TaskState)
    (submitted : List Event) : Prop where
  once : submitted.Nodup
  due : ∀ e ∈ submitted, ∃ chainID, e = .responded chainID taskID ∧
    replies.Due taskID task chainID
  complete : ∀ chainID, replies.Due taskID task chainID →
    .responded chainID taskID ∈ submitted ∨ replies.Fails taskID task

section
variable {respondTask : Int64 → RespondTaskArgs → Except GoError Unit} {taskID : B256}
  {task : TaskState} {order : List Int64}

theorem nodup_respondAll (h : order.Nodup) :
    (respondAll cfg respondTask taskID task order).1.Nodup := by
  induction order with
  | nil => exact List.nodup_nil
  | cons chainID order ih =>
    obtain ⟨hchain, hnodup⟩ := List.nodup_cons.mp h
    unfold respondAll
    split
    · exact ih hnodup
    split
    · exact List.nodup_nil
    split
    · exact List.nodup_nil
    · refine List.nodup_append.mpr ⟨ih hnodup, List.nodup_singleton _, ?_⟩
      intro e he e' he' heq
      obtain rfl := List.mem_singleton.mp he'
      obtain ⟨chainID', heq', hturn⟩ := mem_respondAll he
      obtain ⟨rfl, _⟩ := Event.responded.inj (heq.symm.trans heq')
      exact hchain hturn.mem

/-- a chain is left out for having responded, or for the first failure -/
theorem respondAll_complete {chainID : Int64} (hmem : chainID ∈ order)
    (hopen : task.statuses.lookup chainID ≠ some taskResponded) :
    .responded chainID taskID ∈ (respondAll cfg respondTask taskID task order).1 ∨
      ∃ chainID' ∈ order, task.statuses.lookup chainID' ≠ some taskResponded ∧
        (cfg.newKeyedTransactorWithChainID chainID' ≠ .ok () ∨
          respondTask chainID'
            { taskID, result := task.result, epoch := task.sigEpoch, proof := task.aggProof }
            ≠ .ok ()) := by
  induction order with
  | nil => cases hmem
  | cons first order ih =>
    simp only [respondAll, getD_eq_taskResponded]
    split
    · rename_i hresponded
      have hne : chainID ≠ first := by
        rintro rfl
        exact hopen hresponded
      refine (ih ((List.mem_cons.mp hmem).resolve_left hne)).imp_right ?_
      rintro ⟨chainID', hmem', hfail⟩
      exact ⟨chainID', List.mem_cons_of_mem first hmem', hfail⟩
    rename_i hfirst
    split
    · rename_i err herr
      exact Or.inr ⟨first, List.mem_cons_self, hfirst, Or.inl (by simp [herr])⟩
    split
    · rename_i err herr
      exact Or.inr ⟨first, List.mem_cons_self, hfirst, Or.inr (by simp [herr])⟩
    · rcases List.mem_cons.mp hmem with rfl | hmem
      · exact Or.inl (List.mem_append_right _ List.mem_cons_self)
      · refine (ih hmem).imp (fun h => List.mem_append_left _ h) ?_
        rintro ⟨chainID', hmem', hfail⟩
        exact ⟨chainID', List.mem_cons_of_mem first hmem', hfail⟩

end

section
variable {replies : FetchReplies cfg} {node : Node} {taskID : B256} {task : TaskState}
  {statuses : AList fun _ : Int64 => UInt8}

/-- a task that is not due to any chain has no responses -/
theorem FetchReplies.Responds.nil (h : ∀ chainID, ¬ replies.Due taskID task chainID) :
    replies.Responds taskID task [] where
  once := List.nodup_nil
  due := fun _ he => absurd he List.not_mem_nil
  complete := fun chainID hdue => absurd hdue (h chainID)

/-- a task that is dropped is due to no chain -/
theorem not_due_of_dropped
    (hstatus : ∀ chainID, statuses.lookup chainID = replies.finalStatus taskID task chainID)
    (hdropped : (allNotFoundOrExpired statuses || allResponded statuses) = true) (chainID : Int64) :
    ¬ replies.Due taskID task chainID := by
  rintro ⟨⟨status, hfinal, hopen⟩, ⟨chainID', status', hfinal', hfound, hlive⟩, _⟩
  rw [← hstatus] at hfinal hfinal'
  rw [Bool.or_eq_true, allNotFoundOrExpired_iff, allResponded_iff] at hdropped
  rcases hdropped with hdead | hall
  · exact (hdead chainID' status' hfinal').elim hfound hlive
  · exact hopen (hall chainID status hfinal)

/-- a task that stays has a live chain -/
theorem live_of_kept
    (hstatus : ∀ chainID, statuses.lookup chainID = replies.finalStatus taskID task chainID)
    (hkept : ¬ (allNotFoundOrExpired statuses || allResponded statuses) = true) :
    ∃ chainID' status, replies.finalStatus taskID task chainID' = some status ∧
      status ≠ taskNotFound ∧ status ≠ taskExpired := by
  by_contra hnone
  push Not at hnone
  apply hkept
  rw [Bool.or_eq_true, allNotFoundOrExpired_iff]
  refine Or.inl fun chainID status hlookup => ?_
  rw [hstatus] at hlookup
  exact or_iff_not_imp_left.mpr (hnone chainID status hlookup)

/-- the responses of a task with a proof -/
theorem processProof_responds
    (hstatus : ∀ chainID, statuses.lookup chainID = replies.finalStatus taskID task chainID)
    (hlive : ∃ chainID' status, replies.finalStatus taskID task chainID' = some status ∧
      status ≠ taskNotFound ∧ status ≠ taskExpired)
    {aggProof : Option Bytes} (hsubmits : replies.Submits taskID task aggProof)
    (htask : node.tasks.lookup taskID = some { task with statuses, aggProof }) :
    ∃ submitted, (processProof cfg replies taskID node).1.history = submitted ++ node.history ∧
      replies.Responds taskID task submitted := by
  have hproof : task.aggProof.isSome ∨
      ∃ resp, replies.getAggregationProof taskID task.sigRequestHash = .ok (some resp) :=
    hsubmits.imp And.left fun ⟨resp, _, hresp, _⟩ => ⟨resp, hresp⟩
  have hdue : ∀ chainID, replies.Due taskID task chainID ↔
      chainID ∈ statuses.keys ∧ statuses.lookup chainID ≠ some taskResponded := by
    intro chainID
    have hkey : chainID ∈ statuses.keys ↔ (statuses.lookup chainID).isSome :=
      AList.mem_keys.symm.trans AList.lookup_isSome.symm
    rw [hkey, hstatus, Option.isSome_iff_exists]
    constructor
    · rintro ⟨⟨status, hfinal, hne⟩, _⟩
      refine ⟨⟨status, hfinal⟩, fun hresponded => ?_⟩
      exact hne (Option.some.inj (hfinal.symm.trans hresponded))
    · rintro ⟨⟨status, hfinal⟩, hopen⟩
      refine ⟨⟨status, hfinal, ?_⟩, hlive, hproof⟩
      rintro rfl
      exact hopen hfinal
  cases hkey : cfg.privateKey with
  | error err =>
    refine ⟨[], ?_, List.nodup_nil, fun _ he => absurd he List.not_mem_nil, fun _ _ => ?_⟩
    · unfold processProof
      rw [hkey]
      rfl
    · exact Or.inr (Or.inl (by simp [hkey]))
  | ok _ =>
    have horder : ∀ chainID, chainID ∈ (replies.statusOrder taskID statuses.keys).order ↔
        chainID ∈ statuses.keys := fun _ => (replies.statusOrder taskID statuses.keys).mem_order
    refine ⟨(respondAll cfg replies.respondTask taskID { task with statuses, aggProof }
      (replies.statusOrder taskID statuses.keys).order).1, ?_, ?_, ?_, ?_⟩
    · unfold processProof
      rw [hkey, htask]
    · exact nodup_respondAll ((replies.statusOrder taskID statuses.keys).perm.nodup_iff.mpr
        statuses.nodupKeys)
    · intro e he
      obtain ⟨chainID, heq, hturn⟩ := mem_respondAll he
      exact ⟨chainID, heq, (hdue chainID).mpr ⟨(horder chainID).mp hturn.mem, hturn.pending⟩⟩
    · intro chainID h
      obtain ⟨hmem, hopen⟩ := (hdue chainID).mp h
      refine (respondAll_complete ((horder chainID).mpr hmem) hopen).imp_right ?_
      rintro ⟨chainID', hmem', hopen', hfail⟩
      exact Or.inr ⟨chainID', aggProof, (hdue chainID').mpr ⟨(horder chainID').mp hmem', hopen'⟩,
        hsubmits, hfail⟩

/-- a visit that does not end the pass submits the responses of its task -/
theorem fetchResult_responds {node' : Node}
    (h : fetchResult cfg replies node taskID task = (node', none)) :
    ∃ submitted, node'.history = submitted ++ node.history ∧
      replies.Responds taskID task submitted := by
  cases hpolled : updateStatuses (replies.getTaskStatus taskID) task.statuses
      (replies.chainOrder taskID).order with
  | mk statuses failed =>
    have hnone : ∀ node₁ : Node, node₁.history = node.history →
        (∀ chainID, ¬ replies.Due taskID task chainID) → ∃ submitted,
          node₁.history = submitted ++ node.history ∧ replies.Responds taskID task submitted :=
      fun _ heq hdue => ⟨[], heq, .nil hdue⟩
    simp only [fetchResult, hpolled] at h
    split at h
    · cases h
    have hstatus := updateStatuses_finalStatus hpolled
    split at h
    · rename_i hdropped
      obtain ⟨rfl, _⟩ := Prod.mk.inj h
      exact hnone _ rfl (not_due_of_dropped hstatus hdropped)
    rename_i hkept
    have hlive := live_of_kept hstatus hkept
    split at h
    · rename_i bytes hbytes
      obtain ⟨rfl, _⟩ := Prod.mk.inj h
      exact processProof_responds hstatus hlive (Or.inl ⟨by simp [hbytes], rfl⟩)
        (AList.lookup_insert _)
    rename_i hbytes
    split at h
    · rename_i err herr
      obtain ⟨rfl, _⟩ := Prod.mk.inj h
      refine hnone _ rfl ?_
      rintro chainID ⟨_, _, hsome | ⟨resp, hresp⟩⟩
      · rw [hbytes] at hsome
        cases hsome
      · cases herr.symm.trans hresp
    · cases h
    · rename_i resp hresp
      obtain ⟨rfl, _⟩ := Prod.mk.inj h
      exact processProof_responds hstatus hlive (Or.inr ⟨resp, hbytes, hresp, rfl⟩)
        (AList.lookup_insert _)

end

/-- the responses of the tasks of an order -/
theorem fetchResults_responds {replies : FetchReplies cfg} {order : List B256}
    (hnodup : order.Nodup) : ∀ {node node' : Node},
      fetchResults cfg replies node order = (node', none) → ∃ submitted,
        node'.history = submitted ++ node.history ∧ submitted.Nodup ∧
        (∀ e ∈ submitted, ∃ chainID, ∃ taskID ∈ order, e = .responded chainID taskID ∧
          ∃ task, node.tasks.lookup taskID = some task ∧ replies.Due taskID task chainID) ∧
        ∀ taskID ∈ order, ∀ task, node.tasks.lookup taskID = some task → ∀ chainID,
          replies.Due taskID task chainID →
            .responded chainID taskID ∈ submitted ∨ replies.Fails taskID task := by
  induction order with
  | nil =>
    intro node node' h
    obtain ⟨rfl, _⟩ := Prod.mk.inj h
    exact ⟨[], rfl, List.nodup_nil, fun _ he => absurd he List.not_mem_nil,
      fun _ hmem => absurd hmem List.not_mem_nil⟩
  | cons first order ih =>
    intro node node' h
    obtain ⟨hfirst, hnodup⟩ := List.nodup_cons.mp hnodup
    simp only [fetchResults] at h
    split at h
    · rename_i hnone
      obtain ⟨submitted, hhistory, honce, hdue, hcomplete⟩ := ih hnodup h
      refine ⟨submitted, hhistory, honce, fun e he => ?_, fun taskID hmem task htask => ?_⟩
      · obtain ⟨chainID, taskID, hmem, hrest⟩ := hdue e he
        exact ⟨chainID, taskID, List.mem_cons_of_mem first hmem, hrest⟩
      · rcases List.mem_cons.mp hmem with rfl | hmem
        · cases hnone.symm.trans htask
        · exact hcomplete taskID hmem task htask
    rename_i task₁ htask₁
    split at h
    · cases h
    rename_i node₁ hone
    obtain ⟨_, hothers⟩ := fetchResult_visited hone
    obtain ⟨submitted₁, hhistory₁, honce₁, hdue₁, hcomplete₁⟩ := fetchResult_responds hone
    obtain ⟨submitted, hhistory, honce, hdue, hcomplete⟩ := ih hnodup h
    have hne : ∀ taskID ∈ order, taskID ≠ first := by
      rintro taskID hmem rfl
      exact hfirst hmem
    refine ⟨submitted ++ submitted₁, ?_, ?_, fun e he => ?_, fun taskID hmem task htask => ?_⟩
    · rw [hhistory, hhistory₁, List.append_assoc]
    · refine List.nodup_append.mpr ⟨honce, honce₁, ?_⟩
      intro e he e₁ he₁ heq
      obtain ⟨chainID, taskID, hmem, heq', _⟩ := hdue e he
      obtain ⟨chainID₁, heq₁, _⟩ := hdue₁ e₁ he₁
      rw [heq', heq₁] at heq
      exact hne taskID hmem (Event.responded.inj heq).2
    · rcases List.mem_append.mp he with he | he
      · obtain ⟨chainID, taskID, hmem, heq, task, htask, hd⟩ := hdue e he
        rw [hothers taskID (hne taskID hmem)] at htask
        exact ⟨chainID, taskID, List.mem_cons_of_mem first hmem, heq, task, htask, hd⟩
      · obtain ⟨chainID, heq, hd⟩ := hdue₁ e he
        exact ⟨chainID, first, List.mem_cons_self, heq, task₁, htask₁, hd⟩
    · intro chainID hd
      rcases List.mem_cons.mp hmem with rfl | hmem
      · obtain rfl := Option.some.inj (htask₁.symm.trans htask)
        exact (hcomplete₁ chainID hd).imp_left fun he => List.mem_append_right submitted he
      · rw [← hothers taskID (hne taskID hmem)] at htask
        exact (hcomplete taskID hmem task htask chainID hd).imp_left
          fun he => List.mem_append_left submitted₁ he

/-- **A pass submits exactly the responses that are due.**  Whatever the orders of its loops, a pass
that returns nil submits a response for each pending task and each chain that is due one, once, and
no other; if one is missing, the call of the pass for a due response to the same task fails. -/
theorem pass_responds {replies : FetchReplies cfg} {node node' : Node}
    (h : fetchResults cfg replies node (replies.taskOrder node.tasks.keys).order
      = (node', none)) :
    ∃ submitted, node'.history = submitted ++ node.history ∧ submitted.Nodup ∧
      (∀ e ∈ submitted, ∃ chainID taskID task, e = .responded chainID taskID ∧
        node.tasks.lookup taskID = some task ∧ replies.Due taskID task chainID) ∧
      ∀ taskID task chainID, node.tasks.lookup taskID = some task →
        replies.Due taskID task chainID →
          .responded chainID taskID ∈ submitted ∨ replies.Fails taskID task := by
  obtain ⟨submitted, hhistory, honce, hdue, hcomplete⟩ :=
    fetchResults_responds (taskOrder_nodup replies node) h
  refine ⟨submitted, hhistory, honce, fun e he => ?_, fun taskID task chainID htask hd => ?_⟩
  · obtain ⟨chainID, taskID, _, heq, task, htask, hd⟩ := hdue e he
    exact ⟨chainID, taskID, task, heq, htask, hd⟩
  · refine hcomplete taskID ?_ task htask chainID hd
    exact (replies.taskOrder _).mem_order.mpr
      (AList.mem_keys.mp (AList.lookup_isSome.mp (htask ▸ rfl)))

end

namespace Devnet

/-- the task of block 1, signed -/
def signedTask : TaskState where
  chainID := 1
  task := (task 1).task
  result := 5
  sigEpoch := 7
  sigRequestHash := "0x07"
  aggProof := none
  statuses := ∅

theorem due : disagree.Due (task 1).taskId signedTask 2 where
  status := ⟨taskExpired, rfl, by decide⟩
  live := ⟨1, taskResponded, rfl, by decide, by decide⟩
  proof := Or.inr ⟨{ proof := some [7] }, rfl⟩

theorem not_fails : ¬ disagree.Fails (task 1).taskId signedTask := by
  rintro (hkey | ⟨chainID, proof, _, _, htransactor | hrespond⟩)
  · exact hkey rfl
  · exact htransactor rfl
  · exact hrespond rfl

end Devnet

/-- the response to the second chain is traced to the event of the first one -/
theorem responses_traced_devnet :
    ∃ log evt epoch proof, Reads Devnet.disagreeTick log ∧ log.event = some evt ∧
      Accepted Devnet.disagreeTick 2
        { taskID := (Devnet.task 1).taskId
          result := evt.task.numberA + evt.task.numberB
          epoch
          proof } := by
  have hrun : ∃ s older, (step Devnet.twoChains).run State.init Devnet.disagreeTick = some s ∧
      s.node.history = .responded 2 (Devnet.task 1).taskId :: older := ⟨_, _, rfl, rfl⟩
  obtain ⟨s, older, hrun, hhistory⟩ := hrun
  obtain ⟨_, log, evt, _, _, resp, proof, hreads, hevt, _, _, _, _, _, _, haccepted⟩ :=
    responses_traced hrun (hhistory ▸ List.mem_cons_self)
  exact ⟨log, evt, resp.epoch.toInt64, proof, hreads, hevt, haccepted⟩

/-- the chain that sees the task expired is due a response, and gets it -/
theorem pass_responds_devnet :
    ∃ node', fetchResults Devnet.twoChains Devnet.disagree
        (Node.init.setTask (Devnet.task 1).taskId Devnet.signedTask) [(Devnet.task 1).taskId]
        = (node', none) ∧ .responded 2 (Devnet.task 1).taskId ∈ node'.history := by
  have hpass : ∃ node', fetchResults Devnet.twoChains Devnet.disagree
      (Node.init.setTask (Devnet.task 1).taskId Devnet.signedTask) [(Devnet.task 1).taskId]
      = (node', none) := ⟨_, rfl⟩
  obtain ⟨node', hpass⟩ := hpass
  obtain ⟨submitted, hhistory, _, _, hcomplete⟩ := pass_responds hpass
  refine ⟨node', hpass, ?_⟩
  rw [hhistory]
  refine List.mem_append_left _ ?_
  exact (hcomplete _ _ 2 (AList.lookup_insert _) Devnet.due).resolve_right Devnet.not_fails

end ZkSymbiotic.SumNode
