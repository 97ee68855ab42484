import Mathlib.Data.List.AList
import ZkSymbiotic.Lib.Bytes
import ZkSymbiotic.Lib.Result
import ZkSymbiotic.Lib.Shuffle

/-!
# The sum node

What the node makes of a batch of `CreateTask` events and of the tasks it has signed.  The answers of
the contracts, of the relay and of the cryptographic packages are the environment's, and so is the
order in which a Go map is gone through.

* `Node`               the cursors and the signed tasks; `Node.history` is what was done, latest first;
* `newTask`, `processNewTasks`   one event, and a batch of them up to the first error;
* `newTask_eq_ok`      when an event comes to something;
* `updateStatuses`, `processProof`, `fetchResults`   the tasks on their way to their responses;
* `fetchResults_kept`  a pass over the tasks leaves the cursors alone.
-/

namespace ZkSymbiotic.SumNode

/-- a Go error: what a call returned, with the texts that `%w` puts in front of it -/
inductive GoError where
  | call (text : String)
  | wrapped (text : String) (cause : GoError)
deriving DecidableEq

/-! ## the contract and the relay -/

def taskCreated : UInt8 := 0
def taskResponded : UInt8 := 1
def taskExpired : UInt8 := 2
def taskNotFound : UInt8 := 3

/-- the numbers are unsigned words of the contract -/
structure SumTaskTask where
  numberA : Nat
  numberB : Nat
  nonce : Nat
  createdAt : Nat
deriving DecidableEq

/-- where a log stands in the chain -/
structure Log where
  blockNumber : UInt64
  index : Nat
deriving DecidableEq

structure SumTaskCreateTask where
  taskId : B256
  task : SumTaskTask
  raw : Log
deriving DecidableEq

structure SignMessageRequest where
  keyTag : UInt32
  message : Bytes
  requiredEpoch : UInt64

structure SignMessageResponse where
  requestHash : String
  epoch : UInt64

/-- a missing proof is Go's `nil` -/
structure AggregationProof where
  proof : Option Bytes

/-- the answers to the calls made for one event -/
structure TaskReplies where
  getTaskStatus : Except GoError UInt8
  getSuggestedEpoch : Except GoError UInt64
  signMessage : SignMessageRequest → Except GoError SignMessageResponse

/-- a log of the iterator: `none` where `UnpackLog` fails -/
structure CreateTaskLog where
  event : Option SumTaskCreateTask
  replies : TaskReplies

/-- the chains of the clients and contracts, which are the keys of two maps, and the functions of
other packages -/
structure Config where
  chains : List Int64
  nodup : chains.Nodup
  pack : B256 → Nat → Except GoError Bytes
  /-- `HexToECDSA` of the configured key -/
  privateKey : Except GoError Unit
  newKeyedTransactorWithChainID : Int64 → Except GoError Unit

/-! ## the state -/

structure TaskState where
  chainID : Int64
  task : SumTaskTask
  result : Nat
  sigEpoch : Int64
  sigRequestHash : String
  aggProof : Option Bytes
  statuses : AList fun _ : Int64 => UInt8

inductive Event where
  | filtered (chainID : Int64) (start fin : UInt64)
  | skipped (chainID : Int64) (evt : SumTaskCreateTask) (status : UInt8)
  | stored (chainID : Int64) (evt : SumTaskCreateTask) (state : TaskState)
  | responded (chainID : Int64) (taskID : B256)

/-- a chain without a cursor is at block 0, as in a Go map -/
structure Node where
  lastBlocks : Int64 → UInt64
  tasks : AList fun _ : B256 => TaskState
  history : List Event

def Node.init : Node where
  lastBlocks := fun _ => 0
  tasks := ∅
  history := []

section
variable (cfg : Config)

/-! ## new tasks -/

/-- what an event comes to: its task is not in created state, or is signed -/
inductive Verdict where
  | skip (status : UInt8)
  | sign (state : TaskState)

/-- the body of the loop of `processNewTasks` -/
def newTask (chainID : Int64) (evt : SumTaskCreateTask) (replies : TaskReplies) :
    Except GoError Verdict := do
  let status ← replies.getTaskStatus
  if status ≠ taskCreated then return .skip status
  let taskResult := evt.task.numberA + evt.task.numberB
  let msg ← cfg.pack evt.taskId taskResult
  let suggestedEpoch ← replies.getSuggestedEpoch
  let resp ← replies.signMessage { keyTag := 15, message := msg, requiredEpoch := suggestedEpoch }
  return .sign
    { chainID
      task := evt.task
      result := taskResult
      sigEpoch := resp.epoch.toInt64
      sigRequestHash := resp.requestHash
      aggProof := none
      statuses := ∅ }

/-- an event is skipped for its status, or the sum is signed -/
theorem newTask_eq_ok {chainID : Int64} {evt : SumTaskCreateTask} {replies : TaskReplies}
    {verdict : Verdict} :
    newTask cfg chainID evt replies = .ok verdict ↔
      ∃ status, replies.getTaskStatus = .ok status ∧
        (status ≠ taskCreated ∧ verdict = .skip status ∨
          status = taskCreated ∧ ∃ msg suggestedEpoch resp,
            cfg.pack evt.taskId (evt.task.numberA + evt.task.numberB) = .ok msg ∧
            replies.getSuggestedEpoch = .ok suggestedEpoch ∧
            replies.signMessage { keyTag := 15, message := msg, requiredEpoch := suggestedEpoch }
              = .ok resp ∧
            verdict = .sign
              { chainID
                task := evt.task
                result := evt.task.numberA + evt.task.numberB
                sigEpoch := resp.epoch.toInt64
                sigRequestHash := resp.requestHash
                aggProof := none
                statuses := ∅ }) := by
  unfold newTask
  rw [Except.bind_eq_ok]
  refine exists_congr fun status => and_congr_right fun _ => ?_
  by_cases hstatus : status = taskCreated
  · rw [if_neg (not_not.mpr hstatus)]
    constructor
    · intro h
      obtain ⟨msg, hmsg, h⟩ := Except.bind_eq_ok.mp h
      obtain ⟨suggestedEpoch, hepoch, h⟩ := Except.bind_eq_ok.mp h
      obtain ⟨resp, hresp, h⟩ := Except.bind_eq_ok.mp h
      exact Or.inr ⟨hstatus, msg, suggestedEpoch, resp, hmsg, hepoch, hresp,
        (Except.pure_eq_ok.mp h).symm⟩
    · rintro (⟨hne, _⟩ | ⟨_, msg, suggestedEpoch, resp, hmsg, hepoch, hresp, rfl⟩)
      · exact absurd hstatus hne
      · exact Except.bind_eq_ok.mpr ⟨msg, hmsg, Except.bind_eq_ok.mpr ⟨suggestedEpoch, hepoch,
          Except.bind_eq_ok.mpr ⟨resp, hresp, rfl⟩⟩⟩
  · rw [if_pos hstatus, Except.pure_eq_ok]
    constructor
    · intro h
      exact Or.inl ⟨hstatus, h.symm⟩
    · rintro (⟨_, rfl⟩ | ⟨heq, _⟩)
      · rfl
      · exact absurd heq hstatus

def Node.settle (node : Node) (chainID : Int64) (evt : SumTaskCreateTask) : Verdict → Node
  | .skip status => { node with history := .skipped chainID evt status :: node.history }
  | .sign state =>
    { node with
      tasks := node.tasks.insert evt.taskId state
      history := .stored chainID evt state :: node.history }

/-- the error is the first one; a log that cannot be unpacked ends the iterator without one -/
def processNewTasks (chainID : Int64) : Node → List CreateTaskLog → Node × Option GoError
  | node, [] => (node, none)
  | node, log :: logs =>
    match log.event with
    | none => (node, none)
    | some evt =>
      match newTask cfg chainID evt log.replies with
      | .error err => (node, some err)
      | .ok verdict => processNewTasks chainID (node.settle chainID evt verdict) logs

/-! ## signed tasks -/

/-- how a pass over the tasks ends early -/
inductive Stop where
  | error (err : GoError)
  | panic

structure RespondTaskArgs where
  taskID : B256
  result : Nat
  epoch : Int64
  proof : Option Bytes

/-- the answers to the calls of one pass, and the orders of its loops -/
structure FetchReplies where
  taskOrder : (taskIDs : List B256) → Shuffle taskIDs
  chainOrder : B256 → Shuffle cfg.chains
  getTaskStatus : B256 → Int64 → Except GoError UInt8
  getAggregationProof : B256 → String → Except GoError (Option AggregationProof)
  statusOrder : B256 → (chainIDs : List Int64) → Shuffle chainIDs
  respondTask : Int64 → RespondTaskArgs → Except GoError Unit

/-- a chain that has not answered yet counts as `TaskCreated`, and one that has responded is not asked
again -/
def updateStatuses (getTaskStatus : Int64 → Except GoError UInt8) :
    (AList fun _ : Int64 => UInt8) → List Int64 → (AList fun _ : Int64 => UInt8) × Option GoError
  | statuses, [] => (statuses, none)
  | statuses, chainID :: chainIDs =>
    if (statuses.lookup chainID).getD taskCreated = taskResponded then
      updateStatuses getTaskStatus statuses chainIDs
    else
      match getTaskStatus chainID with
      | .error err => (statuses, some err)
      | .ok status => updateStatuses getTaskStatus (statuses.insert chainID status) chainIDs

def allNotFoundOrExpired (statuses : AList fun _ : Int64 => UInt8) : Bool :=
  statuses.entries.all fun entry => entry.2 == taskNotFound || entry.2 == taskExpired

def allResponded (statuses : AList fun _ : Int64 => UInt8) : Bool :=
  statuses.entries.all fun entry => entry.2 == taskResponded

/-- the responses go to the chains that have not responded, up to the first error -/
def respondAll (respondTask : Int64 → RespondTaskArgs → Except GoError Unit) (taskID : B256)
    (task : TaskState) : List Int64 → List Event × Option GoError
  | [] => ([], none)
  | chainID :: chainIDs =>
    if (task.statuses.lookup chainID).getD taskCreated = taskResponded then
      respondAll respondTask taskID task chainIDs
    else
      match cfg.newKeyedTransactorWithChainID chainID with
      | .error err => ([], some (.wrapped "failed to create transactor: " err))
      | .ok () =>
        match respondTask chainID
            { taskID, result := task.result, epoch := task.sigEpoch, proof := task.aggProof } with
        | .error err => ([], some (.wrapped "failed to respond task: " err))
        | .ok () =>
          let rest := respondAll respondTask taskID task chainIDs
          (rest.1 ++ [.responded chainID taskID], rest.2)

def processProof (replies : FetchReplies cfg) (taskID : B256) (node : Node) :
    Node × Option GoError :=
  match cfg.privateKey with
  | .error err => (node, some (.wrapped "failed to parse private key: " err))
  | .ok () =>
    match node.tasks.lookup taskID with
    | none => (node, none)
    | some task =>
      let order := (replies.statusOrder taskID task.statuses.keys).order
      let submitted := respondAll cfg replies.respondTask taskID task order
      ({ node with history := submitted.1 ++ node.history }, submitted.2)

def Node.setTask (node : Node) (taskID : B256) (state : TaskState) : Node :=
  { node with tasks := node.tasks.insert taskID state }

def Node.deleteTask (node : Node) (taskID : B256) : Node :=
  { node with tasks := node.tasks.erase taskID }

/-- one task of `fetchResults`, with the early end of the whole pass -/
def fetchResult (replies : FetchReplies cfg) (node : Node) (taskID : B256) (state : TaskState) :
    Node × Option Stop :=
  let polled := updateStatuses (replies.getTaskStatus taskID) state.statuses
    (replies.chainOrder taskID).order
  -- the map of the statuses is shared with the entry in `tasks`
  let state := { state with statuses := polled.1 }
  let node := node.setTask taskID state
  match polled.2 with
  | some err => (node, some (.error err))
  | none =>
    if allNotFoundOrExpired state.statuses || allResponded state.statuses then
      (node.deleteTask taskID, none)
    else
      match state.aggProof with
      | some _ => ((processProof cfg replies taskID node).1, none)
      | none =>
        match replies.getAggregationProof taskID state.sigRequestHash with
        | .error _ => (node, none)
        | .ok none => (node, some .panic)
        | .ok (some resp) =>
          let node := node.setTask taskID { state with aggProof := resp.proof }
          ((processProof cfg replies taskID node).1, none)

/-- the tasks in the order of the pass -/
def fetchResults (replies : FetchReplies cfg) : Node → List B256 → Node × Option Stop
  | node, [] => (node, none)
  | node, taskID :: taskIDs =>
    match node.tasks.lookup taskID with
    | none => fetchResults replies node taskIDs
    | some state =>
      match fetchResult cfg replies node taskID state with
      | (node, some stop) => (node, some stop)
      | (node, none) => fetchResults replies node taskIDs

/-! ## what a pass leaves alone -/

/-- the cursors stay, and only submissions are recorded -/
def Kept (node node' : Node) : Prop :=
  node'.lastBlocks = node.lastBlocks ∧ ∃ submitted : List Event,
    node'.history = submitted ++ node.history ∧
    ∀ e ∈ submitted, ∃ chainID taskID, e = .responded chainID taskID

variable {cfg}

theorem Kept.of_eq {node node' : Node} (hblocks : node'.lastBlocks = node.lastBlocks)
    (hhistory : node'.history = node.history) : Kept node node' :=
  ⟨hblocks, [], hhistory, fun _ h => absurd h List.not_mem_nil⟩

theorem Kept.trans {node node' node'' : Node} (h : Kept node node') (h' : Kept node' node'') :
    Kept node node'' := by
  obtain ⟨hblocks, submitted, hhistory, hall⟩ := h
  obtain ⟨hblocks', submitted', hhistory', hall'⟩ := h'
  refine ⟨hblocks'.trans hblocks, submitted' ++ submitted, ?_, fun e he => ?_⟩
  · rw [hhistory', hhistory, List.append_assoc]
  · rcases List.mem_append.mp he with he | he
    · exact hall' e he
    · exact hall e he

theorem respondAll_responded {respondTask : Int64 → RespondTaskArgs → Except GoError Unit}
    {taskID : B256} {task : TaskState} {order : List Int64} {e : Event}
    (h : e ∈ (respondAll cfg respondTask taskID task order).1) :
    ∃ chainID, e = .responded chainID taskID := by
  induction order with
  | nil => cases h
  | cons chainID order ih =>
    simp only [respondAll] at h
    split at h
    · exact ih h
    split at h
    · cases h
    split at h
    · cases h
    · rcases List.mem_append.mp h with h | h
      · exact ih h
      · exact ⟨chainID, List.mem_singleton.mp h⟩

theorem processProof_kept (replies : FetchReplies cfg) (taskID : B256) (node : Node) :
    Kept node (processProof cfg replies taskID node).1 := by
  unfold processProof
  split
  · exact Kept.of_eq rfl rfl
  split
  · exact Kept.of_eq rfl rfl
  · refine ⟨rfl, _, rfl, fun e he => ?_⟩
    obtain ⟨chainID, he⟩ := respondAll_responded he
    exact ⟨chainID, taskID, he⟩

theorem fetchResult_kept (replies : FetchReplies cfg) (node : Node) (taskID : B256)
    (state : TaskState) : Kept node (fetchResult cfg replies node taskID state).1 := by
  have hset : ∀ (node : Node) (state : TaskState), Kept node (node.setTask taskID state) :=
    fun _ _ => Kept.of_eq rfl rfl
  have hdelete : ∀ node : Node, Kept node (node.deleteTask taskID) := fun _ => Kept.of_eq rfl rfl
  unfold fetchResult
  simp only
  split
  · exact hset _ _
  split
  · exact (hset _ _).trans (hdelete _)
  split
  · exact (hset _ _).trans (processProof_kept replies taskID _)
  split
  · exact hset _ _
  · exact hset _ _
  · exact ((hset _ _).trans (hset _ _)).trans (processProof_kept replies taskID _)

theorem fetchResults_kept (replies : FetchReplies cfg) (node : Node) (taskIDs : List B256) :
    Kept node (fetchResults cfg replies node taskIDs).1 := by
  induction taskIDs generalizing node with
  | nil => exact Kept.of_eq rfl rfl
  | cons taskID taskIDs ih =>
    simp only [fetchResults]
    split
    · exact ih node
    · rename_i state hstate
      have hone := fetchResult_kept replies node taskID state
      split
      · rename_i node' stop hres
        rw [hres] at hone
        exact hone
      · rename_i node' hres
        rw [hres] at hone
        exact hone.trans (ih node')

end

end ZkSymbiotic.SumNode
