import Mathlib.Logic.Function.Basic
import ZkSymbiotic.Lib.Machine
import ZkSymbiotic.Node.SumNode

/-!
# The loop of the sum node

A tick visits the chains one after the other and then fetches results.  A visit moves the cursor of its
chain behind the finalized head, and only then processes the events up to it.

* `State`, `step`            the loop as a machine; an error of a chain's client ends the process;
* `Stepped`, `step_stepped`  the steps one by one.
-/

namespace ZkSymbiotic.SumNode

/-- where the loop is: at `select`, in a tick with chains to visit, or gone -/
inductive Pc where
  | waiting
  | visiting (chainIDs : List Int64)
  | exited (stop : Option Stop)

structure State where
  node : Node
  pc : Pc

def State.init : State := { node := Node.init, pc := .waiting }

/-- the answers to the calls of a visit -/
structure VisitReplies where
  blockByNumber : Except GoError UInt64
  filterCreateTask : (start fin : UInt64) → Except GoError (List CreateTaskLog)

section
variable (cfg : Config)

inductive Action where
  | tick (order : Shuffle cfg.chains)
  | visit (replies : VisitReplies)
  | fetchResults (replies : FetchReplies cfg)
  | done

/-! ## the machine -/

def Node.moveCursor (node : Node) (chainID : Int64) (endBlockNumber : UInt64) : Node :=
  { node with lastBlocks := Function.update node.lastBlocks chainID (endBlockNumber + 1) }

def Node.asks (node : Node) (chainID : Int64) (endBlockNumber : UInt64) : Node :=
  { node with
    history := .filtered chainID (node.lastBlocks chainID) endBlockNumber :: node.history }

def headStop (err : GoError) : Stop :=
  .error (.wrapped "failed to get finalized block number: " err)

def filterStop (err : GoError) : Stop :=
  .error (.wrapped "failed to filter new task created events: " err)

def visit (node : Node) (chainID : Int64) (chainIDs : List Int64) (replies : VisitReplies) : State :=
  match replies.blockByNumber with
  | .error err => { node, pc := .exited (some (headStop err)) }
  | .ok endBlockNumber =>
    match replies.filterCreateTask (node.lastBlocks chainID) endBlockNumber with
    | .error err =>
      { node := node.asks chainID endBlockNumber, pc := .exited (some (filterStop err)) }
    | .ok events =>
      let moved := (node.asks chainID endBlockNumber).moveCursor chainID endBlockNumber
      -- the error of `processNewTasks` is printed and forgotten
      { node := (processNewTasks cfg chainID moved events).1, pc := .visiting chainIDs }

/-- only a panic ends the process; the error of `fetchResults` is printed and forgotten -/
def Pc.afterFetch : Option Stop → Pc
  | some .panic => .exited (some .panic)
  | _ => .waiting

def fetch (node : Node) (replies : FetchReplies cfg) : State :=
  let fetched := fetchResults cfg replies node (replies.taskOrder node.tasks.keys).order
  { node := fetched.1, pc := .afterFetch fetched.2 }

def step : Machine State (Action cfg)
  | s, .tick order =>
    match s.pc with
    | .waiting => some { s with pc := .visiting order.order }
    | _ => none
  | s, .visit replies =>
    match s.pc with
    | .visiting (chainID :: chainIDs) => some (visit cfg s.node chainID chainIDs replies)
    | _ => none
  | s, .fetchResults replies =>
    match s.pc with
    | .visiting [] => some (fetch cfg s.node replies)
    | _ => none
  | s, .done =>
    match s.pc with
    | .waiting => some { s with pc := .exited none }
    | _ => none

/-! ## what a step can do -/

inductive Stepped : State → Action cfg → State → Prop where
  | tick (s : State) (order : Shuffle cfg.chains) (pc : s.pc = .waiting) :
      Stepped s (.tick order) { s with pc := .visiting order.order }
  | noHead (s : State) (replies : VisitReplies) (chainID : Int64) (chainIDs : List Int64)
      (err : GoError) (pc : s.pc = .visiting (chainID :: chainIDs))
      (head : replies.blockByNumber = .error err) :
      Stepped s (.visit replies) { s with pc := .exited (some (headStop err)) }
  | noEvents (s : State) (replies : VisitReplies) (chainID : Int64) (chainIDs : List Int64)
      (endBlockNumber : UInt64) (err : GoError) (pc : s.pc = .visiting (chainID :: chainIDs))
      (head : replies.blockByNumber = .ok endBlockNumber)
      (logs : replies.filterCreateTask (s.node.lastBlocks chainID) endBlockNumber = .error err) :
      Stepped s (.visit replies)
        { node := s.node.asks chainID endBlockNumber, pc := .exited (some (filterStop err)) }
  | visit (s : State) (replies : VisitReplies) (chainID : Int64) (chainIDs : List Int64)
      (endBlockNumber : UInt64) (events : List CreateTaskLog)
      (pc : s.pc = .visiting (chainID :: chainIDs))
      (head : replies.blockByNumber = .ok endBlockNumber)
      (logs : replies.filterCreateTask (s.node.lastBlocks chainID) endBlockNumber = .ok events) :
      Stepped s (.visit replies)
        { node := (processNewTasks cfg chainID
            ((s.node.asks chainID endBlockNumber).moveCursor chainID endBlockNumber) events).1
          pc := .visiting chainIDs }
  | fetchResults (s : State) (replies : FetchReplies cfg) (pc : s.pc = .visiting []) :
      Stepped s (.fetchResults replies) (fetch cfg s.node replies)
  | done (s : State) (pc : s.pc = .waiting) : Stepped s .done { s with pc := .exited none }

variable {cfg}

theorem stepped_visit {s : State} (replies : VisitReplies) {chainID : Int64} {chainIDs : List Int64}
    (pc : s.pc = .visiting (chainID :: chainIDs)) :
    Stepped cfg s (.visit replies) (visit cfg s.node chainID chainIDs replies) := by
  cases head : replies.blockByNumber with
  | error err =>
    simp only [visit, head]
    exact .noHead s replies chainID chainIDs err pc head
  | ok endBlockNumber =>
    cases logs : replies.filterCreateTask (s.node.lastBlocks chainID) endBlockNumber with
    | error err =>
      simp only [visit, head, logs]
      exact .noEvents s replies chainID chainIDs endBlockNumber err pc head logs
    | ok events =>
      simp only [visit, head, logs]
      exact .visit s replies chainID chainIDs endBlockNumber events pc head logs

theorem step_stepped {s s' : State} {a : Action cfg} (h : step cfg s a = some s') :
    Stepped cfg s a s' := by
  cases a with
  | tick order =>
    simp only [step] at h
    split at h
    · exact Option.some.inj h ▸ Stepped.tick s order ‹_›
    · cases h
  | visit replies =>
    simp only [step] at h
    split at h
    · exact Option.some.inj h ▸ stepped_visit replies ‹_›
    · cases h
  | fetchResults replies =>
    simp only [step] at h
    split at h
    · exact Option.some.inj h ▸ Stepped.fetchResults s replies ‹_›
    · cases h
  | done =>
    simp only [step] at h
    split at h
    · exact Option.some.inj h ▸ Stepped.done s ‹_›
    · cases h

end

end ZkSymbiotic.SumNode
