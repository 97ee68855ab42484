import ZkSymbiotic.Lib.Tiling
import ZkSymbiotic.Node.Tasks

/-!
# The event queries of the sum node

A visit asks for the events from the cursor of its chain to the finalized head.

* `queries`              the block ranges that a chain was asked for, the latest one first;
* `CursorsFollow`        a cursor is behind the last query, modulo 2^64;
* `queries_exact_iff`    the queries are well formed and tile the blocks up to the head if and only
                         if every visit sees a head ahead of the last one.
-/

namespace ZkSymbiotic.SumNode

/-! ## queries -/

def Event.query (chainID : Int64) : Event → Option Segment
  | .filtered chainID' start fin =>
    if chainID' = chainID then some ⟨start.toNat, fin.toNat⟩ else none
  | _ => none

def queries (chainID : Int64) (history : List Event) : List Segment :=
  history.filterMap (Event.query chainID)

theorem queries_filtered_self (chainID : Int64) (start fin : UInt64) (history : List Event) :
    queries chainID (.filtered chainID start fin :: history)
      = ⟨start.toNat, fin.toNat⟩ :: queries chainID history :=
  List.filterMap_cons_some (if_pos rfl)

theorem queries_filtered_ne {chainID chainID' : Int64} (h : chainID' ≠ chainID)
    (start fin : UInt64) (history : List Event) :
    queries chainID (.filtered chainID' start fin :: history) = queries chainID history :=
  List.filterMap_cons_none (if_neg h)

variable {cfg : Config}

/-- new tasks are neither queries, nor do they move a cursor -/
theorem processNewTasks_quiet (chainID' : Int64) (events : List CreateTaskLog) :
    ∀ node : Node, (processNewTasks cfg chainID' node events).1.lastBlocks = node.lastBlocks ∧
      ∀ chainID, queries chainID (processNewTasks cfg chainID' node events).1.history
        = queries chainID node.history := by
  induction events with
  | nil => intro node; exact ⟨rfl, fun _ => rfl⟩
  | cons log events ih =>
    intro node
    unfold processNewTasks
    split
    · exact ⟨rfl, fun _ => rfl⟩
    split
    · exact ⟨rfl, fun _ => rfl⟩
    · rename_i evt _ _ verdict _
      obtain ⟨hblocks, hqueries⟩ := ih (node.settle chainID' evt verdict)
      cases verdict with
      | skip status => exact ⟨hblocks, hqueries⟩
      | sign state => exact ⟨hblocks, hqueries⟩

theorem Kept.queries {node node' : Node} (h : Kept node node') (chainID : Int64) :
    queries chainID node'.history = queries chainID node.history := by
  obtain ⟨_, submitted, hhistory, hall⟩ := h
  have hnone : submitted.filterMap (Event.query chainID) = [] := by
    refine List.filterMap_eq_nil_iff.mpr fun e he => ?_
    obtain ⟨_, _, rfl⟩ := hall e he
    rfl
  rw [hhistory, SumNode.queries, List.filterMap_append, hnone, List.nil_append]
  rfl

/-! ## exact queries -/

/-- every query starts at or before its end, the queries of a chain are disjoint, and together they
are the blocks up to the last finalized one -/
def QueriesExact (s : State) : Prop := ∀ chainID, Tiles (queries chainID s.node.history)

/-- the visited chain has finalized a block since its last visit -/
def NewHead (s : State) (a : Action cfg) : Prop :=
  ∀ replies chainID chainIDs endBlockNumber, a = .visit replies →
    s.pc = .visiting (chainID :: chainIDs) → replies.blockByNumber = .ok endBlockNumber →
      ∀ last, (queries chainID s.node.history).head? = some last → last.fin < endBlockNumber.toNat

/-- the block behind the last query, or block 0 -/
def nextBlock (queries : List Segment) : Nat :=
  match queries.head? with
  | none => 0
  | some last => (last.fin + 1) % 2^64

/-- as long as the loop runs -/
def CursorsFollow (s : State) : Prop :=
  (∀ stop, s.pc ≠ .exited stop) →
    ∀ chainID, (s.node.lastBlocks chainID).toNat = nextBlock (queries chainID s.node.history)

theorem cursorsFollow_init : CursorsFollow State.init := fun _ _ => rfl

theorem queriesExact_init : QueriesExact State.init := fun _ => tiles_nil

variable {s s' : State} {a : Action cfg}

theorem CursorsFollow.stepped (hI : CursorsFollow s) (h : Stepped cfg s a s') :
    CursorsFollow s' := by
  cases h with
  | tick order pc =>
    intro _
    exact hI fun stop hstop => by
      rw [pc] at hstop
      cases hstop
  | noHead replies chainID chainIDs err pc head => exact fun hrun => absurd rfl (hrun _)
  | noEvents replies chainID chainIDs endBlockNumber err pc head logs =>
    exact fun hrun => absurd rfl (hrun _)
  | visit replies chainID chainIDs endBlockNumber events pc head logs =>
    intro _ chainID'
    have hfollow := hI (by simp only [pc]; exact nofun) chainID'
    obtain ⟨hblocks, hqueries⟩ := processNewTasks_quiet chainID events
      ((s.node.asks chainID endBlockNumber).moveCursor chainID endBlockNumber)
    show (Node.lastBlocks _ chainID').toNat = nextBlock (queries chainID' (Node.history _))
    rw [hblocks, hqueries]
    show (Function.update s.node.lastBlocks chainID (endBlockNumber + 1) chainID').toNat
      = nextBlock (queries chainID' (.filtered chainID _ endBlockNumber :: s.node.history))
    by_cases hchain : chainID = chainID'
    · subst hchain
      rw [Function.update_self, queries_filtered_self]
      exact UInt64.toNat_add _ _
    · rw [Function.update_of_ne (Ne.symm hchain), queries_filtered_ne hchain]
      exact hfollow
  | fetchResults replies pc =>
    intro _ chainID
    have hfollow := hI (by simp only [pc]; exact nofun) chainID
    have hkept : Kept s.node (fetch cfg s.node replies).node := fetchResults_kept replies s.node _
    rw [hkept.1, hkept.queries]
    exact hfollow
  | done pc => exact fun hrun => absurd rfl (hrun _)

/-- one more query keeps the queries exact if and only if the head is new -/
theorem tiles_query_iff {segments : List Segment} {start fin : UInt64} (h : Tiles segments)
    (hstart : start.toNat = nextBlock segments) :
    Tiles (⟨start.toNat, fin.toNat⟩ :: segments) ↔
      ∀ last, segments.head? = some last → last.fin < fin.toNat := by
  cases segments with
  | nil => exact iff_of_true (tiles_singleton hstart) nofun
  | cons last segments =>
    rw [tiles_cons_iff h]
    show start.toNat = last.fin + 1 ∧ start.toNat ≤ fin.toNat ↔ _
    have hstart : start.toNat = (last.fin + 1) % 2^64 := hstart
    have hlt := fin.toNat_lt
    constructor
    · rintro ⟨hnext, hle⟩ last' hlast'
      obtain rfl := Option.some.inj hlast'
      omega
    · intro hnew
      have hnew := hnew last rfl
      omega

theorem queriesExact_asks {chainID : Int64} {chainIDs : List Int64} (hI : CursorsFollow s)
    (hP : QueriesExact s) (pc : s.pc = .visiting (chainID :: chainIDs)) (fin : UInt64) :
    (∀ chainID', Tiles (queries chainID' (s.node.asks chainID fin).history)) ↔
      ∀ last, (queries chainID s.node.history).head? = some last → last.fin < fin.toNat := by
  have hfollow := hI (by simp only [pc]; exact nofun) chainID
  rw [← tiles_query_iff (hP chainID) hfollow, ← queries_filtered_self]
  constructor
  · intro h
    exact h chainID
  · intro h chainID'
    by_cases hchain : chainID = chainID'
    · subst hchain
      exact h
    · show Tiles (queries chainID' (.filtered chainID _ fin :: s.node.history))
      rw [queries_filtered_ne hchain]
      exact hP chainID'

theorem newHead_visit {replies : VisitReplies} {chainID : Int64} {chainIDs : List Int64}
    {endBlockNumber : UInt64} (pc : s.pc = .visiting (chainID :: chainIDs))
    (head : replies.blockByNumber = .ok endBlockNumber) :
    NewHead s (.visit replies : Action cfg) ↔
      ∀ last, (queries chainID s.node.history).head? = some last →
        last.fin < endBlockNumber.toNat := by
  constructor
  · intro h
    exact h replies chainID chainIDs endBlockNumber rfl pc head
  · intro h replies' chainID' chainIDs' endBlockNumber' haction hpc hhead
    cases haction
    obtain ⟨rfl, _⟩ := List.cons.inj (Pc.visiting.inj (pc.symm.trans hpc))
    obtain rfl := Except.ok.inj (head.symm.trans hhead)
    exact h

/-- one step keeps the queries exact if and only if it sees no old head -/
theorem queriesExact_step (hI : CursorsFollow s) (hP : QueriesExact s) (h : Stepped cfg s a s') :
    QueriesExact s' ↔ NewHead s a := by
  cases h with
  | tick order pc => exact iff_of_true hP nofun
  | noHead replies chainID chainIDs err pc head =>
    refine iff_of_true hP fun replies' _ _ _ haction _ hhead => ?_
    cases haction
    cases head.symm.trans hhead
  | noEvents replies chainID chainIDs endBlockNumber err pc head logs =>
    rw [newHead_visit pc head]
    exact queriesExact_asks hI hP pc endBlockNumber
  | visit replies chainID chainIDs endBlockNumber events pc head logs =>
    rw [newHead_visit pc head, ← queriesExact_asks hI hP pc endBlockNumber]
    refine forall_congr' fun chainID' => ?_
    rw [(processNewTasks_quiet chainID events _).2 chainID']
    rfl
  | fetchResults replies pc =>
    have hkept : Kept s.node (fetch cfg s.node replies).node := fetchResults_kept replies s.node _
    refine iff_of_true (fun chainID => ?_) nofun
    rw [hkept.queries]
    exact hP chainID
  | done pc => exact iff_of_true hP nofun

/-- **The event queries are exact if and only if no visit sees an old head.** In a run every query
starts at or before its end, and the queries of a chain tile the blocks up to the last finalized
one, exactly if every visit of a chain sees a block finalized since the chain's last visit. -/
theorem queries_exact_iff (cfg : Config) (actions : List (Action cfg)) (s : State)
    (h : (step cfg).run State.init actions = some s) :
    (step cfg).Always QueriesExact State.init actions ↔
      (step cfg).Steps NewHead State.init actions :=
  Machine.always_iff_steps (I := CursorsFollow)
    (fun _ _ _ hI hstep => hI.stepped (step_stepped hstep))
    (fun _ _ _ hI hP hstep => queriesExact_step hI hP (step_stepped hstep))
    cursorsFollow_init queriesExact_init h

/-! ## a finalized block that is seen twice -/

/-- a tick at a finalized head, on a chain without tasks -/
def Devnet.quietTick (head : UInt64) : List (Action Devnet.cfg) :=
  [.tick (Shuffle.id _), .visit (truthful [] head Devnet.signed), .fetchResults Devnet.noProof]

theorem queries_exact_devnet : (step Devnet.cfg).Always QueriesExact State.init
    (Devnet.quietTick 3 ++ Devnet.quietTick 5) := by
  have hrun : ∃ s, (step Devnet.cfg).run State.init
      (Devnet.quietTick 3 ++ Devnet.quietTick 5) = some s := ⟨_, rfl⟩
  obtain ⟨s, hrun⟩ := hrun
  refine (queries_exact_iff Devnet.cfg _ s hrun).mpr ⟨nofun, fun _ h => ?_⟩
  obtain rfl := Option.some.inj h
  refine ⟨(newHead_visit rfl rfl).mpr nofun, fun _ h => ?_⟩
  obtain rfl := Option.some.inj h
  refine ⟨nofun, fun _ h => ?_⟩
  obtain rfl := Option.some.inj h
  refine ⟨nofun, fun _ h => ?_⟩
  obtain rfl := Option.some.inj h
  refine ⟨(newHead_visit rfl rfl).mpr fun last hlast => ?_, fun _ h => ?_⟩
  · obtain rfl : ⟨0, 3⟩ = last := Option.some.inj hlast
    decide
  obtain rfl := Option.some.inj h
  exact ⟨nofun, fun _ _ => trivial⟩

/-- the second tick asks for the blocks from 4 to 3 -/
theorem repeated_head_inverted : ∃ s,
    (step Devnet.cfg).run State.init (Devnet.quietTick 3 ++ Devnet.quietTick 3) = some s ∧
      s.node.history = [.filtered 1 4 3, .filtered 1 0 3] ∧
      ¬ (step Devnet.cfg).Always QueriesExact State.init
        (Devnet.quietTick 3 ++ Devnet.quietTick 3) := by
  have hrun : ∃ s, (step Devnet.cfg).run State.init
      (Devnet.quietTick 3 ++ Devnet.quietTick 3) = some s ∧
      s.node.history = [.filtered 1 4 3, .filtered 1 0 3] := ⟨_, rfl, rfl⟩
  obtain ⟨s, hrun, hhistory⟩ := hrun
  refine ⟨s, hrun, hhistory, fun halways => ?_⟩
  have hqueries : queries 1 s.node.history = [⟨4, 3⟩, ⟨0, 3⟩] := by
    rw [hhistory]
    rfl
  have hforward := (halways.last hrun 1).forward ⟨4, 3⟩ (hqueries ▸ List.mem_cons_self)
  exact absurd hforward (by decide)

end ZkSymbiotic.SumNode
