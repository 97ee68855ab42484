import ZkSymbiotic.Contracts.Dvn
import ZkSymbiotic.Golem.ProofBundle
import ZkSymbiotic.Worker.Events

/-!
# The worker and the contract as one machine

`dvn-worker.ts`: every log of the endpoint starts a handler, and nothing waits for a handler, so the
handlers interleave at their `await`s.  What an `await` resolves to is part of the action: the
answers of the nodes, which may be out of date, of the relay and of the proof service, each of which
may fail.  A transaction that is broadcast may be mined at any later time or never, and others call
the contract as well.

* `requestSignature`, `getZkProof`   the clients with their fallbacks, which do not throw;
* `Stage`, `Handler`                 where a handler waits, and what it holds;
* `WorkerSys.step`                   the machine;
* `Handled`                          what one step of one handler does, and `handle_handled`.
-/

namespace ZkSymbiotic.DvnWorker

open Golem.TypeScript (property)

/-! ## values of JavaScript -/

/-- `none` is `undefined` -/
abbrev Js := Option Json

def truthy : Js → Bool
  | none => false
  | some .null => false
  | some (.bool b) => b
  | some (.int n) => n ≠ 0
  | some (.decimal m _) => m ≠ 0
  | some (.string s) => s ≠ ""
  | some (.array _) => true
  | some (.object _) => true

/-- `v.name`, which throws where `v` is `null` or `undefined` -/
def get? (v : Js) (name : String) : Option Js :=
  match v with
  | none => none
  | some .null => none
  | some v => some (property v name)

/-! ## the clients -/

/-- `relay-client.ts`, without `proof`, which nothing reads -/
structure RelayResponse where
  aggregatedSignature : Js
  epoch : Js

def zeros (n : Nat) : String := "0x" ++ String.ofList (List.replicate (2 * n) '0')

theorem zeros_eq (n : Nat) : zeros n = hexlify (List.replicate n 0) := by
  have hdigits : (List.replicate n (0 : UInt8)).flatMap hexPair = List.replicate (2 * n) '0' := by
    induction n with
    | zero => rfl
    | succ n ih =>
      rw [List.replicate_succ, List.flatMap_cons, ih]
      rfl
  rw [zeros, hexlify, hdigits]
  exact String.ofList_append.symm

def mockSignature : RelayResponse where
  aggregatedSignature := some (.string (zeros 96))
  epoch := some (.int 1)

/-- `none`: the request fails; otherwise its `data` -/
def requestSignature (response : Option Js) : RelayResponse :=
  match response with
  | none => mockSignature
  | some data =>
    if truthy data ∧ truthy (data.bind (property · "signature")) then
      { aggregatedSignature := data.bind (property · "signature")
        epoch := data.bind (property · "epoch") }
    else mockSignature

structure ZkResponse where
  proof : Js
  inputs : Js

def getStubProof : ZkResponse where
  proof := some (.string (zeros 128))
  inputs := some (.object [("slot", .int 1000), ("blockHash", .string (zeros 32)),
    ("receiptsRoot", .string (zeros 32)), ("emitter", .string (zeros 20)),
    ("topicsHash", .string (zeros 32)), ("logIndex", .int 0), ("minFinality", .int 64)])

/-- `zk-client.ts`: without an url, without an answer or without properties to read, a stub -/
def getZkProof (golemDbUrl : Option String) (response : Option Js) : ZkResponse :=
  if golemDbUrl = none ∨ golemDbUrl = some "" then getStubProof
  else
    match response with
    | none => getStubProof
    | some data =>
      match get? data "proof", get? data "inputs" with
      | some proof, some inputs => { proof, inputs }
      | _, _ => getStubProof

/-! ## handlers -/

structure VerificationRequest (Digest : Type) where
  packetId : Digest
  messageHash : Digest
  epoch : Js
  relayProof : Js
  zkProof : Js
  zkInputs : Js

/-- the `await` a handler is at; `returned` is the end of it, however it came -/
inductive Stage (Digest : Type) where
  | verified
  | finality
  | relay (messageHash : Digest)
  | proof (messageHash : Digest) (relayResponse : RelayResponse)
  | send (request : VerificationRequest Digest)
  | wait
  | returned

structure Handler (Digest : Type) where
  event : PacketSent Digest
  stage : Stage Digest

/-- what becomes of a transaction that is handed to a node: it is broadcast, it is broadcast but the
reply does not come back, or it is not broadcast -/
inductive Sending where
  | replied
  | lost
  | refused

/-- what an `await` resolves to -/
inductive Answer where
  /-- `verified(packetId)`: the entry that the asked node knows, which may not be the contract's any
  more, or no answer -/
  | verified (answer : Option Bool)
  | blockNumber (answer : Option Nat)
  | relay (response : Option Js)
  | proof (response : Option Js)
  | sent (sending : Sending)
  /-- the receipt, or an error: the transaction reverted or was not found -/
  | receipt

/-- `getBlockFinality`: JavaScript's difference of two numbers -/
def blockFinality (currentBlock blockNumber : Nat) : Bool :=
  decide (64 ≤ (currentBlock : Int) - (blockNumber : Int))

/-- a transaction: who sent it, the call in it, and whether the call returned once it is mined -/
structure Tx (Digest : Type) where
  handler : Nat
  call : Submission Digest
  mined : Option Bool

/-- the worker's packages, its configuration and the encoding of a call's arguments by `ethers`:
the epoch, the proof of the relay, the proof of the service and its inputs -/
structure Setup (ε Digest : Type) where
  ethers : Ethers ε Digest
  abi : EthersAbi ε
  golemDbUrl : Option String
  encodeArguments : Js → Js → Js → Js → Except ε (U48 × Bytes × Bytes × ZkInputs)

section
variable {ε Digest : Type} (setup : Setup ε Digest)

/-- the call of a request, if its arguments can be encoded -/
def Setup.call? (request : VerificationRequest Digest) : Option (Submission Digest) :=
  match setup.encodeArguments request.epoch request.relayProof request.zkProof request.zkInputs with
  | .ok (epoch, relayProof, zkProof, zkInputs) =>
    some { packetId := request.packetId, H := request.messageHash, epoch, relayProof, zkProof
           zkInputs }
  | .error _ => none

/-- a handler resumes: its next stage, and the call it sends if it sends one -/
def resume (h : Handler Digest) : Answer → Option (Stage Digest × Option (Submission Digest))
  | .verified answer =>
    match h.stage, answer with
    | .verified, some false => some (.finality, none)
    | .verified, _ => some (.returned, none)
    | _, _ => none
  | .blockNumber answer =>
    match h.stage, answer with
    | .finality, none => some (.returned, none)
    | .finality, some currentBlock =>
      if blockFinality currentBlock h.event.blockNumber then
        match h.event.messageHash setup.ethers with
        | .ok messageHash => some (.relay messageHash, none)
        | .error _ => some (.returned, none)
      else some (.returned, none)
    | _, _ => none
  | .relay response =>
    match h.stage with
    | .relay messageHash => some (.proof messageHash (requestSignature response), none)
    | _ => none
  | .proof response =>
    match h.stage with
    | .proof messageHash relayResponse =>
      let zkResponse := getZkProof setup.golemDbUrl response
      some (.send { packetId := h.event.packetId, messageHash, epoch := relayResponse.epoch
                    relayProof := relayResponse.aggregatedSignature, zkProof := zkResponse.proof
                    zkInputs := zkResponse.inputs }, none)
    | _ => none
  | .sent sending =>
    match h.stage with
    | .send request =>
      match setup.call? request, sending with
      | some call, .replied => some (.wait, some call)
      | some call, .lost => some (.returned, some call)
      | some _, .refused => some (.returned, none)
      | none, _ => some (.returned, none)
    | _ => none
  | .receipt =>
    match h.stage with
    | .wait => some (.returned, none)
    | _ => none

/-! ## the system -/

structure WorkerSys (Digest : Type) where
  handlers : List (Handler Digest)
  txs : List (Tx Digest)
  dvn : Dvn Digest

inductive WorkerAction (Digest : Type) where
  /-- the provider delivers a log -/
  | log (log : EthersLog)
  /-- the promise that a handler waits for resolves -/
  | answer (handler : Nat) (answer : Answer)
  /-- a transaction of the worker is mined; its gas limit may be too low -/
  | mine (tx : Nat) (block : DvnBlock) (outOfGas : Bool)
  /-- a call of somebody else -/
  | submit (block : DvnBlock) (call : Submission Digest)

def WorkerSys.start : WorkerSys Digest := { handlers := [], txs := [], dvn := .init }

variable [DecidableEq Digest] (encode : Digest → Bytes)

/-- whether a call returns, and the contract after it -/
def callDvn (block : DvnBlock) (dvn : Dvn Digest) (call : Submission Digest) : Bool × Dvn Digest :=
  match submitVerification encode block dvn call with
  | .ok dvn' => (true, dvn')
  | .error _ => (false, dvn)

def WorkerSys.step : Machine (WorkerSys Digest) (WorkerAction Digest)
  | s, .log log =>
    match parsePacketSentLog setup.ethers setup.abi log with
    | .ok event => some { s with handlers := s.handlers ++ [{ event, stage := .verified }] }
    | .error _ => some s
  | s, .answer i answer => do
    let h ← s.handlers[i]?
    let (stage, call?) ← resume setup h answer
    return { s with
      handlers := s.handlers.set i { h with stage }
      txs := s.txs ++ (call?.map fun call => { handler := i, call, mined := none }).toList }
  | s, .mine k block outOfGas => do
    let tx ← s.txs[k]?
    if tx.mined.isSome then none
    else
      let (returned, dvn) := if outOfGas then (false, s.dvn) else callDvn encode block s.dvn tx.call
      return { s with txs := s.txs.set k { tx with mined := some returned }, dvn }
  | s, .submit block call => some { s with dvn := (callDvn encode block s.dvn call).2 }

end

/-! ## what one step does -/

/-- the answer is one to what the handler waits for -/
def Stage.awaits {Digest : Type} : Stage Digest → Answer → Bool
  | .verified, .verified _ => true
  | .finality, .blockNumber _ => true
  | .relay _, .relay _ => true
  | .proof _ _, .proof _ => true
  | .send _, .sent _ => true
  | .wait, .receipt => true
  | _, _ => false

/-- how a handler with an event resumes -/
inductive Resumed (setup : Setup ε Digest) (event : PacketSent Digest) :
    Stage Digest → Answer → Stage Digest → Option (Submission Digest) → Prop
  | unverified : Resumed setup event .verified (.verified (some false)) .finality none
  | final {currentBlock : Nat} {messageHash : Digest} (h : event.blockNumber + 64 ≤ currentBlock)
      (hhash : event.messageHash setup.ethers = .ok messageHash) :
      Resumed setup event .finality (.blockNumber (some currentBlock)) (.relay messageHash)
        none
  | signed (messageHash : Digest) (response : Option Js) :
      Resumed setup event (.relay messageHash) (.relay response)
        (.proof messageHash (requestSignature response)) none
  | proved (messageHash : Digest) (relay : RelayResponse) (response : Option Js) :
      Resumed setup event (.proof messageHash relay) (.proof response)
        (.send { packetId := event.packetId, messageHash, epoch := relay.epoch
                 relayProof := relay.aggregatedSignature
                 zkProof := (getZkProof setup.golemDbUrl response).proof
                 zkInputs := (getZkProof setup.golemDbUrl response).inputs }) none
  | sent {request : VerificationRequest Digest} {call : Submission Digest}
      (h : setup.call? request = some call) :
      Resumed setup event (.send request) (.sent .replied) .wait (some call)
  | lost {request : VerificationRequest Digest} {call : Submission Digest}
      (h : setup.call? request = some call) :
      Resumed setup event (.send request) (.sent .lost) .returned (some call)
  | returned {stage : Stage Digest} {answer : Answer} (h : stage.awaits answer = true) :
      Resumed setup event stage answer .returned none

theorem blockFinality_iff {currentBlock blockNumber : Nat} :
    blockFinality currentBlock blockNumber = true ↔ blockNumber + 64 ≤ currentBlock := by
  rw [blockFinality, decide_eq_true_iff]
  omega

section
variable {ε Digest : Type} {setup : Setup ε Digest} {h : Handler Digest} {answer : Answer}
  {stage : Stage Digest} {call? : Option (Submission Digest)}

theorem resume_resumed (hr : resume setup h answer = some (stage, call?)) :
    Resumed setup h.event h.stage answer stage call? := by
  obtain ⟨event, at_⟩ := h
  cases answer with
  | verified answer =>
    cases at_ with
    | verified =>
      cases answer with
      | none =>
        cases hr
        exact .returned rfl
      | some verified =>
        cases verified with
        | true =>
          cases hr
          exact .returned rfl
        | false =>
          cases hr
          exact .unverified
    | _ =>
      cases answer with
      | none => cases hr
      | some verified => cases verified <;> cases hr
  | blockNumber answer =>
    cases at_ with
    | finality =>
      cases answer with
      | none =>
        cases hr
        exact .returned rfl
      | some currentBlock =>
        simp only [resume] at hr
        split at hr
        · rename_i hfinal
          cases hhash : event.messageHash setup.ethers with
          | ok messageHash =>
            rw [hhash] at hr
            cases hr
            exact .final (blockFinality_iff.mp hfinal) hhash
          | error e =>
            rw [hhash] at hr
            cases hr
            exact .returned rfl
        · cases hr
          exact .returned rfl
    | _ => cases hr
  | relay response =>
    cases at_ with
    | relay messageHash =>
      cases hr
      exact .signed messageHash response
    | _ => cases hr
  | proof response =>
    cases at_ with
    | proof messageHash relay =>
      cases hr
      exact .proved messageHash relay response
    | _ => cases hr
  | sent sending =>
    cases at_ with
    | send request =>
      simp only [resume] at hr
      cases hcall : setup.call? request with
      | none =>
        rw [hcall] at hr
        cases hr
        exact .returned rfl
      | some call =>
        rw [hcall] at hr
        cases sending with
        | replied =>
          cases hr
          exact .sent hcall
        | lost =>
          cases hr
          exact .lost hcall
        | refused =>
          cases hr
          exact .returned rfl
    | _ => cases hr
  | receipt =>
    cases at_ with
    | wait =>
      cases hr
      exact .returned rfl
    | _ => cases hr

end

/-- what one step of the machine does -/
inductive Stepped {ε Digest : Type} [DecidableEq Digest] (setup : Setup ε Digest)
    (encode : Digest → Bytes) (s : WorkerSys Digest) :
    WorkerAction Digest → WorkerSys Digest → Prop
  | started {log : EthersLog} {event : PacketSent Digest}
      (h : parsePacketSentLog setup.ethers setup.abi log = .ok event) :
      Stepped setup encode s (.log log)
        { s with handlers := s.handlers ++ [{ event, stage := .verified }] }
  | ignored (log : EthersLog) : Stepped setup encode s (.log log) s
  | resumed {i : Nat} {h : Handler Digest} {answer : Answer} {stage : Stage Digest}
      {call? : Option (Submission Digest)} (hi : s.handlers[i]? = some h)
      (hr : Resumed setup h.event h.stage answer stage call?) :
      Stepped setup encode s (.answer i answer)
        { s with
          handlers := s.handlers.set i { h with stage }
          txs := s.txs ++ (call?.map fun call => { handler := i, call, mined := none }).toList }
  | accepted {k : Nat} {block : DvnBlock} {tx : Tx Digest} (hk : s.txs[k]? = some tx)
      (hpending : tx.mined = none) (hnew : s.dvn.verified tx.call.packetId = false)
      (hattested : Attested encode block tx.call.toAttestation) :
      Stepped setup encode s (.mine k block false)
        { s with txs := s.txs.set k { tx with mined := some true }, dvn := s.dvn.submitted tx.call }
  | reverted {k : Nat} {block : DvnBlock} {outOfGas : Bool} {tx : Tx Digest}
      (hk : s.txs[k]? = some tx) (hpending : tx.mined = none) :
      Stepped setup encode s (.mine k block outOfGas)
        { s with txs := s.txs.set k { tx with mined := some false } }
  | submitted {block : DvnBlock} {call : Submission Digest} {dvn : Dvn Digest}
      (h : Dvn.step encode s.dvn (block, call) = some dvn) :
      Stepped setup encode s (.submit block call) { s with dvn }

section
variable {ε Digest : Type} [DecidableEq Digest] {setup : Setup ε Digest}
  {encode : Digest → Bytes} {s s' : WorkerSys Digest} {a : WorkerAction Digest} {dvn : Dvn Digest}
  {block : DvnBlock} {call : Submission Digest}

theorem callDvn_cases (block : DvnBlock) (dvn : Dvn Digest) (call : Submission Digest) :
    (callDvn encode block dvn call = (true, dvn.submitted call) ∧
      dvn.verified call.packetId = false ∧ Attested encode block call.toAttestation) ∨
    callDvn encode block dvn call = (false, dvn) := by
  unfold callDvn
  cases h : submitVerification encode block dvn call with
  | ok dvn' =>
    obtain ⟨hnew, hattested, rfl⟩ := submitVerification_eq_ok.mp h
    exact .inl ⟨rfl, hnew, hattested⟩
  | error e => exact .inr rfl

theorem WorkerSys.step_stepped (h : WorkerSys.step setup encode s a = some s') :
    Stepped setup encode s a s' := by
  cases a with
  | log log =>
    simp only [step] at h
    cases hparse : parsePacketSentLog setup.ethers setup.abi log with
    | ok event =>
      rw [hparse] at h
      cases h
      exact .started hparse
    | error e =>
      rw [hparse] at h
      cases h
      exact .ignored log
  | answer i answer =>
    obtain ⟨handler, hi, h⟩ := Option.bind_eq_some_iff.mp h
    obtain ⟨⟨stage, call?⟩, hr, h⟩ := Option.bind_eq_some_iff.mp h
    cases h
    exact .resumed hi (resume_resumed hr)
  | mine k block outOfGas =>
    obtain ⟨tx, hk, h⟩ := Option.bind_eq_some_iff.mp h
    cases hpending : tx.mined with
    | some returned =>
      rw [hpending] at h
      cases h
    | none =>
      rw [hpending] at h
      cases outOfGas with
      | true =>
        cases h
        exact .reverted hk hpending
      | false =>
        rcases @callDvn_cases _ _ encode block s.dvn tx.call with
          ⟨hcall, hnew, hattested⟩ | hcall
        · simp only [Option.isSome_none, Bool.false_eq_true, if_false, hcall] at h
          cases h
          exact .accepted hk hpending hnew hattested
        · simp only [Option.isSome_none, Bool.false_eq_true, if_false, hcall] at h
          cases h
          exact .reverted hk hpending
  | submit block call =>
    cases h
    refine .submitted ?_
    unfold Dvn.step callDvn
    cases submitVerification encode block s.dvn call with
    | ok dvn' => rfl
    | error e => rfl

/-! ## the step, part by part -/

variable {i k : Nat} {h' : Handler Digest} {tx' : Tx Digest}

/-- a handler after the step is an old one, a new one, or the one that resumes -/
theorem Stepped.handlers (hs : Stepped setup encode s a s') (hi : s'.handlers[i]? = some h') :
    s.handlers[i]? = some h' ∨
    (∃ log, a = .log log ∧ parsePacketSentLog setup.ethers setup.abi log = .ok h'.event ∧
      h'.stage = .verified ∧ s.handlers[i]? = none) ∨
    ∃ h answer call?, a = .answer i answer ∧ s.handlers[i]? = some h ∧ h'.event = h.event ∧
      Resumed setup h.event h.stage answer h'.stage call? := by
  cases hs with
  | @started log event hparse =>
    rcases lt_or_ge i s.handlers.length with hlt | hge
    · rw [List.getElem?_append_left hlt] at hi
      exact .inl hi
    · rw [List.getElem?_append_right hge, List.getElem?_singleton] at hi
      split at hi
      · cases hi
        exact .inr (.inl ⟨log, rfl, hparse, rfl, List.getElem?_eq_none hge⟩)
      · cases hi
  | ignored log => exact .inl hi
  | @resumed j h answer stage call? hj hr =>
    rw [List.getElem?_set] at hi
    split at hi
    · rename_i hji
      subst hji
      rw [if_pos (List.getElem?_eq_some_iff.mp hj).1] at hi
      cases hi
      exact .inr (.inr ⟨h, answer, call?, rfl, hj, rfl, hr⟩)
    · exact .inl hi
  | accepted hk hpending hnew hattested => exact .inl hi
  | reverted hk hpending => exact .inl hi
  | submitted hdvn => exact .inl hi

/-- an answer is one to a handler, which is where it resumed to after the step -/
theorem Stepped.answered {answer : Answer} (hs : Stepped setup encode s (.answer i answer) s') :
    ∃ h stage call?, s.handlers[i]? = some h ∧ s'.handlers[i]? = some { h with stage } ∧
      Resumed setup h.event h.stage answer stage call? := by
  cases hs with
  | @resumed j h answer stage call? hj hr =>
    exact ⟨h, stage, call?, hj, List.getElem?_set_self (List.getElem?_eq_some_iff.mp hj).1, hr⟩

/-- no handler goes away, and each keeps its event -/
theorem Stepped.handlers_keep (hs : Stepped setup encode s a s') {h : Handler Digest}
    (hi : s.handlers[i]? = some h) : ∃ h', s'.handlers[i]? = some h' ∧ h'.event = h.event := by
  cases hs with
  | started hparse =>
    exact ⟨h, (List.getElem?_append_left (List.getElem?_eq_some_iff.mp hi).1).trans hi, rfl⟩
  | ignored log => exact ⟨h, hi, rfl⟩
  | @resumed j g answer stage call? hj hr =>
    rcases eq_or_ne j i with rfl | hne
    · cases hj.symm.trans hi
      exact ⟨_, List.getElem?_set_self (List.getElem?_eq_some_iff.mp hi).1, rfl⟩
    · exact ⟨h, (List.getElem?_set_ne hne).trans hi, rfl⟩
  | accepted hk hpending hnew hattested => exact ⟨h, hi, rfl⟩
  | reverted hk hpending => exact ⟨h, hi, rfl⟩
  | submitted hdvn => exact ⟨h, hi, rfl⟩

/-- a transaction after the step is an old one, a new one, or the one that is mined -/
theorem Stepped.txs (hs : Stepped setup encode s a s') (hk : s'.txs[k]? = some tx') :
    s.txs[k]? = some tx' ∨
    (∃ h answer stage, a = .answer tx'.handler answer ∧ s.handlers[tx'.handler]? = some h ∧
      s'.handlers[tx'.handler]? = some { h with stage } ∧
      Resumed setup h.event h.stage answer stage (some tx'.call) ∧
      tx'.mined = none) ∨
    ∃ tx, s.txs[k]? = some tx ∧ tx.mined = none ∧ tx'.handler = tx.handler ∧ tx'.call = tx.call ∧
      (tx'.mined = some false ∨ tx'.mined = some true ∧ s.dvn.verified tx.call.packetId = false ∧
        s'.dvn = s.dvn.submitted tx.call ∧ ∃ block, a = .mine k block false ∧
          Attested encode block tx.call.toAttestation) := by
  cases hs with
  | started hparse => exact .inl hk
  | ignored log => exact .inl hk
  | @resumed j h answer stage call? hj hr =>
    rcases lt_or_ge k s.txs.length with hlt | hge
    · rw [List.getElem?_append_left hlt] at hk
      exact .inl hk
    · rw [List.getElem?_append_right hge] at hk
      cases call? with
      | none => cases hk
      | some call =>
        simp only [Option.map_some, Option.toList_some, List.getElem?_singleton] at hk
        split at hk
        · cases hk
          exact .inr (.inl ⟨h, answer, stage, rfl, hj,
            List.getElem?_set_self (List.getElem?_eq_some_iff.mp hj).1, hr, rfl⟩)
        · cases hk
  | @accepted j block tx hj hpending hnew hattested =>
    rw [List.getElem?_set] at hk
    split at hk
    · rename_i hjk
      subst hjk
      rw [if_pos (List.getElem?_eq_some_iff.mp hj).1] at hk
      cases hk
      exact .inr (.inr ⟨tx, hj, hpending, rfl, rfl, .inr ⟨rfl, hnew, rfl, block, rfl, hattested⟩⟩)
    · exact .inl hk
  | @reverted j block outOfGas tx hj hpending =>
    rw [List.getElem?_set] at hk
    split at hk
    · rename_i hjk
      subst hjk
      rw [if_pos (List.getElem?_eq_some_iff.mp hj).1] at hk
      cases hk
      exact .inr (.inr ⟨tx, hj, hpending, rfl, rfl, .inl rfl⟩)
    · exact .inl hk
  | submitted hdvn => exact .inl hk

/-- what is verified stays so -/
theorem Stepped.verified (hs : Stepped setup encode s a s') {packetId : Digest}
    (h : s.dvn.verified packetId = true) : s'.dvn.verified packetId = true := by
  have hsubmitted : ∀ call : Submission Digest,
      (s.dvn.submitted call).verified packetId = true := by
    intro call
    rw [Dvn.submitted_verified, Function.update_apply]
    split
    · rfl
    · exact h
  cases hs with
  | accepted hk hpending hnew hattested => exact hsubmitted _
  | submitted hdvn =>
    rcases Dvn.step_cases hdvn with ⟨_, _, rfl⟩ | ⟨_, rfl⟩
    · exact hsubmitted _
    · exact h
  | _ => exact h

end

end ZkSymbiotic.DvnWorker
