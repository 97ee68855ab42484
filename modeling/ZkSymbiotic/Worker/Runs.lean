import ZkSymbiotic.Worker.Handlers

/-!
# What the worker gets verified

* `Built`                a request is made of one event and of the answers to one handler;
* `WorkerSys.Inv`        the invariant of the runs, with the actions so far;
* `transactions_bound`   what a transaction of the worker says, and what its acceptance means.
-/

namespace ZkSymbiotic.DvnWorker

section
variable {ε Digest : Type} {setup : Setup ε Digest} {encode : Digest → Bytes}

/-! ## the history of a handler -/

/-- the source block was deep enough when the handler asked -/
def Final (acts : List (WorkerAction Digest)) (i : Nat) (event : PacketSent Digest) : Prop :=
  ∃ currentBlock, .answer i (.blockNumber (some currentBlock)) ∈ acts ∧
    event.blockNumber + 64 ≤ currentBlock

def Signed (acts : List (WorkerAction Digest)) (i : Nat) (relay : RelayResponse) : Prop :=
  ∃ response, .answer i (.relay response) ∈ acts ∧ relay = requestSignature response

/-- a request is made of one event and of the answers to one handler -/
structure Built (setup : Setup ε Digest) (acts : List (WorkerAction Digest)) (i : Nat)
    (event : PacketSent Digest) (request : VerificationRequest Digest) : Prop where
  final : Final acts i event
  packetId : request.packetId = event.packetId
  messageHash : event.messageHash setup.ethers = .ok request.messageHash
  relay : Signed acts i { aggregatedSignature := request.relayProof, epoch := request.epoch }
  proof : ∃ response, .answer i (.proof response) ∈ acts ∧
    (⟨request.zkProof, request.zkInputs⟩ : ZkResponse) = getZkProof setup.golemDbUrl response

/-- what is known where a handler waits -/
def Stage.Holds (setup : Setup ε Digest) (acts : List (WorkerAction Digest)) (i : Nat)
    (event : PacketSent Digest) : Stage Digest → Prop
  | .relay messageHash => Final acts i event ∧ event.messageHash setup.ethers = .ok messageHash
  | .proof messageHash response =>
    Final acts i event ∧ event.messageHash setup.ethers = .ok messageHash ∧ Signed acts i response
  | .send request => Built setup acts i event request
  | _ => True

/-- the handler of the transaction built its call, and waits for the receipt at most -/
structure Tx.Sent (setup : Setup ε Digest) (acts : List (WorkerAction Digest))
    (handlers : List (Handler Digest)) (tx : Tx Digest) : Prop where
  built : ∃ h request, handlers[tx.handler]? = some h ∧
    Built setup acts tx.handler h.event request ∧ setup.call? request = some tx.call
  ended : ∀ h, handlers[tx.handler]? = some h → h.stage = .wait ∨ h.stage = .returned

structure WorkerSys.Inv (setup : Setup ε Digest) (encode : Digest → Bytes)
    (acts : List (WorkerAction Digest)) (s : WorkerSys Digest) : Prop where
  parsed : ∀ (i : Nat) (h : Handler Digest), s.handlers[i]? = some h → ∃ log, .log log ∈ acts ∧
    parsePacketSentLog setup.ethers setup.abi log = .ok h.event
  stages : ∀ (i : Nat) (h : Handler Digest), s.handlers[i]? = some h →
    h.stage.Holds setup acts i h.event
  sent : ∀ tx ∈ s.txs, tx.Sent setup acts s.handlers
  accepted : ∀ (k : Nat) (tx : Tx Digest), s.txs[k]? = some tx → tx.mined = some true →
    s.dvn.verified tx.call.packetId ∧
      ∃ block, .mine k block false ∈ acts ∧ Attested encode block tx.call.toAttestation

variable {acts : List (WorkerAction Digest)} {a : WorkerAction Digest} {s s' : WorkerSys Digest}
  {i : Nat} {event : PacketSent Digest} {request : VerificationRequest Digest}
  {stage stage' : Stage Digest} {answer : Answer} {call? : Option (Submission Digest)}

theorem Final.mono (h : Final acts i event) (a : WorkerAction Digest) :
    Final (acts ++ [a]) i event := by
  obtain ⟨n, hmem, hle⟩ := h
  exact ⟨n, List.mem_append_left _ hmem, hle⟩

theorem Signed.mono {response : RelayResponse} (h : Signed acts i response)
    (a : WorkerAction Digest) : Signed (acts ++ [a]) i response := by
  obtain ⟨data, hmem, heq⟩ := h
  exact ⟨data, List.mem_append_left _ hmem, heq⟩

theorem Built.mono (h : Built setup acts i event request) (a : WorkerAction Digest) :
    Built setup (acts ++ [a]) i event request where
  final := h.final.mono a
  packetId := h.packetId
  messageHash := h.messageHash
  relay := h.relay.mono a
  proof := by
    obtain ⟨data, hmem, heq⟩ := h.proof
    exact ⟨data, List.mem_append_left _ hmem, heq⟩

theorem Stage.Holds.mono (h : stage.Holds setup acts i event) (a : WorkerAction Digest) :
    stage.Holds setup (acts ++ [a]) i event := by
  cases stage with
  | relay messageHash => exact ⟨h.1.mono a, h.2⟩
  | proof messageHash response => exact ⟨h.1.mono a, h.2.1, h.2.2.mono a⟩
  | send request => exact Built.mono h a
  | _ => trivial

/-- where a handler waits next, the new answer is part of what is known -/
theorem Resumed.holds (hr : Resumed setup event stage answer stage' call?)
    (h : stage.Holds setup acts i event) :
    stage'.Holds setup (acts ++ [.answer i answer]) i event := by
  have hlast : WorkerAction.answer i answer ∈ acts ++ [.answer i answer] :=
    List.mem_append_right _ (List.mem_singleton.mpr rfl)
  cases hr with
  | unverified => trivial
  | final hle hhash => exact ⟨⟨_, hlast, hle⟩, hhash⟩
  | signed messageHash response => exact ⟨h.1.mono _, h.2, _, hlast, rfl⟩
  | proved messageHash response data =>
    exact ⟨h.1.mono _, rfl, h.2.1, h.2.2.mono _, _, hlast, rfl⟩
  | sent hcall => trivial
  | lost hcall => trivial
  | returned hawaits => trivial

/-! ## what a request says -/

/-- the strings of a log stand for the place of the log -/
structure EthersLog.At (ethers : Ethers ε Digest) (log : EthersLog) (source : SourceLog) :
    Prop where
  blockHash : getBytes? log.blockHash = some source.blockHash.bytes
  index : log.index = source.logIndex.toNat
  address : getBytes? log.address = some source.emitter.bytes
  isAddress : ethers.isAddress log.address = true

theorem eventOf_messageHash {keccak256 : Bytes → Digest} {ethers : Ethers ε Digest}
    {log : EthersLog} {source : SourceLog} (he : ethers.Documented keccak256)
    (hat : log.At ethers source) (packetId : Digest) (packet : Bytes) (payloadHash : B256) :
    (eventOf log packetId packet payloadHash).messageHash ethers =
      .ok (ZkSymbiotic.buildMessageHash keccak256 (seenPacket packet payloadHash) source) := by
  have hspells : (eventOf log packetId packet payloadHash).Spells ethers
      (seenPacket packet payloadHash) source :=
    { srcEid := rfl
      dstEid := rfl
      packetHeader := getBytes?_hexlify _
      payloadHash := getBytes?_hexlify _
      blockHash := hat.blockHash
      logIndex := hat.index
      emitter := hat.address
      isAddress := hat.isAddress }
  exact hspells.messageHash he

/-- the answers that the proofs of a transaction come from were given to its own handler -/
def Tx.Answered (setup : Setup ε Digest) (acts : List (WorkerAction Digest)) (tx : Tx Digest) :
    Prop :=
  ∃ relay proof, .answer tx.handler (.relay relay) ∈ acts ∧
    .answer tx.handler (.proof proof) ∈ acts ∧
    setup.encodeArguments (requestSignature relay).epoch
      (requestSignature relay).aggregatedSignature (getZkProof setup.golemDbUrl proof).proof
      (getZkProof setup.golemDbUrl proof).inputs =
        .ok (tx.call.epoch, tx.call.relayProof, tx.call.zkProof, tx.call.zkInputs)

theorem Built.answered {tx : Tx Digest} (h : Built setup acts tx.handler event request)
    (hcall : setup.call? request = some tx.call) :
    tx.Answered setup acts ∧ tx.call.packetId = request.packetId ∧
      tx.call.H = request.messageHash := by
  obtain ⟨relay, hrelay, heqr⟩ := h.relay
  obtain ⟨proof, hproof, heqp⟩ := h.proof
  unfold Setup.call? at hcall
  cases hargs : setup.encodeArguments request.epoch request.relayProof request.zkProof
    request.zkInputs with
  | error e =>
    rw [hargs] at hcall
    cases hcall
  | ok args =>
    rw [hargs] at hcall
    have hcall := Option.some.inj hcall
    refine ⟨⟨relay, proof, hrelay, hproof, ?_⟩, ?_, ?_⟩
    · rw [← heqr, ← heqp, ← hcall]
      exact hargs
    · rw [← hcall]
    · rw [← hcall]

/-! ## the invariant -/

theorem Resumed.ended (hr : Resumed setup event stage answer stage' call?)
    (h : stage = .wait ∨ stage = .returned) : stage' = .returned := by
  rcases h with rfl | rfl
  · cases hr
    rfl
  · cases hr with
    | returned hawaits => cases hawaits

theorem WorkerSys.Inv.start : (WorkerSys.start : WorkerSys Digest).Inv setup encode [] where
  parsed := by rintro i h hi; cases hi
  stages := by rintro i h hi; cases hi
  sent := by rintro tx htx; cases htx
  accepted := by rintro k tx hk; cases hk

variable [DecidableEq Digest]

theorem Tx.Sent.step {tx : Tx Digest} (h : tx.Sent setup acts s.handlers)
    (hs : Stepped setup encode s a s') : tx.Sent setup (acts ++ [a]) s'.handlers := by
  obtain ⟨handler, request, hi, hbuilt, hcall⟩ := h.built
  obtain ⟨handler', hi', hevent⟩ := hs.handlers_keep hi
  refine ⟨⟨handler', request, hi', ?_, hcall⟩, fun g' hg' => ?_⟩
  · rw [hevent]
    exact hbuilt.mono a
  · rcases hs.handlers hg' with hold | ⟨_, _, _, _, hnone⟩ | ⟨g, _, _, _, hg, _, hr⟩
    · exact h.ended g' hold
    · cases hi.symm.trans hnone
    · exact .inr (hr.ended (h.ended g hg))

/-- **the step lemma** -/
theorem WorkerSys.Inv.step (h : s.Inv setup encode acts)
    (hs : WorkerSys.step setup encode s a = some s') : s'.Inv setup encode (acts ++ [a]) := by
  have hstep := step_stepped hs
  have hkeep : ∀ b ∈ acts, b ∈ acts ++ [a] := fun b hb => List.mem_append_left _ hb
  have hlast : a ∈ acts ++ [a] := List.mem_append_right _ (List.mem_singleton.mpr rfl)
  refine ⟨?_, ?_, ?_, ?_⟩
  · intro i h' hi
    rcases hstep.handlers hi with hold | ⟨log, rfl, hparse, _⟩ | ⟨g, _, _, _, hg, hevent, _⟩
    · obtain ⟨log, hlog, hparse⟩ := h.parsed i h' hold
      exact ⟨log, hkeep _ hlog, hparse⟩
    · exact ⟨log, hlast, hparse⟩
    · obtain ⟨log, hlog, hparse⟩ := h.parsed i g hg
      exact ⟨log, hkeep _ hlog, hevent ▸ hparse⟩
  · intro i h' hi
    rcases hstep.handlers hi with hold | ⟨_, _, _, hnew, _⟩ | ⟨g, _, _, rfl, hg, hevent, hr⟩
    · exact (h.stages i h' hold).mono a
    · rw [hnew]
      trivial
    · rw [hevent]
      exact hr.holds (h.stages i g hg)
  · intro tx' htx
    obtain ⟨k, hk⟩ := List.mem_iff_getElem?.mp htx
    rcases hstep.txs hk with hold | ⟨g, _, _, rfl, hg, hg', hr, _⟩ |
      ⟨tx, hold, _, hhandler, hcall, _⟩
    · exact (h.sent tx' (List.mem_of_getElem? hold)).step hstep
    · -- the handler that sends holds the request
      have hstage := h.stages _ g hg
      generalize hst : g.stage = stage at hr hstage
      cases hr with
      | @sent request call hcall =>
        refine ⟨⟨_, request, hg', Built.mono hstage _, hcall⟩, fun g₁ hg₁ => ?_⟩
        obtain rfl := Option.some.inj (hg'.symm.trans hg₁)
        exact .inl rfl
      | @lost request call hcall =>
        refine ⟨⟨_, request, hg', Built.mono hstage _, hcall⟩, fun g₁ hg₁ => ?_⟩
        obtain rfl := Option.some.inj (hg'.symm.trans hg₁)
        exact .inr rfl
    · have hsent := (h.sent tx (List.mem_of_getElem? hold)).step hstep
      refine ⟨?_, ?_⟩
      · rw [hhandler, hcall]
        exact hsent.built
      · rw [hhandler]
        exact hsent.ended
  · intro k tx' hk hmined
    have hmono : ∀ tx : Tx Digest, s.txs[k]? = some tx → tx.mined = some true →
        s'.dvn.verified tx.call.packetId ∧ ∃ block, .mine k block false ∈ acts ++ [a] ∧
          Attested encode block tx.call.toAttestation := by
      intro tx hold hm
      obtain ⟨hv, block, hmem, hattested⟩ := h.accepted k tx hold hm
      exact ⟨hstep.verified hv, block, hkeep _ hmem, hattested⟩
    rcases hstep.txs hk with hold | ⟨_, _, _, _, _, _, _, hnone⟩ |
      ⟨tx, hold, _, _, hcall, hfalse | ⟨_, _, hdvn, block, rfl, hattested⟩⟩
    · exact hmono tx' hold hmined
    · rw [hnone] at hmined
      cases hmined
    · rw [hfalse] at hmined
      cases hmined
    · rw [hcall, hdvn, Dvn.submitted_verified]
      exact ⟨Function.update_self .., block, hlast, hattested⟩

theorem WorkerSys.run_inv (h : (step setup encode).run .start acts = some s) :
    s.Inv setup encode acts :=
  Machine.run_inv_history (J := fun acts s => s.Inv setup encode acts)
    (fun _ _ _ _ hinv hs => hinv.step hs) Inv.start h

/-- **one packet in every transaction**: however the handlers interleave, the packet id and the hash
in a transaction of the worker are those of one log that was delivered, whose block had 64
confirmations when the handler asked; the proofs are the answers that this handler got; and where
the call returned, that hash was attested -/
theorem transactions_bound {keccak256 : Bytes → Digest}
    (he : setup.ethers.Documented keccak256) (ha : setup.abi.Documented)
    (hlogs : ∀ log, .log log ∈ acts → ∃ source, log.At setup.ethers source)
    (h : (WorkerSys.step setup encode).run .start acts = some s) (k : Nat) (tx : Tx Digest)
    (hk : s.txs[k]? = some tx) :
    (∃ log packet payloadHash source, .log log ∈ acts ∧ setup.abi.Carries log packet payloadHash ∧
      log.At setup.ethers source ∧
      tx.call.packetId =
        ZkSymbiotic.generatePacketId keccak256 (seenPacket packet payloadHash) ∧
      tx.call.H =
        ZkSymbiotic.buildMessageHash keccak256 (seenPacket packet payloadHash) source ∧
      ∃ currentBlock, .answer tx.handler (.blockNumber (some currentBlock)) ∈ acts ∧
        log.blockNumber + 64 ≤ currentBlock) ∧
    tx.Answered setup acts ∧
    (tx.mined = some true → ∃ block, .mine k block false ∈ acts ∧
      Attested encode block tx.call.toAttestation) := by
  have hinv := WorkerSys.run_inv h
  obtain ⟨g, request, hg, hbuilt, hcall⟩ := (hinv.sent tx (List.mem_of_getElem? hk)).built
  obtain ⟨log, hlog, hparse⟩ := hinv.parsed _ g hg
  obtain ⟨packet, payloadHash, hcarries⟩ := carries_of_parse ha hparse
  obtain ⟨source, hat⟩ := hlogs log hlog
  have hevent := Except.ok.inj (hparse.symm.trans (parse_of_carries he ha hcarries))
  obtain ⟨hanswered, hid, hH⟩ := hbuilt.answered hcall
  refine ⟨⟨log, packet, payloadHash, source, hlog, hcarries, hat, ?_, ?_, ?_⟩, hanswered, ?_⟩
  · rw [hid, hbuilt.packetId, hevent]
    rfl
  · have hhash := hbuilt.messageHash
    rw [hevent, eventOf_messageHash he hat] at hhash
    rw [hH]
    exact (Except.ok.inj hhash).symm
  · obtain ⟨currentBlock, hmem, hle⟩ := hbuilt.final
    rw [hevent] at hle
    exact ⟨currentBlock, hmem, hle⟩
  · intro hmined
    obtain ⟨_, block, hmem, hattested⟩ := hinv.accepted k tx hk hmined
    exact ⟨block, hmem, hattested⟩

/-! ## handlers of one packet -/

/-- the request of a handler that got through -/
def requestOf (setup : Setup ε Digest) (event : PacketSent Digest) (messageHash : Digest)
    (relay proof : Option Js) : VerificationRequest Digest where
  packetId := event.packetId
  messageHash := messageHash
  epoch := (requestSignature relay).epoch
  relayProof := (requestSignature relay).aggregatedSignature
  zkProof := (getZkProof setup.golemDbUrl proof).proof
  zkInputs := (getZkProof setup.golemDbUrl proof).inputs

omit [DecidableEq Digest] in
theorem call?_of {messageHash : Digest} {relay proof : Option Js} {epoch : U48}
    {relayProof zkProof : Bytes} {zkInputs : ZkInputs}
    (h : setup.encodeArguments (requestSignature relay).epoch
      (requestSignature relay).aggregatedSignature (getZkProof setup.golemDbUrl proof).proof
      (getZkProof setup.golemDbUrl proof).inputs = .ok (epoch, relayProof, zkProof, zkInputs)) :
    setup.call? (requestOf setup event messageHash relay proof) = some {
      packetId := event.packetId, H := messageHash, epoch, relayProof, zkProof, zkInputs } := by
  unfold Setup.call? requestOf
  rw [h]

/-- handlers of one event at their stages, with the transactions they sent -/
def crew (event : PacketSent Digest) (stages : List (Stage Digest)) (txs : List (Tx Digest))
    (dvn : ZkSymbiotic.Dvn Digest) : WorkerSys Digest where
  handlers := stages.map fun stage => { event, stage }
  txs := txs
  dvn := dvn

theorem crew_log {stages : List (Stage Digest)} {txs : List (Tx Digest)}
    {dvn : ZkSymbiotic.Dvn Digest} {log : EthersLog}
    (h : parsePacketSentLog setup.ethers setup.abi log = .ok event) :
    WorkerSys.step setup encode (crew event stages txs dvn) (.log log) = some
      (crew event (stages ++ [.verified]) txs dvn) := by
  simp only [WorkerSys.step, h, crew, List.map_append, List.map_cons, List.map_nil]

theorem start_log {log : EthersLog}
    (h : parsePacketSentLog setup.ethers setup.abi log = .ok event) :
    WorkerSys.step setup encode .start (.log log) = some (crew event [.verified] [] .init) := by
  show WorkerSys.step setup encode (crew event [] [] .init) (.log log) = _
  exact crew_log h

theorem crew_answer {stages : List (Stage Digest)} {txs : List (Tx Digest)}
    {dvn : ZkSymbiotic.Dvn Digest} (hi : stages[i]? = some stage)
    (hr : resume setup { event, stage } answer = some (stage', call?)) :
    WorkerSys.step setup encode (crew event stages txs dvn) (.answer i answer) = some
      (crew event (stages.set i stage')
        (txs ++ (call?.map fun call => { handler := i, call, mined := none }).toList) dvn) := by
  have hhandler : (crew event stages txs dvn).handlers[i]? = some { event, stage } := by
    simp only [crew, List.getElem?_map, hi, Option.map_some]
  show ((crew event stages txs dvn).handlers[i]?).bind _ = _
  rw [hhandler]
  show (resume setup { event, stage } answer).bind _ = _
  rw [hr]
  simp only [crew, List.map_set, Option.pure_def, Option.bind_some]

theorem crew_mine {stages : List (Stage Digest)} {txs : List (Tx Digest)}
    {dvn dvn' : ZkSymbiotic.Dvn Digest} {k handler : Nat} {call : Submission Digest}
    {block : DvnBlock} {returned : Bool} (hk : txs[k]? = some { handler, call, mined := none })
    (hcall : callDvn encode block dvn call = (returned, dvn')) :
    WorkerSys.step setup encode (crew event stages txs dvn) (.mine k block false) = some
      (crew event stages (txs.set k { handler, call, mined := some returned }) dvn') := by
  simp only [WorkerSys.step, crew, hk, hcall, Option.bind_eq_bind, Option.bind_some,
    Option.isSome_none, Bool.false_eq_true, if_false, Option.pure_def]

theorem callDvn_attested {dvn : ZkSymbiotic.Dvn Digest} {block : DvnBlock}
    {call : Submission Digest} (hnew : dvn.verified call.packetId = false)
    (h : Attested encode block call.toAttestation) :
    callDvn encode block dvn call = (true, dvn.submitted call) := by
  rw [callDvn, submitVerification_eq_ok.mpr ⟨hnew, h, rfl⟩]

theorem callDvn_verified {dvn : ZkSymbiotic.Dvn Digest} {block : DvnBlock}
    {call : Submission Digest} (h : dvn.verified call.packetId = true) :
    callDvn encode block dvn call = (false, dvn) := by
  rcases @callDvn_cases _ _ encode block dvn call with ⟨_, hnew, _⟩ | hcall
  · rw [h] at hnew
    cases hnew
  · exact hcall

theorem run_step {a : WorkerAction Digest} {acts : List (WorkerAction Digest)}
    {s s₁ s₂ : WorkerSys Digest} (h : WorkerSys.step setup encode s a = some s₁)
    (hrest : (WorkerSys.step setup encode).run s₁ acts = some s₂) :
    (WorkerSys.step setup encode).run s (a :: acts) = some s₂ := by
  rw [Machine.run_cons, h]
  exact hrest

omit [DecidableEq Digest] in
theorem resume_final {currentBlock : Nat} {messageHash : Digest}
    (hfinal : event.blockNumber + 64 ≤ currentBlock)
    (hhash : event.messageHash setup.ethers = .ok messageHash) :
    resume setup { event, stage := .finality } (.blockNumber (some currentBlock)) =
      some (.relay messageHash, none) := by
  simp only [resume, blockFinality_iff.mpr hfinal, if_true, hhash]

omit [DecidableEq Digest] in
theorem resume_early {currentBlock : Nat}
    (h : currentBlock < event.blockNumber + 64) :
    resume setup { event, stage := .finality } (.blockNumber (some currentBlock)) =
      some (.returned, none) := by
  have hnot : ¬ blockFinality currentBlock event.blockNumber = true := fun hf =>
    absurd (blockFinality_iff.mp hf) (Nat.not_le.mpr h)
  simp only [resume, hnot, Bool.false_eq_true, if_false]

omit [DecidableEq Digest] in
theorem resume_proof {messageHash : Digest} {relay proof : Option Js} :
    resume setup { event, stage := .proof messageHash (requestSignature relay) } (.proof proof) =
      some (.send (requestOf setup event messageHash relay proof), none) := rfl

omit [DecidableEq Digest] in
theorem resume_replied {call : Submission Digest} (h : setup.call? request = some call) :
    resume setup { event, stage := .send request } (.sent .replied) =
      some (.wait, some call) := by
  simp only [resume, h]

omit [DecidableEq Digest] in
theorem resume_lost {call : Submission Digest} (h : setup.call? request = some call) :
    resume setup { event, stage := .send request } (.sent .lost) =
      some (.returned, some call) := by
  simp only [resume, h]

/-- one log is delivered twice; the handlers overtake each other, the second one does not hear of the
transaction it sent, and that one is mined -/
def twoHandlers (log : EthersLog) (currentBlock : Nat) (relay : Option Js) (block : DvnBlock) :
    List (WorkerAction Digest) :=
  [.log log, .log log, .answer 0 (.verified (some false)), .answer 1 (.verified (some false)),
    .answer 1 (.blockNumber (some currentBlock)), .answer 0 (.blockNumber (some (currentBlock + 1))),
    .answer 0 (.relay none), .answer 1 (.relay relay), .answer 1 (.proof none),
    .answer 0 (.proof none), .answer 1 (.sent .lost), .answer 0 (.sent .replied),
    .mine 0 block false]

theorem twoHandlers_run {log : EthersLog} {currentBlock : Nat} {relay : Option Js}
    {block : DvnBlock} {messageHash : Digest} {call call' : Submission Digest}
    (hparse : parsePacketSentLog setup.ethers setup.abi log = .ok event)
    (hfinal : event.blockNumber + 64 ≤ currentBlock)
    (hhash : event.messageHash setup.ethers = .ok messageHash)
    (hcall : setup.call? (requestOf setup event messageHash none none) = some call)
    (hcall' : setup.call? (requestOf setup event messageHash relay none) = some call')
    (hattested : Attested encode block call'.toAttestation) :
    (WorkerSys.step setup encode).run .start (twoHandlers log currentBlock relay block) = some
      (crew event [.wait, .returned]
        [{ handler := 1, call := call', mined := some true }, { handler := 0, call, mined := none }]
        (ZkSymbiotic.Dvn.init.submitted call')) := by
  refine run_step (start_log hparse) ?_
  refine run_step (crew_log hparse) ?_
  refine run_step (crew_answer (i := 0) rfl rfl) ?_
  refine run_step (crew_answer (i := 1) rfl rfl) ?_
  refine run_step (crew_answer (i := 1) rfl (resume_final hfinal hhash)) ?_
  refine run_step (crew_answer (i := 0) rfl (resume_final (Nat.le_succ_of_le hfinal) hhash)) ?_
  refine run_step (crew_answer (i := 0) rfl rfl) ?_
  refine run_step (crew_answer (i := 1) rfl rfl) ?_
  refine run_step (crew_answer (i := 1) rfl resume_proof) ?_
  refine run_step (crew_answer (i := 0) rfl resume_proof) ?_
  refine run_step (crew_answer (i := 1) rfl (resume_lost hcall')) ?_
  refine run_step (crew_answer (i := 0) rfl (resume_replied hcall)) ?_
  exact run_step (crew_mine rfl (callDvn_attested rfl hattested)) rfl

/-- a handler that asks too early returns -/
theorem early_run {log : EthersLog} {currentBlock : Nat}
    (hparse : parsePacketSentLog setup.ethers setup.abi log = .ok event)
    (hearly : currentBlock < event.blockNumber + 64) :
    (WorkerSys.step setup encode).run .start
      [.log log, .answer 0 (.verified (some false)), .answer 0 (.blockNumber (some currentBlock))] =
        some (crew event [.returned] [] .init) := by
  refine run_step (start_log hparse) ?_
  refine run_step (crew_answer (i := 0) rfl rfl) ?_
  exact run_step (crew_answer (i := 0) rfl (resume_early hearly)) rfl

end

/-! ## a concrete worker -/

namespace Devnet
open Golem.TypeScript (property)

def uint? (bound : Nat) : Js → Option Nat
  | some (.int (.ofNat n)) => if n < bound then some n else none
  | _ => none

def bytes? : Js → Option Bytes
  | some (.string s) => getBytes? s
  | _ => none

def fixed? (n : Nat) (v : Js) : Option (FixedBytes n) :=
  (bytes? v).bind fun bytes => if h : bytes.length = n then some ⟨bytes, h⟩ else none

def zkInputs? (v : Js) : Option ZkInputs := do
  let v ← v
  return { slot := .ofNat (← uint? (2^64) (property v "slot"))
           blockHash := ← fixed? 32 (property v "blockHash")
           receiptsRoot := ← fixed? 32 (property v "receiptsRoot")
           emitter := ← fixed? 20 (property v "emitter")
           topicsHash := ← fixed? 32 (property v "topicsHash")
           logIndex := .ofNat (← uint? (2^32) (property v "logIndex"))
           minFinality := .ofNat (← uint? (2^64) (property v "minFinality")) }

/-- without the proof service -/
def setup : Setup Unit Bytes where
  ethers := ethers
  abi := abi
  golemDbUrl := none
  encodeArguments := fun epoch relayProof zkProof zkInputs => Except.okOr () do
    return (.ofNat 48 (← uint? (2^48) epoch), ← bytes? relayProof, ← bytes? zkProof,
      ← zkInputs? zkInputs)

/-- everything is signed and proved -/
def lenient : DvnBlock where
  timestamp := 0
  settlement := {
    verifyQuorumSigAt := fun _ _ _ _ _ _ => .ok true
    getRequiredKeyTagFromValSetHeaderAt := fun _ => .ok .zero
    getQuorumThresholdFromValSetHeaderAt := fun _ => .ok 1
    getCaptureTimestampFromValSetHeaderAt := fun _ => .ok 0 }
  zkVerifier := { verifySourceEvent := fun _ _ => .ok true }

theorem lenient_attested {encode : Bytes → Bytes} {attestation : Attestation Bytes}
    (h : attestation.epoch = 1) : Attested encode lenient attestation where
  inTime := ⟨by rw [h]; decide, 0, rfl, .inl rfl⟩
  quorum := ⟨.zero, 1, rfl, rfl, rfl⟩
  zk := rfl

def packet : Packet := seenPacket (longPacket 1) .zero
def source : SourceLog := { blockHash := .zero, logIndex := 7, emitter := .zero }

theorem packetSentLog_at (packet : Bytes) : (packetSentLog packet).At setup.ethers source where
  blockHash := getBytes?_hexlify _
  index := rfl
  address := getBytes?_hexlify _
  isAddress := ethers_documented.isAddress .zero

/-- what the mock signature and the stub proof are encoded to -/
def mockCall : Submission Bytes where
  packetId := []
  H := []
  epoch := 1
  relayProof := List.replicate 96 0
  zkProof := List.replicate 128 0
  zkInputs := { slot := 1000, blockHash := .zero, receiptsRoot := .zero, emitter := .zero,
                topicsHash := .zero, logIndex := 0, minFinality := 64 }

theorem bytes?_zeros (n : Nat) : bytes? (some (.string (zeros n))) = some (List.replicate n 0) := by
  rw [zeros_eq]
  exact getBytes?_hexlify _

theorem fixed?_zeros (n : Nat) : fixed? n (some (.string (zeros n))) = some .zero := by
  rw [fixed?, bytes?_zeros]
  exact dif_pos List.length_replicate

theorem zkInputs?_stub : zkInputs? getStubProof.inputs = some mockCall.zkInputs := by
  have hproperties : ∀ v, getStubProof.inputs = some v →
      property v "slot" = some (.int 1000) ∧ property v "blockHash" = some (.string (zeros 32)) ∧
      property v "receiptsRoot" = some (.string (zeros 32)) ∧
      property v "emitter" = some (.string (zeros 20)) ∧
      property v "topicsHash" = some (.string (zeros 32)) ∧
      property v "logIndex" = some (.int 0) ∧ property v "minFinality" = some (.int 64) := by
    intro v hv
    cases hv
    exact ⟨rfl, rfl, rfl, rfl, rfl, rfl, rfl⟩
  obtain ⟨v, hv⟩ : ∃ v, getStubProof.inputs = some v := ⟨_, rfl⟩
  obtain ⟨h1, h2, h3, h4, h5, h6, h7⟩ := hproperties v hv
  rw [zkInputs?, hv]
  simp only [Option.bind_eq_bind, Option.bind_some, h1, h2, h3, h4, h5, h6, h7, fixed?_zeros]
  rfl

theorem encodeArguments_eq {epoch relayProof zkProof zkInputs : Js} {n : Nat} {bytes bytes' : Bytes}
    {inputs : ZkInputs} (hepoch : uint? (2^48) epoch = some n)
    (hrelay : bytes? relayProof = some bytes) (hproof : bytes? zkProof = some bytes')
    (hinputs : zkInputs? zkInputs = some inputs) :
    setup.encodeArguments epoch relayProof zkProof zkInputs =
      .ok (.ofNat 48 n, bytes, bytes', inputs) := by
  simp only [setup, hepoch, hrelay, hproof, hinputs, Option.bind_eq_bind, Option.bind_some]
  rfl

theorem call?_mock (event : PacketSent Bytes) (messageHash : Bytes) :
    setup.call? (requestOf setup event messageHash none none) =
      some { mockCall with packetId := event.packetId, H := messageHash } :=
  call?_of (encodeArguments_eq rfl (bytes?_zeros 96) (bytes?_zeros 128) zkInputs?_stub)

/-- an answer of the relay -/
def signed : Option Js :=
  some (some (.object [("signature", .string (hexlify [1])), ("epoch", .int 1)]))

theorem call?_signed (event : PacketSent Bytes) (messageHash : Bytes) :
    setup.call? (requestOf setup event messageHash signed none) =
      some { mockCall with packetId := event.packetId, H := messageHash, relayProof := [1] } := by
  have hsignature : bytes? (requestSignature signed).aggregatedSignature = some [1] :=
    getBytes?_hexlify [1]
  exact call?_of (encodeArguments_eq rfl hsignature (bytes?_zeros 128) zkInputs?_stub)

/-- the log of the packet -/
def packetLog : EthersLog := packetSentLog (longPacket 1)

/-- what the worker reads from it -/
def packetEvent : PacketSent Bytes :=
  eventOf packetLog (ZkSymbiotic.generatePacketId id packet) (longPacket 1) .zero

theorem packetLog_parsed :
    parsePacketSentLog setup.ethers setup.abi packetLog = .ok packetEvent :=
  parse_of_carries ethers_documented abi_documented (longPacket_carries 1)

def packetHash : Bytes := ZkSymbiotic.buildMessageHash id packet source

theorem packetEvent_hash : packetEvent.messageHash setup.ethers = .ok packetHash :=
  eventOf_messageHash ethers_documented (packetSentLog_at (longPacket 1))
    (ZkSymbiotic.generatePacketId id packet) (longPacket 1) .zero

theorem packetEvent_final : packetEvent.blockNumber + 64 ≤ 164 := by
  show 100 + 64 ≤ 164
  decide

/-- the relay answers the second handler only -/
def twice : List (WorkerAction Bytes) := twoHandlers packetLog 164 signed lenient

/-- the call with the mock signature and the one with the signature of the relay -/
def mocked : Submission Bytes :=
  { mockCall with packetId := packetEvent.packetId, H := packetHash }
def relayed : Submission Bytes := { mocked with relayProof := [1] }

def afterTwice : WorkerSys Bytes :=
  crew packetEvent [.wait, .returned]
    [{ handler := 1, call := relayed, mined := some true },
      { handler := 0, call := mocked, mined := none }]
    (ZkSymbiotic.Dvn.init.submitted relayed)

theorem twice_run : (WorkerSys.step setup id).run .start twice = some afterTwice :=
  twoHandlers_run packetLog_parsed packetEvent_final packetEvent_hash (call?_mock _ _)
    (call?_signed _ _) (lenient_attested rfl)

theorem twice_logs (log : EthersLog) (h : .log log ∈ twice) :
    ∃ source, log.At setup.ethers source := by
  simp only [twice, twoHandlers, List.mem_cons, WorkerAction.log.injEq, reduceCtorEq,
    List.not_mem_nil, or_false, or_self] at h
  subst h
  exact ⟨source, packetSentLog_at _⟩

end Devnet

/-- the transaction with the relay's signature, which the second handler sent for a packet that is
longer than what the worker sees -/
theorem transactions_bound_devnet : ∃ s tx,
    (WorkerSys.step Devnet.setup id).run .start Devnet.twice = some s ∧ s.txs[0]? = some tx ∧
    tx.handler = 1 ∧
    (∃ packet payloadHash, tx.call.packetId =
      ZkSymbiotic.generatePacketId id (seenPacket packet payloadHash)) ∧
    ∃ block, .mine 0 block false ∈ Devnet.twice ∧
      Attested id block tx.call.toAttestation := by
  obtain ⟨⟨_, packet, payloadHash, _, _, _, _, hid, _⟩, _, hattested⟩ :=
    transactions_bound Devnet.ethers_documented Devnet.abi_documented Devnet.twice_logs
      Devnet.twice_run 0 _ rfl
  exact ⟨_, _, Devnet.twice_run, rfl, rfl, ⟨packet, payloadHash, hid⟩, hattested rfl⟩

end ZkSymbiotic.DvnWorker
