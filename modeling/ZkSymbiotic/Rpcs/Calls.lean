import ZkSymbiotic.Devnet
import ZkSymbiotic.Lib.Streak
import ZkSymbiotic.Rpcs.Scan

/-!
# The calls of a scan

The scan once more, with every call of `get_logs` that it makes on the way.

* `chunkCalls`, `scanCalls`   the retries of a chunk and the loop over the chunks, with their calls;
* `scanCalls_result`          they return what the scan returns;
* `ExactScan`                 what the calls have to do with the blocks of the range;
* `scan_exact`                every scan is exact.
-/

namespace ZkSymbiotic

/-- a call of `get_logs`: the blocks that are asked for and the answer -/
structure GetLogsCall where
  fromBlock : UInt64
  toBlock : UInt64
  answer : Except String (List Log)

namespace GetLogsCall

def answered (c : GetLogsCall) : Bool := c.answer.isOk

def blocks (c : GetLogsCall) : List Nat := List.Ico c.fromBlock.toNat (c.toBlock.toNat + 1)

/-- the decodable logs of the answer -/
def events (C : Crypto) (c : GetLogsCall) : List TokensLocked :=
  match c.answer with
  | .ok logs => logs.filterMap C.decodeLog
  | .error _ => []

/-- a failed call for these blocks -/
def Failed (start finish : UInt64) (c : GetLogsCall) : Prop :=
  c.fromBlock = start ∧ c.toBlock = finish ∧ ∃ e, c.answer = .error e

theorem Failed.not_answered {start finish : UInt64} {c : GetLogsCall} (h : c.Failed start finish) :
    c.answered = false := by
  obtain ⟨_, _, e, he⟩ := h
  rw [answered, he]
  rfl

end GetLogsCall

section
variable (C : Crypto) (provider : ExecutionRpc) (address : Address)

/-! ## the scan with its calls -/

def getLogsCall (start finish : UInt64) (attempt : Nat) : GetLogsCall where
  fromBlock := start
  toBlock := finish
  answer := provider.getLogs attempt
    { address := address, event := C.keccak256 TokensLocked.signature, fromBlock := start,
      toBlock := finish }

def chunkCalls (start finish : UInt64) :
    Nat → Nat → List GetLogsCall × Except Failure (List TokensLocked)
  | 0, n =>
    ([getLogsCall C provider address start finish n],
      getSourceContractEventChunk C provider address start finish n)
  | retries + 1, n =>
    let call := getLogsCall C provider address start finish n
    match getSourceContractEventChunk C provider address start finish n with
    | .error (.error _) =>
      let rest := chunkCalls start finish retries (n + 1)
      (call :: rest.1, rest.2)
    | result => ([call], result)

def scanCalls (endBlock : UInt64) :
    Nat → UInt64 → List GetLogsCall × Except Failure (List TokensLocked)
  | 0, _ => ([], .error .pending)
  | turns + 1, currentBlock =>
    if currentBlock ≤ endBlock then
      let chunkEnd := min (currentBlock + chunkSize) endBlock
      let chunk := chunkCalls C provider address currentBlock chunkEnd maxRetries 0
      match chunk.2 with
      | .error failure => (chunk.1, .error failure)
      | .ok events =>
        let rest := scanCalls endBlock turns (chunkEnd + 1)
        (chunk.1 ++ rest.1, do
          let more ← rest.2
          pure (events ++ more))
    else ([], .ok [])

theorem chunkCalls_result (start finish : UInt64) (retries : Nat) : ∀ n : Nat,
    (chunkCalls C provider address start finish retries n).2 =
      withRetries (getSourceContractEventChunk C provider address start finish) retries n
    := by
  induction retries with
  | zero => intro n; rfl
  | succ retries ih =>
    intro n
    unfold chunkCalls withRetries
    cases getSourceContractEventChunk C provider address start finish n with
    | ok events => rfl
    | error failure =>
      cases failure with
      | error e => exact ih (n + 1)
      | panic => rfl
      | pending => rfl

theorem scanCalls_result (endBlock : UInt64) (turns : Nat) : ∀ current : UInt64,
    (scanCalls C provider address endBlock turns current).2 =
      getSourceContractEventsLoop C provider address endBlock turns current := by
  induction turns with
  | zero => intro current; rfl
  | succ turns ih =>
    intro current
    unfold scanCalls getSourceContractEventsLoop
    by_cases hle : current ≤ endBlock
    · simp only [if_pos hle, ← chunkCalls_result]
      cases (chunkCalls C provider address current (min (current + chunkSize) endBlock)
        maxRetries 0).2 with
      | error failure => rfl
      | ok events =>
        show (_ >>= _) = _
        rw [ih]
        rfl
    · simp only [if_neg hle]
      rfl

end

/-! ## one chunk -/

section
variable {C : Crypto} {provider : ExecutionRpc} {address : Address}

/-- what the calls for one chunk come to: some failures and an answer, or failures only -/
inductive ChunkCalled (C : Crypto) (start finish : UInt64) (retries : Nat) :
    List GetLogsCall × Except Failure (List TokensLocked) → Prop where
  | answered (failed : List GetLogsCall) (call : GetLogsCall) (few : failed.length ≤ retries)
      (failures : ∀ c ∈ failed, c.Failed start finish) (fromBlock : call.fromBlock = start)
      (toBlock : call.toBlock = finish) (answer : call.answered = true) :
      ChunkCalled C start finish retries (failed ++ [call], .ok (call.events C))
  | failed (calls : List GetLogsCall) (error : Error) (all : calls.length = retries + 1)
      (failures : ∀ c ∈ calls, c.Failed start finish) :
      ChunkCalled C start finish retries (calls, .error (.error error))

theorem ChunkCalled.cons {start finish : UInt64} {retries : Nat} {call : GetLogsCall}
    {rest : List GetLogsCall × Except Failure (List TokensLocked)}
    (h : ChunkCalled C start finish retries rest) (hcall : call.Failed start finish) :
    ChunkCalled C start finish (retries + 1) (call :: rest.1, rest.2) := by
  cases h with
  | answered failed answer few failures fromBlock toBlock answered =>
    exact .answered (call :: failed) answer (Nat.succ_le_succ few)
      (List.forall_mem_cons.mpr ⟨hcall, failures⟩) fromBlock toBlock answered
  | failed calls error all failures =>
    exact .failed (call :: calls) error (congrArg Nat.succ all)
      (List.forall_mem_cons.mpr ⟨hcall, failures⟩)

/-- one attempt: an answer whose logs are decoded, or an error -/
theorem getSourceContractEventChunk_cases (start finish : UInt64) (n : Nat) :
    (∃ logs, (getLogsCall C provider address start finish n).answer = .ok logs ∧
      getSourceContractEventChunk C provider address start finish n =
        .ok ((getLogsCall C provider address start finish n).events C)) ∨
    ∃ error, (getLogsCall C provider address start finish n).Failed start finish ∧
      getSourceContractEventChunk C provider address start finish n
        = .error (.error error) := by
  unfold getSourceContractEventChunk getLogsCall GetLogsCall.events
  cases h : provider.getLogs n ⟨address, C.keccak256 TokensLocked.signature, start, finish⟩ with
  | ok logs => exact .inl ⟨logs, rfl, rfl⟩
  | error e => exact .inr ⟨.msg e, ⟨rfl, rfl, e, rfl⟩, rfl⟩

theorem chunkCalls_called (C : Crypto) (provider : ExecutionRpc) (address : Address)
    (start finish : UInt64) (retries : Nat) : ∀ n : Nat,
    ChunkCalled C start finish retries
      (chunkCalls C provider address start finish retries n) := by
  have hanswered : ∀ (retries n : Nat) {logs : List Log},
      (getLogsCall C provider address start finish n).answer = .ok logs →
        ChunkCalled C start finish retries
          ([getLogsCall C provider address start finish n],
            .ok ((getLogsCall C provider address start finish n).events C)) := by
    intro retries n logs hlogs
    refine .answered [] _ (Nat.zero_le _) (fun c hc => absurd hc List.not_mem_nil) rfl rfl ?_
    rw [GetLogsCall.answered, hlogs]
    rfl
  induction retries with
  | zero =>
    intro n
    unfold chunkCalls
    rcases getSourceContractEventChunk_cases start finish n with
      ⟨logs, hlogs, hchunk⟩ | ⟨error, hfailed, hchunk⟩
    · rw [hchunk]
      exact hanswered 0 n hlogs
    · rw [hchunk]
      exact .failed _ error rfl (List.forall_mem_singleton.mpr hfailed)
  | succ retries ih =>
    intro n
    unfold chunkCalls
    rcases getSourceContractEventChunk_cases start finish n with
      ⟨logs, hlogs, hchunk⟩ | ⟨error, hfailed, hchunk⟩
    · rw [hchunk]
      exact hanswered (retries + 1) n hlogs
    · rw [hchunk]
      exact (ih (n + 1)).cons hfailed

/-! ## the whole scan -/

/-- the calls and the result of a scan from block `start` to block `endBlock` -/
structure ExactScan (C : Crypto) (start endBlock : Nat) (calls : List GetLogsCall)
    (result : Except Failure (List TokensLocked)) : Prop where
  returns : (∃ events, result = .ok events) ∨ ∃ e, result = .error (.error e)
  asked : ∀ c ∈ calls, c.fromBlock.toNat ≤ c.toBlock.toNat ∧
    c.toBlock.toNat ≤ c.fromBlock.toNat + chunkSize.toNat
  fails : (∃ e, result = .error (.error e)) ↔
    ∃ start finish, HasStreak (GetLogsCall.Failed start finish) (1 + maxRetries) calls
  covers : ∀ events, result = .ok events →
    (calls.filter GetLogsCall.answered).flatMap GetLogsCall.blocks = List.Ico start (endBlock + 1)
  finds : ∀ events, result = .ok events →
    events = (calls.filter GetLogsCall.answered).flatMap (GetLogsCall.events C)

theorem ExactScan.nil {start endBlock : Nat} (h : endBlock < start) :
    ExactScan C start endBlock [] (.ok []) where
  returns := .inl ⟨[], rfl⟩
  asked := fun c hc => absurd hc List.not_mem_nil
  fails := by
    refine ⟨fun ⟨e, he⟩ => (nomatch he), fun ⟨start, finish, hstreak⟩ => ?_⟩
    exact absurd hstreak (not_hasStreak_nil (by decide))
  covers := by
    intro events _
    rw [List.Ico.eq_nil_of_le h]
    rfl
  finds := fun events he => (Except.ok.inj he).symm

/-- a chunk that fails to the last attempt ends the scan -/
theorem ExactScan.failed {start finish : UInt64} {endBlock : Nat} {calls : List GetLogsCall}
    {error : Error} (hle : start.toNat ≤ finish.toNat)
    (hsize : finish.toNat ≤ start.toNat + chunkSize.toNat) (all : calls.length = maxRetries + 1)
    (failures : ∀ c ∈ calls, c.Failed start finish) :
    ExactScan C start.toNat endBlock calls (.error (.error error)) where
  returns := .inr ⟨error, rfl⟩
  asked := by
    intro c hc
    obtain ⟨hfrom, hto, _⟩ := failures c hc
    rw [hfrom, hto]
    exact ⟨hle, hsize⟩
  fails := by
    refine ⟨fun _ => ⟨start, finish, ?_⟩, fun _ => ⟨error, rfl⟩⟩
    have hstreak := HasStreak.of_all failures
    rwa [all, Nat.add_comm] at hstreak
  covers := nofun
  finds := nofun

/-- of the calls of a chunk the last one is answered -/
theorem filter_answered {start finish : UInt64} {failed : List GetLogsCall} {call : GetLogsCall}
    (failures : ∀ c ∈ failed, c.Failed start finish) (hanswer : call.answered = true)
    (rest : List GetLogsCall) : ((failed ++ [call]) ++ rest).filter GetLogsCall.answered
      = call :: rest.filter GetLogsCall.answered := by
  have hnone : failed.filter GetLogsCall.answered = [] := by
    refine List.filter_eq_nil_iff.mpr fun c hc => ?_
    rw [(failures c hc).not_answered]
    exact Bool.false_ne_true
  rw [List.filter_append, List.filter_append, hnone, List.filter_singleton, hanswer]
  rfl

/-- the calls of an answered chunk, in front of an exact scan of what is behind the chunk -/
theorem ExactScan.answered {start finish : UInt64} {endBlock : Nat}
    {failed rest : List GetLogsCall} {call : GetLogsCall}
    {result : Except Failure (List TokensLocked)}
    (h : ExactScan C (finish.toNat + 1) endBlock rest result)
    (hle : start.toNat ≤ finish.toNat) (hsize : finish.toNat ≤ start.toNat + chunkSize.toNat)
    (hend : finish.toNat ≤ endBlock) (few : failed.length ≤ maxRetries)
    (failures : ∀ c ∈ failed, c.Failed start finish) (hfrom : call.fromBlock = start)
    (hto : call.toBlock = finish) (hanswer : call.answered = true) :
    ExactScan C start.toNat endBlock ((failed ++ [call]) ++ rest) (do
      let more ← result
      pure (call.events C ++ more)) := by
  have hfilter := filter_answered failures hanswer rest
  have herror : (∃ e, (do
      let more ← result
      pure (call.events C ++ more)) = Except.error (Failure.error e)) ↔
        ∃ e, result = .error (.error e) := by
    refine exists_congr fun e => Except.bind_eq_error.trans ⟨fun h => ?_, .inl⟩
    rcases h with h | ⟨_, _, h⟩
    · exact h
    · exact absurd h Except.pure_ne_error
  refine ⟨?_, ?_, ?_, ?_, ?_⟩
  · rcases h.returns with ⟨more, hmore⟩ | herr
    · exact .inl ⟨_, Except.bind_eq_ok.mpr ⟨more, hmore, rfl⟩⟩
    · exact .inr (herror.mpr herr)
  · intro c hc
    rcases List.mem_append.mp hc with hc | hc
    · have hrange : c.fromBlock = start ∧ c.toBlock = finish := by
        rcases List.mem_append.mp hc with hc | hc
        · exact ⟨(failures c hc).1, (failures c hc).2.1⟩
        · obtain rfl := List.mem_singleton.mp hc
          exact ⟨hfrom, hto⟩
      rw [hrange.1, hrange.2]
      exact ⟨hle, hsize⟩
    · exact h.asked c hc
  · -- the answer ends every streak, and there are too few failures in front of it
    rw [herror, h.fails]
    refine exists_congr fun start' => exists_congr fun finish' => ?_
    have hfew : failed.length < 1 + maxRetries := by omega
    have hcall : ¬ call.Failed start' finish' := fun hf => by
      rw [hf.not_answered] at hanswer
      exact Bool.false_ne_true hanswer
    rw [List.append_assoc]
    exact (hasStreak_append_cons hfew hcall).symm
  · intro events hevents
    obtain ⟨more, hmore, _⟩ := Except.bind_eq_ok.mp hevents
    rw [hfilter, List.flatMap_cons, h.covers more hmore, GetLogsCall.blocks, hfrom, hto]
    exact List.Ico.append_consecutive (by omega) (by omega)
  · intro events hevents
    obtain ⟨more, hmore, hsum⟩ := Except.bind_eq_ok.mp hevents
    rw [hfilter, List.flatMap_cons, ← h.finds more hmore]
    exact (Except.pure_eq_ok.mp hsum).symm

theorem scanCalls_exact (C : Crypto) (provider : ExecutionRpc) (address : Address)
    {endBlock : UInt64} (hend : InRange endBlock) (turns : Nat) :
    ∀ {current : UInt64}, endBlock.toNat + 1 - current.toNat < turns →
      ExactScan C current.toNat endBlock.toNat
        (scanCalls C provider address endBlock turns current).1
        (scanCalls C provider address endBlock turns current).2 := by
  induction turns with
  | zero => intro current hturns; exact absurd hturns (Nat.not_lt_zero _)
  | succ turns ih =>
    intro current hturns
    unfold scanCalls
    by_cases hle : current ≤ endBlock
    · have hnat : current.toNat ≤ endBlock.toNat := UInt64.le_iff_toNat_le.mp hle
      have hchunkEnd := chunkEnd_toNat hend hle
      have hnext := nextChunk_toNat hend hle
      have hsize : chunkSize.toNat = 100 := rfl
      have hcalled := chunkCalls_called C provider address current
        (min (current + chunkSize) endBlock) maxRetries 0
      rw [if_pos hle]
      simp only
      generalize chunkCalls C provider address current
        (min (current + chunkSize) endBlock) maxRetries 0 = chunk at hcalled
      cases hcalled with
      | answered failed call few failures fromBlock toBlock answer =>
        have hrest : endBlock.toNat + 1 - (min (current + chunkSize) endBlock + 1).toNat
            < turns := by
          omega
        have hexact := ih hrest
        rw [hnext, ← hchunkEnd] at hexact
        exact hexact.answered (by omega) (by omega) (by omega) few failures fromBlock toBlock answer
      | failed calls error all failures =>
        exact .failed (by omega) (by omega) all failures
    · have hlt : endBlock.toNat < current.toNat := UInt64.lt_iff_toNat_lt.mp (UInt64.not_le.mp hle)
      rw [if_neg hle]
      exact .nil hlt

/-- **The chunked and retried scan is one exact scan.**  With a turn for each block it returns; the
ranges it asks for hold a block and reach at most `chunkSize` blocks past their first one; it fails
exactly when some range fails `1 + maxRetries` times in a row; and when it succeeds the answered
ranges, one after the other, are the blocks of the range, and the result is the decodable logs of
these answers, which are the logs of the blocks where the provider's answers are truthful. -/
theorem scan_exact (C : Crypto) (provider : ExecutionRpc) (address : Address)
    (startBlock endBlock : UInt64) (hend : InRange endBlock)
    (hturns : endBlock.toNat + 1 - startBlock.toNat < provider.turns) :
    (scanCalls C provider address endBlock provider.turns startBlock).2
        = getSourceContractEvents C provider address startBlock endBlock ∧
      ExactScan C startBlock.toNat endBlock.toNat
        (scanCalls C provider address endBlock provider.turns startBlock).1
        (getSourceContractEvents C provider address startBlock endBlock) ∧
      ∀ logsAt events, provider.Answers address (C.keccak256 TokensLocked.signature) logsAt →
        getSourceContractEvents C provider address startBlock endBlock = .ok events →
          events = (List.Ico startBlock.toNat (endBlock.toNat + 1)).flatMap fun n =>
            (logsAt n).filterMap C.decodeLog := by
  have hresult : (scanCalls C provider address endBlock provider.turns startBlock).2
      = getSourceContractEvents C provider address startBlock endBlock :=
    scanCalls_result C provider address endBlock provider.turns startBlock
  have hexact := scanCalls_exact C provider address hend provider.turns hturns
  rw [hresult] at hexact
  exact ⟨hresult, hexact, fun _ _ hlogs h => getSourceContractEvents_ok hend hlogs h⟩

/-- a provider that fails every first attempt, on a chain without logs -/
def flakyRpc : ExecutionRpc where
  getLogs := fun attempt _ => if attempt = 0 then .error "busy" else .ok []
  getProof := fun _ _ _ => .error "busy"
  turns := 152
  keyOrder := Shuffle.id

theorem scan_exact_flaky : ExactScan Devnet.crypto 0 150
    (scanCalls Devnet.crypto flakyRpc .zero 150 152 0).1
    (getSourceContractEvents Devnet.crypto flakyRpc .zero 0 150) ∧
    (scanCalls Devnet.crypto flakyRpc .zero 150 152 0).1.length = 4 := by
  refine ⟨(scan_exact Devnet.crypto flakyRpc .zero 0 150 (by decide) (by decide)).2.1, ?_⟩
  rfl

end

end ZkSymbiotic
