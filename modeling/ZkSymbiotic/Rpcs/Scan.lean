import Mathlib.Data.List.Intervals
import ZkSymbiotic.Rpcs.Execution

/-!
# What a scan finds

A provider whose answers list the logs of blocks is scanned chunk by chunk.  The chunks follow each
other without a gap and without an overlap, so a scan that returns has found the events of its range
block by block, each of them once.

* `ExecutionRpc.Answers`          successful answers list, for each block of the range, its logs;
* `getSourceContractEvents_ok`    what a scan returns;
* `getSourceContractEventsLoop_enough`   a provider that never fails is scanned to the end.
-/

namespace ZkSymbiotic

/-- a successful answer to a request for `event` of `address` lists `logsAt` of the blocks of the
range, in their order -/
def ExecutionRpc.Answers (provider : ExecutionRpc) (address : Address) (event : B256)
    (logsAt : Nat → List Log) : Prop :=
  ∀ attempt start finish logs,
    provider.getLogs attempt ⟨address, event, start, finish⟩ = .ok logs →
      logs = (List.Ico start.toNat (finish.toNat + 1)).flatMap logsAt

/-- block numbers below this bound do not wrap in the scan -/
def InRange (endBlock : UInt64) : Prop := endBlock.toNat + 100 < 2^64

instance (endBlock : UInt64) : Decidable (InRange endBlock) := inferInstanceAs (Decidable (_ < _))

/-! ## one chunk -/

theorem chunkEnd_toNat {current endBlock : UInt64} (hend : InRange endBlock)
    (h : current ≤ endBlock) : (min (current + chunkSize) endBlock).toNat
      = min (current.toNat + 100) endBlock.toNat := by
  have hle : current.toNat ≤ endBlock.toNat := UInt64.le_iff_toNat_le.mp h
  have hsum : (current + chunkSize).toNat = current.toNat + 100 := by
    have hlt : current.toNat + 100 < 2^64 := lt_of_le_of_lt (Nat.add_le_add_right hle 100) hend
    rw [UInt64.toNat_add]
    exact Nat.mod_eq_of_lt hlt
  show (if current + chunkSize ≤ endBlock then current + chunkSize else endBlock).toNat = _
  by_cases hmin : current + chunkSize ≤ endBlock
  · have hnat := UInt64.le_iff_toNat_le.mp hmin
    rw [if_pos hmin]
    omega
  · have hnat := UInt64.lt_iff_toNat_lt.mp (UInt64.not_le.mp hmin)
    rw [if_neg hmin]
    omega

/-- the next chunk begins right after this one -/
theorem nextChunk_toNat {current endBlock : UInt64} (hend : InRange endBlock)
    (h : current ≤ endBlock) : (min (current + chunkSize) endBlock + 1).toNat
      = min (current.toNat + 100) endBlock.toNat + 1 := by
  have hbound : endBlock.toNat + 100 < 2^64 := hend
  have hlt : min (current.toNat + 100) endBlock.toNat + 1 < 2^64 := by omega
  rw [UInt64.toNat_add, chunkEnd_toNat hend h]
  exact Nat.mod_eq_of_lt hlt

theorem withRetries_ok {α : Type} {attempt : Nat → Except Failure α} {retries n : Nat} {a : α}
    (h : withRetries attempt retries n = .ok a) : ∃ k, attempt k = .ok a := by
  induction retries generalizing n with
  | zero => exact ⟨n, h⟩
  | succ retries ih =>
    unfold withRetries at h
    cases hn : attempt n with
    | ok b =>
      rw [hn] at h
      exact ⟨n, hn.trans h⟩
    | error failure =>
      rw [hn] at h
      cases failure with
      | error e => exact ih h
      | panic => cases h
      | pending => cases h

variable {C : Crypto} {provider : ExecutionRpc} {address : Address}
  {logsAt : Nat → List Log}

theorem getSourceContractEventChunk_ok {start finish : UInt64} {attempt : Nat}
    {events : List TokensLocked}
    (hlogs : provider.Answers address (C.keccak256 TokensLocked.signature) logsAt)
    (h : getSourceContractEventChunk C provider address start finish attempt = .ok events) :
    events = (List.Ico start.toNat (finish.toNat + 1)).flatMap fun n =>
      (logsAt n).filterMap C.decodeLog := by
  unfold getSourceContractEventChunk at h
  cases hget : provider.getLogs attempt
      ⟨address, C.keccak256 TokensLocked.signature, start, finish⟩ with
  | ok logs =>
    rw [hget] at h
    obtain rfl := Except.ok.inj h
    rw [hlogs attempt start finish logs hget, List.filterMap_flatMap]
  | error e =>
    rw [hget] at h
    cases h

/-! ## the loop -/

theorem getSourceContractEventsLoop_ok {endBlock : UInt64} (hend : InRange endBlock)
    (hlogs : provider.Answers address (C.keccak256 TokensLocked.signature) logsAt) (turns : Nat) :
    ∀ {current : UInt64} {events : List TokensLocked},
      getSourceContractEventsLoop C provider address endBlock turns current = .ok events →
        events = (List.Ico current.toNat (endBlock.toNat + 1)).flatMap fun n =>
          (logsAt n).filterMap C.decodeLog := by
  induction turns with
  | zero => intro current events h; cases h
  | succ turns ih =>
    intro current events h
    unfold getSourceContractEventsLoop at h
    by_cases hle : current ≤ endBlock
    · rw [if_pos hle] at h
      obtain ⟨first, hfirst, h⟩ := Except.bind_eq_ok.mp h
      obtain ⟨rest, hrest, h⟩ := Except.bind_eq_ok.mp h
      obtain rfl := Except.pure_eq_ok.mp h
      obtain ⟨attempt, hattempt⟩ := withRetries_ok hfirst
      have hnat : current.toNat ≤ endBlock.toNat := UInt64.le_iff_toNat_le.mp hle
      rw [getSourceContractEventChunk_ok hlogs hattempt, ih hrest, chunkEnd_toNat hend hle,
        nextChunk_toNat hend hle, ← List.flatMap_append, List.Ico.append_consecutive]
      · omega
      · omega
    · rw [if_neg hle] at h
      obtain rfl := Except.pure_eq_ok.mp h
      have hlt : endBlock.toNat < current.toNat := UInt64.lt_iff_toNat_lt.mp (UInt64.not_le.mp hle)
      rw [List.Ico.eq_nil_of_le hlt]
      rfl

/-- **a scan that returns has found the events of its range, block by block** -/
theorem getSourceContractEvents_ok {startBlock endBlock : UInt64} {events : List TokensLocked}
    (hend : InRange endBlock)
    (hlogs : provider.Answers address (C.keccak256 TokensLocked.signature) logsAt)
    (h : getSourceContractEvents C provider address startBlock endBlock = .ok events) :
    events = (List.Ico startBlock.toNat (endBlock.toNat + 1)).flatMap fun n =>
      (logsAt n).filterMap C.decodeLog :=
  getSourceContractEventsLoop_ok hend hlogs provider.turns h

/-- a provider that never fails is scanned to the end where there is a turn for each block -/
theorem getSourceContractEventsLoop_enough {endBlock : UInt64} (hend : InRange endBlock)
    (hok : ∀ attempt filter, ∃ logs, provider.getLogs attempt filter = .ok logs) (turns : Nat) :
    ∀ {current : UInt64}, endBlock.toNat + 1 - current.toNat < turns →
      ∃ events, getSourceContractEventsLoop C provider address endBlock turns current
        = .ok events := by
  induction turns with
  | zero => intro current hturns; exact absurd hturns (Nat.not_lt_zero _)
  | succ turns ih =>
    intro current hturns
    unfold getSourceContractEventsLoop
    by_cases hle : current ≤ endBlock
    · have hnat : current.toNat ≤ endBlock.toNat := UInt64.le_iff_toNat_le.mp hle
      obtain ⟨logs, hlogs⟩ := hok 0 ⟨address, C.keccak256 TokensLocked.signature, current,
        min (current + chunkSize) endBlock⟩
      obtain ⟨rest, hrest⟩ : ∃ rest, getSourceContractEventsLoop C provider address endBlock
          turns (min (current + chunkSize) endBlock + 1) = .ok rest := by
        apply ih
        rw [nextChunk_toNat hend hle]
        omega
      have hfirst : withRetries (getSourceContractEventChunk C provider address current
          (min (current + chunkSize) endBlock)) maxRetries 0
            = .ok (logs.filterMap C.decodeLog) := by
        have hchunk : getSourceContractEventChunk C provider address current
            (min (current + chunkSize) endBlock) 0
              = .ok (logs.filterMap C.decodeLog) := by
          unfold getSourceContractEventChunk
          rw [hlogs]
        unfold maxRetries withRetries
        rw [hchunk]
      rw [if_pos hle]
      exact ⟨_, Except.bind_eq_ok.mpr ⟨_, hfirst, Except.bind_eq_ok.mpr ⟨rest, hrest, rfl⟩⟩⟩
    · rw [if_neg hle]
      exact ⟨[], rfl⟩

end ZkSymbiotic
