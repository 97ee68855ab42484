import Mathlib.Algebra.Order.BigOperators.Group.List
import Mathlib.Data.Set.Function
import ZkSymbiotic.Contracts.AppSource

/-!
# Deposit histories

The deposits of a chain, block by block, and what the contract's storage and events are after each
block.

* `DepositHistory.app`               the contract after a block;
* `DepositHistory.lockedTokens_succ`   a block adds what its events lock;
* `lockedTokens_eq`, `lockedTokens_pos`   balances between and after the events of a user;
* `NoCollisions`, `CanonicalChain`   the logs of the blocks and the storage as nodes serve them;
* `CanonicalChain.decode_filtered`   the logs under the filter of a scan decode to the events.
-/

namespace ZkSymbiotic

/-! ## the contract over the blocks -/

/-- the deposits of each block, from block `0` on -/
abbrev DepositHistory := Nat → List DepositTx

/-- a block starts without events -/
def AppSource.newBlock (app : AppSource) : AppSource := { app with events := [] }

/-- the contract after block `n`, with the events of that block -/
def DepositHistory.app (history : DepositHistory) : Nat → AppSource
  | 0 => DepositTx.execAll (history 0) .init
  | n + 1 => DepositTx.execAll (history (n + 1)) (DepositHistory.app history n).newBlock

section
variable (history : DepositHistory)

def DepositHistory.events (n : Nat) : List AppSourceEvent := (history.app n).events

def DepositHistory.lockedTokens (n : Nat) (user : Address) : U256 :=
  (history.app n).lockedTokens user

/-- the contract before block `n` -/
def DepositHistory.before : Nat → AppSource
  | 0 => .init
  | n + 1 => (history.app n).newBlock

theorem DepositHistory.advances (n : Nat) :
    Advances (history.before n) (history.app n) (history.events n) := by
  have h : ∃ l, Advances (history.before n) (history.app n) l := by
    cases n with
    | zero => exact DepositTx.execAll_advances (history 0) .init
    | succ n => exact DepositTx.execAll_advances (history (n + 1)) (history.app n).newBlock
  obtain ⟨l, hl⟩ := h
  have hevents : history.events n = l := by
    cases n with
    | zero => exact hl.events
    | succ n => exact hl.events
  rw [hevents]
  exact hl

theorem DepositHistory.lockedTokens_succ (n : Nat) (user : Address) :
    (history.lockedTokens (n + 1) user).toNat =
      (history.lockedTokens n user).toNat + lockedFor user (history.events (n + 1)) :=
  (history.advances (n + 1)).locked user

end

/-! ## balances between and after events -/

theorem lockedFor_eq_zero {user : Address} {l : List AppSourceEvent}
    (h : ∀ e, .tokensLocked e ∈ l → e.user ≠ user) : lockedFor user l = 0 := by
  refine List.sum_eq_zero fun x hx => ?_
  obtain ⟨event, hmem, rfl⟩ := List.mem_map.mp hx
  cases event with
  | ethDeposited _ _ _ => rfl
  | tokensLocked e => exact if_neg (h e hmem)

theorem lockedFor_pos {e : TokensLocked} {l : List AppSourceEvent} (h : .tokensLocked e ∈ l)
    (hpos : 0 < e.amount.toNat) : 0 < lockedFor e.user l := by
  have hmem : e.amount.toNat ∈ l.map (·.amountFor e.user) :=
    List.mem_map.mpr ⟨.tokensLocked e, h, if_pos rfl⟩
  exact lt_of_lt_of_le hpos (List.single_le_sum (fun _ _ => Nat.zero_le _) _ hmem)

variable {history : DepositHistory}

theorem DepositHistory.lockedTokens_mono {m n : Nat} (h : m ≤ n) (user : Address) :
    (history.lockedTokens m user).toNat ≤ (history.lockedTokens n user).toNat := by
  induction n, h using Nat.le_induction with
  | base => exact Nat.le_refl _
  | succ n _ ih =>
    rw [history.lockedTokens_succ]
    exact le_trans ih (Nat.le_add_right _ _)

/-- without an event of the user between two blocks the balance is the same in both -/
theorem DepositHistory.lockedTokens_eq {m n : Nat} (h : m ≤ n) {user : Address}
    (hno : ∀ k, m < k → k ≤ n → ∀ e, .tokensLocked e ∈ history.events k → e.user ≠ user) :
    history.lockedTokens n user = history.lockedTokens m user := by
  induction n, h using Nat.le_induction with
  | base => rfl
  | succ n hmn ih =>
    have hn := ih fun k hmk hkn => hno k hmk (Nat.le_succ_of_le hkn)
    have hzero : lockedFor user (history.events (n + 1)) = 0 :=
      lockedFor_eq_zero (hno (n + 1) (Nat.lt_succ_of_le hmn) (Nat.le_refl _))
    rw [← hn, ← BitVec.toNat_inj, history.lockedTokens_succ, hzero, Nat.add_zero]

theorem DepositHistory.lockedTokens_pos {m n : Nat} (h : m ≤ n) {e : TokensLocked}
    (he : .tokensLocked e ∈ history.events m) : 0 < (history.lockedTokens n e.user).toNat := by
  have hadv := history.advances m
  have hm : 0 < (history.lockedTokens m e.user).toNat := by
    have hlocked : (history.lockedTokens m e.user).toNat = _ + lockedFor e.user (history.events m) :=
      hadv.locked e.user
    rw [hlocked]
    exact Nat.add_pos_right _ (lockedFor_pos he (hadv.positive e he))
  exact lt_of_lt_of_le hm (history.lockedTokens_mono h e.user)

/-! ## logs and storage -/

def ethDepositedSignature : Bytes := "ETHDeposited(address,uint256,bytes32)".toUTF8.toList

section
variable (keccak256 : Bytes → B256)

def AppSourceEvent.encodeLog (contract : Address) : AppSourceEvent → Log
  | .ethDeposited user amount guid =>
    { address := contract
      topics := [keccak256 ethDepositedSignature, ⟨addressWord user, addressWord_length user⟩]
      data := uintWord amount ++ guid.bytes }
  | .tokensLocked event => event.encodeLog keccak256 contract

/-- the strings that are hashed for the events and for the balances have different hashes -/
def NoCollisions : Prop :=
  Set.InjOn keccak256 ({TokensLocked.signature, ethDepositedSignature} ∪
    Set.range fun user => storageLocationPreimage user sourceContractLockedTokensStorageIndex)

/-- what nodes serve of a chain with the given deposits: the logs of each block, those of the
contract being its events, and the contract's storage after each block, where `lockedTokens` is the
mapping at index `1` -/
structure CanonicalChain (contract : Address) where
  history : DepositHistory
  logs : Nat → List Log
  storage : Nat → B256 → U256
  logs_eq : ∀ n, (logs n).filter (fun log => log.address = contract)
    = (history.events n).map (·.encodeLog keccak256 contract)
  storage_eq : ∀ n user, storage n
    (getStorageLocationForKey keccak256 user sourceContractLockedTokensStorageIndex)
      = history.lockedTokens n user

end

variable {keccak256 : Bytes → B256} {contract : Address}

theorem NoCollisions.location_injective (h : NoCollisions keccak256) : Function.Injective fun user =>
    getStorageLocationForKey keccak256 user sourceContractLockedTokensStorageIndex := by
  intro a b hab
  exact (storageLocationPreimage_inj (h (.inr ⟨a, rfl⟩) (.inr ⟨b, rfl⟩) hab)).1

theorem NoCollisions.signature_ne (h : NoCollisions keccak256) :
    keccak256 ethDepositedSignature ≠ keccak256 TokensLocked.signature := by
  intro heq
  have hsig : ethDepositedSignature = TokensLocked.signature :=
    h (.inl (.inr rfl)) (.inl (.inl rfl)) heq
  exact absurd hsig (by decide +kernel)

/-- the logs that the filter of a scan selects -/
def CanonicalChain.filtered (chain : CanonicalChain keccak256 contract) (n : Nat) : List Log :=
  (chain.logs n).filter fun log =>
    log.address = contract ∧ log.topics.head? = some (keccak256 TokensLocked.signature)

def lockedEvent : AppSourceEvent → Option TokensLocked
  | .ethDeposited _ _ _ => none
  | .tokensLocked e => some e

/-- **the selected logs of a block decode to its `TokensLocked` events** -/
theorem CanonicalChain.decode_filtered {decodeLog : Log → Option TokensLocked}
    (hdecode : ∀ e, decodeLog (e.encodeLog keccak256 contract) = some e)
    (hkeccak : NoCollisions keccak256)
    (chain : CanonicalChain keccak256 contract) (n : Nat) :
    (chain.filtered n).filterMap decodeLog
      = (chain.history.events n).filterMap lockedEvent := by
  have hsplit : chain.filtered n = ((chain.history.events n).map (·.encodeLog keccak256 contract)).filter
      fun log => log.topics.head? = some (keccak256 TokensLocked.signature) := by
    rw [← chain.logs_eq, List.filter_filter]
    simp only [CanonicalChain.filtered, Bool.decide_and, Bool.and_comm]
  rw [hsplit]
  induction chain.history.events n with
  | nil => rfl
  | cons event events ih =>
    rw [List.map_cons]
    cases event with
    | ethDeposited user amount guid =>
      have hdrop : ¬ (AppSourceEvent.encodeLog keccak256 contract
          (.ethDeposited user amount guid)).topics.head? = some (keccak256 TokensLocked.signature) :=
        fun h => hkeccak.signature_ne (Option.some.inj h)
      rw [List.filter_cons_of_neg (by simpa using hdrop), ih]
      rfl
    | tokensLocked e =>
      rw [List.filter_cons_of_pos (by exact decide_eq_true rfl), List.filterMap_cons, ih]
      have hlog : decodeLog (AppSourceEvent.encodeLog keccak256 contract (.tokensLocked e))
          = some e := hdecode e
      rw [hlog]
      rfl

theorem mem_lockedEvents {events : List AppSourceEvent} {e : TokensLocked} :
    e ∈ events.filterMap lockedEvent ↔ .tokensLocked e ∈ events := by
  rw [List.mem_filterMap]
  constructor
  · intro ⟨event, hmem, he⟩
    cases event with
    | ethDeposited _ _ _ => cases he
    | tokensLocked e' =>
      obtain rfl := Option.some.inj he
      exact hmem
  · exact fun h => ⟨_, h, rfl⟩

end ZkSymbiotic
