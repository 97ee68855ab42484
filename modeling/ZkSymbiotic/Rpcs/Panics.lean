import ZkSymbiotic.Rpcs.Order

/-!
# Replies that make the host panic

A reply of a provider is handled by two lookups that are unwrapped: the user of a storage proof, and
the first update of the cold start.

* `getLatestFinalitySlotAndStoreHash`   the cold start;
* `prepare_panics_iff`          preparing panics exactly on a proof that was not asked for;
* `coldStart_panics_iff`        the cold start panics exactly on an empty list of updates;
* `queryWithFallback_ne_panic`  a query panics only where one of its providers does.
-/

namespace ZkSymbiotic

/-! ## the cold start -/

/-- the services that publish checkpoints -/
structure CheckpointFallback where
  build : Except String Unit
  fetchLatestCheckpoint : (chainId : UInt64) → Except String B256

section
variable {S : ConsensusSpec} (H : Helios S)

def getLatestCheckpoint (env : ChainEnv S) (cf : CheckpointFallback) : Except Error B256 := do
  cf.build.mapError fun e => .msg s!"Failed to build checkpoint fallback: {e}"
  let chainId ← env.sourceChainId.mapError
    fun e => .msg s!"SOURCE_CHAIN_ID environment variable not set: {e}"
  let chainId ← (env.parseChainId chainId).mapError
    fun e => .msg s!"Invalid chain ID format: {e}"
  let _ ← (env.fromChainId chainId).mapError
    fun e => .msg s!"Failed to convert chain ID to network: {e}"
  (cf.fetchLatestCheckpoint chainId).mapError
    fun e => .msg s!"Failed to fetch latest checkpoint: {e}"

/-- the first element of the list is unwrapped -/
def getFirstUpdate (rpc : ConsensusRpc S) (slot : UInt64) : Except Failure S.Update := do
  let updates ← (rpc.getUpdates (H.calcSyncPeriod slot) 1).mapError fun e => .error (.msg e)
  Except.okOr .panic updates.head?

def getLatestFinalitySlotAndStoreHash (env : ChainEnv S) (cf : CheckpointFallback)
    (rpc : ConsensusRpc S) : Except Failure (UInt64 × B256) := do
  let latestCheckpoint ← (getLatestCheckpoint env cf).mapError .error
  let (config, store) ← (bootstrapFromCheckpoint env rpc latestCheckpoint).mapError .error
  let slot := store.slot
  let firstUpdate ← getFirstUpdate H rpc slot
  let syncedStore ← (getStoreWithNextSyncCommittee H rpc.expectedCurrentSlot store
    config.genesisRoot config.forks firstUpdate).mapError .error
  let storeHash ← (H.sha256HashHeliosStore syncedStore).mapError fun e => .error (.msg e)
  pure (slot, storeHash)

/-- the query of the proxy for it, which has no backups -/
def coldStart (env : ChainEnv S) (cf : CheckpointFallback) (principal : ConsensusRpc S) :
    Except Failure (UInt64 × B256) :=
  queryWithFallback (fun rpc => if rpc.timely = true
    then getLatestFinalitySlotAndStoreHash H env cf rpc else .error .pending)
    principal [] (Shuffle.id []) 20

/-! ## panics -/

theorem mapError_ne_panic {ε α : Type} {f : ε → Error} {x : Except ε α} :
    x.mapError (fun e => Failure.error (f e)) ≠ .error .panic := by
  intro h
  obtain ⟨e, _, he⟩ := Except.mapError_eq_error.mp h
  cases he

theorem getFirstUpdate_eq_panic {rpc : ConsensusRpc S} {slot : UInt64} :
    getFirstUpdate H rpc slot = .error .panic ↔
      rpc.getUpdates (H.calcSyncPeriod slot) 1 = .ok [] := by
  unfold getFirstUpdate
  rw [Except.bind_eq_error]
  constructor
  · rintro (h | ⟨updates, hupdates, h⟩)
    · exact absurd h mapError_ne_panic
    · obtain rfl := List.head?_eq_none_iff.mp (Except.okOr_eq_error.mp h).1
      exact Except.mapError_eq_ok.mp hupdates
  · intro h
    exact .inr ⟨[], Except.mapError_eq_ok.mpr h, rfl⟩

/-- the checkpoint and the store that the cold start gets to, and no update for it -/
def EmptyUpdates (env : ChainEnv S) (cf : CheckpointFallback) (rpc : ConsensusRpc S) : Prop :=
  ∃ checkpoint config store, getLatestCheckpoint env cf = .ok checkpoint ∧
    bootstrapFromCheckpoint env rpc checkpoint = .ok (config, store) ∧
    rpc.getUpdates (H.calcSyncPeriod store.slot) 1 = .ok []

theorem coldStart_panics_iff {env : ChainEnv S} {cf : CheckpointFallback} {rpc : ConsensusRpc S} :
    getLatestFinalitySlotAndStoreHash H env cf rpc = .error .panic ↔ EmptyUpdates H env cf rpc := by
  constructor
  · intro h
    rcases Except.bind_eq_error.mp h with h | ⟨checkpoint, hcheckpoint, h⟩
    · exact absurd h mapError_ne_panic
    rcases Except.bind_eq_error.mp h with h | ⟨⟨config, store⟩, hstore, h⟩
    · exact absurd h mapError_ne_panic
    rcases Except.bind_eq_error.mp h with h | ⟨firstUpdate, _, h⟩
    · exact ⟨checkpoint, config, store, Except.mapError_eq_ok.mp hcheckpoint,
        Except.mapError_eq_ok.mp hstore, (getFirstUpdate_eq_panic H).mp h⟩
    rcases Except.bind_eq_error.mp h with h | ⟨syncedStore, _, h⟩
    · exact absurd h mapError_ne_panic
    rcases Except.bind_eq_error.mp h with h | ⟨_, _, h⟩
    · exact absurd h mapError_ne_panic
    · exact absurd h Except.pure_ne_error
  · intro ⟨checkpoint, config, store, hcheckpoint, hstore, hupdates⟩
    exact Except.bind_eq_error.mpr (.inr ⟨checkpoint, Except.mapError_eq_ok.mpr hcheckpoint,
      Except.bind_eq_error.mpr (.inr ⟨(config, store), Except.mapError_eq_ok.mpr hstore,
        Except.bind_eq_error.mpr (.inl ((getFirstUpdate_eq_panic H).mpr hupdates))⟩)⟩)

end

/-! ## preparing the storage -/

section
variable {C : Crypto} {address : Address} {provider : ExecutionRpc}

theorem withRetries_ne_panic {α : Type} {attempt : Nat → Except Failure α}
    (h : ∀ n, attempt n ≠ .error .panic) (retries : Nat) : ∀ n : Nat,
    withRetries attempt retries n ≠ .error .panic := by
  induction retries with
  | zero => exact h
  | succ retries ih =>
    intro n
    unfold withRetries
    split
    · exact ih (n + 1)
    · exact h n

theorem getSourceContractEventChunk_ne_panic (start finish : UInt64) (n : Nat) :
    getSourceContractEventChunk C provider address start finish n ≠ .error .panic := by
  unfold getSourceContractEventChunk
  split
  · exact nofun
  · exact nofun

theorem getSourceContractEventsLoop_ne_panic (endBlock : UInt64) (turns : Nat) :
    ∀ current : UInt64,
      getSourceContractEventsLoop C provider address endBlock turns current
        ≠ .error .panic := by
  induction turns with
  | zero => intro current; exact nofun
  | succ turns ih =>
    intro current
    unfold getSourceContractEventsLoop
    by_cases hle : current ≤ endBlock
    · rw [if_pos hle]
      intro h
      rcases Except.bind_eq_error.mp h with h | ⟨events, _, h⟩
      · exact withRetries_ne_panic (getSourceContractEventChunk_ne_panic _ _) _ _ h
      rcases Except.bind_eq_error.mp h with h | ⟨rest, _, h⟩
      · exact ih _ h
      · exact Except.pure_ne_error h
    · rw [if_neg hle]
      exact Except.pure_ne_error

end

section
variable {S : ConsensusSpec} (H : Helios S) (C : Crypto)

/-- a reply with a proof for a key that was not asked for -/
def ExecutionRpc.UnaskedProof (provider : ExecutionRpc) (address : Address)
    (inputBlock outputBlock : UInt64) : Prop :=
  ∃ events reply, provider.Replied C address inputBlock outputBlock events reply ∧
    ∃ proof ∈ reply.storageProof, proof.key ∉ (storageSlotAddressMap C.keccak256 events).keys

theorem toStorageSlot_eq_panic {slots : AList fun _ : B256 => Address}
    {proof : EIP1186StorageProof} :
    toStorageSlot slots proof = .error .panic ↔ proof.key ∉ slots.keys := by
  have hkeys : slots.lookup proof.key = none ↔ proof.key ∉ slots.keys := by
    rw [← AList.mem_keys]
    exact AList.lookup_eq_none
  unfold toStorageSlot
  rw [← hkeys]
  cases slots.lookup proof.key with
  | none => exact ⟨fun _ => rfl, fun _ => rfl⟩
  | some user => exact ⟨nofun, nofun⟩

theorem contractStorage_panics_iff {provider : ExecutionRpc} {address : Address}
    {inputBlock outputBlock : UInt64} :
    provider.contractStorage C address inputBlock outputBlock = .error .panic ↔
      provider.UnaskedProof C address inputBlock outputBlock := by
  constructor
  · intro h
    unfold ExecutionRpc.contractStorage at h
    rcases Except.bind_eq_error.mp h with h | ⟨events, hevents, h⟩
    · exact absurd h (getSourceContractEventsLoop_ne_panic _ _ _)
    rcases Except.bind_eq_error.mp h with h | ⟨reply, hreply, h⟩
    · exact absurd h mapError_ne_panic
    rcases Except.bind_eq_error.mp h with h | ⟨_, _, h⟩
    · obtain ⟨done, proof, rest, hsplit, _, hproof⟩ := Except.mapM_eq_error.mp h
      refine ⟨events, reply, ⟨hevents, Except.mapError_eq_ok.mp hreply⟩, proof, ?_,
        toStorageSlot_eq_panic.mp hproof⟩
      rw [hsplit]
      exact List.mem_append_right done List.mem_cons_self
    · exact absurd h Except.pure_ne_error
  · intro ⟨events, reply, hreplied, proof, hmem, hkey⟩
    rw [hreplied.contractStorage]
    cases hslots : reply.storageProof.mapM
        (toStorageSlot (storageSlotAddressMap C.keccak256 events)) with
    | ok slots =>
      -- the loop would have stopped at this proof
      obtain ⟨slot, hslot⟩ := Except.ok_of_mapM hslots hmem
      rw [toStorageSlot_eq_panic.mpr hkey] at hslot
      cases hslot
    | error failure =>
      obtain ⟨_, proof', _, _, _, hproof'⟩ := Except.mapM_eq_error.mp hslots
      rw [toStorageSlot_error hproof']
      rfl

/-- preparing panics exactly on a proof that was not asked for -/
theorem prepare_panics_iff {provider : ExecutionRpc} {address : Address}
    {inputBlock outputBlock : UInt64} {p : ConsensusProofInputs S} :
    provider.prepare H C address inputBlock outputBlock p = .error .panic ↔
      provider.UnaskedProof C address inputBlock outputBlock := by
  rw [← contractStorage_panics_iff]
  constructor
  · intro h
    rcases Except.bind_eq_error.mp h with h | ⟨storage, _, h⟩
    · exact h
    rcases Except.bind_eq_error.mp h with h | ⟨_, _, h⟩
    · exact absurd h mapError_ne_panic
    · exact absurd h Except.pure_ne_error
  · exact fun h => Except.bind_eq_error.mpr (.inl h)

end

/-! ## queries -/

section
variable {P R : Type} {f : P → Except Failure R}

theorem timeout_ne_panic {secs : Nat} {x : Except Failure R} (h : x ≠ .error .panic) :
    timeout secs x ≠ .error .panic := by
  unfold timeout
  split
  · exact nofun
  · exact h

/-- a query whose providers do not panic ends with a result or an error -/
theorem queryWithFallback_ne_panic {principal : P} {backups : List P} {schedule : Shuffle backups}
    {secs : Nat} (h : ∀ provider ∈ principal :: backups, f provider ≠ .error .panic) :
    queryWithFallback f principal backups schedule secs ≠ .error .panic := by
  obtain ⟨hprincipal, hbackups⟩ := List.forall_mem_cons.mp h
  rcases queryWithFallback_cases f principal backups schedule secs with
    ⟨hq, _⟩ | ⟨e, hq⟩ | ⟨hne, hq⟩
  · rw [hq]
    exact hprincipal
  · rw [hq]
    exact nofun
  rw [hq]
  intro hpanic
  obtain ⟨failure, hfailure, hcontext⟩ := Except.mapError_eq_error.mp hpanic
  cases failure with
  | error e => cases hcontext
  | pending => cases hcontext
  | panic =>
    rcases selectOk_error hfailure with ⟨hnil, _⟩ | hmem
    · have horder : schedule.order = [] := List.map_eq_nil_iff.mp hnil
      have hlen := schedule.perm.length_eq
      rw [horder, List.length_nil] at hlen
      exact hne (List.eq_nil_of_length_eq_zero hlen.symm)
    · obtain ⟨provider, hprovider, htimeout⟩ := List.mem_map.mp hmem
      exact timeout_ne_panic (hbackups provider (schedule.mem_order.mp hprovider)) htimeout

/-- a panic of the principal provider is not caught -/
theorem queryWithFallback_panic {principal : P} (h : f principal = .error .panic)
    (backups : List P) (schedule : Shuffle backups) (secs : Nat) :
    queryWithFallback f principal backups schedule secs = .error .panic := by
  unfold queryWithFallback
  rw [h]

end

/-! ## every reply -/

/-- a result or an error -/
def Ends {α : Type} (x : Except Failure α) : Prop :=
  (∃ a, x = .ok a) ∨ ∃ e, x = .error (.error e)

theorem ends_iff {α : Type} {x : Except Failure α} :
    Ends x ↔ x ≠ .error .panic ∧ x ≠ .error .pending := by
  cases x with
  | ok a => exact ⟨fun _ => ⟨nofun, nofun⟩, fun _ => .inl ⟨a, rfl⟩⟩
  | error failure =>
    cases failure with
    | error e => exact ⟨fun _ => ⟨nofun, nofun⟩, fun _ => .inr ⟨e, rfl⟩⟩
    | panic =>
      refine ⟨fun h => ?_, fun h => absurd rfl h.1⟩
      rcases h with ⟨_, h⟩ | ⟨_, h⟩
      · cases h
      · cases h
    | pending =>
      refine ⟨fun h => ?_, fun h => absurd rfl h.2⟩
      rcases h with ⟨_, h⟩ | ⟨_, h⟩
      · cases h
      · cases h

section
variable {S : ConsensusSpec} (H : Helios S) (C : Crypto)

theorem coldStart_ends_iff {env : ChainEnv S} {cf : CheckpointFallback} {rpc : ConsensusRpc S} :
    Ends (coldStart H env cf rpc) ↔ ¬ (rpc.timely = true ∧ EmptyUpdates H env cf rpc) := by
  have hquery : (if rpc.timely = true then getLatestFinalitySlotAndStoreHash H env cf rpc
      else .error .pending) = .error .panic ↔ rpc.timely = true ∧ EmptyUpdates H env cf rpc := by
    by_cases ht : rpc.timely = true
    · rw [if_pos ht, coldStart_panics_iff]
      exact ⟨fun h => ⟨ht, h⟩, fun h => h.2⟩
    · rw [if_neg ht]
      exact ⟨nofun, fun h => absurd h.1 ht⟩
  rw [← hquery, ends_iff]
  constructor
  · intro h hpanic
    exact h.1 (queryWithFallback_panic hpanic [] (Shuffle.id []) 20)
  · intro h
    refine ⟨queryWithFallback_ne_panic fun provider hmem => ?_, queryWithFallback_ne_pending _⟩
    obtain rfl := List.mem_singleton.mp hmem
    exact h

theorem ExecutionHttpProxy.prepare_ends {self : ExecutionHttpProxy}
    {inputSlot outputSlot inputBlock outputBlock : UInt64} {p : ConsensusProofInputs S}
    {outputStoreHash : B256} (h : ∀ provider ∈ self.principalProvider :: self.backupProviders,
      ¬ provider.UnaskedProof C self.address inputBlock outputBlock) :
    Ends (self.prepare H C inputSlot outputSlot inputBlock outputBlock p outputStoreHash) := by
  refine ends_iff.mpr ⟨fun hpanic => ?_, ExecutionHttpProxy.prepare_ne_pending H C⟩
  rcases Except.bind_eq_error.mp hpanic with hpanic | ⟨_, _, hpanic⟩
  · exact queryWithFallback_ne_panic
      (fun provider hmem hp => h provider hmem ((prepare_panics_iff H C).mp hp)) hpanic
  · exact Except.pure_ne_error hpanic

/-- **When a reply makes the host panic**: preparing the storage panics exactly on a proof for a key
that was not asked for, preparing the consensus inputs never does, and the cold start does not end
exactly where it is given no update.  Where no provider lists such a proof a query for the storage
ends with a result or an error; where the principal provider does, its panic is not caught and no
backup is asked. -/
theorem reply_panics_iff :
    (∀ (provider : ExecutionRpc) address inputBlock outputBlock (p : ConsensusProofInputs S),
      provider.prepare H C address inputBlock outputBlock p = .error .panic ↔
        provider.UnaskedProof C address inputBlock outputBlock) ∧
    (∀ env (rpc : ConsensusRpc S) inputSlot storeHash validate,
      rpc.prepare H env inputSlot storeHash validate ≠ .error .panic) ∧
    (∀ env cf rpc, Ends (coldStart H env cf rpc) ↔
      ¬ (rpc.timely = true ∧ EmptyUpdates H env cf rpc)) ∧
    ∀ (self : ExecutionHttpProxy) inputSlot outputSlot inputBlock outputBlock
      (p : ConsensusProofInputs S) outputStoreHash,
      ((∀ provider ∈ self.principalProvider :: self.backupProviders,
          ¬ provider.UnaskedProof C self.address inputBlock outputBlock) →
        Ends (self.prepare H C inputSlot outputSlot inputBlock outputBlock p outputStoreHash)) ∧
      (self.principalProvider.UnaskedProof C self.address inputBlock outputBlock →
        self.prepare H C inputSlot outputSlot inputBlock outputBlock p outputStoreHash
          = .error .panic) := by
  refine ⟨fun _ _ _ _ _ => prepare_panics_iff H C, ?_, fun _ _ _ => coldStart_ends_iff H, ?_⟩
  · intro env rpc inputSlot storeHash validate
    unfold ConsensusRpc.prepare
    by_cases ht : rpc.timely = true
    · rw [if_pos ht]
      exact mapError_ne_panic
    · rw [if_neg ht]
      exact nofun
  · intro self inputSlot outputSlot inputBlock outputBlock p outputStoreHash
    refine ⟨ExecutionHttpProxy.prepare_ends H C, fun hunasked => ?_⟩
    exact Except.bind_eq_error.mpr (.inl (queryWithFallback_panic
      ((prepare_panics_iff H C).mpr hunasked) _ _ _))

end

namespace Devnet

/-- a provider without deposits that lists a proof nobody asked for -/
def talkative : ExecutionRpc := listing crypto.keccak256 [] (replyOf [firstUser])

def checkpoints : CheckpointFallback where
  build := .ok ()
  fetchLatestCheckpoint := fun _ => .ok (digest 64)

/-- a provider without updates -/
def silent : ConsensusRpc spec := { consensusRpc 64 with getUpdates := fun _ _ => .ok [] }

end Devnet

open Devnet in
/-- an additional proof, and an empty list of updates: two panics -/
theorem replies_panic :
    talkative.prepare helios crypto contract 32 64 (consensusInputs 32 64) = .error .panic ∧
    ¬ Ends (coldStart helios chainEnv checkpoints silent) := by
  refine ⟨(prepare_panics_iff helios crypto).mpr ⟨[], replyOf [firstUser],
    listing_replied crypto contract [] _, proofOf firstUser, List.mem_singleton.mpr rfl,
    List.not_mem_nil⟩, fun h => (coldStart_ends_iff helios).mp h ⟨rfl, ?_⟩⟩
  exact ⟨digest 64, { genesisRoot := .zero, forks := () }, _, rfl, rfl, rfl⟩

end ZkSymbiotic
