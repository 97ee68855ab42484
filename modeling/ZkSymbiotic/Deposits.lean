import ZkSymbiotic.Contracts.History
import ZkSymbiotic.Lib.Cover
import ZkSymbiotic.Rpcs.Devnet
import ZkSymbiotic.Rpcs.Storage

/-!
# Deposits across windows

Windows that fit together, prepared with honest execution providers, together list everyone who
deposited between their first and their last block, with the balances that the contract holds.

* `CanonicalChain.Honest`   a provider whose successful answers are those of the chain;
* `Prepared.tracks`         a prepared window lists the users with an event in its blocks;
* `no_deposit_lost`         what windows that fit together list.
-/

namespace ZkSymbiotic

/-! ## honest providers -/

/-- the logs that a filter selects of a block of its range -/
def Filter.selects (filter : Filter) (log : Log) : Bool :=
  log.address = filter.address ∧ log.topics.head? = some filter.event

section
variable {keccak256 : Bytes → B256} {contract : Address}

/-- successful answers are those of the chain: all logs of the range that the filter selects, and for
each key one proof of the value after the block -/
structure CanonicalChain.Honest (chain : CanonicalChain keccak256 contract)
    (provider : ExecutionRpc) : Prop where
  logs : ∀ attempt filter logs, provider.getLogs attempt filter = .ok logs →
    logs = (List.Ico filter.fromBlock.toNat (filter.toBlock.toNat + 1)).flatMap fun n =>
      (chain.logs n).filter filter.selects
  proofs : provider.Proves contract chain.storage

theorem CanonicalChain.Honest.answers {chain : CanonicalChain keccak256 contract}
    {provider : ExecutionRpc} (h : chain.Honest provider) :
    provider.Answers contract (keccak256 TokensLocked.signature) chain.filtered :=
  fun attempt _ _ logs hlogs => h.logs attempt _ logs hlogs

end

/-! ## one window -/

section
variable {S : ConsensusSpec} (H : Helios S) (C : Crypto) {contract : Address}

/-- a window that some request returned, made of honest providers -/
def Prepared (chain : CanonicalChain C.keccak256 contract) (w : ProofInputsWithWindow S) : Prop :=
  ∃ self : ExecutionHttpProxy, self.address = contract ∧
    (∀ provider ∈ self.principalProvider :: self.backupProviders, chain.Honest provider) ∧
    ∃ inputSlot outputSlot inputBlock outputBlock p outputStoreHash,
      self.prepare H C inputSlot outputSlot inputBlock outputBlock p outputStoreHash = .ok w

/-- the slots that a window lists -/
def ProofInputsWithWindow.slots (w : ProofInputsWithWindow S) : List StorageSlot :=
  w.proofInputs.contractStorage.storageSlots

def ProofInputsWithWindow.Lists (w : ProofInputsWithWindow S) (user : Address) : Prop :=
  ∃ slot ∈ w.slots, slot.slotKeyAddress = user

variable {H C} {chain : CanonicalChain C.keccak256 contract} {w : ProofInputsWithWindow S}

/-- a prepared window lists the users with an event in its blocks, each once, with the storage after
its output block -/
theorem Prepared.tracks (hkeccak : NoCollisions C.keccak256) (h : Prepared H C chain w)
    (hend : InRange w.expectedOutputBlockNumber) :
    Tracks (lockedTokensLocation C.keccak256) (chain.storage w.expectedOutputBlockNumber.toNat)
      (fun user => ∃ n, w.inputBlockNumber.toNat ≤ n ∧ n ≤ w.expectedOutputBlockNumber.toNat ∧
        ∃ e, .tokensLocked e ∈ chain.history.events n ∧ e.user = user) w.slots := by
  obtain ⟨self, rfl, hhonest, _, _, inputBlock, outputBlock, p, _, hprepare⟩ := h
  obtain ⟨provider, hmem, out, hout, rfl⟩ := ExecutionHttpProxy.prepare_ok H C hprepare
  obtain ⟨storage, hstorage, _, rfl⟩ := (ExecutionRpc.prepare_ok H C).mp hout
  have htracks := ExecutionRpc.contractStorage_tracks hkeccak.location_injective hend
    (hhonest provider hmem).answers (hhonest provider hmem).proofs hstorage
  simp only [chain.decode_filtered (C.decodeLog_encodeLog _) hkeccak, mem_lockedEvents] at htracks
  exact htracks

/-! ## windows that fit together -/

/-- windows that run forward, below the last blocks of `u64`, each from where the one before it ends -/
structure Contiguous (windows : List (ProofInputsWithWindow S)) (first last : UInt64) : Prop where
  forward : ∀ w ∈ windows, w.inputBlockNumber ≤ w.expectedOutputBlockNumber
  below : ∀ w ∈ windows, w.expectedOutputBlockNumber.toNat < 2^64 - 100
  chain : windows.IsChain fun w w' => w.expectedOutputBlockNumber = w'.inputBlockNumber
  first : windows.head?.map (·.inputBlockNumber) = some first
  last : windows.getLast?.map (·.expectedOutputBlockNumber) = some last

section
variable {windows : List (ProofInputsWithWindow S)} {first last : UInt64}

theorem Contiguous.inRange (h : Contiguous windows first last) {w : ProofInputsWithWindow S}
    (hw : w ∈ windows) : InRange w.expectedOutputBlockNumber := by
  have hlt := h.below w hw
  unfold InRange
  omega

/-- the windows as intervals of numbers -/
theorem Contiguous.nat_chain (h : Contiguous windows first last) : windows.IsChain fun w w' =>
    w.expectedOutputBlockNumber.toNat = w'.inputBlockNumber.toNat :=
  h.chain.imp fun _ _ e => congrArg UInt64.toNat e

theorem Contiguous.nat_forward (h : Contiguous windows first last) :
    ∀ w ∈ windows, w.inputBlockNumber.toNat ≤ w.expectedOutputBlockNumber.toNat :=
  fun w hw => UInt64.le_iff_toNat_le.mp (h.forward w hw)

theorem Contiguous.endpoints (h : Contiguous windows first last) :
    ∃ w w', windows.head? = some w ∧ windows.getLast? = some w' ∧ w.inputBlockNumber = first ∧
      w'.expectedOutputBlockNumber = last := by
  obtain ⟨w, hw, hfirst⟩ := Option.map_eq_some_iff.mp h.first
  obtain ⟨w', hw', hlast⟩ := Option.map_eq_some_iff.mp h.last
  exact ⟨w, w', hw, hw', hfirst, hlast⟩

end

/-- what windows of a chain list, up to the block `last` -/
structure NothingLost (chain : CanonicalChain C.keccak256 contract)
    (windows : List (ProofInputsWithWindow S)) (first last : UInt64) : Prop where
  /-- who has an event in a block of the windows is listed -/
  listed : ∀ n e, first.toNat ≤ n → n ≤ last.toNat → .tokensLocked e ∈ chain.history.events n →
    ∃ w ∈ windows, w.Lists e.user
  /-- a window lists a user once at most -/
  once : ∀ w ∈ windows, (w.slots.map (·.slotKeyAddress)).Nodup
  /-- with the key and the positive balance at its output block -/
  slot : ∀ w ∈ windows, ∀ slot ∈ w.slots,
    slot.key = getStorageLocationForKey C.keccak256 slot.slotKeyAddress 1 ∧
    slot.expectedValue = chain.history.lockedTokens w.expectedOutputBlockNumber.toNat
      slot.slotKeyAddress ∧
    0 < slot.expectedValue.toNat
  /-- the last window that lists a user has the balance at the last block -/
  current : ∀ l w r, windows = l ++ w :: r → ∀ slot ∈ w.slots,
    (∀ w' ∈ r, ¬ w'.Lists slot.slotKeyAddress) →
      slot.expectedValue = chain.history.lockedTokens last.toNat slot.slotKeyAddress

section
variable {windows : List (ProofInputsWithWindow S)} {first last : UInt64}

/-- a window lists the users of the events in its blocks -/
theorem Prepared.lists (hkeccak : NoCollisions C.keccak256) (h : Prepared H C chain w)
    (hend : InRange w.expectedOutputBlockNumber) {n : Nat} {e : TokensLocked}
    (hlo : w.inputBlockNumber.toNat ≤ n) (hhi : n ≤ w.expectedOutputBlockNumber.toNat)
    (he : .tokensLocked e ∈ chain.history.events n) : w.Lists e.user :=
  ((h.tracks hkeccak hend).listed e.user).mpr ⟨n, hlo, hhi, e, he, rfl⟩

/-- a slot of a window has the key and the positive balance of its user -/
theorem Prepared.slot (hkeccak : NoCollisions C.keccak256) (h : Prepared H C chain w)
    (hend : InRange w.expectedOutputBlockNumber) {slot : StorageSlot} (hslot : slot ∈ w.slots) :
    slot.key = getStorageLocationForKey C.keccak256 slot.slotKeyAddress 1 ∧
    slot.expectedValue = chain.history.lockedTokens w.expectedOutputBlockNumber.toNat
      slot.slotKeyAddress ∧
    0 < slot.expectedValue.toNat := by
  have htracks := h.tracks hkeccak hend
  have hkey := htracks.key slot hslot
  have hvalue : slot.expectedValue = chain.history.lockedTokens w.expectedOutputBlockNumber.toNat
      slot.slotKeyAddress := by
    rw [htracks.value slot hslot, hkey]
    exact chain.storage_eq _ _
  obtain ⟨n, _, hn, e, he, huser⟩ := (htracks.listed slot.slotKeyAddress).mp ⟨slot, hslot, rfl⟩
  refine ⟨hkey, hvalue, ?_⟩
  rw [hvalue, ← huser]
  exact DepositHistory.lockedTokens_pos hn he

/-- **no deposit is lost across windows** -/
theorem no_deposit_lost (hkeccak : NoCollisions C.keccak256)
    (hprepared : ∀ w ∈ windows, Prepared H C chain w) (hcont : Contiguous windows first last) :
    NothingLost chain windows first last := by
  obtain ⟨w₀, w₁, hhead, hgetLast, rfl, rfl⟩ := hcont.endpoints
  refine ⟨?_, ?_, ?_, ?_⟩
  · intro n e hlo hhi he
    obtain ⟨w, hw, hwlo, hwhi⟩ := exists_mem_of_chain hcont.nat_chain hhead hgetLast hlo hhi
    exact ⟨w, hw, (hprepared w hw).lists hkeccak (hcont.inRange hw) hwlo hwhi he⟩
  · exact fun w hw => ((hprepared w hw).tracks hkeccak (hcont.inRange hw)).nodup
  · exact fun w hw slot hslot => (hprepared w hw).slot hkeccak (hcont.inRange hw) hslot
  · intro l w r hsplit slot hslot hnone
    have hw : w ∈ windows := by
      rw [hsplit]
      exact List.mem_append_right l List.mem_cons_self
    have hle := hi_le_of_chain hcont.nat_forward hcont.nat_chain hgetLast hw
    rw [((hprepared w hw).slot hkeccak (hcont.inRange hw) hslot).2.1]
    refine (DepositHistory.lockedTokens_eq hle ?_).symm
    -- a later event of the user would be in a window of `r`
    intro k hlt hk e he huser
    have hchain := hcont.nat_chain
    rw [hsplit] at hchain hgetLast
    rcases exists_mem_after hchain hgetLast (Nat.le_of_lt hlt) hk with heq | ⟨w', hw', hlo, hhi⟩
    · omega
    · have hmem : w' ∈ windows := by
        rw [hsplit]
        exact List.mem_append_right l (List.mem_cons_of_mem w hw')
      have hlists := (hprepared w' hmem).lists hkeccak (hcont.inRange hmem) hlo hhi he
      rw [huser] at hlists
      exact hnone w' hw' hlists

end

end

/-! ## a chain with one deposit -/

namespace Devnet

def depositor : Address := .ofNat 20 7
def contract : Address := .ofNat 20 1

/-- 1000 wei above the fee -/
def deposit : DepositTx := .mk
  { sender := depositor, value := 10000000000001000, timestamp := 0, dstEid := 30184,
    receiver := .zero, options := [] } [] (.ok .zero)

def history : DepositHistory := fun n => if n = 5 then [deposit] else []

/-- a storage key is the user after twelve zeros -/
theorem wordAddress_location (user : Address) : wordAddress (crypto.keccak256
    (storageLocationPreimage user sourceContractLockedTokensStorageIndex)) = user := by
  have hword : (List.replicate 12 0 ++ user.bytes : Bytes).length = 32 := by
    rw [List.length_append, List.length_replicate, user.len]
  apply FixedBytes.bytes_inj
  show (((List.replicate 12 0 ++ user.bytes) ++ List.replicate 31 0 ++ [1]).take 32
    ++ List.replicate (32 - _) 0).drop 12 = user.bytes
  rw [List.append_assoc (List.replicate 12 0 ++ user.bytes), List.take_left' hword,
    List.append_assoc, List.drop_left' List.length_replicate]
  have hlen : (storageLocationPreimage user sourceContractLockedTokensStorageIndex).length = 64 := by
    simp [storageLocationPreimage, user.len]
  rw [hlen]
  exact List.append_nil _

theorem noCollisions : NoCollisions crypto.keccak256 := by
  have hhead : ∀ user, (crypto.keccak256
      (storageLocationPreimage user sourceContractLockedTokensStorageIndex)).bytes.head? = some 0 :=
    fun _ => rfl
  have hlocked : (crypto.keccak256 TokensLocked.signature).bytes.head? ≠ some 0 := by decide +kernel
  have hdeposited : (crypto.keccak256 ethDepositedSignature).bytes.head? ≠ some 0 := by
    decide +kernel
  have hne : crypto.keccak256 TokensLocked.signature ≠ crypto.keccak256 ethDepositedSignature := by
    decide +kernel
  rintro a ((rfl | rfl) | ⟨u, rfl⟩) b ((rfl | rfl) | ⟨v, rfl⟩) heq
  · rfl
  · exact absurd heq hne
  · rw [heq] at hlocked
    exact absurd (hhead v) hlocked
  · exact absurd heq.symm hne
  · rfl
  · rw [heq] at hdeposited
    exact absurd (hhead v) hdeposited
  · rw [← heq] at hlocked
    exact absurd (hhead u) hlocked
  · rw [← heq] at hdeposited
    exact absurd (hhead u) hdeposited
  · have huv : u = v := by
      rw [← wordAddress_location u, ← wordAddress_location v]
      exact congrArg wordAddress heq
    rw [huv]

def chain : CanonicalChain crypto.keccak256 contract where
  history := history
  logs := fun n => (history.events n).map (·.encodeLog crypto.keccak256 contract)
  storage := fun n key => history.lockedTokens n (wordAddress key)
  logs_eq := by
    intro n
    rw [List.filter_eq_self]
    intro log hlog
    obtain ⟨event, _, rfl⟩ := List.mem_map.mp hlog
    cases event with
    | ethDeposited _ _ _ => exact decide_eq_true rfl
    | tokensLocked _ => exact decide_eq_true rfl
  storage_eq := fun n user => congrArg (history.lockedTokens n) (wordAddress_location user)

/-- a provider that answers every request from the chain -/
def node : ExecutionRpc where
  getLogs := fun _ filter =>
    .ok ((List.Ico filter.fromBlock.toNat (filter.toBlock.toNat + 1)).flatMap fun n =>
      (chain.logs n).filter filter.selects)
  getProof := fun address keys block => .ok { accountProof address with
    storageProof := keys.map fun key => ⟨key, chain.storage block.toNat key, []⟩ }
  turns := 100
  keyOrder := Shuffle.id

theorem node_honest : chain.Honest node where
  logs := fun _ _ _ h => (Except.ok.inj h).symm
  proofs := by
    intro keys block response h
    obtain rfl := Except.ok.inj h
    refine ⟨?_, ?_⟩
    · show ((keys.map fun key => EIP1186StorageProof.mk key _ []).map (·.key)).Perm keys
      rw [List.map_map]
      exact .of_eq (List.map_id keys)
    · intro slot hslot
      obtain ⟨key, _, rfl⟩ := List.mem_map.mp hslot
      rfl

/-- the scan of a range with a turn for each block -/
theorem node_scan {a b : UInt64} (hend : InRange b) (hturns : b.toNat + 1 - a.toNat < 100) :
    getSourceContractEvents crypto node contract a b
      = .ok ((List.Ico a.toNat (b.toNat + 1)).flatMap fun n =>
          (history.events n).filterMap lockedEvent) := by
  have hok : ∀ attempt filter, ∃ logs, node.getLogs attempt filter = .ok logs := fun _ _ => ⟨_, rfl⟩
  obtain ⟨events, hevents⟩ : ∃ events,
      getSourceContractEvents crypto node contract a b = .ok events :=
    getSourceContractEventsLoop_enough hend hok 100 hturns
  rw [hevents, ZkSymbiotic.getSourceContractEvents_ok hend node_honest.answers hevents]
  simp only [chain.decode_filtered (crypto.decodeLog_encodeLog contract) noCollisions]
  rfl

def storage (slots : List StorageSlot) : ContractStorage :=
  { emptyStorage with address := contract, storageSlots := slots }

def depositWindow (a b : UInt64) (slots : List StorageSlot) : ProofInputsWithWindow spec :=
  { window a b with proofInputs := inputs a b (storage slots) }

def slot : StorageSlot where
  key := getStorageLocationForKey crypto.keccak256 depositor 1
  slotKeyAddress := depositor
  expectedValue := 1000
  mptProof := []

/-- the provider prepares windows whose storage passes the proved program -/
theorem depositWindow_prepared {a b : UInt64} (h : a ≤ b) {slots : List StorageSlot} {root : B256}
    (hstorage : node.contractStorage crypto contract a b = .ok (storage slots))
    (hroot : verifyStorageSlotProofs crypto (digest b) (storage slots) = .ok root) :
    Prepared helios crypto chain (depositWindow a b slots) := by
  refine ⟨{ executionProxy with principalProvider := node, address := contract }, rfl, ?_, a, b, a, b,
    consensusInputs a b, digest b, ?_⟩
  · intro provider hmem
    obtain rfl := List.mem_singleton.mp hmem
    exact node_honest
  · have hprepare : node.prepare helios crypto contract a b (consensusInputs a b)
        = .ok (inputs a b (storage slots)) :=
      (ExecutionRpc.prepare_ok helios crypto).mpr ⟨_, hstorage, ⟨_, program_ok h hroot⟩, rfl⟩
    show queryWithFallback (ExecutionRpc.prepare helios crypto contract a b (consensusInputs a b))
      node [] (Shuffle.id []) 300 >>= _ = _
    rw [queryWithFallback_principal _ hprepare]
    rfl

/-- the window over a range whose events have the given slots -/
theorem node_prepared {a b : UInt64} (h : a ≤ b) (hend : InRange b)
    (hturns : b.toNat + 1 - a.toNat < 100) {events : List TokensLocked} {slots : List StorageSlot}
    (hevents : ((List.Ico a.toNat (b.toNat + 1)).flatMap fun n =>
      (history.events n).filterMap lockedEvent) = events)
    (hslots : (((storageSlotAddressMap crypto.keccak256 events).keys.map fun key =>
      EIP1186StorageProof.mk key (chain.storage b.toNat key) []).mapM
        (toStorageSlot (storageSlotAddressMap crypto.keccak256 events))) = .ok slots)
    (hsorted : sortSlots slots = slots)
    (hroot : ∃ root, verifyStorageSlotProofs crypto (digest b) (storage slots) = .ok root) :
    Prepared helios crypto chain (depositWindow a b slots) := by
  obtain ⟨root, hroot⟩ := hroot
  apply depositWindow_prepared h _ hroot
  have hscan := node_scan hend hturns
  rw [hevents] at hscan
  unfold ExecutionRpc.contractStorage
  simp only [Except.bind_eq_ok, Except.mapError_eq_ok, Except.pure_eq_ok]
  refine ⟨events, hscan, _, rfl, slots, hslots, ?_⟩
  rw [hsorted]
  rfl

theorem first_prepared : Prepared helios crypto chain (depositWindow 0 10 [slot]) := by
  have hevents : ((List.Ico 0 11).flatMap fun n => (history.events n).filterMap lockedEvent)
      = [⟨depositor, 1000, 0⟩] := by decide +kernel
  exact node_prepared (by decide) (by decide) (by decide) hevents rfl
    (List.mergeSort_singleton slot) ⟨_, rfl⟩

theorem second_prepared : Prepared helios crypto chain (depositWindow 10 20 []) := by
  have hevents : ((List.Ico 10 21).flatMap fun n => (history.events n).filterMap lockedEvent)
      = [] := by decide +kernel
  exact node_prepared (by decide) (by decide) (by decide) hevents rfl List.mergeSort_nil ⟨_, rfl⟩

theorem windows_contiguous :
    Contiguous [depositWindow 0 10 [slot], depositWindow 10 20 []] 0 20 where
  forward := by decide
  below := by decide
  chain := by decide
  first := rfl
  last := rfl

end Devnet

open Devnet in
/-- the window of the deposit lists the depositor; the next one has nothing to list -/
theorem no_deposit_lost_devnet :
    NothingLost chain [depositWindow 0 10 [slot], depositWindow 10 20 []] 0 20 := by
  refine no_deposit_lost (H := helios) noCollisions ?_ windows_contiguous
  intro w hw
  rcases List.mem_pair.mp hw with rfl | rfl
  · exact first_prepared
  · exact second_prepared

end ZkSymbiotic
