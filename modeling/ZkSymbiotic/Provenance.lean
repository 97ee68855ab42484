import ZkSymbiotic.Storage

/-!
# Which contract the outputs are about

The outputs of a proof have the state root and the root of the slots in them, and not the address of
the contract.  They fix what is proved of a storage, and leave open whose storage it is.

* `MptSound`, `HoldsSlots`       proofs speak of one trie, and what a contract has in it;
* `outputs_determine_storage`    equal outputs: equal slots, which both contracts have in the state;
* `contract_not_determined`      two contracts, one set of outputs.
-/

namespace ZkSymbiotic

section
variable (C : Crypto)

/-- proofs prove what stands in the trie of their root; `trie root path` is the value at a path -/
def MptSound (trie : B256 → Bytes → Option Bytes) : Prop :=
  ∀ root path value proof, C.verifyProof root path (some value) proof = .ok () →
    trie root path = some value

/-- the contract at `address` has the values of the slots in its storage -/
def HoldsSlots (trie : B256 → Bytes → Option Bytes) (stateRoot : B256) (slots : List (B256 × U256))
    (address : Address) : Prop :=
  ∃ account : TrieAccount,
    trie stateRoot (C.unpackNibbles (C.keccak256 address.bytes).bytes)
      = some (C.encodeTrieAccount account) ∧
    ∀ slot ∈ slots, trie account.storageRoot (C.unpackNibbles (C.keccak256 slot.1.bytes).bytes)
      = some (C.encodeU256 slot.2)

/-- equal outputs of two runs over equally many slots, equal contracts -/
def OutputsDetermineContract {S : ConsensusSpec} (H : Helios S) : Prop :=
  ∀ (p p' : ProofInputs S) (o : ProofOutputs),
    consensusMptProgram H (verifyStorageSlotProofs C) p = .ok o →
    consensusMptProgram H (verifyStorageSlotProofs C) p' = .ok o →
    p.contractStorage.storageSlots.length = p'.contractStorage.storageSlots.length →
    p.contractStorage.address = p'.contractStorage.address

end

/-! ## what the outputs fix -/

/-- the key and the value of a slot -/
def StorageSlot.balance (slot : StorageSlot) : B256 × U256 := (slot.key, slot.expectedValue)

def ContractStorage.balances (storage : ContractStorage) : List (B256 × U256) :=
  storage.storageSlots.map (·.balance)

section
variable {C : Crypto} {trie : B256 → Bytes → Option Bytes} {D : Set (Address × U256)} {n : Nat}

/-- accepted storage is that of its contract -/
theorem ValidStorage.holds (hsound : MptSound C trie) {stateRoot : B256}
    {storage : ContractStorage} (h : ValidStorage C stateRoot storage) :
    HoldsSlots C trie stateRoot storage.balances storage.address := by
  refine ⟨storage.expectedValue, hsound _ _ _ _ h.account, fun balance hmem => ?_⟩
  obtain ⟨slot, hslot, rfl⟩ := List.mem_map.mp hmem
  exact hsound _ _ _ _ (h.slots slot hslot).proved

theorem ValidStorage.balances_eq {stateRoot : B256} {storage : ContractStorage}
    (h : ValidStorage C stateRoot storage) : storage.balances
      = (storage.storageSlots.map (·.entry)).map fun e => (getStorageLocationForKey C.keccak256 e.1
          sourceContractLockedTokensStorageIndex, e.2) := by
  rw [List.map_map]
  exact List.map_congr_left fun slot hslot => Prod.ext (h.slots slot hslot).key rfl

/-- **what equal outputs determine**: the users, keys and values of the slots, which both contracts
have in the state of the committed root; hence the contract, where no other one has them -/
theorem outputs_determine_storage {S : ConsensusSpec} {H : Helios S} (hC : CollisionFree C D n)
    (hsound : MptSound C trie) {p p' : ProofInputs S} {o : ProofOutputs}
    (hn : p.contractStorage.storageSlots.length = n)
    (hn' : p'.contractStorage.storageSlots.length = n)
    (hD : ∀ slot ∈ p.contractStorage.storageSlots, slot.entry ∈ D)
    (hD' : ∀ slot ∈ p'.contractStorage.storageSlots, slot.entry ∈ D)
    (h : consensusMptProgram H (verifyStorageSlotProofs C) p = .ok o)
    (h' : consensusMptProgram H (verifyStorageSlotProofs C) p' = .ok o) :
    p.contractStorage.storageSlots.map (·.entry) = p'.contractStorage.storageSlots.map (·.entry) ∧
    p.contractStorage.balances = p'.contractStorage.balances ∧
    HoldsSlots C trie o.executionStateRoot p.contractStorage.balances p.contractStorage.address ∧
    HoldsSlots C trie o.executionStateRoot p.contractStorage.balances p'.contractStorage.address ∧
    ((∀ a b, HoldsSlots C trie o.executionStateRoot p.contractStorage.balances a →
        HoldsSlots C trie o.executionStateRoot p.contractStorage.balances b → a = b) →
      p.contractStorage.address = p'.contractStorage.address) := by
  obtain ⟨_, hverify⟩ := (consensusMptProgram_eq_ok H _).mp h
  obtain ⟨_, hverify'⟩ := (consensusMptProgram_eq_ok H _).mp h'
  obtain ⟨hvalid, hroot⟩ := storage_eq_ok.mp hverify
  obtain ⟨hvalid', hroot'⟩ := storage_eq_ok.mp hverify'
  have hentries := hC.root_entries hn hn' hD hD' (C.fpToBytes_inj (hroot.symm.trans hroot'))
  have hbalances : p.contractStorage.balances = p'.contractStorage.balances := by
    rw [hvalid.balances_eq, hvalid'.balances_eq, hentries]
  have hholds := hvalid.holds hsound
  have hholds' := hvalid'.holds hsound
  rw [← hbalances] at hholds'
  exact ⟨hentries, hbalances, hholds, hholds', fun hunique => hunique _ _ hholds hholds'⟩

end

/-! ## two contracts with the same balances -/

namespace Devnet

/-- the length of a string, and the address in it -/
def tagged (bytes : Bytes) : B256 :=
  .ofNat 32 (bytes.length * 256^20 +
    ofBe (if bytes.length = 64 then (bytes.drop 12).take 20 else bytes.drop (bytes.length - 20)))

def bridgeContract : Address := .ofNat 20 1
def otherContract : Address := .ofNat 20 2

/-- both contracts have this account -/
def account : TrieAccount where
  nonce := 1
  balance := 1005
  storageRoot := .ofNat 32 77
  codeHash := .zero

/-- the slot of a user's balance -/
def sharedSlot (user : Address) (value : U256) : StorageSlot where
  key := getStorageLocationForKey tagged user sourceContractLockedTokensStorageIndex
  slotKeyAddress := user
  expectedValue := value
  mptProof := []

def sharedSlots : List StorageSlot := [sharedSlot alice 1000, sharedSlot bob 5]

/-- where a string's hash leads in a trie -/
def path (bytes : Bytes) : Bytes := unpackNibbles (tagged bytes).bytes

/-- the storage trie of `account`, and the state trie with the two contracts -/
def trie (root : B256) (place : Bytes) : Option Bytes :=
  if root = account.storageRoot then
    if place = path (sharedSlot alice 1000).key.bytes then some (crypto.encodeU256 1000)
    else if place = path (sharedSlot bob 5).key.bytes then some (crypto.encodeU256 5)
    else none
  else
    if place = path bridgeContract.bytes ∨ place = path otherContract.bytes
    then some (crypto.encodeTrieAccount account) else none

def shared : Crypto :=
  { ordered with
    keccak256 := tagged
    decodeLog := decodeLog tagged
    decodeLog_encodeLog := decodeLog_encodeLog tagged
    verifyProof := fun root path value _ =>
      if trie root path = value then .ok () else .error "value mismatch" }

theorem shared_sound : MptSound shared trie := by
  intro root path value proof h
  by_cases hvalue : trie root path = some value
  · exact hvalue
  · have herror : shared.verifyProof root path (some value) proof = .error "value mismatch" :=
      if_neg hvalue
    rw [herror] at h
    cases h

/-- what is hashed in the runs for the two contracts -/
def hashed : List Bytes :=
  [bridgeContract.bytes, otherContract.bytes] ++ sharedSlots.map (·.key.bytes) ++
    sharedSlots.map fun slot =>
      storageLocationPreimage slot.slotKeyAddress sourceContractLockedTokensStorageIndex

theorem tagged_inj : ∀ a ∈ hashed, ∀ b ∈ hashed, tagged a = tagged b → a = b := by
  decide +kernel

theorem shared_collisionFree : CollisionFree shared entries 2 :=
  ⟨ordered_collisionFree.poseidon, ordered_collisionFree.fold⟩

/-- the storage of a contract as its provider proves it -/
def sharedStorage (contract : Address) : ContractStorage where
  address := contract
  expectedValue := account
  mptProof := []
  storageSlots := sharedSlots

theorem sharedStorage_entries (contract : Address) :
    ∀ slot ∈ (sharedStorage contract).storageSlots, slot.entry ∈ entries := by
  intro slot hslot
  rcases List.mem_pair.mp hslot with rfl | rfl
  · exact .inl rfl
  · exact .inr rfl

/-- the root over the two slots -/
def sharedRoot : B256 :=
  fpToBytes ((sharedStorage bridgeContract).fold shared (sharedSlots.map (·.leaf shared)))

theorem sharedStorage_valid {contract : Address}
    (h : contract = bridgeContract ∨ contract = otherContract) :
    ValidStorage shared (digest 64) (sharedStorage contract) where
  account := by
    rcases h with rfl | rfl
    · decide +kernel
    · decide +kernel
  depth := by
    show Nat.clog 2 2 ≤ 16
    decide +kernel
  slots := by
    intro slot hslot
    rcases List.mem_pair.mp hslot with rfl | rfl
    · refine ⟨rfl, ?_⟩
      show (sharedSlot alice 1000).proof shared account.storageRoot = .ok ()
      decide +kernel
    · refine ⟨rfl, ?_⟩
      show (sharedSlot bob 5).proof shared account.storageRoot = .ok ()
      decide +kernel

/-- the run from slot 32 to slot 64 with the storage of one of the two contracts -/
theorem sharedProgram_ok {contract : Address}
    (h : contract = bridgeContract ∨ contract = otherContract) :
    consensusMptProgram helios (verifyStorageSlotProofs shared)
        (inputs 32 64 (sharedStorage contract))
      = .ok (outputs 32 64 sharedRoot) := by
  refine (consensusMptProgram_eq_ok helios _).mpr ⟨⟨store 64, commits (by decide) _ _⟩, ?_⟩
  exact storage_eq_ok.mpr ⟨sharedStorage_valid h, rfl⟩

end Devnet

open Devnet in
/-- a run for each of two contracts with one set of outputs: both have the two balances in the
committed state -/
theorem outputs_determine_storage_devnet :
    (sharedStorage bridgeContract).storageSlots.map (·.entry) = [(alice, 1000), (bob, 5)] ∧
    HoldsSlots shared trie (digest 64) (sharedStorage bridgeContract).balances bridgeContract ∧
    HoldsSlots shared trie (digest 64) (sharedStorage bridgeContract).balances otherContract := by
  obtain ⟨hentries, _, hbridge, hother, _⟩ := outputs_determine_storage shared_collisionFree
    shared_sound rfl rfl (sharedStorage_entries bridgeContract)
    (sharedStorage_entries otherContract) (sharedProgram_ok (.inl rfl))
    (sharedProgram_ok (.inr rfl))
  exact ⟨hentries, hbridge, hother⟩

open Devnet in
/-- **the contract is left open**: two contracts with the same balances have runs with one set of
outputs, though no hash collides and proofs are sound -/
theorem contract_not_determined :
    (∀ a ∈ hashed, ∀ b ∈ hashed, tagged a = tagged b → a = b) ∧
    CollisionFree shared entries 2 ∧ MptSound shared trie ∧
    ∃ o, consensusMptProgram helios (verifyStorageSlotProofs shared)
        (inputs 32 64 (sharedStorage bridgeContract)) = .ok o ∧
      consensusMptProgram helios (verifyStorageSlotProofs shared)
        (inputs 32 64 (sharedStorage otherContract)) = .ok o ∧
      ¬ OutputsDetermineContract shared helios := by
  have h := sharedProgram_ok (.inl rfl : bridgeContract = bridgeContract ∨ _)
  have h' := sharedProgram_ok (.inr rfl : otherContract = bridgeContract ∨ _)
  refine ⟨tagged_inj, shared_collisionFree, shared_sound, _, h, h', fun hsame => ?_⟩
  have haddress : bridgeContract = otherContract := hsame _ _ _ h h' rfl
  exact absurd haddress (by decide)

end ZkSymbiotic
