import Mathlib.Data.Set.Function
import ZkSymbiotic.Devnet
import ZkSymbiotic.Packing

/-!
# Accepted storage and its root

* `ValidStorage`        a proved account, a tree that is not too deep, and slots at the locations of
                        their users, each with a proved value;
* `FirstFailure`        the checks in the order in which they are made, and the error of each;
* `storage_accepted_iff`   what `verify_storage_slot_proofs` returns, in both cases;
* `slots_root_binds`    equal roots over equally many slots: equal users, values and keys.
-/

namespace ZkSymbiotic

section
variable (C : Crypto)

/-! ## what is accepted -/

/-- where a slot's user has the balance -/
def StorageSlot.location (slot : StorageSlot) : B256 :=
  getStorageLocationForKey C.keccak256 slot.slotKeyAddress sourceContractLockedTokensStorageIndex

/-- the proof of a slot's value under a storage root -/
def StorageSlot.proof (storageRoot : B256) (slot : StorageSlot) : Except String Unit :=
  C.verifyProof storageRoot (C.unpackNibbles (C.keccak256 slot.key.bytes).bytes)
    (some (C.encodeU256 slot.expectedValue)) slot.mptProof

structure ValidSlot (storageRoot : B256) (slot : StorageSlot) : Prop where
  key : slot.key = slot.location C
  proved : slot.proof C storageRoot = .ok ()

/-- the leaf of a slot -/
def StorageSlot.leaf (slot : StorageSlot) : Fp :=
  C.poseidonHash (slotFields slot.slotKeyAddress slot.expectedValue)

/-- the proof of the contract's account under a state root -/
def ContractStorage.accountProof (stateRoot : B256) (storage : ContractStorage) :
    Except String Unit :=
  C.verifyProof stateRoot (C.unpackNibbles (C.keccak256 storage.address.bytes).bytes)
    (some (C.encodeTrieAccount storage.expectedValue)) storage.mptProof

/-- depth and padded size of the tree over the slots -/
def ContractStorage.tree (storage : ContractStorage) : Nat × Nat :=
  C.computeMerkleTreeDepthAndSize storage.storageSlots.length

/-- the root over leaves in the tree of the slots -/
def ContractStorage.fold (storage : ContractStorage) (leaves : List Fp) : Fp :=
  C.foldMerkleLeft leaves (storage.tree C).2 (storage.tree C).1 C.getMerkleZeros

structure ValidStorage (stateRoot : B256) (storage : ContractStorage) : Prop where
  account : storage.accountProof C stateRoot = .ok ()
  depth : (storage.tree C).1 ≤ C.maxTreeDepth
  slots : ∀ slot ∈ storage.storageSlots, ValidSlot C storage.expectedValue.storageRoot slot

/-- the first check that fails: the account, the depth, then slot by slot the key and the proof -/
inductive FirstFailure (stateRoot : B256) (storage : ContractStorage) : MptError → Prop where
  | account (reason : String) (failed : storage.accountProof C stateRoot = .error reason) :
      FirstFailure stateRoot storage (.invalidAccountProof storage.address reason)
  | depth (account : storage.accountProof C stateRoot = .ok ())
      (failed : C.maxTreeDepth < (storage.tree C).1) :
      FirstFailure stateRoot storage
        (.exceedsMaxTreeDepth storage.storageSlots.length (storage.tree C).1 C.maxTreeDepth)
  | mapping (account : storage.accountProof C stateRoot = .ok ())
      (depth : (storage.tree C).1 ≤ C.maxTreeDepth) (done rest : List StorageSlot)
      (slot : StorageSlot) (split : storage.storageSlots = done ++ slot :: rest)
      (before : ∀ s ∈ done, ValidSlot C storage.expectedValue.storageRoot s)
      (failed : slot.key ≠ slot.location C) :
      FirstFailure stateRoot storage
        (.invalidStorageSlotAddressMapping slot.key slot.slotKeyAddress (slot.location C))
  | proof (account : storage.accountProof C stateRoot = .ok ())
      (depth : (storage.tree C).1 ≤ C.maxTreeDepth) (done rest : List StorageSlot)
      (slot : StorageSlot) (split : storage.storageSlots = done ++ slot :: rest)
      (before : ∀ s ∈ done, ValidSlot C storage.expectedValue.storageRoot s)
      (key : slot.key = slot.location C) (reason : String)
      (failed : slot.proof C storage.expectedValue.storageRoot = .error reason) :
      FirstFailure stateRoot storage (.invalidStorageSlotProof slot.key reason)

variable {C} {storageRoot stateRoot : B256} {slot : StorageSlot} {storage : ContractStorage}

/-- a slot passes if and only if it is valid, and then it becomes its leaf -/
theorem verifySlot_eq_leaf {leaf : Fp} : verifySlot C storageRoot slot = .ok leaf ↔
    ValidSlot C storageRoot slot ∧ slot.leaf C = leaf := by
  rw [verifySlot_eq_ok, hashStorageSlot_eq, Except.ok.injEq]
  constructor
  · intro ⟨hkey, hproof, hleaf⟩
    exact ⟨⟨hkey.symm, hproof⟩, hleaf⟩
  · intro ⟨hvalid, hleaf⟩
    exact ⟨hvalid.key.symm, hvalid.proved, hleaf⟩

/-- the errors of a slot: its key, else its proof -/
theorem verifySlot_eq_error {e : MptError} : verifySlot C storageRoot slot = .error e ↔
    (slot.key ≠ slot.location C ∧
      .invalidStorageSlotAddressMapping slot.key slot.slotKeyAddress (slot.location C) = e) ∨
    (slot.key = slot.location C ∧ ∃ reason, slot.proof C storageRoot = .error reason ∧
      .invalidStorageSlotProof slot.key reason = e) := by
  have hkey : ∀ b : B256, slot.location C ≠ b ↔ b ≠ slot.location C := fun _ => ne_comm
  unfold verifySlot
  simp only [Except.bind_eq_error, Except.failIf_eq_error, Except.failIf_eq_ok,
    Except.mapError_eq_error, Except.mapError_eq_ok, not_not, exists_const]
  constructor
  · rintro (⟨hne, he⟩ | ⟨heq, ⟨reason, hreason, he⟩ | ⟨_, _, h⟩⟩)
    · exact .inl ⟨(hkey _).mp hne, he⟩
    · exact .inr ⟨heq.symm, reason, hreason, he⟩
    · obtain ⟨reason, h, _⟩ := h
      rw [hashStorageSlot_eq] at h
      cases h
  · rintro (⟨hne, he⟩ | ⟨heq, reason, hreason, he⟩)
    · exact .inl ⟨(hkey _).mpr hne, he⟩
    · exact .inr ⟨heq.symm, .inl ⟨reason, hreason, he⟩⟩

/-- the loop over the slots -/
theorem verifySlots_eq_ok {slots : List StorageSlot} {leaves : List Fp} :
    List.Forall₂ (fun slot leaf => verifySlot C storageRoot slot = .ok leaf) slots leaves ↔
      (∀ slot ∈ slots, ValidSlot C storageRoot slot) ∧ leaves = slots.map (·.leaf C) := by
  induction slots generalizing leaves with
  | nil => simp
  | cons slot slots ih =>
    rw [List.forall₂_cons_left_iff, List.forall_mem_cons, List.map_cons]
    constructor
    · rintro ⟨leaf, rest, hslot, hrest, rfl⟩
      obtain ⟨hvalid, rfl⟩ := verifySlot_eq_leaf.mp hslot
      obtain ⟨hvalids, rfl⟩ := ih.mp hrest
      exact ⟨⟨hvalid, hvalids⟩, rfl⟩
    · rintro ⟨⟨hvalid, hvalids⟩, rfl⟩
      exact ⟨_, _, verifySlot_eq_leaf.mpr ⟨hvalid, rfl⟩, ih.mpr ⟨hvalids, rfl⟩, rfl⟩

/-- the root of accepted storage -/
theorem storage_eq_ok {root : B256} : verifyStorageSlotProofs C stateRoot storage = .ok root ↔
    ValidStorage C stateRoot storage ∧
      root = C.fpToBytes (storage.fold C (storage.storageSlots.map (·.leaf C))) := by
  rw [verifyStorageSlotProofs_eq_ok]
  constructor
  · rintro ⟨haccount, hdepth, leaves, hleaves, hroot⟩
    obtain ⟨hvalid, rfl⟩ := verifySlots_eq_ok.mp hleaves
    exact ⟨⟨haccount, hdepth, hvalid⟩, hroot⟩
  · intro ⟨hvalid, hroot⟩
    exact ⟨hvalid.account, hvalid.depth, _, verifySlots_eq_ok.mpr ⟨hvalid.slots, rfl⟩, hroot⟩

/-- the error of storage that is not accepted -/
theorem storage_eq_error {e : MptError} :
    verifyStorageSlotProofs C stateRoot storage = .error e ↔ FirstFailure C stateRoot storage e := by
  have hbefore : ∀ done : List StorageSlot, (∀ s ∈ done, ∃ leaf,
      verifySlot C storage.expectedValue.storageRoot s = .ok leaf) ↔
        ∀ s ∈ done, ValidSlot C storage.expectedValue.storageRoot s := by
    intro done
    simp only [verifySlot_eq_leaf, exists_and_left, exists_eq', and_true]
  unfold verifyStorageSlotProofs
  simp only [Except.bind_eq_error, Except.failIf_eq_error, Except.failIf_eq_ok,
    Except.mapError_eq_error, Except.mapError_eq_ok, Except.mapM_eq_error, exists_const, not_lt,
    gt_iff_lt, hbefore, verifySlot_eq_error, Except.pure_ne_error, and_false, or_false]
  constructor
  · rintro (⟨reason, hfailed, rfl⟩ | ⟨_, haccount, ⟨hdeep, rfl⟩ |
      ⟨hdepth, done, slot, rest, hsplit, hdone, ⟨hkey, rfl⟩ | ⟨hkey, reason, hfailed, rfl⟩⟩⟩)
    · exact .account reason hfailed
    · exact .depth haccount hdeep
    · exact .mapping haccount hdepth done rest slot hsplit hdone hkey
    · exact .proof haccount hdepth done rest slot hsplit hdone hkey reason hfailed
  · intro h
    cases h with
    | account reason failed => exact .inl ⟨reason, failed, rfl⟩
    | depth account failed => exact .inr ⟨(), account, .inl ⟨failed, rfl⟩⟩
    | mapping account depth done rest slot split before failed =>
      exact .inr ⟨(), account, .inr ⟨depth, done, slot, rest, split, before, .inl ⟨failed, rfl⟩⟩⟩
    | proof account depth done rest slot split before key reason failed =>
      exact .inr ⟨(), account,
        .inr ⟨depth, done, slot, rest, split, before, .inr ⟨key, reason, failed, rfl⟩⟩⟩

end

/-- **what the storage verifier returns**: for valid storage the root over the leaves of the slots in
their order, else the error of the first check that fails; hashing a slot never is that check -/
theorem storage_accepted_iff (C : Crypto) (stateRoot : B256) (storage : ContractStorage) :
    (∀ root, verifyStorageSlotProofs C stateRoot storage = .ok root ↔
      ValidStorage C stateRoot storage ∧ ∃ leaves, List.Forall₂ (fun slot leaf =>
          hashStorageSlot C slot.slotKeyAddress slot.expectedValue = .ok leaf)
        storage.storageSlots leaves ∧ root = C.fpToBytes (storage.fold C leaves)) ∧
    (∀ e, verifyStorageSlotProofs C stateRoot storage = .error e ↔
      FirstFailure C stateRoot storage e) ∧
    (∀ address value reason, verifyStorageSlotProofs C stateRoot storage
      ≠ .error (.merkleHashError address value reason)) := by
  have hleaves : ∀ leaves, List.Forall₂ (fun slot leaf =>
      hashStorageSlot C slot.slotKeyAddress slot.expectedValue = .ok leaf)
        storage.storageSlots leaves ↔ leaves = storage.storageSlots.map (·.leaf C) := by
    intro leaves
    simp only [hashStorageSlot_eq, Except.ok.injEq]
    rw [eq_comm, ← List.forall₂_eq_eq_eq, List.forall₂_map_left_iff]
    rfl
  refine ⟨fun root => ?_, fun e => storage_eq_error, fun address value reason h => ?_⟩
  · simp only [storage_eq_ok, hleaves, exists_eq_left]
  · cases storage_eq_error.mp h

/-! ## what the root binds -/

/-- the user and the balance of a slot -/
def StorageSlot.entry (slot : StorageSlot) : Address × U256 :=
  (slot.slotKeyAddress, slot.expectedValue)

/-- over the entries of `D` the Poseidon hash of two fields has no collision, and neither has the
tree over `n` of their leaves -/
structure CollisionFree (C : Crypto) (D : Set (Address × U256)) (n : Nat) : Prop where
  poseidon : Set.InjOn C.poseidonHash {fields | ∃ e ∈ D, fields = slotFields e.1 e.2}
  fold : Set.InjOn (fun leaves => C.foldMerkleLeft leaves (C.computeMerkleTreeDepthAndSize n).2
      (C.computeMerkleTreeDepthAndSize n).1 C.getMerkleZeros)
    {leaves | leaves.length = n ∧
      ∀ leaf ∈ leaves, ∃ e ∈ D, leaf = C.poseidonHash (slotFields e.1 e.2)}

section
variable {C : Crypto} {D : Set (Address × U256)} {n : Nat}

/-- the leaf of a slot determines its entry -/
theorem CollisionFree.entry_eq (hC : CollisionFree C D n) {slot slot' : StorageSlot}
    (hD : slot.entry ∈ D) (hD' : slot'.entry ∈ D) (h : slot.leaf C = slot'.leaf C) :
    slot.entry = slot'.entry := by
  have hfields : slotFields slot.slotKeyAddress slot.expectedValue
      = slotFields slot'.slotKeyAddress slot'.expectedValue :=
    hC.poseidon ⟨_, hD, rfl⟩ ⟨_, hD', rfl⟩ h
  obtain ⟨haddress, hvalue⟩ := slotFields_inj hfields
  exact Prod.ext haddress hvalue

/-- and the leaves of a list of slots determine their entries, in order -/
theorem CollisionFree.entries_eq (hC : CollisionFree C D n) :
    ∀ {slots slots' : List StorageSlot}, (∀ slot ∈ slots, slot.entry ∈ D) →
      (∀ slot ∈ slots', slot.entry ∈ D) → slots.map (·.leaf C) = slots'.map (·.leaf C) →
      slots.map (·.entry) = slots'.map (·.entry) := by
  intro slots
  induction slots with
  | nil =>
    intro slots' _ _ h
    rw [List.map_eq_nil_iff.mp h.symm]
  | cons slot slots ih =>
    intro slots' hD hD' h
    cases slots' with
    | nil => cases h
    | cons slot' slots' =>
      obtain ⟨hslot, hslots⟩ := List.forall_mem_cons.mp hD
      obtain ⟨hslot', hslots'⟩ := List.forall_mem_cons.mp hD'
      obtain ⟨hleaf, hleaves⟩ := List.cons.inj h
      rw [List.map_cons, List.map_cons, hC.entry_eq hslot hslot' hleaf, ih hslots hslots' hleaves]

/-- the key of an accepted slot is that of its user -/
theorem ValidStorage.keys {stateRoot : B256} {storage : ContractStorage}
    (h : ValidStorage C stateRoot storage) : storage.storageSlots.map (·.key)
      = (storage.storageSlots.map (·.entry)).map fun e => getStorageLocationForKey C.keccak256 e.1
          sourceContractLockedTokensStorageIndex := by
  rw [List.map_map]
  exact List.map_congr_left fun slot hslot => (h.slots slot hslot).key

/-- equal roots over `n` leaves come from equal entries -/
theorem CollisionFree.root_entries (hC : CollisionFree C D n) {storage storage' : ContractStorage}
    (hn : storage.storageSlots.length = n) (hn' : storage'.storageSlots.length = n)
    (hD : ∀ slot ∈ storage.storageSlots, slot.entry ∈ D)
    (hD' : ∀ slot ∈ storage'.storageSlots, slot.entry ∈ D)
    (h : storage.fold C (storage.storageSlots.map (·.leaf C))
      = storage'.fold C (storage'.storageSlots.map (·.leaf C))) :
    storage.storageSlots.map (·.entry) = storage'.storageSlots.map (·.entry) := by
  unfold ContractStorage.fold ContractStorage.tree at h
  rw [hn, hn'] at h
  have hmem : ∀ {slots : List StorageSlot}, (∀ slot ∈ slots, slot.entry ∈ D) →
      ∀ leaf ∈ slots.map (·.leaf C), ∃ e ∈ D, leaf = C.poseidonHash (slotFields e.1 e.2) := by
    intro slots hslots leaf hleaf
    obtain ⟨slot, hslot, rfl⟩ := List.mem_map.mp hleaf
    exact ⟨slot.entry, hslots slot hslot, rfl⟩
  have hleaves := hC.fold ⟨by rw [List.length_map, hn], hmem hD⟩
    ⟨by rw [List.length_map, hn'], hmem hD'⟩ h
  exact hC.entries_eq hD hD' hleaves

/-- **the slots root binds the slots**: two accepted lists of equally many slots with one root have
the same users and values in the same order, and the same keys -/
theorem slots_root_binds (hC : CollisionFree C D n) {stateRoot stateRoot' root : B256}
    {storage storage' : ContractStorage} (hn : storage.storageSlots.length = n)
    (hn' : storage'.storageSlots.length = n) (hD : ∀ slot ∈ storage.storageSlots, slot.entry ∈ D)
    (hD' : ∀ slot ∈ storage'.storageSlots, slot.entry ∈ D)
    (h : verifyStorageSlotProofs C stateRoot storage = .ok root)
    (h' : verifyStorageSlotProofs C stateRoot' storage' = .ok root) :
    storage.storageSlots.map (·.entry) = storage'.storageSlots.map (·.entry) ∧
      storage.storageSlots.map (·.key) = storage'.storageSlots.map (·.key) := by
  obtain ⟨hvalid, hroot⟩ := storage_eq_ok.mp h
  obtain ⟨hvalid', hroot'⟩ := storage_eq_ok.mp h'
  have hentries := hC.root_entries hn hn' hD hD' (C.fpToBytes_inj (hroot.symm.trans hroot'))
  refine ⟨hentries, ?_⟩
  rw [hvalid.keys, hvalid'.keys, hentries]

end

/-! ## two balances -/

namespace Devnet

/-- a tree whose root depends on the order of its leaves -/
def ordered : Crypto :=
  { crypto with foldMerkleLeft := fun leaves _ _ _ =>
      leaves.foldr (fun leaf root => leaf + 2 * root) 0 }

def balanceSlot (user : Address) (value : U256) : StorageSlot where
  key := getStorageLocationForKey crypto.keccak256 user sourceContractLockedTokensStorageIndex
  slotKeyAddress := user
  expectedValue := value
  mptProof := []

def alice : Address := .ofNat 20 7
def bob : Address := .ofNat 20 9

def balances : List StorageSlot := [balanceSlot alice 1000, balanceSlot bob 5]

def entries : Set (Address × U256) := {(alice, 1000), (bob, 5)}

def balanceStorage : ContractStorage := { emptyStorage with storageSlots := balances }

theorem ordered_collisionFree : CollisionFree ordered entries 2 where
  poseidon := by
    rintro _ ⟨e, rfl | rfl, rfl⟩ _ ⟨e', rfl | rfl, rfl⟩ h
    · rfl
    · exact absurd h (by decide +kernel)
    · exact absurd h (by decide +kernel)
    · rfl
  fold := by
    intro leaves ⟨hlen, hleaves⟩ leaves' ⟨hlen', hleaves'⟩ h
    obtain ⟨x, y, rfl⟩ := List.length_eq_two.mp hlen
    obtain ⟨x', y', rfl⟩ := List.length_eq_two.mp hlen'
    simp only [List.forall_mem_cons] at hleaves hleaves'
    obtain ⟨⟨e, he, rfl⟩, ⟨f, hf, rfl⟩, _⟩ := hleaves
    obtain ⟨⟨e', he', rfl⟩, ⟨f', hf', rfl⟩, _⟩ := hleaves'
    rcases he with rfl | rfl <;> rcases hf with rfl | rfl <;> rcases he' with rfl | rfl <;>
      rcases hf' with rfl | rfl <;> first | rfl | exact absurd h (by decide +kernel)

theorem balances_valid (stateRoot : B256) : ValidStorage ordered stateRoot balanceStorage where
  account := rfl
  depth := by decide +kernel
  slots := by
    intro slot hslot
    rcases List.mem_pair.mp hslot with rfl | rfl
    · exact ⟨rfl, rfl⟩
    · exact ⟨rfl, rfl⟩

theorem balances_entries : ∀ slot ∈ balanceStorage.storageSlots, slot.entry ∈ entries := by
  intro slot hslot
  rcases List.mem_pair.mp hslot with rfl | rfl
  · exact .inl rfl
  · exact .inr rfl

end Devnet

open Devnet in
/-- the storage of two blocks with the same balances -/
theorem slots_root_binds_devnet : ∃ root,
    verifyStorageSlotProofs ordered (digest 1) balanceStorage = .ok root ∧
    verifyStorageSlotProofs ordered (digest 2) balanceStorage = .ok root ∧
    balanceStorage.storageSlots.map (·.entry) = [(alice, 1000), (bob, 5)] := by
  have h := storage_eq_ok.mpr ⟨balances_valid (digest 1), rfl⟩
  have h' := storage_eq_ok.mpr ⟨balances_valid (digest 2), rfl⟩
  obtain ⟨hentries, _⟩ := slots_root_binds ordered_collisionFree rfl rfl balances_entries
    balances_entries h h'
  exact ⟨_, h, h', hentries⟩

end ZkSymbiotic
