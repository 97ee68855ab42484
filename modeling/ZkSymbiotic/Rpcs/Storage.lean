import Mathlib.Data.List.Induction
import ZkSymbiotic.Rpcs.Scan

/-!
# What a prepared storage lists

From the events of a scan to the storage slots: one key for each user, one proof for each key, one
slot for each proof.

* `lookup_storageSlotAddressMap`   the map takes the storage location of a user to the user;
* `ExecutionRpc.Proves`            answers with one proof for each key that was asked for;
* `Tracks`                         a storage that lists exactly some users, each once, with the value
                                   at its location;
* `ExecutionRpc.contractStorage_tracks`   a prepared storage tracks the users of the scan.
-/

namespace ZkSymbiotic

/-- the storage location of a user's `lockedTokens` -/
def lockedTokensLocation (keccak256 : Bytes → B256) (user : Address) : B256 :=
  getStorageLocationForKey keccak256 user sourceContractLockedTokensStorageIndex

/-! ## the map -/

section
variable {keccak256 : Bytes → B256}

theorem storageSlotAddressMap_concat (events : List TokensLocked) (event : TokensLocked) :
    storageSlotAddressMap keccak256 (events ++ [event]) =
      (storageSlotAddressMap keccak256 events).insert (lockedTokensLocation keccak256 event.user)
        event.user := by
  unfold storageSlotAddressMap
  rw [List.foldl_concat]
  rfl

theorem lookup_storageSlotAddressMap
    (hinj : Function.Injective (lockedTokensLocation keccak256)) (events : List TokensLocked)
    {key : B256} {user : Address} :
    (storageSlotAddressMap keccak256 events).lookup key = some user ↔
      key = lockedTokensLocation keccak256 user ∧ ∃ e ∈ events, e.user = user := by
  induction events using List.reverseRecOn with
  | nil =>
    refine ⟨fun h => ?_, fun ⟨_, e, he, _⟩ => absurd he List.not_mem_nil⟩
    cases h
  | append_singleton events event ih =>
    rw [storageSlotAddressMap_concat]
    by_cases hkey : key = lockedTokensLocation keccak256 event.user
    · rw [hkey, AList.lookup_insert, Option.some.injEq]
      constructor
      · intro huser
        subst huser
        exact ⟨rfl, event, List.mem_append_right _ (List.mem_singleton.mpr rfl), rfl⟩
      · exact fun ⟨h, _⟩ => hinj h
    · rw [AList.lookup_insert_ne hkey, ih]
      constructor
      · exact fun ⟨h, e, he, hu⟩ => ⟨h, e, List.mem_append_left _ he, hu⟩
      · intro ⟨h, e, he, hu⟩
        rcases List.mem_append.mp he with he | he
        · exact ⟨h, e, he, hu⟩
        · obtain rfl := List.mem_singleton.mp he
          rw [hu] at hkey
          exact absurd h hkey

/-- the location of everyone with an event is a key of the map -/
theorem location_mem_keys (hinj : Function.Injective (lockedTokensLocation keccak256))
    {events : List TokensLocked} {e : TokensLocked} (he : e ∈ events) :
    lockedTokensLocation keccak256 e.user ∈ (storageSlotAddressMap keccak256 events).keys := by
  have hlookup := (lookup_storageSlotAddressMap hinj events).mpr ⟨rfl, e, he, rfl⟩
  apply AList.mem_keys.mp
  apply AList.lookup_isSome.mp
  rw [hlookup]
  rfl

end

/-! ## the slots -/

/-- a successful answer has one proof for each key, in some order, with the value at that key -/
def ExecutionRpc.Proves (provider : ExecutionRpc) (address : Address)
    (storageAt : Nat → B256 → U256) : Prop :=
  ∀ keys block response, provider.getProof address keys block = .ok response →
    (response.storageProof.map (·.key)).Perm keys ∧
      ∀ slot ∈ response.storageProof, slot.value = storageAt block.toNat slot.key

/-- `slots` lists exactly `users`, each once, with the value at its location -/
structure Tracks (location : Address → B256) (value : B256 → U256) (users : Address → Prop)
    (slots : List StorageSlot) : Prop where
  nodup : (slots.map (·.slotKeyAddress)).Nodup
  listed : ∀ user, (∃ slot ∈ slots, slot.slotKeyAddress = user) ↔ users user
  key : ∀ slot ∈ slots, slot.key = location slot.slotKeyAddress
  value : ∀ slot ∈ slots, slot.expectedValue = value slot.key

theorem Tracks.perm {location : Address → B256} {value : B256 → U256} {users : Address → Prop}
    {slots slots' : List StorageSlot} (h : Tracks location value users slots)
    (hp : slots'.Perm slots) : Tracks location value users slots' where
  nodup := (hp.map _).nodup_iff.mpr h.nodup
  listed := by
    intro user
    rw [← h.listed user]
    exact ⟨fun ⟨slot, hs, e⟩ => ⟨slot, hp.mem_iff.mp hs, e⟩,
      fun ⟨slot, hs, e⟩ => ⟨slot, hp.mem_iff.mpr hs, e⟩⟩
  key := fun slot hs => h.key slot (hp.mem_iff.mp hs)
  value := fun slot hs => h.value slot (hp.mem_iff.mp hs)

/-- slots with different keys are of different users -/
theorem slots_nodup {location : Address → B256} {slots : List StorageSlot}
    (hkey : ∀ slot ∈ slots, slot.key = location slot.slotKeyAddress)
    (hnodup : (slots.map (·.key)).Nodup) : (slots.map (·.slotKeyAddress)).Nodup := by
  have hcomp : slots.map (·.key) = (slots.map (·.slotKeyAddress)).map location := by
    rw [List.map_map]
    exact List.map_congr_left hkey
  rw [hcomp] at hnodup
  exact hnodup.of_map

theorem toStorageSlot_ok {slots : AList fun _ : B256 => Address} {proof : EIP1186StorageProof}
    {slot : StorageSlot} (h : toStorageSlot slots proof = .ok slot) :
    slots.lookup slot.key = some slot.slotKeyAddress ∧ slot.key = proof.key ∧
      slot.expectedValue = proof.value := by
  unfold toStorageSlot at h
  cases hl : slots.lookup proof.key with
  | none =>
    rw [hl] at h
    cases h
  | some address =>
    rw [hl] at h
    obtain rfl := Except.ok.inj h
    exact ⟨hl, rfl, rfl⟩

section
variable {keccak256 : Bytes → B256} {events : List TokensLocked}
  {proofs : List EIP1186StorageProof} {slots : List StorageSlot}

/-- the slots that are made of the proofs of all keys track the users of the events -/
theorem toStorageSlots_tracks (hinj : Function.Injective (lockedTokensLocation keccak256))
    {value : B256 → U256}
    (h : proofs.mapM (toStorageSlot (storageSlotAddressMap keccak256 events)) = .ok slots)
    (hkeys : (proofs.map (·.key)).Perm (storageSlotAddressMap keccak256 events).keys)
    (hvalue : ∀ proof ∈ proofs, proof.value = value proof.key) :
    Tracks (lockedTokensLocation keccak256) value (fun user => ∃ e ∈ events, e.user = user)
      slots := by
  have hmap : slots.map (·.key) = proofs.map (·.key) :=
    Except.map_of_mapM (fun _ _ hslot => (toStorageSlot_ok hslot).2.1) h
  have hslot : ∀ slot ∈ slots, slot.key = lockedTokensLocation keccak256 slot.slotKeyAddress ∧
      ∃ e ∈ events, e.user = slot.slotKeyAddress := by
    intro slot hs
    obtain ⟨proof, _, hok⟩ := Except.mem_of_mapM h hs
    exact (lookup_storageSlotAddressMap hinj events).mp (toStorageSlot_ok hok).1
  refine ⟨?_, ?_, fun slot hs => (hslot slot hs).1, ?_⟩
  · apply slots_nodup fun slot hs => (hslot slot hs).1
    rw [hmap]
    exact hkeys.nodup_iff.mpr (AList.keys_nodup _)
  · intro user
    constructor
    · rintro ⟨slot, hs, rfl⟩
      exact (hslot slot hs).2
    · rintro ⟨e, he, rfl⟩
      have hkey : lockedTokensLocation keccak256 e.user ∈ slots.map (·.key) := by
        rw [hmap]
        exact hkeys.mem_iff.mpr (location_mem_keys hinj he)
      obtain ⟨slot, hs, hk⟩ := List.mem_map.mp hkey
      exact ⟨slot, hs, hinj ((hslot slot hs).1.symm.trans hk)⟩
  · intro slot hs
    obtain ⟨proof, hp, hok⟩ := Except.mem_of_mapM h hs
    obtain ⟨_, hk, hv⟩ := toStorageSlot_ok hok
    rw [hv, hk]
    exact hvalue proof hp

end

/-! ## the storage -/

theorem sortSlots_perm (slots : List StorageSlot) : (sortSlots slots).Perm slots :=
  List.mergeSort_perm slots _

/-- **a prepared storage tracks the users of the events in its block range** -/
theorem ExecutionRpc.contractStorage_tracks {C : Crypto} {provider : ExecutionRpc}
    {address : Address} {logsAt : Nat → List Log} {storageAt : Nat → B256 → U256}
    {inputBlock outputBlock : UInt64} {storage : ContractStorage}
    (hinj : Function.Injective (lockedTokensLocation C.keccak256)) (hend : InRange outputBlock)
    (hlogs : provider.Answers address (C.keccak256 TokensLocked.signature) logsAt)
    (hproof : provider.Proves address storageAt)
    (h : provider.contractStorage C address inputBlock outputBlock = .ok storage) :
    Tracks (lockedTokensLocation C.keccak256) (storageAt outputBlock.toNat)
      (fun user => ∃ n, inputBlock.toNat ≤ n ∧ n ≤ outputBlock.toNat ∧
        ∃ e ∈ (logsAt n).filterMap C.decodeLog, e.user = user)
      storage.storageSlots := by
  unfold ExecutionRpc.contractStorage at h
  obtain ⟨events, hevents, h⟩ := Except.bind_eq_ok.mp h
  obtain ⟨response, hresponse, h⟩ := Except.bind_eq_ok.mp h
  obtain ⟨slots, hslots, h⟩ := Except.bind_eq_ok.mp h
  obtain rfl := Except.pure_eq_ok.mp h
  obtain ⟨hkeys, hvalue⟩ := hproof _ _ _ (Except.mapError_eq_ok.mp hresponse)
  have htracks := toStorageSlots_tracks hinj hslots
    (hkeys.trans (provider.keyOrder _).perm) hvalue
  have hsorted := htracks.perm (sortSlots_perm slots)
  refine ⟨hsorted.nodup, fun user => ?_, hsorted.key, hsorted.value⟩
  apply (hsorted.listed user).trans
  rw [getSourceContractEvents_ok hend hlogs hevents]
  simp only [List.mem_flatMap, List.Ico.mem]
  constructor
  · rintro ⟨e, ⟨n, ⟨hlo, hhi⟩, he⟩, hu⟩
    exact ⟨n, hlo, Nat.lt_succ_iff.mp hhi, e, he, hu⟩
  · intro ⟨n, hlo, hhi, e, he, hu⟩
    exact ⟨e, ⟨n, ⟨hlo, Nat.lt_succ_of_le hhi⟩, he⟩, hu⟩

end ZkSymbiotic
