import ZkSymbiotic.Deposits
import ZkSymbiotic.Lib.Reorder

/-!
# The order of a provider's replies

A provider lists logs and storage proofs in any order, and the host asks for the proofs in the order
of a hash map.  The prepared storage depends on none of them.

* `Replied`                     what a provider answers to one preparation;
* `SameReply`                   two answers that list the same proofs, one for each key;
* `storage_order_independent`   they are prepared to one storage.
-/

namespace ZkSymbiotic

/-! ## two replies -/

/-- the events a provider is scanned for, and what it answers when asked for the storage of their
users -/
structure ExecutionRpc.Replied (C : Crypto) (provider : ExecutionRpc) (address : Address)
    (inputBlock outputBlock : UInt64) (events : List TokensLocked)
    (reply : EIP1186AccountProofResponse) : Prop where
  scanned : getSourceContractEvents C provider address inputBlock outputBlock = .ok events
  answered : provider.getProof address
    (provider.keyOrder (storageSlotAddressMap C.keccak256 events).keys).order outputBlock
      = .ok reply

/-- one account, and the same storage proofs, in whichever order; no key is proved twice -/
structure SameReply (reply reply' : EIP1186AccountProofResponse) : Prop where
  account : { reply with storageProof := [] } = { reply' with storageProof := [] }
  proofs : ∀ proof, proof ∈ reply.storageProof ↔ proof ∈ reply'.storageProof
  nodup : (reply.storageProof.map (·.key)).Nodup
  nodup' : (reply'.storageProof.map (·.key)).Nodup

theorem SameReply.perm {reply reply' : EIP1186AccountProofResponse} (h : SameReply reply reply') :
    reply.storageProof.Perm reply'.storageProof :=
  (List.perm_ext_iff_of_nodup h.nodup.of_map h.nodup'.of_map).mpr h.proofs

section
variable {keccak256 : Bytes → B256} {events events' : List TokensLocked}

/-- the map does not depend on the order of the events, nor on how often a user has one -/
theorem lookup_storageSlotAddressMap_congr
    (hinj : Function.Injective (lockedTokensLocation keccak256))
    (hevents : ∀ e, e ∈ events ↔ e ∈ events') (key : B256) :
    (storageSlotAddressMap keccak256 events).lookup key
      = (storageSlotAddressMap keccak256 events').lookup key := by
  apply Option.ext
  intro user
  rw [lookup_storageSlotAddressMap hinj, lookup_storageSlotAddressMap hinj]
  exact and_congr_right fun _ => exists_congr fun e => and_congr_left fun _ => hevents e

theorem toStorageSlot_congr (hinj : Function.Injective (lockedTokensLocation keccak256))
    (hevents : ∀ e, e ∈ events ↔ e ∈ events') :
    toStorageSlot (storageSlotAddressMap keccak256 events)
      = toStorageSlot (storageSlotAddressMap keccak256 events') := by
  funext proof
  unfold toStorageSlot
  rw [lookup_storageSlotAddressMap_congr hinj hevents]

theorem toStorageSlot_error {slots : AList fun _ : B256 => Address} {proof : EIP1186StorageProof}
    {failure : Failure} (h : toStorageSlot slots proof = .error failure) : failure = .panic := by
  unfold toStorageSlot at h
  cases hl : slots.lookup proof.key with
  | none =>
    rw [hl] at h
    exact (Except.error.inj h).symm
  | some address =>
    rw [hl] at h
    cases h

/-- slots of different keys have different addresses -/
theorem toStorageSlots_nodup (hinj : Function.Injective (lockedTokensLocation keccak256))
    {proofs : List EIP1186StorageProof} {slots : List StorageSlot}
    (h : proofs.mapM (toStorageSlot (storageSlotAddressMap keccak256 events)) = .ok slots)
    (hkeys : (proofs.map (·.key)).Nodup) : (slots.map (·.slotKeyAddress)).Nodup := by
  have hmap : slots.map (·.key) = proofs.map (·.key) :=
    Except.map_of_mapM (fun _ _ hslot => (toStorageSlot_ok hslot).2.1) h
  have hlocation : ∀ slot ∈ slots,
      slot.key = lockedTokensLocation keccak256 slot.slotKeyAddress := by
    intro slot hs
    obtain ⟨proof, _, hok⟩ := Except.mem_of_mapM h hs
    exact ((lookup_storageSlotAddressMap hinj events).mp (toStorageSlot_ok hok).1).1
  apply slots_nodup hlocation
  rw [hmap]
  exact hkeys

/-- the sorted slots of reordered proofs, or a panic in both orders -/
theorem sortedSlots_congr (hinj : Function.Injective (lockedTokensLocation keccak256))
    (hevents : ∀ e, e ∈ events ↔ e ∈ events') {proofs proofs' : List EIP1186StorageProof}
    (hkeys : (proofs.map (·.key)).Nodup) (hperm : proofs.Perm proofs') :
    sortSlots <$> proofs.mapM (toStorageSlot (storageSlotAddressMap keccak256 events))
      = sortSlots <$> proofs'.mapM (toStorageSlot (storageSlotAddressMap keccak256 events')) := by
  have hpanic : ∀ proof failure, toStorageSlot (storageSlotAddressMap keccak256 events) proof
      = .error failure → failure = .panic := fun _ _ => toStorageSlot_error
  rw [← toStorageSlot_congr hinj hevents]
  rcases Except.mapM_perm hpanic hperm with
    ⟨slots, slots', hslots, hslots', hp⟩ | ⟨hpanic, hpanic'⟩
  · have hsorted : sortSlots slots = sortSlots slots' :=
      mergeSort_eq_of_perm (toStorageSlots_nodup hinj hslots hkeys) hp
    rw [hslots, hslots']
    exact congrArg Except.ok hsorted
  · rw [hpanic, hpanic']

end

/-! ## the prepared storage -/

section
variable {S : ConsensusSpec} (H : Helios S) {C : Crypto} {provider provider' : ExecutionRpc}
  {address address' : Address} {inputBlock inputBlock' outputBlock outputBlock' : UInt64}
  {events events' : List TokensLocked} {reply reply' : EIP1186AccountProofResponse}

/-- what is made of a reply -/
theorem ExecutionRpc.Replied.contractStorage
    (h : provider.Replied C address inputBlock outputBlock events reply) :
    provider.contractStorage C address inputBlock outputBlock
      = (sortSlots <$> reply.storageProof.mapM
          (toStorageSlot (storageSlotAddressMap C.keccak256 events))) >>= fun storageSlots =>
        pure
          { address := reply.address
            expectedValue :=
              { nonce := reply.nonce, balance := reply.balance,
                storageRoot := reply.storageHash, codeHash := reply.codeHash }
            mptProof := reply.accountProof
            storageSlots } := by
  unfold ExecutionRpc.contractStorage
  simp only [h.scanned, Except.ok_bind, h.answered, bind_map_left]
  rfl

/-- **The prepared storage does not depend on any order.**  Two replies with the same set of
events, one account and the same storage proofs, one for each key, are prepared to one storage, or
panic both; so two prepared proofs have the same storage slots, and the storage verifier does the
same on them, under every state root. -/
theorem storage_order_independent
    (hinj : Function.Injective (lockedTokensLocation C.keccak256))
    (h : provider.Replied C address inputBlock outputBlock events reply)
    (h' : provider'.Replied C address' inputBlock' outputBlock' events' reply')
    (hevents : ∀ e, e ∈ events ↔ e ∈ events') (hsame : SameReply reply reply') :
    provider.contractStorage C address inputBlock outputBlock
        = provider'.contractStorage C address' inputBlock' outputBlock' ∧
      ∀ p p' out out', provider.prepare H C address inputBlock outputBlock p = .ok out →
        provider'.prepare H C address' inputBlock' outputBlock' p' = .ok out' →
          out.contractStorage.storageSlots = out'.contractStorage.storageSlots ∧
          ∀ stateRoot, verifyStorageSlotProofs C stateRoot out.contractStorage
            = verifyStorageSlotProofs C stateRoot out'.contractStorage := by
  have hstorage : provider.contractStorage C address inputBlock outputBlock
      = provider'.contractStorage C address' inputBlock' outputBlock' := by
    have haccount := hsame.account
    simp only [EIP1186AccountProofResponse.mk.injEq, and_true] at haccount
    obtain ⟨haddress, hbalance, hcode, hnonce, hhash, hproof⟩ := haccount
    rw [h.contractStorage, h'.contractStorage, haddress, hbalance, hcode, hnonce, hhash, hproof,
      sortedSlots_congr hinj hevents hsame.nodup hsame.perm]
  refine ⟨hstorage, fun p p' out out' hout hout' => ?_⟩
  obtain ⟨storage, hs, _, rfl⟩ := (ExecutionRpc.prepare_ok H C).mp hout
  obtain ⟨storage', hs', _, rfl⟩ := (ExecutionRpc.prepare_ok H C).mp hout'
  obtain rfl : storage = storage' := Except.ok.inj (hs.symm.trans (hstorage.trans hs'))
  exact ⟨rfl, fun _ => rfl⟩

end

/-! ## two users in both orders -/

namespace Devnet

theorem location_injective : Function.Injective (lockedTokensLocation crypto.keccak256) := by
  intro a b h
  rw [← wordAddress_location a, ← wordAddress_location b]
  exact congrArg wordAddress h

/-- a provider that lists these events and gives this reply, whatever it is asked -/
def listing (keccak256 : Bytes → B256) (events : List TokensLocked)
    (reply : EIP1186AccountProofResponse) : ExecutionRpc where
  getLogs := fun _ _ => .ok (events.map (·.encodeLog keccak256 contract))
  getProof := fun _ _ _ => .ok reply
  turns := 2
  keyOrder := Shuffle.id

theorem listing_replied (C : Crypto) (address : Address) (events : List TokensLocked)
    (reply : EIP1186AccountProofResponse) :
    (listing C.keccak256 events reply).Replied C address 32 64 events reply where
  scanned := by
    have hdecode : (events.map (·.encodeLog C.keccak256 contract)).filterMap
        C.decodeLog = events := by
      rw [List.filterMap_map]
      refine (List.filterMap_congr fun event _ => ?_).trans List.filterMap_some
      exact C.decodeLog_encodeLog contract event
    show Except.ok ((events.map (·.encodeLog C.keccak256 contract)).filterMap C.decodeLog ++ []) = _
    rw [hdecode, List.append_nil]
  answered := rfl

def firstUser : Address := .ofNat 20 7
def secondUser : Address := .ofNat 20 9

def proofOf (user : Address) : EIP1186StorageProof :=
  ⟨lockedTokensLocation crypto.keccak256 user, 1000, []⟩

/-- the proofs of these users -/
def replyOf (users : List Address) : EIP1186AccountProofResponse :=
  { accountProof contract with storageProof := users.map proofOf }

end Devnet

open Devnet in
/-- two users, listed in both orders and one of them twice -/
theorem storage_order_independent_devnet :
    (listing crypto.keccak256 [⟨firstUser, 1, 0⟩, ⟨secondUser, 1, 0⟩]
        (replyOf [firstUser, secondUser])).contractStorage crypto contract 32 64
      = (listing crypto.keccak256 [⟨secondUser, 1, 0⟩, ⟨firstUser, 1, 0⟩, ⟨secondUser, 1, 0⟩]
        (replyOf [secondUser, firstUser])).contractStorage crypto contract 32 64 := by
  have hsame : SameReply (replyOf [firstUser, secondUser]) (replyOf [secondUser, firstUser]) := by
    refine ⟨rfl, fun proof => ?_, ?_, ?_⟩
    · exact ⟨fun hp => List.mem_pair.mpr (List.mem_pair.mp hp).symm,
        fun hp => List.mem_pair.mpr (List.mem_pair.mp hp).symm⟩
    · decide +kernel
    · decide +kernel
  refine (storage_order_independent helios location_injective (listing_replied _ _ _ _)
    (listing_replied _ _ _ _) (fun e => ?_) hsame).1
  simp only [List.mem_cons, List.not_mem_nil, or_false]
  tauto

end ZkSymbiotic
