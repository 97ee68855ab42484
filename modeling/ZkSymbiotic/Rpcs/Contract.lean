import ZkSymbiotic.Provenance
import ZkSymbiotic.Rpcs.Order

/-!
# The contract of a prepared proof

The storage proof is requested for the configured contract, but the address in the prepared storage
is the one that the reply names.

* `contractStorage_replied`   a prepared storage was made of a reply, and has its address;
* `address_configured_iff`    it is the configured address exactly if the reply names that one;
* `other_contract_prepared`   a reply for another contract passes the dry run.
-/

namespace ZkSymbiotic

section
variable {S : ConsensusSpec} {H : Helios S} {C : Crypto} {provider : ExecutionRpc}
  {address : Address} {inputBlock outputBlock : UInt64} {storage : ContractStorage}

theorem contractStorage_replied
    (h : provider.contractStorage C address inputBlock outputBlock = .ok storage) :
    ∃ events reply, provider.Replied C address inputBlock outputBlock events reply ∧
      storage.address = reply.address := by
  unfold ExecutionRpc.contractStorage at h
  obtain ⟨events, hevents, h⟩ := Except.bind_eq_ok.mp h
  obtain ⟨reply, hreply, h⟩ := Except.bind_eq_ok.mp h
  obtain ⟨slots, _, h⟩ := Except.bind_eq_ok.mp h
  obtain rfl := Except.pure_eq_ok.mp h
  exact ⟨events, reply, ⟨hevents, Except.mapError_eq_ok.mp hreply⟩, rfl⟩

theorem ExecutionRpc.Replied.unique {events events' : List TokensLocked}
    {reply reply' : EIP1186AccountProofResponse}
    (h : provider.Replied C address inputBlock outputBlock events reply)
    (h' : provider.Replied C address inputBlock outputBlock events' reply') : reply = reply' := by
  obtain rfl : events = events' := Except.ok.inj (h.scanned.symm.trans h'.scanned)
  exact Except.ok.inj (h.answered.symm.trans h'.answered)

/-- **the prepared proof is about the configured contract if and only if the reply names it** -/
theorem address_configured_iff {p : ConsensusProofInputs S} {out : ProofInputs S}
    (h : provider.prepare H C address inputBlock outputBlock p = .ok out) :
    out.contractStorage.address = address ↔
      ∃ events reply, provider.Replied C address inputBlock outputBlock events reply ∧
        reply.address = address := by
  obtain ⟨storage, hs, _, rfl⟩ := (ExecutionRpc.prepare_ok H C).mp h
  obtain ⟨events, reply, hreplied, haddress⟩ := contractStorage_replied hs
  constructor
  · intro hstorage
    exact ⟨events, reply, hreplied, haddress.symm.trans hstorage⟩
  · intro ⟨_, reply', hreplied', hreply'⟩
    obtain rfl := hreplied.unique hreplied'
    exact haddress.trans hreply'

end

/-! ## a reply for another contract -/

namespace Devnet

/-- the deposits of the users of the slots that both contracts have -/
def sharedEvents : List TokensLocked := [⟨alice, 1000, 0⟩, ⟨bob, 5, 0⟩]

/-- the answer for one of the two contracts, true in the state of slot 64 -/
def sharedReply (contract : Address) : EIP1186AccountProofResponse where
  address := contract
  balance := account.balance
  codeHash := account.codeHash
  nonce := account.nonce
  storageHash := account.storageRoot
  accountProof := []
  storageProof := sharedSlots.map fun slot => ⟨slot.key, slot.expectedValue, slot.mptProof⟩

/-- asked for the bridge contract, this provider answers for `contract` -/
def answering (contract : Address) : ExecutionRpc :=
  listing shared.keccak256 sharedEvents (sharedReply contract)

theorem answering_replied (contract : Address) :
    (answering contract).Replied shared bridgeContract 32 64 sharedEvents (sharedReply contract) :=
  listing_replied shared bridgeContract sharedEvents (sharedReply contract)

theorem answering_storage (contract : Address) :
    (answering contract).contractStorage shared bridgeContract 32 64
      = .ok (sharedStorage contract) := by
  have hslots : (sharedReply contract).storageProof.mapM
      (toStorageSlot (storageSlotAddressMap shared.keccak256 sharedEvents)) = .ok sharedSlots := by
    rfl
  rw [(answering_replied contract).contractStorage, hslots]
  have hsorted : sortSlots sharedSlots = sharedSlots :=
    List.mergeSort_of_pairwise (by decide +kernel)
  show Except.ok { sharedStorage contract with storageSlots := sortSlots sharedSlots } = _
  rw [hsorted]
  rfl

theorem answering_prepare {contract : Address}
    (h : contract = bridgeContract ∨ contract = otherContract) :
    (answering contract).prepare helios shared bridgeContract 32 64 (consensusInputs 32 64)
      = .ok (inputs 32 64 (sharedStorage contract)) :=
  (ExecutionRpc.prepare_ok helios shared).mpr
    ⟨_, answering_storage contract, ⟨_, sharedProgram_ok h⟩, rfl⟩

end Devnet

open Devnet in
/-- a provider that answers for the contract it is asked for -/
theorem address_configured_devnet :
    (inputs 32 64 (sharedStorage bridgeContract)).contractStorage.address = bridgeContract :=
  (address_configured_iff (answering_prepare (.inl rfl))).mpr
    ⟨sharedEvents, sharedReply bridgeContract, answering_replied bridgeContract, rfl⟩

open Devnet in
/-- **the reply for another contract is prepared**: its account and its slot are proved in the state
of the output block, so the dry run succeeds -/
theorem other_contract_prepared : MptSound shared trie ∧ ∃ out,
    (answering otherContract).prepare helios shared bridgeContract 32 64 (consensusInputs 32 64)
      = .ok out ∧ out.contractStorage.address = otherContract ∧ otherContract ≠ bridgeContract :=
  ⟨shared_sound, _, answering_prepare (.inr rfl), rfl, by decide⟩

end ZkSymbiotic
