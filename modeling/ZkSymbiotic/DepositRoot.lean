import ZkSymbiotic.Deposits
import ZkSymbiotic.Lib.Reorder
import ZkSymbiotic.Storage

/-!
# The root of the deposits

What a proof of a window says about the deposits is a function of the deposit history and of the two
block numbers: the users with an event in the blocks, in the order of their addresses, each with the
balance after the last block, folded into one root.

* `DepositHistory.slotsRoot`   this root;
* `contractStorage_sorted`     prepared slots are sorted by address;
* `deposits_committed`         the proof of a window that honest providers prepared commits it.
-/

namespace ZkSymbiotic

/-! ## what a window is to say -/

/-- the users with an event in the blocks `a..b`, in the order of their addresses -/
def DepositHistory.depositors (history : DepositHistory) (a b : Nat) : List Address :=
  sortedMembers ((List.Ico a (b + 1)).flatMap fun n =>
    ((history.events n).filterMap lockedEvent).map (·.user))

theorem DepositHistory.mem_depositors {history : DepositHistory} {a b : Nat} {user : Address} :
    user ∈ history.depositors a b ↔
      ∃ n, a ≤ n ∧ n ≤ b ∧ ∃ e, .tokensLocked e ∈ history.events n ∧ e.user = user := by
  simp only [depositors, mem_sortedMembers, List.mem_flatMap, List.Ico.mem, List.mem_map,
    mem_lockedEvents, Nat.lt_succ_iff, and_assoc]

section
variable (C : Crypto)

/-- the leaf of a user and a balance -/
def userLeaf (user : Address) (balance : U256) : Fp := C.poseidonHash (slotFields user balance)

/-- the root over the leaves of users with their balances -/
def balancesRoot (users : List Address) (balance : Address → U256) : B256 :=
  let (depth, paddedSize) := C.computeMerkleTreeDepthAndSize users.length
  C.fpToBytes (C.foldMerkleLeft (users.map fun user => userLeaf C user (balance user)) paddedSize
    depth C.getMerkleZeros)

/-- what a proof of the blocks `a..b` is to commit -/
def DepositHistory.slotsRoot (history : DepositHistory) (a b : Nat) : B256 :=
  balancesRoot C (history.depositors a b) (history.lockedTokens b)

end

/-! ## what it says -/

section
variable {S : ConsensusSpec} {H : Helios S} {C : Crypto} {contract : Address}
  {chain : CanonicalChain C.keccak256 contract} {w : ProofInputsWithWindow S}

/-- the slots are sorted before they go into the storage -/
theorem contractStorage_sorted {provider : ExecutionRpc} {address : Address}
    {inputBlock outputBlock : UInt64} {storage : ContractStorage}
    (h : provider.contractStorage C address inputBlock outputBlock = .ok storage) :
    (storage.storageSlots.map (·.slotKeyAddress)).Pairwise (· ≤ ·) := by
  obtain ⟨_, _, h⟩ := Except.bind_eq_ok.mp h
  obtain ⟨_, _, h⟩ := Except.bind_eq_ok.mp h
  obtain ⟨slots, _, h⟩ := Except.bind_eq_ok.mp h
  rw [← Except.pure_eq_ok.mp h, List.pairwise_map]
  exact pairwise_mergeSort_key StorageSlot.slotKeyAddress slots

theorem Prepared.sorted (h : Prepared H C chain w) :
    (w.slots.map (·.slotKeyAddress)).Pairwise (· ≤ ·) := by
  obtain ⟨self, rfl, _, _, _, _, _, _, _, hprepare⟩ := h
  obtain ⟨_, _, out, hout, rfl⟩ := ExecutionHttpProxy.prepare_ok H C hprepare
  obtain ⟨storage, hstorage, _, rfl⟩ := (ExecutionRpc.prepare_ok H C).mp hout
  exact contractStorage_sorted hstorage

/-- a window ends with a dry run of its proof -/
theorem Prepared.proves (h : Prepared H C chain w) :
    ∃ o, consensusMptProgram H (verifyStorageSlotProofs C) w.proofInputs = .ok o := by
  obtain ⟨self, rfl, _, _, _, _, _, _, _, hprepare⟩ := h
  obtain ⟨_, _, out, hout, rfl⟩ := ExecutionHttpProxy.prepare_ok H C hprepare
  obtain ⟨storage, _, ho, rfl⟩ := (ExecutionRpc.prepare_ok H C).mp hout
  exact ho

/-- the users of a window are the depositors of its blocks -/
theorem Prepared.depositors (hkeccak : NoCollisions C.keccak256) (h : Prepared H C chain w)
    (hend : InRange w.expectedOutputBlockNumber) :
    w.slots.map (·.slotKeyAddress) =
      chain.history.depositors w.inputBlockNumber.toNat w.expectedOutputBlockNumber.toNat := by
  have htracks := h.tracks hkeccak hend
  refine eq_sortedMembers h.sorted htracks.nodup fun user => ?_
  rw [List.mem_map, htracks.listed user, ← mem_sortedMembers]
  exact DepositHistory.mem_depositors.symm

/-- the root that the verifier computes over slots at the locations of their users -/
theorem verified_root {stateRoot root : B256} {storage : ContractStorage}
    (h : verifyStorageSlotProofs C stateRoot storage = .ok root) {balance : Address → U256}
    (hbalance : ∀ slot ∈ storage.storageSlots, slot.expectedValue = balance slot.slotKeyAddress) :
    root = balancesRoot C (storage.storageSlots.map (·.slotKeyAddress)) balance := by
  obtain ⟨_, rfl⟩ := storage_eq_ok.mp h
  have hleaves : storage.storageSlots.map (·.leaf C) =
      (storage.storageSlots.map (·.slotKeyAddress)).map
        fun user => userLeaf C user (balance user) := by
    rw [List.map_map]
    refine List.map_congr_left fun slot hslot => ?_
    show C.poseidonHash (slotFields slot.slotKeyAddress slot.expectedValue) = _
    rw [hbalance slot hslot]
    rfl
  rw [hleaves, balancesRoot, List.length_map]
  rfl

/-- **A proof commits the deposits.**  A window that honest providers prepared lists the depositors
of its blocks in the order of their addresses, and its proof succeeds and commits the root over their
balances after the last block: neither the providers nor the order of their replies matter. -/
theorem deposits_committed (hkeccak : NoCollisions C.keccak256) (h : Prepared H C chain w)
    (hend : InRange w.expectedOutputBlockNumber) :
    w.slots.map (·.slotKeyAddress) =
      chain.history.depositors w.inputBlockNumber.toNat w.expectedOutputBlockNumber.toNat ∧
    ∃ o, consensusMptProgram H (verifyStorageSlotProofs C) w.proofInputs = .ok o ∧
      o.verifiedContractStorageSlotsRoot = chain.history.slotsRoot C w.inputBlockNumber.toNat
        w.expectedOutputBlockNumber.toNat := by
  have husers := h.depositors hkeccak hend
  obtain ⟨o, ho⟩ := h.proves
  refine ⟨husers, o, ho, ?_⟩
  obtain ⟨_, hverified⟩ := (consensusMptProgram_eq_ok H _).mp ho
  rw [DepositHistory.slotsRoot, ← husers]
  exact verified_root hverified fun slot hslot => (h.slot hkeccak hend hslot).2.1

end

open Devnet in
/-- the window of the deposit commits the root over the one depositor -/
theorem deposits_committed_devnet :
    [depositor] = history.depositors 0 10 ∧
    ∃ o, consensusMptProgram helios (verifyStorageSlotProofs crypto)
        (depositWindow 0 10 [slot]).proofInputs = .ok o ∧
      o.verifiedContractStorageSlotsRoot = history.slotsRoot crypto 0 10 :=
  deposits_committed (H := helios) noCollisions first_prepared (by decide)

end ZkSymbiotic
