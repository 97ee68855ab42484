import Mathlib.Data.Nat.Log
import Mathlib.Data.ZMod.Defs
import ZkSymbiotic.Consensus
import ZkSymbiotic.Packing

/-!
# A small light client

An instance of the parameters: an update is the slot of the header it finalizes, execution blocks
are numbered by slots, and the only stores that have a hash are the synced ones, one for each slot.

* `Devnet.hashInjective`   its store hash is injective;
* `Devnet.crypto`          functions that keep the laws of the other packages;
* `Devnet.program_ok`      the proved program succeeds on every forward window.
-/

namespace ZkSymbiotic.Devnet

abbrev spec : ConsensusSpec where
  SyncCommittee := Unit
  Update := UInt64
  FinalityUpdate := UInt64
  Forks := Unit
  BeaconBlock := UInt64
  HeaderRest := Unit
  StoreRest := Unit

/-! ## stores -/

/-- a slot as a hash -/
def digest (slot : UInt64) : B256 := .ofNat 32 slot.toNat

theorem digest_inj {a b : UInt64} (h : digest a = digest b) : a = b := by
  have hlt : ∀ s : UInt64, s.toNat < 256^32 := fun s =>
    lt_trans s.toNat_lt (by decide)
  have e : beBytes 32 a.toNat = beBytes 32 b.toNat := congrArg FixedBytes.bytes h
  exact UInt64.toNat_inj.mp (beBytes_inj (hlt a) (hlt b) e)

def header (slot : UInt64) : LightClientHeader spec where
  beacon := ⟨slot⟩
  execution := some { stateRoot := digest slot, blockNumber := slot }
  rest := ()

/-- a store as bootstrapped: without a next sync committee -/
def bootstrapped (slot : UInt64) : LightClientStore spec where
  finalizedHeader := header slot
  nextSyncCommittee := none
  previousMaxActiveParticipants := 0
  currentMaxActiveParticipants := 0
  rest := ()

/-- the synced store of a slot -/
def store (slot : UInt64) : LightClientStore spec :=
  { bootstrapped slot with nextSyncCommittee := some () }

def isSynced (s : LightClientStore spec) : Bool :=
  s.finalizedHeader.execution = (header s.slot).execution ∧ s.nextSyncCommittee.isSome ∧
    s.previousMaxActiveParticipants = 0 ∧ s.currentMaxActiveParticipants = 0

theorem isSynced_eq {s : LightClientStore spec} (h : isSynced s = true) : s = store s.slot := by
  obtain ⟨⟨⟨slot⟩, execution, ⟨⟩⟩, committee, previous, current, ⟨⟩⟩ := s
  simp only [isSynced, decide_eq_true_eq] at h
  obtain ⟨hex, hsome, hprev, hcur⟩ := h
  cases committee with
  | none => cases hsome
  | some u =>
    obtain rfl : execution = (header slot).execution := hex
    obtain rfl : previous = 0 := hprev
    obtain rfl : current = 0 := hcur
    rfl

/-- the header of an update is installed where it is newer; any update brings the committee -/
def install (s : LightClientStore spec) (slot : UInt64) : LightClientStore spec :=
  { s with
    finalizedHeader := if s.slot < slot then header slot else s.finalizedHeader
    nextSyncCommittee := some () }

def helios : Helios spec where
  ConsensusError := Unit
  debug := fun _ => "NotRelevant"
  display := fun _ => "update not relevant"
  verifyUpdate := fun _ _ _ _ _ => .ok ()
  applyUpdate := install
  verifyFinalityUpdate := fun slot _ s _ _ => if s.slot ≤ slot then .ok () else .error ()
  applyFinalityUpdate := install
  updateHeader := header
  finalityUpdateHeader := header
  treeHashRoot := fun _ => .ofNat 32 1
  blockTreeHashRoot := digest
  calcSyncPeriod := fun slot => slot / 8192
  sha256HashHeliosStore := fun s =>
    if isSynced s then .ok (digest s.slot) else .error "store is not synced"

theorem hash_eq_ok {s : LightClientStore spec} {h : B256}
    (hs : helios.sha256HashHeliosStore s = .ok h) : s = store s.slot ∧ digest s.slot = h := by
  simp only [helios] at hs
  by_cases hsync : isSynced s = true
  · rw [if_pos hsync, Except.ok.injEq] at hs
    exact ⟨isSynced_eq hsync, hs⟩
  · rw [if_neg hsync] at hs
    cases hs

theorem hash_store (slot : UInt64) :
    helios.sha256HashHeliosStore (store slot) = .ok (digest slot) := by
  have h : isSynced (store slot) = true := by
    simp [isSynced, store, bootstrapped, LightClientStore.slot, header]
  show (if isSynced (store slot) = true then _ else _) = _
  rw [if_pos h]
  rfl

theorem hashInjective : helios.HashInjective := by
  intro s s' h hs hs'
  obtain ⟨e, hd⟩ := hash_eq_ok hs
  obtain ⟨e', hd'⟩ := hash_eq_ok hs'
  have hslot : s.slot = s'.slot := digest_inj (hd.trans hd'.symm)
  rw [e, e', hslot]

theorem install_slot (s : LightClientStore spec) (slot : UInt64) : s.slot ≤ (install s slot).slot := by
  unfold install LightClientStore.slot
  by_cases h : s.finalizedHeader.beacon.slot < slot
  · simp only [if_pos h, header]
    exact UInt64.le_of_lt h
  · simp only [if_neg h]
    exact UInt64.le_refl _

theorem install_store {a b : UInt64} (h : a ≤ b) : install (store a) b = store b := by
  unfold install
  by_cases hab : (store a).slot < b
  · rw [if_pos hab]
    rfl
  · have hba : ¬ a < b := hab
    obtain rfl : a = b := UInt64.le_antisymm h (UInt64.not_lt.mp hba)
    rw [if_neg hab]
    rfl

/-! ## storage -/

/-- the first 32 bytes, padded with zeros -/
def head32 (bytes : Bytes) : B256 :=
  ⟨bytes.take 32 ++ List.replicate (32 - bytes.length) 0, by
    rw [List.length_append, List.length_take, List.length_replicate]; omega⟩

/-- `decode_log` with validation: the signature topic, one indexed topic and exactly two words -/
def decodeLog (keccak256 : Bytes → B256) (log : Log) : Option TokensLocked :=
  match log.topics with
  | [topic, user] =>
    if topic = keccak256 TokensLocked.signature ∧ log.data.length = 64 then
      some { user := wordAddress user
             amount := readUint log.data
             when := readUint (log.data.drop 32) }
    else none
  | _ => none

theorem decodeLog_encodeLog (keccak256 : Bytes → B256) (contract : Address) (event : TokensLocked) :
    decodeLog keccak256 (event.encodeLog keccak256 contract) = some event := by
  have hlen : (uintWord event.amount ++ uintWord event.when).length = 64 := by
    rw [List.length_append, uintWord_length, uintWord_length]
  have huser : wordAddress ⟨addressWord event.user, addressWord_length event.user⟩ = event.user :=
    FixedBytes.bytes_inj (List.drop_left' List.length_replicate)
  have hwhen : readUint ((uintWord event.amount ++ uintWord event.when).drop 32) = event.when := by
    rw [List.drop_left' (uintWord_length event.amount)]
    have h := readUint_uintWord event.when []
    rwa [List.append_nil] at h
  show (if keccak256 TokensLocked.signature = keccak256 TokensLocked.signature ∧
      (uintWord event.amount ++ uintWord event.when).length = 64 then some (TokensLocked.mk
        (wordAddress ⟨addressWord event.user, addressWord_length event.user⟩)
        (readUint (uintWord event.amount ++ uintWord event.when))
        (readUint ((uintWord event.amount ++ uintWord event.when).drop 32))) else none) = _
  rw [if_pos ⟨rfl, hlen⟩, huser, readUint_uintWord, hwhen]

/-- high and low half of every byte -/
def unpackNibbles (bytes : Bytes) : Bytes := bytes.flatMap fun b : UInt8 => [b >>> 4, b &&& 0xf]

/-- canonical little-endian bytes of a field element; anything else is an error -/
def fpFromBytes (bytes : Bytes) : Except String Fp :=
  if h : bytes.length = 32 ∧ ofLe bytes < fpModulus then .ok ⟨ofLe bytes, h.2⟩
  else .error "failed to deserialize field bytes"

/-- the 32 little-endian bytes of a field element -/
def fpToBytes (x : Fp) : B256 :=
  ⟨(beBytes 32 x.val).reverse, by rw [List.length_reverse, beBytes_length]⟩

theorem fpFromBytes_toBytes (x : Fp) : fpFromBytes (fpToBytes x).bytes = .ok x := by
  have hval : ofLe (fpToBytes x).bytes = x.val := by
    show ofLe (beBytes 32 x.val).reverse = x.val
    rw [ofLe_reverse, ofBe_beBytes]
    exact Nat.mod_eq_of_lt (lt_trans x.isLt (by decide))
  unfold fpFromBytes
  rw [dif_pos ⟨(fpToBytes x).len, hval.trans_lt x.isLt⟩]
  exact congrArg Except.ok (Fin.ext hval)

def crypto : Crypto where
  keccak256 := head32
  decodeLog := decodeLog head32
  decodeLog_encodeLog := decodeLog_encodeLog head32
  unpackNibbles := unpackNibbles
  encodeTrieAccount := fun account => account.storageRoot.bytes
  encodeU256 := fun value => beBytes 32 value.toNat
  verifyProof := fun _ _ _ _ => .ok ()
  fpFromBytes := fpFromBytes
  fpFromBytes_canonical := fun _ h hlen => dif_pos ⟨hlen, h⟩
  fpToBytes := fpToBytes
  fpFromBytes_toBytes := fpFromBytes_toBytes
  poseidonHash := List.sum
  computeMerkleTreeDepthAndSize := fun n => (Nat.clog 2 n, 2 ^ Nat.clog 2 n)
  maxTreeDepth := 16
  foldMerkleLeft := fun leaves _ _ _ => leaves.sum
  getMerkleZeros := []

/-- the contract's storage where nothing was deposited -/
def emptyStorage : ContractStorage where
  address := .zero
  expectedValue := { nonce := 0, balance := 0, storageRoot := .zero, codeHash := .zero }
  mptProof := []
  storageSlots := []

/-! ## windows -/

/-- the inputs that lead from slot `a` to slot `b` -/
def inputs (a b : UInt64) (contractStorage : ContractStorage) : ProofInputs spec where
  updates := []
  finalityUpdate := b
  expectedCurrentSlot := b
  store := store a
  genesisRoot := .zero
  forks := ()
  storeHash := digest a
  contractStorage := contractStorage

def outputs (a b : UInt64) (root : B256) : ProofOutputs where
  inputSlot := a
  inputStoreHash := digest a
  outputSlot := b
  outputStoreHash := digest b
  executionStateRoot := digest b
  verifiedContractStorageSlotsRoot := root
  nextSyncCommitteeHash := .ofNat 32 1

theorem commits {a b : UInt64} (h : a ≤ b) (contractStorage : ContractStorage) (root : B256) :
    Commits helios (inputs a b contractStorage).consensus (store b)
      (outputs a b root).consensus where
  storeHash := hash_store a
  path := (run_messages helios).mpr ⟨store a, rfl, if_pos h, install_store h⟩
  inputSlot := rfl
  inputStoreHash := rfl
  outputSlot := rfl
  outputStoreHash := hash_store b
  executionStateRoot := rfl
  nextSyncCommitteeHash := rfl

theorem program_ok {a b : UInt64} (h : a ≤ b) {contractStorage : ContractStorage} {root : B256}
    (hroot : verifyStorageSlotProofs crypto (digest b) contractStorage = .ok root) :
    consensusMptProgram helios (verifyStorageSlotProofs crypto) (inputs a b contractStorage)
      = .ok (outputs a b root) :=
  (consensusMptProgram_eq_ok helios _).mpr ⟨⟨store b, commits h contractStorage root⟩, hroot⟩

theorem emptyStorage_ok (stateRoot : B256) :
    verifyStorageSlotProofs crypto stateRoot emptyStorage = .ok (fpToBytes 0) := by
  rw [verifyStorageSlotProofs_eq_ok]
  exact ⟨rfl, Nat.zero_le _, [], List.Forall₂.nil, rfl⟩

end ZkSymbiotic.Devnet
