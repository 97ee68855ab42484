import Mathlib.Logic.Function.Basic
import ZkSymbiotic.Lib.Checked
import ZkSymbiotic.Lib.Machine
import ZkSymbiotic.Lib.Result
import ZkSymbiotic.Contracts.Packet

/-!
# `SymbioticDvn`

The verification contract.  The settlement and the zk verifier are other contracts: their answers
may change from call to call, so a call comes with the block that it runs in.

* `submitVerification`          the call: the checks in their order, then the entry is set;
* `Attested`                    what the settlement and the zk verifier are asked;
* `submitVerification_eq_ok`    a call returns if and only if its id is new and it is attested;
* `Dvn.step`                    the contract as a machine: a reverted call leaves no trace.
-/

namespace ZkSymbiotic

abbrev U48 := BitVec 48

/-! ## the other contracts -/

/-- a call of another contract: a revert carries the data that Solidity hands on -/
abbrev External (α : Type) := Except Bytes α

structure ISymbioticSettlement where
  verifyQuorumSigAt : (message : Bytes) → (requiredKeyTag : B256) → (quorumThreshold : U256) →
    (signature : Bytes) → (epoch : U48) → (verifierProof : Bytes) → External Bool
  getRequiredKeyTagFromValSetHeaderAt : U48 → External B256
  getQuorumThresholdFromValSetHeaderAt : U48 → External U256
  getCaptureTimestampFromValSetHeaderAt : U48 → External U48

/-- `IZkEthStateVerifier.Inputs` -/
structure ZkInputs where
  slot : UInt64
  blockHash : B256
  receiptsRoot : B256
  emitter : Address
  topicsHash : B256
  logIndex : UInt32
  minFinality : UInt64
deriving DecidableEq

structure IZkEthStateVerifier where
  verifySourceEvent : (proof : Bytes) → ZkInputs → External Bool

/-- what a call sees of the chain it runs on -/
structure DvnBlock where
  timestamp : U256
  settlement : ISymbioticSettlement
  zkVerifier : IZkEthStateVerifier

/-! ## the contract -/

inductive DvnError where
  | alreadyVerified
  | noQuorum
  | noZkFinality
  | invalidVerifyingEpoch
  | panic
  | bubbled (data : Bytes)
deriving DecidableEq

inductive DvnEvent (Digest : Type) where
  | verified (packetId H : Digest)
  | submitted (packetId : Digest)

/-- `verified`, and the events emitted so far -/
structure Dvn (Digest : Type) where
  verified : Digest → Bool
  events : List (DvnEvent Digest)

/-- the arguments of `submitVerification` but the packet id -/
structure Attestation (Digest : Type) where
  H : Digest
  epoch : U48
  relayProof : Bytes
  zkProof : Bytes
  zkInputs : ZkInputs

structure Submission (Digest : Type) extends Attestation Digest where
  packetId : Digest

def verificationExpiry : U48 := 12000

variable {Digest : Type}

def Dvn.init : Dvn Digest := ⟨fun _ => false, []⟩

def Dvn.emit (dvn : Dvn Digest) (event : DvnEvent Digest) : Dvn Digest :=
  { dvn with events := dvn.events ++ [event] }

/-- the second operand of the `&&` is read, and its sum can overflow, where the first is true -/
def expired (timestamp : U256) (nextEpochCaptureTimestamp : U48) : Except DvnError Bool :=
  if 0 < nextEpochCaptureTimestamp.toNat then do
    let expiry ← Except.okOr .panic (checkedAdd nextEpochCaptureTimestamp verificationExpiry)
    return expiry.toNat ≤ timestamp.toNat
  else return false

section
variable [DecidableEq Digest] (encode : Digest → Bytes)

def Dvn.setVerified (dvn : Dvn Digest) (packetId : Digest) : Dvn Digest :=
  { dvn with verified := Function.update dvn.verified packetId true }

/-- `submitVerification`; `encode` is `abi.encode` of one `bytes32` -/
def submitVerification (block : DvnBlock) (dvn : Dvn Digest) (call : Submission Digest) :
    Except DvnError (Dvn Digest) := do
  Except.failIf (dvn.verified call.packetId = true) .alreadyVerified
  let dvn := dvn.emit (.submitted call.packetId)
  let next ← Except.okOr .panic (checkedAdd call.epoch 1)
  let nextEpochCaptureTimestamp ←
    (block.settlement.getCaptureTimestampFromValSetHeaderAt next).mapError .bubbled
  let late ← expired block.timestamp nextEpochCaptureTimestamp
  Except.failIf (late = true) .invalidVerifyingEpoch
  let keyTag ←
    (block.settlement.getRequiredKeyTagFromValSetHeaderAt call.epoch).mapError .bubbled
  let threshold ←
    (block.settlement.getQuorumThresholdFromValSetHeaderAt call.epoch).mapError .bubbled
  let quorumValid ← (block.settlement.verifyQuorumSigAt (encode call.H) keyTag threshold
    call.relayProof call.epoch []).mapError .bubbled
  Except.failIf (quorumValid = false) .noQuorum
  let zkValid ← (block.zkVerifier.verifySourceEvent call.zkProof call.zkInputs).mapError .bubbled
  Except.failIf (zkValid = false) .noZkFinality
  return (dvn.setVerified call.packetId).emit (.verified call.packetId call.H)

/-- a reverted call leaves the contract as it was -/
def Dvn.step : Machine (Dvn Digest) (DvnBlock × Submission Digest) := fun dvn a =>
  match submitVerification encode a.1 dvn a.2 with
  | .ok dvn' => some dvn'
  | .error _ => some dvn

end

/-! ## when a call returns -/

/-- the epoch is not over for longer than the expiry: nothing of it overflows, and the next epoch's
capture time is unknown or recent -/
structure InTime (block : DvnBlock) (epoch : U48) : Prop where
  epoch_lt : epoch.toNat + 1 < 2^48
  capture : ∃ capture, block.settlement.getCaptureTimestampFromValSetHeaderAt (epoch + 1)
      = .ok capture ∧
    (capture = 0 ∨ capture.toNat + 12000 < 2^48 ∧ block.timestamp.toNat < capture.toNat + 12000)

/-- what the settlement and the zk verifier are asked: the packet id is not part of it -/
structure Attested (encode : Digest → Bytes) (block : DvnBlock) (call : Attestation Digest) :
    Prop where
  inTime : InTime block call.epoch
  quorum : ∃ keyTag threshold,
    block.settlement.getRequiredKeyTagFromValSetHeaderAt call.epoch = .ok keyTag ∧
    block.settlement.getQuorumThresholdFromValSetHeaderAt call.epoch = .ok threshold ∧
    block.settlement.verifyQuorumSigAt (encode call.H) keyTag threshold call.relayProof call.epoch
      [] = .ok true
  zk : block.zkVerifier.verifySourceEvent call.zkProof call.zkInputs = .ok true

theorem expired_eq_false {timestamp : U256} {capture : U48} :
    expired timestamp capture = .ok false ↔
      capture = 0 ∨ capture.toNat + 12000 < 2^48 ∧ timestamp.toNat < capture.toNat + 12000 := by
  unfold expired
  by_cases h : 0 < capture.toNat
  · have hne : capture ≠ 0 := fun e => by rw [e] at h; exact absurd h (Nat.lt_irrefl 0)
    rw [if_pos h, Except.bind_eq_ok]
    constructor
    · intro ⟨expiry, hsum, hle⟩
      have hsum := checkedAdd_eq_some.mp (Except.okOr_eq_ok.mp hsum)
      have hle := decide_eq_false_iff_not.mp (Except.pure_eq_ok.mp hle)
      have hexpiry : expiry.toNat = capture.toNat + 12000 := hsum
      have hlt := expiry.isLt
      refine .inr ⟨?_, ?_⟩ <;> omega
    · intro hor
      obtain ⟨hlt, htime⟩ := hor.resolve_left hne
      refine ⟨BitVec.ofNat 48 (capture.toNat + 12000), ?_, ?_⟩
      · rw [Except.okOr_eq_ok, checkedAdd_eq_some, BitVec.toNat_ofNat, Nat.mod_eq_of_lt hlt]
        rfl
      · rw [BitVec.toNat_ofNat, Nat.mod_eq_of_lt hlt, Except.pure_eq_ok, decide_eq_false_iff_not]
        omega
  · rw [if_neg h]
    have h0 : capture = 0 := BitVec.toNat_inj.mp (Nat.eq_zero_of_not_pos h)
    exact ⟨fun _ => .inl h0, fun _ => rfl⟩

variable [DecidableEq Digest] {encode : Digest → Bytes} {block : DvnBlock} {dvn dvn' : Dvn Digest}
  {call : Submission Digest}

/-- the state a call that returns leaves -/
def Dvn.submitted (dvn : Dvn Digest) (call : Submission Digest) : Dvn Digest :=
  ((dvn.emit (.submitted call.packetId)).setVerified call.packetId).emit
    (.verified call.packetId call.H)

@[simp] theorem Dvn.submitted_verified (dvn : Dvn Digest) (call : Submission Digest) :
    (dvn.submitted call).verified = Function.update dvn.verified call.packetId true := rfl

theorem inTime_iff {epoch : U48} : InTime block epoch ↔
    ∃ next, checkedAdd epoch 1 = some next ∧ ∃ capture,
      block.settlement.getCaptureTimestampFromValSetHeaderAt next = .ok capture ∧
      expired block.timestamp capture = .ok false := by
  have hone : (1 : U48).toNat = 1 := rfl
  constructor
  · intro ⟨hlt, capture, hcapture, hlate⟩
    refine ⟨epoch + 1, ?_, capture, hcapture, expired_eq_false.mpr hlate⟩
    rw [checkedAdd_eq_some, BitVec.toNat_add, hone, Nat.mod_eq_of_lt hlt]
  · intro ⟨next, hnext, capture, hcapture, hlate⟩
    have hsum := checkedAdd_eq_some.mp hnext
    have hlt : epoch.toNat + 1 < 2^48 := by
      have := next.isLt
      omega
    obtain rfl : epoch + 1 = next := by
      rw [← BitVec.toNat_inj, BitVec.toNat_add, hone, Nat.mod_eq_of_lt hlt]
      exact hsum.symm
    exact ⟨hlt, capture, hcapture, expired_eq_false.mp hlate⟩

/-- **a call returns if and only if its packet id is new and the rest of it is attested** -/
theorem submitVerification_eq_ok : submitVerification encode block dvn call = .ok dvn' ↔
    dvn.verified call.packetId = false ∧ Attested encode block call.toAttestation ∧
      dvn' = dvn.submitted call := by
  simp only [submitVerification, Except.bind_eq_ok, Except.failIf_eq_ok, Except.okOr_eq_ok,
    Except.mapError_eq_ok, Except.pure_eq_ok, Bool.not_eq_true, Bool.not_eq_false]
  constructor
  · intro ⟨_, hnew, next, hnext, capture, hcapture, late, hlate, _, hfresh, keyTag, hkeyTag,
      threshold, hthreshold, quorumValid, hquorum, _, hvalid, zkValid, hzk, _, hzkValid, hdvn⟩
    subst hfresh hvalid hzkValid
    exact ⟨hnew, ⟨inTime_iff.mpr ⟨next, hnext, capture, hcapture, hlate⟩,
      ⟨keyTag, threshold, hkeyTag, hthreshold, hquorum⟩, hzk⟩, hdvn.symm⟩
  · intro ⟨hnew, hattested, hdvn⟩
    obtain ⟨next, hnext, capture, hcapture, hlate⟩ := inTime_iff.mp hattested.inTime
    obtain ⟨keyTag, threshold, hkeyTag, hthreshold, hquorum⟩ := hattested.quorum
    exact ⟨(), hnew, next, hnext, capture, hcapture, false, hlate, (), rfl, keyTag, hkeyTag,
      threshold, hthreshold, true, hquorum, (), rfl, true, hattested.zk, (), rfl, hdvn.symm⟩

/-- what one step can do -/
theorem Dvn.step_cases (h : Dvn.step encode dvn (block, call) = some dvn') :
    dvn.verified call.packetId = false ∧ Attested encode block call.toAttestation ∧
        dvn' = dvn.submitted call ∨
      (∃ e, submitVerification encode block dvn call = .error e) ∧ dvn' = dvn := by
  unfold Dvn.step at h
  cases hs : submitVerification encode block dvn call with
  | ok after =>
    rw [hs] at h
    obtain rfl : after = dvn' := Option.some.inj h
    exact .inl (submitVerification_eq_ok.mp hs)
  | error e =>
    rw [hs] at h
    exact .inr ⟨⟨e, rfl⟩, (Option.some.inj h).symm⟩

theorem Dvn.step_ok (h : submitVerification encode block dvn call = .ok dvn') :
    Dvn.step encode dvn (block, call) = some dvn' := by
  unfold Dvn.step
  rw [h]

end ZkSymbiotic
