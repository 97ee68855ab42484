import ZkSymbiotic.Contracts.Dvn

/-!
# What ties an attestation to a packet: nothing

A signature over `H` and a proof about `zkInputs` are made for one packet, and a packet id names
one.  `submitVerification` takes the three side by side and never compares them; `buildMessageHash`
has no caller.

* `Submission.Bound`            the id, the signed hash and the proved log are those of one packet;
* `attestation_binding_iff`     over all runs, entries are set by bound submissions only if and only
                                if nothing is ever accepted;
* `attestation_reused`          the signature and the proof of one packet verify another one.
-/

namespace ZkSymbiotic
variable {Digest : Type}

/-- the log a proof is about -/
def ZkInputs.sourceLog (inputs : ZkInputs) : SourceLog where
  blockHash := inputs.blockHash
  logIndex := inputs.logIndex
  emitter := inputs.emitter

/-- the three parts of a submission speak of one packet -/
def Submission.Bound (keccak256 : Bytes → Digest) (call : Submission Digest) : Prop :=
  ∃ packet, call.packetId = generatePacketId keccak256 packet ∧
    call.H = buildMessageHash keccak256 packet call.zkInputs.sourceLog

/-- packets from different chains, both bound by one signed hash, are one packet -/
theorem bound_srcEid {keccak256 : Bytes → Digest}
    (hkeccak : Function.Injective keccak256) {attestation : Attestation Digest} {a b : Packet}
    (ha : Submission.Bound keccak256
      { toAttestation := attestation, packetId := generatePacketId keccak256 a })
    (hb : Submission.Bound keccak256
      { toAttestation := attestation, packetId := generatePacketId keccak256 b }) :
    a.srcEid = b.srcEid := by
  obtain ⟨p, hap, hp⟩ := ha
  obtain ⟨q, hbq, hq⟩ := hb
  have hpq : p = q := (packMessage_inj (hkeccak (hp.symm.trans hq))).1
  have hsa : a.srcEid = p.srcEid := encodePacket_srcEid (hkeccak hap)
  have hsb : b.srcEid = q.srcEid := encodePacket_srcEid (hkeccak hbq)
  rw [hsa, hsb, hpq]

section
variable [DecidableEq Digest] (keccak256 : Bytes → Digest) (encode : Digest → Bytes)

/-- a call that sets the entry of its packet is bound -/
def SetsBound (dvn : Dvn Digest) (a : DvnBlock × Submission Digest) : Prop :=
  ∀ dvn', Dvn.step encode dvn a = some dvn' → dvn.verified a.2.packetId = false →
    dvn'.verified a.2.packetId = true → a.2.Bound keccak256

/-- every sequence of calls sets entries by bound submissions only.  `Held block` are the
attestations that callers have in a block: they add the packet id -/
def AttestationBinding (Held : DvnBlock → Attestation Digest → Prop) : Prop :=
  ∀ calls : List (DvnBlock × Submission Digest),
    (∀ a ∈ calls, Held a.1 a.2.toAttestation) →
      (Dvn.step encode).Steps (SetsBound keccak256 encode) Dvn.init calls

end

variable [DecidableEq Digest] {keccak256 : Bytes → Digest} {encode : Digest → Bytes}

/-- what is attested can be submitted under any id that is not yet verified -/
theorem Attested.any_packet {block : DvnBlock} {attestation : Attestation Digest}
    (h : Attested encode block attestation) {dvn : Dvn Digest} {packetId : Digest}
    (hnew : dvn.verified packetId = false) :
    submitVerification encode block dvn { toAttestation := attestation, packetId }
      = .ok (dvn.submitted { toAttestation := attestation, packetId }) :=
  submitVerification_eq_ok.mpr ⟨hnew, h, rfl⟩

/-- an entry is set by an attested call only -/
theorem Dvn.step_sets {dvn dvn' : Dvn Digest} {a : DvnBlock × Submission Digest}
    (h : Dvn.step encode dvn a = some dvn') (hnew : dvn.verified a.2.packetId = false)
    (hset : dvn'.verified a.2.packetId = true) : Attested encode a.1 a.2.toAttestation := by
  rcases Dvn.step_cases h with ⟨_, hattested, _⟩ | ⟨_, rfl⟩
  · exact hattested
  · rw [hnew] at hset
    cases hset

/-- a call with a new id that is attested sets its entry, so it has to be bound -/
theorem AttestationBinding.bound {Held : DvnBlock → Attestation Digest → Prop}
    (h : AttestationBinding keccak256 encode Held) {block : DvnBlock} {call : Submission Digest}
    (hheld : Held block call.toAttestation)
    (hattested : Attested encode block call.toAttestation) : call.Bound keccak256 := by
  have hsteps := h [(block, call)] (fun a ha => by rw [List.mem_singleton.mp ha]; exact hheld)
  have hnew : (Dvn.init : Dvn Digest).verified call.packetId = false := rfl
  apply hsteps.1 _ (Dvn.step_ok (hattested.any_packet hnew)) rfl
  rw [Dvn.submitted_verified, Function.update_self]

/-- **attestation binding holds where nothing is accepted, and nowhere else** -/
theorem attestation_binding_iff (hkeccak : Function.Injective keccak256)
    (Held : DvnBlock → Attestation Digest → Prop) :
    AttestationBinding keccak256 encode Held ↔
      ∀ block attestation, Held block attestation → ¬ Attested encode block attestation := by
  constructor
  · intro hbinding block attestation hheld hattested
    -- the same attestation under the ids of two packets
    have hbound : ∀ packet, Submission.Bound keccak256
        { toAttestation := attestation, packetId := generatePacketId keccak256 packet } :=
      fun packet => hbinding.bound hheld hattested
    have h := bound_srcEid hkeccak (hbound ⟨0, 0, [], .zero⟩) (hbound ⟨1, 0, [], .zero⟩)
    exact absurd h (by decide)
  · intro hrefused calls hheld
    refine Machine.Steps.of_forall (fun a ha dvn dvn' hstep hnew hset => ?_) Dvn.init
    exact absurd (Dvn.step_sets hstep hnew hset) (hrefused a.1 a.2.toAttestation (hheld a ha))

/-! ## one packet's attestation, another packet's id -/

namespace Devnet

def packet : Packet := ⟨30101, 30184, [], .zero⟩
def otherPacket : Packet := ⟨30102, 30184, [], .zero⟩

def zkInputs : ZkInputs where
  slot := 1
  blockHash := .zero
  receiptsRoot := .zero
  emitter := .zero
  topicsHash := .zero
  logIndex := 0
  minFinality := 64

/-- the operators signed the message of `packet`, and the proof is about its log -/
def block : DvnBlock where
  timestamp := 0
  settlement := {
    verifyQuorumSigAt := fun message _ _ _ _ _ =>
      .ok (message = packMessage packet zkInputs.sourceLog)
    getRequiredKeyTagFromValSetHeaderAt := fun _ => .ok .zero
    getQuorumThresholdFromValSetHeaderAt := fun _ => .ok 1
    getCaptureTimestampFromValSetHeaderAt := fun _ => .ok 0 }
  zkVerifier := { verifySourceEvent := fun _ inputs => .ok (inputs = zkInputs) }

/-- with the identity for the hash: a digest is the string it is the hash of -/
def attestation : Attestation Bytes where
  H := buildMessageHash id packet zkInputs.sourceLog
  epoch := 1
  relayProof := []
  zkProof := []
  zkInputs := zkInputs

def submission (packet : Packet) : Submission Bytes :=
  { toAttestation := attestation, packetId := generatePacketId id packet }

theorem attested : Attested id block attestation where
  inTime := ⟨by decide, 0, rfl, .inl rfl⟩
  quorum := ⟨.zero, 1, rfl, rfl, congrArg Except.ok (decide_eq_true rfl)⟩
  zk := congrArg Except.ok (decide_eq_true rfl)

end Devnet

open Devnet in
theorem attestation_binding_devnet :
    ¬ AttestationBinding id id fun b a => b = block ∧ a = attestation := by
  rw [attestation_binding_iff Function.injective_id]
  exact fun h => h block attestation ⟨rfl, rfl⟩ attested

open Devnet in
/-- what was signed and proved for `packet` sets the entry of `otherPacket` -/
theorem attestation_reused :
    (submission packet).Bound id ∧ ¬ (submission otherPacket).Bound id ∧
      submitVerification id block Dvn.init (submission otherPacket)
        = .ok (Dvn.init.submitted (submission otherPacket)) ∧
      ¬ AttestationBinding id id fun b a => b = block ∧ a = attestation := by
  have hbound : (submission packet).Bound id := ⟨packet, rfl, rfl⟩
  have hnot : ¬ (submission otherPacket).Bound id := fun h =>
    absurd (bound_srcEid Function.injective_id hbound h) (by decide)
  have hok : submitVerification id block Dvn.init (submission otherPacket)
      = .ok (Dvn.init.submitted (submission otherPacket)) := attested.any_packet rfl
  exact ⟨hbound, hnot, hok, fun hbinding => hnot (hbinding.bound ⟨rfl, rfl⟩ attested)⟩

end ZkSymbiotic
