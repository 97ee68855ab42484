import Mathlib.Data.List.Nodup
import ZkSymbiotic.Contracts.Dvn

/-!
# When the signatures of an epoch expire

The settlement contract commits headers of increasing epochs and may skip some.  The verification
contract reads the capture time of one epoch, the next one, and takes 0 for "not yet".

* `SettlementHistory.commit`   the commits as a machine;
* `Expires`                    past the expiry of the first later epoch no signature is accepted;
* `expires_iff`                that is so if and only if the first later epoch is the next one;
* `old_epochs_expire_iff`      a run of commits stays in it exactly if none skips the next epoch.
-/

namespace ZkSymbiotic

/-! ## the settlement contract -/

/-- a committed header -/
structure ValSetHeader where
  epoch : U48
  captureTimestamp : U48

/-- the committed headers, the latest one last -/
abbrev SettlementHistory := List ValSetHeader

namespace SettlementHistory

/-- 0 where no header was committed -/
def captureTimestampAt (headers : SettlementHistory) (epoch : U48) : U48 :=
  match headers.find? fun header => header.epoch = epoch with
  | some header => header.captureTimestamp
  | none => 0

/-- a header of a new epoch behind all others, captured at some time -/
def commit : Machine SettlementHistory ValSetHeader := fun headers header =>
  if 0 < header.captureTimestamp.toNat ∧ ∀ h ∈ headers, h.epoch.toNat < header.epoch.toNat then
    some (headers ++ [header])
  else none

/-- the first header that was captured later than an epoch -/
def firstLater (headers : SettlementHistory) (epoch : U48) : Option ValSetHeader :=
  headers.find? fun header => epoch.toNat < header.epoch.toNat

/-- what commits make -/
structure WellFormed (headers : SettlementHistory) : Prop where
  increasing : headers.Pairwise fun a b => a.epoch.toNat < b.epoch.toNat
  captured : ∀ header ∈ headers, 0 < header.captureTimestamp.toNat

theorem wellFormed_nil : WellFormed [] where
  increasing := List.Pairwise.nil
  captured := fun _ h => absurd h List.not_mem_nil

theorem commit_eq_some {headers headers' : SettlementHistory} {header : ValSetHeader}
    (h : commit headers header = some headers') : 0 < header.captureTimestamp.toNat ∧
      (∀ h ∈ headers, h.epoch.toNat < header.epoch.toNat) ∧ headers' = headers ++ [header] := by
  unfold commit at h
  split at h
  · rename_i hc
    exact ⟨hc.1, hc.2, (Option.some.inj h).symm⟩
  · cases h

theorem WellFormed.commit {headers headers' : SettlementHistory} {header : ValSetHeader}
    (h : WellFormed headers) (hc : commit headers header = some headers') :
    WellFormed headers' := by
  obtain ⟨hcaptured, hlast, rfl⟩ := commit_eq_some hc
  refine ⟨List.pairwise_append.mpr ⟨h.increasing, List.pairwise_singleton _ _, ?_⟩, ?_⟩
  · intro a ha b hb
    obtain rfl := List.mem_singleton.mp hb
    exact hlast a ha
  · intro a ha
    rcases List.mem_append.mp ha with ha | ha
    · exact h.captured a ha
    · obtain rfl := List.mem_singleton.mp ha
      exact hcaptured

section
variable {headers : SettlementHistory} {epoch : U48} {first : ValSetHeader}

/-- among the headers of increasing epochs the first later one has the least epoch -/
theorem WellFormed.firstLater_le (h : WellFormed headers)
    (hfirst : headers.firstLater epoch = some first) {header : ValSetHeader}
    (hmem : header ∈ headers) (hlater : epoch.toNat < header.epoch.toNat) :
    header = first ∨ first.epoch.toNat < header.epoch.toNat := by
  obtain ⟨_, front, back, rfl, hfront⟩ := List.find?_eq_some_iff_append.mp hfirst
  rcases List.mem_append.mp hmem with hmem | hmem
  · have hno := hfront header hmem
    rw [decide_eq_true hlater] at hno
    cases hno
  rcases List.mem_cons.mp hmem with rfl | hmem
  · exact .inl rfl
  · have hback := (List.pairwise_append.mp h.increasing).2.1
    exact .inr ((List.pairwise_cons.mp hback).1 header hmem)

theorem firstLater_some (hfirst : headers.firstLater epoch = some first) :
    first ∈ headers ∧ epoch.toNat < first.epoch.toNat := by
  unfold firstLater at hfirst
  have hlater := List.find?_some hfirst
  exact ⟨List.mem_of_find?_eq_some hfirst, of_decide_eq_true hlater⟩

/-- a commit behind a later header does not change which one is first -/
theorem firstLater_append_of_some (hfirst : headers.firstLater epoch = some first)
    (header : ValSetHeader) : firstLater (headers ++ [header]) epoch = some first := by
  unfold firstLater at hfirst ⊢
  rw [List.find?_append, hfirst]
  rfl

/-- the first commit of a later epoch is the first later header -/
theorem firstLater_append_of_none (hnone : headers.firstLater epoch = none)
    (header : ValSetHeader) : firstLater (headers ++ [header]) epoch = some first ↔
      epoch.toNat < header.epoch.toNat ∧ header = first := by
  unfold firstLater at hnone ⊢
  rw [List.find?_append, hnone, Option.none_or, List.find?_singleton]
  by_cases hlater : epoch.toNat < header.epoch.toNat
  · simp [hlater]
  · simp [hlater]

theorem WellFormed.captureTimestampAt_mem (h : WellFormed headers) {header : ValSetHeader}
    (hmem : header ∈ headers) :
    headers.captureTimestampAt header.epoch = header.captureTimestamp := by
  have hnodup : (headers.map fun header => header.epoch.toNat).Nodup :=
    (List.pairwise_map.mpr h.increasing).imp fun hlt => Nat.ne_of_lt hlt
  unfold captureTimestampAt
  cases hfind : headers.find? fun a => decide (a.epoch = header.epoch) with
  | none =>
    have hno := List.find?_eq_none.mp hfind header hmem
    exact absurd (decide_eq_true rfl) hno
  | some found =>
    have hepoch : found.epoch = header.epoch := by
      have hfound := List.find?_some hfind
      exact of_decide_eq_true hfound
    obtain rfl : found = header := List.inj_on_of_nodup_map hnodup
      (List.mem_of_find?_eq_some hfind) hmem (congrArg BitVec.toNat hepoch)
    rfl

theorem captureTimestampAt_eq_zero (h : ∀ header ∈ headers, header.epoch ≠ epoch) :
    headers.captureTimestampAt epoch = 0 := by
  have hfind : (headers.find? fun a => decide (a.epoch = epoch)) = none :=
    List.find?_eq_none.mpr fun header hmem hdec => h header hmem (of_decide_eq_true hdec)
  unfold captureTimestampAt
  rw [hfind]

/-- a later epoch leaves room for the next one -/
theorem next_toNat (hlater : epoch.toNat < first.epoch.toNat) :
    (epoch + 1).toNat = epoch.toNat + 1 := by
  have hlt := first.epoch.isLt
  rw [BitVec.toNat_add]
  exact Nat.mod_eq_of_lt (show epoch.toNat + 1 < 2^48 by omega)

/-- where the first later epoch is the next one, its capture time is what is read -/
theorem WellFormed.captureTimestampAt_next (h : WellFormed headers)
    (hfirst : headers.firstLater epoch = some first)
    (hnext : first.epoch.toNat = epoch.toNat + 1) :
    headers.captureTimestampAt (epoch + 1) = first.captureTimestamp := by
  obtain ⟨hmem, hlater⟩ := firstLater_some hfirst
  have hepoch : epoch + 1 = first.epoch :=
    BitVec.toNat_inj.mp ((next_toNat hlater).trans hnext.symm)
  rw [hepoch]
  exact h.captureTimestampAt_mem hmem

/-- where the first later epoch is behind the next one, nothing is known of the next one -/
theorem WellFormed.captureTimestampAt_gap (h : WellFormed headers)
    (hfirst : headers.firstLater epoch = some first)
    (hgap : first.epoch.toNat ≠ epoch.toNat + 1) :
    headers.captureTimestampAt (epoch + 1) = 0 := by
  obtain ⟨_, hlater⟩ := firstLater_some hfirst
  have hnext := next_toNat hlater
  apply captureTimestampAt_eq_zero
  intro header hmem hepoch
  rw [← hepoch] at hnext
  rcases h.firstLater_le hfirst hmem (by omega) with rfl | hlt
  · exact hgap hnext
  · omega

end

end SettlementHistory

/-! ## expiry -/

section
variable {Digest : Type} [DecidableEq Digest] (encode : Digest → Bytes)

/-- a block whose settlement contract has committed these headers -/
def DvnBlock.Reads (block : DvnBlock) (headers : SettlementHistory) : Prop :=
  ∀ epoch, block.settlement.getCaptureTimestampFromValSetHeaderAt epoch
    = .ok (headers.captureTimestampAt epoch)

/-- past the expiry of the first epoch captured later than `epoch`, no call for `epoch` succeeds:
whatever the contract has verified, and whatever the settlement and the zk verifier say -/
def Expires (epoch : U48) (headers : SettlementHistory) : Prop :=
  ∀ first, headers.firstLater epoch = some first → ∀ (block : DvnBlock) (dvn : Dvn Digest)
    (call : Submission Digest), block.Reads headers →
      first.captureTimestamp.toNat + verificationExpiry.toNat ≤ block.timestamp.toNat →
        call.epoch = epoch → ∃ e, submitVerification encode block dvn call = .error e

/-- a block in which the settlement and the zk verifier accept everything -/
def acceptingBlock (timestamp : U256) (headers : SettlementHistory) : DvnBlock where
  timestamp := timestamp
  settlement :=
    { verifyQuorumSigAt := fun _ _ _ _ _ _ => .ok true
      getRequiredKeyTagFromValSetHeaderAt := fun _ => .ok .zero
      getQuorumThresholdFromValSetHeaderAt := fun _ => .ok 0
      getCaptureTimestampFromValSetHeaderAt := fun epoch => .ok (headers.captureTimestampAt epoch) }
  zkVerifier := { verifySourceEvent := fun _ _ => .ok true }

def emptySubmission [Inhabited Digest] (epoch : U48) : Submission Digest where
  H := default
  epoch := epoch
  relayProof := []
  zkProof := []
  zkInputs :=
    { slot := 0, blockHash := .zero, receiptsRoot := .zero, emitter := .zero, topicsHash := .zero,
      logIndex := 0, minFinality := 0 }
  packetId := default

variable {epoch : U48} {headers : SettlementHistory}

/-- with nothing known of the next epoch, an old signature still verifies a new packet -/
theorem submit_in_gap [Inhabited Digest] {first : ValSetHeader}
    (hfirst : headers.firstLater epoch = some first) (timestamp : U256)
    (hzero : headers.captureTimestampAt (epoch + 1) = 0) :
    submitVerification encode (acceptingBlock timestamp headers) Dvn.init (emptySubmission epoch)
      = .ok (Dvn.init.submitted (emptySubmission epoch : Submission Digest)) := by
  obtain ⟨_, hlater⟩ := SettlementHistory.firstLater_some hfirst
  have hlt := first.epoch.isLt
  refine submitVerification_eq_ok.mpr ⟨rfl, ⟨⟨?_, _, rfl, .inl hzero⟩,
    ⟨_, _, rfl, rfl, rfl⟩, rfl⟩, rfl⟩
  show epoch.toNat + 1 < 2^48
  omega

/-- **the signatures of an epoch expire if and only if the first later epoch is the next one** -/
theorem expires_iff [Inhabited Digest] (h : headers.WellFormed) :
    Expires encode epoch headers ↔ ∀ first, headers.firstLater epoch = some first →
      first.epoch.toNat = epoch.toNat + 1 := by
  constructor
  · intro hexpires first hfirst
    by_contra hgap
    have hzero := h.captureTimestampAt_gap hfirst hgap
    have hlate : first.captureTimestamp.toNat + verificationExpiry.toNat
        ≤ (BitVec.allOnes 256).toNat := by
      have hlt := first.captureTimestamp.isLt
      have hexpiry : verificationExpiry.toNat = 12000 := rfl
      rw [hexpiry, BitVec.toNat_allOnes]
      omega
    obtain ⟨e, he⟩ := hexpires first hfirst (acceptingBlock (.allOnes 256) headers) Dvn.init
      (emptySubmission epoch) (fun _ => rfl) hlate rfl
    rw [submit_in_gap encode hfirst _ hzero] at he
    cases he
  · intro hnext first hfirst block dvn call hreads hlate hepoch
    have hcapture := h.captureTimestampAt_next hfirst (hnext first hfirst)
    have hpos := h.captured first (SettlementHistory.firstLater_some hfirst).1
    cases hsubmit : submitVerification encode block dvn call with
    | error e => exact ⟨e, rfl⟩
    | ok dvn' =>
      obtain ⟨_, hattested, _⟩ := submitVerification_eq_ok.mp hsubmit
      obtain ⟨capture, hread, hcase⟩ := hattested.inTime.capture
      rw [hepoch, hreads, hcapture] at hread
      obtain rfl := Except.ok.inj hread
      have hexpiry : verificationExpiry.toNat = 12000 := rfl
      rcases hcase with hzero | ⟨_, hlt⟩
      · rw [hzero] at hpos
        exact absurd hpos (Nat.lt_irrefl 0)
      · omega

/-- the first header that is later than `epoch` is the one of the next epoch -/
def KeepsNext (epoch : U48) (headers : SettlementHistory) (header : ValSetHeader) : Prop :=
  headers.firstLater epoch = none → epoch.toNat < header.epoch.toNat →
    header.epoch.toNat = epoch.toNat + 1

/-- **Old-epoch signatures expire exactly where no commit skips the next epoch.** In a run of the
settlement contract they expire in every state that is reached if and only if the first commit
behind `epoch`, when there is one, is that of the next epoch. -/
theorem old_epochs_expire_iff [Inhabited Digest] (encode : Digest → Bytes) (epoch : U48)
    {commits : List ValSetHeader} {headers : SettlementHistory}
    (h : SettlementHistory.commit.run [] commits = some headers) :
    SettlementHistory.commit.Always (Expires encode epoch) [] commits ↔
      SettlementHistory.commit.Steps (KeepsNext epoch) [] commits := by
  refine Machine.always_iff_steps (I := SettlementHistory.WellFormed)
    (fun _ _ _ hwell hc => hwell.commit hc) ?_ SettlementHistory.wellFormed_nil
    ((expires_iff encode SettlementHistory.wellFormed_nil).mpr nofun) h
  intro headers header headers' hwell hexpires hc
  rw [expires_iff encode hwell] at hexpires
  rw [expires_iff encode (hwell.commit hc)]
  obtain ⟨_, _, rfl⟩ := SettlementHistory.commit_eq_some hc
  cases hfirst : headers.firstLater epoch with
  | some first =>
    -- the first later epoch has been captured before this commit
    have hsame := SettlementHistory.firstLater_append_of_some hfirst header
    constructor
    · intro _ hnone
      rw [hfirst] at hnone
      cases hnone
    · intro _ first' hfirst'
      obtain rfl := Option.some.inj (hsame.symm.trans hfirst')
      exact hexpires first hfirst
  | none =>
    -- this commit may be the first one of a later epoch
    constructor
    · intro hnext _ hlater
      exact hnext header ((SettlementHistory.firstLater_append_of_none hfirst header).mpr
        ⟨hlater, rfl⟩)
    · intro hkeeps first hfirst'
      obtain ⟨hlater, rfl⟩ :=
        (SettlementHistory.firstLater_append_of_none hfirst header).mp hfirst'
      exact hkeeps hfirst hlater

end

/-! ## an epoch that is skipped -/

namespace Devnet

/-- epoch `n` is captured at the second `1000 * n` -/
def valSetHeader (n : Nat) : ValSetHeader := ⟨.ofNat 48 n, .ofNat 48 (1000 * n)⟩

end Devnet

open Devnet in
theorem old_epochs_expire_devnet : SettlementHistory.commit.Always
    (Expires (id : Bytes → Bytes) 1) [] [valSetHeader 1, valSetHeader 2, valSetHeader 3] := by
  have hrun : SettlementHistory.commit.run [] [valSetHeader 1, valSetHeader 2, valSetHeader 3]
      = some [valSetHeader 1, valSetHeader 2, valSetHeader 3] := rfl
  refine (old_epochs_expire_iff id 1 hrun).mpr ⟨?_, fun _ h => ?_⟩
  · intro _ hlater
    exact absurd hlater (by decide)
  obtain rfl := Option.some.inj h
  refine ⟨fun _ _ => rfl, fun _ h => ?_⟩
  obtain rfl := Option.some.inj h
  exact ⟨nofun, fun _ _ => trivial⟩

open Devnet in
/-- epoch 2 is skipped: signatures of epoch 1 are accepted past the expiry of epoch 3 -/
theorem skipped_epoch_accepted :
    SettlementHistory.commit.run [] [valSetHeader 1, valSetHeader 3]
        = some [valSetHeader 1, valSetHeader 3] ∧
      SettlementHistory.firstLater [valSetHeader 1, valSetHeader 3] 1 = some (valSetHeader 3) ∧
      3000 + verificationExpiry.toNat ≤ (15000 : U256).toNat ∧
      submitVerification id (acceptingBlock 15000 [valSetHeader 1, valSetHeader 3]) Dvn.init
        (emptySubmission 1 : Submission Bytes) = .ok (Dvn.init.submitted (emptySubmission 1)) ∧
      ¬ SettlementHistory.commit.Always (Expires (id : Bytes → Bytes) 1) []
        [valSetHeader 1, valSetHeader 3] := by
  have hrun : SettlementHistory.commit.run [] [valSetHeader 1, valSetHeader 3]
      = some [valSetHeader 1, valSetHeader 3] := rfl
  have hlate : 3000 + verificationExpiry.toNat ≤ (15000 : U256).toNat := by decide
  have hok : submitVerification id (acceptingBlock 15000 [valSetHeader 1, valSetHeader 3]) Dvn.init
      (emptySubmission 1 : Submission Bytes) = .ok (Dvn.init.submitted (emptySubmission 1)) :=
    submit_in_gap id rfl _ rfl
  refine ⟨hrun, rfl, hlate, hok, fun halways => ?_⟩
  obtain ⟨e, he⟩ := halways.last hrun (valSetHeader 3) rfl (acceptingBlock 15000 _) Dvn.init
    (emptySubmission 1) (fun _ => rfl) hlate rfl
  rw [hok] at he
  cases he

end ZkSymbiotic
