import Mathlib.Data.List.Nodup
import ZkSymbiotic.Contracts.Binding

/-!
# The two checks of the DVN over whole runs

A packet is verified by one call, and that call met all five conditions.

* `returned`              the packet ids of the calls of a run that return;
* `verified_iff_returned` an entry is set before a run or by a call that returns in it;
* `dual_guarantee`        the entries, the calls and the storage along any run.
-/

namespace ZkSymbiotic

section
variable {Digest : Type} [DecidableEq Digest] (encode : Digest → Bytes)

/-- the packet ids of the calls that return, in their order -/
def returned : Dvn Digest → List (DvnBlock × Submission Digest) → List Digest
  | _, [] => []
  | dvn, (block, call) :: calls =>
    match submitVerification encode block dvn call with
    | .ok dvn' => call.packetId :: returned dvn' calls
    | .error _ => returned dvn calls

variable {encode} {dvn dvn' : Dvn Digest} {block : DvnBlock} {call : Submission Digest}
  {calls : List (DvnBlock × Submission Digest)}

theorem returned_cons_ok (h : submitVerification encode block dvn call = .ok dvn') :
    returned encode dvn ((block, call) :: calls) = call.packetId :: returned encode dvn' calls := by
  rw [returned, h]

theorem returned_cons_error {e : DvnError} (h : submitVerification encode block dvn call = .error e) :
    returned encode dvn ((block, call) :: calls) = returned encode dvn calls := by
  rw [returned, h]

theorem Dvn.step_error {e : DvnError} (h : submitVerification encode block dvn call = .error e) :
    Dvn.step encode dvn (block, call) = some dvn := by
  unfold Dvn.step
  rw [h]

/-- a second call for a packet reverts -/
theorem submitVerification_verified (h : dvn.verified call.packetId = true) :
    submitVerification encode block dvn call = .error .alreadyVerified := by
  unfold submitVerification Except.failIf
  rw [if_pos h]
  rfl

/-- an entry is set before a run or by a call that returns in it, not by both, and by one call -/
theorem verified_iff_returned : ∀ {dvn dvn' : Dvn Digest},
    (Dvn.step encode).run dvn calls = some dvn' →
      (∀ p, dvn'.verified p = true ↔ dvn.verified p = true ∨ p ∈ returned encode dvn calls) ∧
      (∀ p ∈ returned encode dvn calls, dvn.verified p = false) ∧
      (returned encode dvn calls).Nodup := by
  induction calls with
  | nil =>
    intro dvn dvn' h
    obtain rfl := Option.some.inj h
    refine ⟨fun p => ?_, fun p hp => absurd hp List.not_mem_nil, List.nodup_nil⟩
    show _ ↔ _ ∨ p ∈ []
    simp
  | cons a calls ih =>
    intro dvn dvn' h
    obtain ⟨block, call⟩ := a
    obtain ⟨mid, hstep, hrest⟩ := Machine.run_cons_some _ h
    obtain ⟨hset, hnew, hnodup⟩ := ih hrest
    cases hs : submitVerification encode block dvn call with
    | error e =>
      rw [Dvn.step_error hs] at hstep
      obtain rfl := Option.some.inj hstep
      rw [returned_cons_error hs]
      exact ⟨hset, hnew, hnodup⟩
    | ok after =>
      rw [Dvn.step_ok hs] at hstep
      obtain rfl := Option.some.inj hstep
      obtain ⟨hfresh, _, rfl⟩ := submitVerification_eq_ok.mp hs
      rw [returned_cons_ok hs]
      have hupdate : ∀ p, (dvn.submitted call).verified p = true ↔
          dvn.verified p = true ∨ p = call.packetId := by
        intro p
        rw [Dvn.submitted_verified]
        by_cases hp : p = call.packetId
        · subst hp
          simp
        · rw [Function.update_of_ne hp]
          simp [hp]
      have hold : ∀ p, (dvn.submitted call).verified p = false →
          dvn.verified p = false ∧ p ≠ call.packetId := by
        intro p hp
        have hnot := mt (hupdate p).mpr (by rw [hp]; exact Bool.false_ne_true)
        exact ⟨Bool.eq_false_iff.mpr fun h => hnot (.inl h), fun h => hnot (.inr h)⟩
      refine ⟨fun p => ?_, fun p hp => ?_, List.nodup_cons.mpr ⟨fun hmem => ?_, hnodup⟩⟩
      · rw [hset, hupdate, List.mem_cons, or_assoc]
      · rcases List.mem_cons.mp hp with rfl | hp
        · exact hfresh
        · exact (hold p (hnew p hp)).1
      · exact (hold _ (hnew _ hmem)).2 rfl

/-- **the dual guarantee**: in every state that a sequence of calls leads to, a packet is verified if
and only if exactly one of the calls for it returned; a call returns if and only if its packet is new
and it is in time, with a quorum and a proof; it sets the entry of its packet and no other; a call
that reverts leaves the contract as it was; and later calls reset no entry -/
theorem dual_guarantee (calls : List (DvnBlock × Submission Digest)) (dvn : Dvn Digest)
    (hrun : (Dvn.step encode).run Dvn.init calls = some dvn) :
    (∀ p, dvn.verified p = true ↔ (returned encode Dvn.init calls).count p = 1) ∧
    (∀ block call, (∃ dvn', submitVerification encode block dvn call = .ok dvn') ↔
      dvn.verified call.packetId = false ∧ Attested encode block call.toAttestation) ∧
    (∀ block call dvn', submitVerification encode block dvn call = .ok dvn' →
      dvn.verified call.packetId = false ∧
        dvn'.verified = Function.update dvn.verified call.packetId true) ∧
    (∀ block call e, submitVerification encode block dvn call = .error e →
      Dvn.step encode dvn (block, call) = some dvn) ∧
    (∀ more dvn', (Dvn.step encode).run dvn more = some dvn' →
      ∀ p, dvn.verified p = true → dvn'.verified p = true) := by
  obtain ⟨hset, _, hnodup⟩ := verified_iff_returned hrun
  refine ⟨fun p => ?_, fun block call => ⟨?_, ?_⟩, ?_, fun _ _ _ => Dvn.step_error, ?_⟩
  · have hinit : ¬ (Dvn.init : Dvn Digest).verified p = true := Bool.false_ne_true
    rw [hset, or_iff_right hinit]
    constructor
    · exact List.count_eq_one_of_mem hnodup
    · intro hcount
      exact List.count_pos_iff.mp (by rw [hcount]; exact Nat.one_pos)
  · intro ⟨dvn', h⟩
    obtain ⟨hnew, hattested, _⟩ := submitVerification_eq_ok.mp h
    exact ⟨hnew, hattested⟩
  · intro ⟨hnew, hattested⟩
    exact ⟨_, submitVerification_eq_ok.mpr ⟨hnew, hattested, rfl⟩⟩
  · intro block call dvn' h
    obtain ⟨hnew, _, rfl⟩ := submitVerification_eq_ok.mp h
    exact ⟨hnew, rfl⟩
  · intro more dvn' hmore p hp
    exact ((verified_iff_returned hmore).1 p).mpr (.inl hp)

end

open Devnet in
/-- of two calls for one packet the first one counts -/
theorem dual_guarantee_devnet : ∃ dvn : Dvn Bytes,
    (Dvn.step id).run Dvn.init [(block, submission packet), (block, submission packet)] = some dvn ∧
      dvn.verified (submission packet).packetId = true ∧
      ∀ b call, call.packetId = (submission packet).packetId →
        ¬ ∃ dvn', submitVerification id b dvn call = .ok dvn' := by
  have hok : submitVerification id block Dvn.init (submission packet)
      = .ok (Dvn.init.submitted (submission packet)) := attested.any_packet rfl
  have hset : (Dvn.init.submitted (submission packet)).verified (submission packet).packetId
      = true := by
    rw [Dvn.submitted_verified, Function.update_self]
  have hrun : (Dvn.step id).run Dvn.init [(block, submission packet), (block, submission packet)]
      = some (Dvn.init.submitted (submission packet)) := by
    rw [Machine.run_cons, Dvn.step_ok hok, Option.bind_some, Machine.run_cons,
      Dvn.step_error (submitVerification_verified hset), Option.bind_some, Machine.run_nil]
  obtain ⟨_, hiff, _⟩ := dual_guarantee _ _ hrun
  refine ⟨_, hrun, hset, fun b call hid hcall => ?_⟩
  have hnew := ((hiff b call).mp hcall).1
  rw [hid, hset] at hnew
  cases hnew

end ZkSymbiotic
