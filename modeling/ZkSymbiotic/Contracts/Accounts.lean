import ZkSymbiotic.Contracts.Supply

/-!
# The accounts of the bridge

What a user has locked is what was minted for them and what messages of `AppSource` in flight will
mint for them; a delivery of a message of another account that names the user breaks this for good.

* `BridgeState.Exact`        the account of a user is exact;
* `Bridge.exact_step`        one step keeps it so exactly if it mints nothing for them of a message
                             of another account;
* `accounts_exact_iff`       the accounts of whole runs, and that the supply is what was minted.
-/

namespace ZkSymbiotic

/-! ## what a payload is for -/

def amountFor (user : Address) (decoded : Address × U256) : Nat :=
  if decoded.1 = user then decoded.2.toNat else 0

/-- the amount in the payload, if it names the user -/
def LzMessage.amountFor (user : Address) (m : LzMessage) : Nat :=
  match decodeDeposit m.message with
  | some decoded => ZkSymbiotic.amountFor user decoded
  | none => 0

theorem LzMessage.amountFor_eq {m : LzMessage} {decoded : Address × U256}
    (h : decodeDeposit m.message = some decoded) (user : Address) :
    m.amountFor user = ZkSymbiotic.amountFor user decoded := by
  unfold LzMessage.amountFor
  rw [h]

variable {Z : OpenZeppelin} (B : Bridge)

/-- what a message of `AppSource` in flight will mint for the user -/
def Bridge.dueTo (user : Address) (m : LzMessage) : Nat :=
  if m.sender = B.appSource then m.amountFor user else 0

def Bridge.owedTo (user : Address) (pending : List LzMessage) : Nat :=
  (pending.map (B.dueTo user)).sum

def Dest.mintedTo (user : Address) (dest : Dest Z) : Nat :=
  (dest.minted.map (amountFor user)).sum

def Dest.mintedAll (dest : Dest Z) : Nat := (dest.minted.map (·.2.toNat)).sum

/-! ## the invariant -/

/-- minted and in flight together are locked -/
def BridgeState.Exact (user : Address) (s : BridgeState Z) : Prop :=
  s.dest.mintedTo user + B.owedTo user s.source.endpoint
    = (s.source.app.lockedTokens user).toNat

/-- the supply is what was minted -/
def BridgeState.SupplyMinted (s : BridgeState Z) : Prop :=
  (Z.totalSupply s.dest.token).toNat = s.dest.mintedAll

/-- the step delivers a message of another account that mints for the user -/
def Bridge.MintsForeign (user : Address) (s : BridgeState Z) (a : BridgeAction) : Prop :=
  ∃ m dest, a = .deliver m ∧ m.sender ≠ B.appSource ∧ 0 < m.amountFor user ∧
    B.onLzReceive B.endpoint m.message s.dest = .ok dest

variable {B}

theorem Bridge.owedTo_append (user : Address) (pending : List LzMessage) (m : LzMessage) :
    B.owedTo user (pending ++ [m]) = B.owedTo user pending + B.dueTo user m := by
  simp [Bridge.owedTo]

theorem Bridge.owedTo_erase (user : Address) {pending : List LzMessage} {m : LzMessage}
    (h : m ∈ pending) :
    B.dueTo user m + B.owedTo user (pending.erase m) = B.owedTo user pending :=
  List.sum_map_erase (B.dueTo user) h

/-- a delivery mints what the payload says -/
theorem Bridge.deliver_minted {sender : Address} {m : LzMessage} {dest dest' : Dest Z}
    (h : B.onLzReceive sender m.message dest = .ok dest') :
    (∀ user, dest'.mintedTo user = dest.mintedTo user + m.amountFor user) ∧
      dest'.mintedAll = dest.mintedAll + m.amount := by
  obtain ⟨_, ⟨account, amount⟩, token, hdecoded, _, _, rfl⟩ := B.onLzReceive_eq_ok.mp h
  refine ⟨fun user => ?_, ?_⟩
  · rw [LzMessage.amountFor_eq hdecoded]
    simp [Dest.mintedTo]
  · rw [LzMessage.amount_eq hdecoded]
    simp [Dest.mintedAll]

/-- a deposit locks for its sender what its message will mint for them -/
theorem Bridge.deposit_locks_for {call : Deposit} {outcome : Except Bytes B256}
    {w w' : World (List LzMessage)} {guid : B256}
    (h : depositETH (B.send outcome) call w = .ok (guid, w')) :
    ∃ m : LzMessage, m.sender = B.appSource ∧ w'.endpoint = w.endpoint ++ [m] ∧
      ∀ user, (w'.app.lockedTokens user).toNat
        = (w.app.lockedTokens user).toNat + m.amountFor user := by
  obtain ⟨_, amount, total, sent, locked, _, _, hsent, hlocked, hr⟩ := depositETH_eq_ok.mp h
  cases outcome with
  | error e => cases hsent
  | ok guid' =>
    obtain rfl := Except.ok.inj hsent
    obtain ⟨-, rfl⟩ := Prod.mk.inj hr
    refine ⟨_, rfl, rfl, fun user => ?_⟩
    rw [LzMessage.amountFor_eq (decodeDeposit_encode call.sender amount)]
    show (Function.update w.app.lockedTokens call.sender locked user).toNat = _ + if _ then _ else _
    by_cases hu : call.sender = user
    · subst hu
      rw [Function.update_self, if_pos rfl]
      exact hlocked
    · rw [Function.update_of_ne (Ne.symm hu), if_neg hu]
      rfl

/-- a delivery that returns is a delivery of a pending message -/
theorem Bridge.step_delivered {s s' : BridgeState Z} {m : LzMessage} {dest : Dest Z}
    (h : B.step s (.deliver m) = some s')
    (hdest : B.onLzReceive B.endpoint m.message s.dest = .ok dest) :
    m ∈ s.source.endpoint ∧ s' = (s.setPending (s.source.endpoint.erase m)).setDest dest := by
  have hpending : m ∈ s.source.endpoint ∧ B.Addressed m := by
    by_contra hnot
    simp only [Bridge.step] at h
    rw [if_neg hnot] at h
    cases h
  rw [B.step_deliver hpending hdest] at h
  exact ⟨hpending.1, (Option.some.inj h).symm⟩

/-- **one step** keeps an account exact exactly if it mints nothing of another account's message -/
theorem Bridge.exact_step {user : Address} {s s' : BridgeState Z} {a : BridgeAction}
    (hs : s.Exact B user) (h : B.step s a = some s') : s'.Exact B user ↔ ¬ B.MintsForeign user s a := by
  unfold BridgeState.Exact at hs ⊢
  constructor
  · rintro hexact ⟨m, dest, rfl, hother, hpos, hdest⟩
    obtain ⟨hmem, rfl⟩ := Bridge.step_delivered h hdest
    have hdue : B.dueTo user m = 0 := if_neg hother
    have herase := B.owedTo_erase user hmem
    have hminted := (Bridge.deliver_minted hdest).1 user
    have hexact : dest.mintedTo user + B.owedTo user (s.source.endpoint.erase m)
        = (s.source.app.lockedTokens user).toNat := hexact
    omega
  · intro hforeign
    cases B.step_stepped h with
    | reverted _ => exact hs
    | deposit call outcome guid source ok =>
      obtain ⟨m, hsender, hpending, hlocked⟩ := Bridge.deposit_locks_for ok
      have hdue : B.dueTo user m = m.amountFor user := if_pos hsender
      show s.dest.mintedTo user + B.owedTo user source.endpoint
        = (source.app.lockedTokens user).toNat
      rw [hpending, hlocked, Bridge.owedTo_append, hdue]
      omega
    | send m other =>
      have hdue : B.dueTo user m = 0 := if_neg other
      show s.dest.mintedTo user + B.owedTo user (s.source.endpoint ++ [m]) = _
      rw [Bridge.owedTo_append, hdue]
      exact hs
    | deliver m dest pending addressed ok =>
      have herase := B.owedTo_erase user pending
      have hminted := (Bridge.deliver_minted ok).1 user
      have hdue : B.dueTo user m = m.amountFor user := by
        by_cases hsender : m.sender = B.appSource
        · exact if_pos hsender
        · -- it mints nothing for the user, here
          have hzero : m.amountFor user = 0 := by
            by_contra hne
            exact hforeign ⟨m, dest, rfl, hsender, Nat.pos_of_ne_zero hne, ok⟩
          rw [hzero]
          exact if_neg hsender
      show dest.mintedTo user + B.owedTo user (s.source.endpoint.erase m) = _
      show _ = (s.source.app.lockedTokens user).toNat
      omega

theorem Bridge.supplyMinted_step (hZ : Z.Lawful) {s s' : BridgeState Z} {a : BridgeAction}
    (hs : s.SupplyMinted) (h : B.step s a = some s') : s'.SupplyMinted := by
  cases B.step_stepped h with
  | reverted _ => exact hs
  | deposit call outcome guid source ok => exact hs
  | send m other => exact hs
  | deliver m dest pending addressed ok =>
    show (Z.totalSupply dest.token).toNat = dest.mintedAll
    rw [(Bridge.deliver_mints hZ ok).1, (Bridge.deliver_minted ok).2, hs]

/-! ## runs -/

/-- **The account of a user is exact along a run if and only if no step mints for them of a message
of another account**: what they have locked is what was minted for them and what the messages of
`AppSource` in flight will mint, to whatever chain and in whichever order these are delivered.  And
in every run the supply is what was minted. -/
theorem accounts_exact_iff (hZ : Z.Lawful) {actions : List BridgeAction} {s : BridgeState Z}
    (h : Machine.run B.step (B.init Z) actions = some s) :
    (∀ user, Machine.Always B.step (BridgeState.Exact B user) (B.init Z) actions ↔
      Machine.Steps B.step (fun s a => ¬ B.MintsForeign user s a) (B.init Z) actions) ∧
    (Z.totalSupply s.dest.token).toNat = s.dest.mintedAll := by
  refine ⟨fun user => ?_, ?_⟩
  · exact Machine.always_iff_steps (I := fun _ => True) (fun _ _ _ _ _ => trivial)
      (fun s a s' _ hs hstep => Bridge.exact_step hs hstep) trivial rfl h
  · refine Machine.run_inv (I := BridgeState.SupplyMinted)
      (fun s a s' hs hstep => Bridge.supplyMinted_step hZ hs hstep) ?_ h
    show (Z.totalSupply (Z.deployed B.appDest)).toNat = 0
    rw [hZ.supply_deployed]
    rfl

open Devnet in
/-- account 7 is exact while its deposit is delivered; the empty payload mints nothing -/
theorem accounts_exact_devnet : ∃ s : BridgeState openZeppelin,
    Machine.run bridge.step (bridge.init openZeppelin) backedRun = some s ∧
      s.dest.mintedAll = 1000 ∧
      Machine.Always bridge.step (BridgeState.Exact bridge (address 7)) (bridge.init openZeppelin)
        backedRun := by
  have hrun : ∃ s : BridgeState openZeppelin,
      Machine.run bridge.step (bridge.init openZeppelin) backedRun = some s ∧
        s.dest.token.totalSupply = 1000 := ⟨_, rfl, rfl⟩
  obtain ⟨s, hrun, hsupply⟩ := hrun
  obtain ⟨hexact, hminted⟩ := accounts_exact_iff openZeppelin_lawful hrun
  refine ⟨s, hrun, ?_, (hexact (address 7)).mpr (Machine.Steps.of_forall ?_ _)⟩
  · rw [← hminted]
    exact congrArg BitVec.toNat hsupply
  · rintro a ha s' ⟨m, dest, rfl, hother, hpos, _⟩
    have hmem : m = spam ∨ m = depositMessage := by simpa [backedRun] using ha
    rcases hmem with rfl | rfl
    · have hzero : spam.amountFor (address 7) = 0 := rfl
      omega
    · exact hother rfl

end ZkSymbiotic
