import ZkSymbiotic.Contracts.Bridge

/-!
# Whether bridged supply is backed

`Covered` leaves room for the deposits whose messages are still in flight, so that a delivery of a
message of `AppSource` keeps it.  The delivery of any other message that mints breaks it: nothing is
locked for what it mints.

* `Bridge.covered_step`     one step keeps `Covered` where it delivers no such message;
* `supply_backed_iff`       the supply is backed in all runs if and only if no run delivers one;
* `forged_message_mints`    a run that does.
-/

namespace ZkSymbiotic

/-! ## what a message mints -/

/-- the amount in the payload -/
def LzMessage.amount (m : LzMessage) : Nat :=
  match decodeDeposit m.message with
  | some decoded => decoded.2.toNat
  | none => 0

/-- the payload names an account that can hold tokens, and an amount -/
def LzMessage.Mints (m : LzMessage) : Prop :=
  ∃ user amount, decodeDeposit m.message = some (user, amount) ∧ user ≠ .zero ∧ 0 < amount.toNat

theorem LzMessage.amount_eq {m : LzMessage} {user : Address} {amount : U256}
    (h : decodeDeposit m.message = some (user, amount)) : m.amount = amount.toNat := by
  unfold LzMessage.amount
  rw [h]

variable {Z : OpenZeppelin} (B : Bridge)

/-- what a message in flight will mint of what is locked -/
def Bridge.due (m : LzMessage) : Nat := if m.sender = B.appSource then m.amount else 0

def Bridge.owed (pending : List LzMessage) : Nat := (pending.map B.due).sum

theorem Bridge.owed_append (pending : List LzMessage) (m : LzMessage) :
    B.owed (pending ++ [m]) = B.owed pending + B.due m := by
  simp [Bridge.owed]

theorem Bridge.owed_erase {pending : List LzMessage} {m : LzMessage} (h : m ∈ pending) :
    B.owed pending = B.due m + B.owed (pending.erase m) :=
  ((List.perm_cons_erase h).map B.due).sum_eq

/-! ## the invariant -/

def BridgeState.Backed (s : BridgeState Z) : Prop :=
  (Z.totalSupply s.dest.token).toNat ≤ s.source.app.totalLocked.toNat

/-- the supply, and what own messages in flight will add to it, is locked -/
def Bridge.Covered (s : BridgeState Z) : Prop :=
  (Z.totalSupply s.dest.token).toNat + B.owed s.source.endpoint ≤ s.source.app.totalLocked.toNat

/-- of the messages that other accounts sent, the step delivers one of `Foreign` or none -/
def Bridge.DeliversOnly (Foreign : LzMessage → Prop) (_ : BridgeState Z) (a : BridgeAction) : Prop :=
  ∀ m, a = .deliver m → m.sender = B.appSource ∨ Foreign m

variable {B}

theorem Bridge.Covered.backed {s : BridgeState Z} (h : B.Covered s) : s.Backed :=
  le_trans (Nat.le_add_right _ _) h

theorem Bridge.covered_init (hZ : Z.Lawful) : B.Covered (B.init Z) := by
  show (Z.totalSupply (Z.deployed B.appDest)).toNat + 0 ≤ 0
  rw [hZ.supply_deployed]
  exact Nat.le_refl 0

/-- a deposit locks what its message will mint -/
theorem Bridge.deposit_locks {call : Deposit} {outcome : Except Bytes B256}
    {w w' : World (List LzMessage)} {guid : B256}
    (h : depositETH (B.send outcome) call w = .ok (guid, w')) :
    ∃ m : LzMessage, m.sender = B.appSource ∧ w'.endpoint = w.endpoint ++ [m] ∧
      w'.app.totalLocked.toNat = w.app.totalLocked.toNat + m.amount := by
  obtain ⟨_, amount, total, sent, locked, _, htotal, hsent, _, hr⟩ := depositETH_eq_ok.mp h
  cases outcome with
  | error e => cases hsent
  | ok guid' =>
    obtain rfl := Except.ok.inj hsent
    obtain ⟨-, rfl⟩ := Prod.mk.inj hr
    have hamount : LzMessage.amount ⟨B.appSource, call.dstEid, call.receiver.bytes,
        encodeDeposit call.sender amount⟩ = amount.toNat :=
      LzMessage.amount_eq (decodeDeposit_encode call.sender amount)
    refine ⟨_, rfl, rfl, ?_⟩
    show total.toNat = _
    rw [htotal]
    exact congrArg _ hamount.symm

/-- a delivery mints the amount of the payload, for an account that can hold tokens -/
theorem Bridge.deliver_mints (hZ : Z.Lawful) {sender : Address} {m : LzMessage} {dest dest' : Dest Z}
    (h : B.onLzReceive sender m.message dest = .ok dest') :
    (Z.totalSupply dest'.token).toNat = (Z.totalSupply dest.token).toNat + m.amount ∧
      (m.amount = 0 ∨ m.Mints) := by
  obtain ⟨_, ⟨user, amount⟩, token, hdecoded, _, hmint, rfl⟩ := B.onLzReceive_eq_ok.mp h
  have hamount : m.amount = amount.toNat := LzMessage.amount_eq hdecoded
  have hsupply : (Z.totalSupply token).toNat = (Z.totalSupply dest.token).toNat + amount.toNat :=
    hZ.mint_supply hmint
  refine ⟨hsupply.trans (congrArg _ hamount.symm), ?_⟩
  rcases Nat.eq_zero_or_pos amount.toNat with h0 | hpos
  · exact .inl (hamount.trans h0)
  · refine .inr ⟨user, amount, hdecoded, fun hzero => ?_, hpos⟩
    subst hzero
    exact hZ.mint_zero hmint

theorem Bridge.covered_step (hZ : Z.Lawful) {Foreign : LzMessage → Prop}
    (hF : ∀ m, Foreign m → m.sender ≠ B.appSource → B.Addressed m → ¬ m.Mints)
    {s s' : BridgeState Z} {a : BridgeAction} (hs : B.Covered s) (ha : B.DeliversOnly Foreign s a)
    (h : B.step s a = some s') : B.Covered s' := by
  have hcov : (Z.totalSupply s.dest.token).toNat + B.owed s.source.endpoint
      ≤ s.source.app.totalLocked.toNat := hs
  cases B.step_stepped h with
  | reverted _ => exact hs
  | deposit call outcome guid source ok =>
    obtain ⟨m, hsender, hpending, htotal⟩ := Bridge.deposit_locks ok
    have hdue : B.due m = m.amount := if_pos hsender
    show _ + B.owed source.endpoint ≤ source.app.totalLocked.toNat
    rw [hpending, htotal, Bridge.owed_append, hdue]
    show (Z.totalSupply s.dest.token).toNat + _ ≤ _
    omega
  | send m other =>
    have hdue : B.due m = 0 := if_neg other
    show _ + B.owed (s.source.endpoint ++ [m]) ≤ _
    rw [Bridge.owed_append, hdue]
    exact hs
  | deliver m dest pending addressed ok =>
    obtain ⟨hsupply, hmints⟩ := Bridge.deliver_mints hZ ok
    have howed := B.owed_erase pending
    show (Z.totalSupply dest.token).toNat + B.owed (s.source.endpoint.erase m) ≤ _
    show _ ≤ s.source.app.totalLocked.toNat
    by_cases hsender : m.sender = B.appSource
    · have hdue : B.due m = m.amount := if_pos hsender
      omega
    · -- a message of another account mints nothing, here
      have hnot : ¬ m.Mints := hF m ((ha m rfl).resolve_left hsender) hsender addressed
      have hzero : m.amount = 0 := hmints.resolve_right hnot
      omega

/-! ## backed in all runs -/

/-- a message of another account can be sent and delivered before any deposit -/
theorem Bridge.run_send_deliver {m : LzMessage} {dest : Dest Z} (hsender : m.sender ≠ B.appSource)
    (haddressed : B.Addressed m)
    (h : B.onLzReceive B.endpoint m.message (B.init Z).dest = .ok dest) :
    Machine.run B.step (B.init Z) [.send m, .deliver m]
      = some ((((B.init Z).setPending [m]).setPending ([m].erase m)).setDest dest) := by
  have hsend : B.step (B.init Z) (.send m) = some ((B.init Z).setPending [m]) := if_neg hsender
  have hdeliver := B.step_deliver (s := (B.init Z).setPending [m])
    ⟨List.mem_singleton.mpr rfl, haddressed⟩ h
  rw [Machine.run_cons, hsend]
  show Machine.run B.step ((B.init Z).setPending [m]) [.deliver m] = _
  rw [Machine.run_cons, hdeliver]
  rfl

/-- **the supply is backed in all runs if and only if they deliver no message of another account
that mints** -/
theorem supply_backed_iff (hZ : Z.Lawful) (Foreign : LzMessage → Prop) :
    (∀ actions, (Machine.Steps B.step (B.DeliversOnly Foreign) (B.init Z) actions) →
        Machine.Always B.step BridgeState.Backed (B.init Z) actions) ↔
      ∀ m, Foreign m → m.sender ≠ B.appSource → B.Addressed m → ¬ m.Mints := by
  constructor
  · intro hbacked m hm hsender haddressed ⟨user, amount, hdecoded, huser, hpos⟩
    -- the message is sent and delivered, before any deposit
    have hsupply : Z.totalSupply (Z.deployed B.appDest) = 0 := hZ.supply_deployed _
    obtain ⟨token, hmint⟩ : ∃ token, Z.mint user amount (Z.deployed B.appDest) = .ok token := by
      apply hZ.mint_ok huser
      rw [hsupply]
      have := amount.isLt
      show 0 + _ < _
      omega
    have hreceive : B.onLzReceive B.endpoint m.message (B.init Z).dest
        = .ok ⟨token, [(user, amount)]⟩ :=
      B.onLzReceive_eq_ok.mpr
        ⟨rfl, (user, amount), token, hdecoded, hZ.owner_deployed _, hmint, rfl⟩
    have hsteps : Machine.Steps B.step (B.DeliversOnly Foreign) (B.init Z) [.send m, .deliver m] :=
      ⟨fun m' e => (by cases e), fun _ _ => ⟨fun m' e => (by cases e; exact .inr hm), fun _ _ => trivial⟩⟩
    have hle : (Z.totalSupply token).toNat ≤ 0 :=
      (hbacked _ hsteps).last (Bridge.run_send_deliver hsender haddressed hreceive)
    rw [hZ.mint_supply hmint, hsupply] at hle
    have h0 : amount.toNat ≤ 0 := le_trans (Nat.le_add_left _ _) hle
    omega
  · intro hF actions hsteps
    refine Machine.Always.mono (fun s hs => hs.backed) actions
      (Machine.Steps.always (fun _ _ _ hs ha h => ?_) actions (Bridge.covered_init hZ) hsteps)
    exact Bridge.covered_step hZ hF hs ha h

/-! ## a token, and a forged message -/

namespace Devnet

structure Beth where
  owner : Address
  totalSupply : U256
  balances : Address → U256

/-- balances cannot overflow where the supply does not -/
def openZeppelin : OpenZeppelin where
  Token := Beth
  deployed := fun owner => ⟨owner, 0, fun _ => 0⟩
  totalSupply := Beth.totalSupply
  checkOwner := fun sender token => if sender = token.owner then .ok () else .error []
  mint := fun account amount token =>
    if account = .zero then .error [] else
      match checkedAdd token.totalSupply amount with
      | none => .error []
      | some supply => .ok { token with
          totalSupply := supply
          balances := Function.update token.balances account (token.balances account + amount) }

theorem openZeppelin_mint {account : Address} {amount : U256} {token token' : Beth}
    (h : openZeppelin.mint account amount token = .ok token') :
    account ≠ .zero ∧ checkedAdd token.totalSupply amount = some token'.totalSupply := by
  simp only [openZeppelin] at h
  by_cases hzero : account = .zero
  · rw [if_pos hzero] at h
    cases h
  · rw [if_neg hzero] at h
    cases hsum : checkedAdd token.totalSupply amount with
    | none =>
      rw [hsum] at h
      cases h
    | some supply =>
      rw [hsum] at h
      obtain rfl := Except.ok.inj h
      exact ⟨hzero, rfl⟩

theorem openZeppelin_lawful : openZeppelin.Lawful where
  supply_deployed := fun _ => rfl
  owner_deployed := fun _ => if_pos rfl
  mint_supply := fun h => checkedAdd_eq_some.mp (openZeppelin_mint h).2
  mint_zero := fun h => (openZeppelin_mint h).1 rfl
  mint_ok := by
    intro account amount token hne hlt
    obtain ⟨supply, hsupply⟩ : ∃ supply, checkedAdd token.totalSupply amount = some supply :=
      ⟨_, if_pos hlt⟩
    refine ⟨{ token with
      totalSupply := supply
      balances := Function.update token.balances account (token.balances account + amount) }, ?_⟩
    simp only [openZeppelin]
    rw [if_neg hne, hsupply]

def address (n : Nat) : Address := .ofNat 20 n

def bridge : Bridge where
  appSource := address 1
  appDest := address 2
  endpoint := address 3
  dstEid := 30184

/-- account 9 claims one ether -/
def forged : LzMessage where
  sender := address 9
  dstEid := 30184
  receiver := addressWord (address 2)
  message := encodeDeposit (address 9) 1000000000000000000

/-- account 7 deposits 1000 wei above the fee -/
def depositCall : Deposit where
  sender := address 7
  value := 10000000000001000
  timestamp := 0
  dstEid := 30184
  receiver := ⟨addressWord (address 2), addressWord_length _⟩
  options := []

/-- the message of that deposit -/
def depositMessage : LzMessage where
  sender := address 1
  dstEid := 30184
  receiver := addressWord (address 2)
  message := encodeDeposit (address 7) 1000

/-- account 9 sends an empty payload -/
def spam : LzMessage := { forged with message := [] }

def backedRun : List BridgeAction :=
  [.send spam, .deposit depositCall (.ok .zero), .deliver spam, .deliver depositMessage]

end Devnet

open Devnet in
theorem supply_backed_devnet : ∃ s : BridgeState openZeppelin,
    Machine.run bridge.step (bridge.init openZeppelin) backedRun = some s ∧
      s.dest.token.totalSupply = 1000 ∧
      Machine.Always bridge.step BridgeState.Backed (bridge.init openZeppelin) backedRun := by
  refine ⟨_, rfl, rfl, (supply_backed_iff openZeppelin_lawful fun m => m.message = []).mpr ?_ _ ?_⟩
  · intro m hempty _ _ ⟨user, amount, hdecoded, _⟩
    rw [hempty] at hdecoded
    cases hdecoded
  · refine Machine.Steps.of_forall (fun a ha s m hm => ?_) _
    subst hm
    have hmem : m = spam ∨ m = depositMessage := by simpa [backedRun] using ha
    rcases hmem with rfl | rfl
    · exact .inr rfl
    · exact .inl rfl

open Devnet in
/-- one ether is minted, nothing is locked -/
theorem forged_message_mints : ∃ s : BridgeState openZeppelin,
    Machine.run bridge.step (bridge.init openZeppelin) [.send forged, .deliver forged] = some s ∧
      s.dest.token.totalSupply = 1000000000000000000 ∧ s.source.app.totalLocked = 0 ∧
      ¬ Machine.Always bridge.step BridgeState.Backed (bridge.init openZeppelin)
        [.send forged, .deliver forged] := by
  have hreceive : ∃ dest, bridge.onLzReceive bridge.endpoint forged.message
      (bridge.init openZeppelin).dest = .ok dest ∧
        dest.token.totalSupply = 1000000000000000000 := ⟨_, rfl, rfl⟩
  obtain ⟨dest, hdest, hsupply⟩ := hreceive
  have hrun := Bridge.run_send_deliver (m := forged) (by decide) (by decide) hdest
  refine ⟨_, hrun, hsupply, rfl, fun halways => ?_⟩
  have hlast : dest.token.totalSupply.toNat ≤ 0 := halways.last hrun
  rw [hsupply] at hlast
  exact absurd hlast (by decide)

end ZkSymbiotic
