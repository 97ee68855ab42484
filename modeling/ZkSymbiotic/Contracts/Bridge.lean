import Mathlib.Algebra.BigOperators.Group.List.Basic
import Mathlib.Data.List.Perm.Basic
import ZkSymbiotic.Contracts.AppSource
import ZkSymbiotic.Lib.Machine

/-!
# The bridge: `AppSource`, the endpoint, `AppDest` and `BETH`

Deposits, messages of other accounts and deliveries in any order.  The endpoint delivers a message
that is addressed to `AppDest` at most once; `AppDest` looks at who calls it and at the payload, not
at who sent the message.

* `Bridge.onLzReceive_eq_ok`   a delivery returns if and only if the endpoint calls, the payload
                               decodes and the token mints;
* `Bridge.step`                the two chains and the messages in flight as a machine;
* `BridgeStepped`              the steps one by one, and `Bridge.step_stepped`.
-/

namespace ZkSymbiotic

/-! ## the token -/

/-- `ERC20` and `Ownable` of OpenZeppelin, as far as `BETH` uses them; `deployed` is the token after
its ownership went to the given account -/
structure OpenZeppelin where
  Token : Type
  deployed : (owner : Address) → Token
  totalSupply : Token → U256
  checkOwner : (sender : Address) → Token → Except Bytes Unit
  mint : (account : Address) → (amount : U256) → Token → Except Bytes Token

/-- what its documentation promises -/
structure OpenZeppelin.Lawful (Z : OpenZeppelin) : Prop where
  supply_deployed : ∀ owner, Z.totalSupply (Z.deployed owner) = 0
  owner_deployed : ∀ owner, Z.checkOwner owner (Z.deployed owner) = .ok ()
  mint_supply : ∀ {account amount token token'}, Z.mint account amount token = .ok token' →
    (Z.totalSupply token').toNat = (Z.totalSupply token).toNat + amount.toNat
  mint_zero : ∀ {amount token token'}, Z.mint .zero amount token ≠ .ok token'
  mint_ok : ∀ {account amount token}, account ≠ .zero →
    (Z.totalSupply token).toNat + amount.toNat < 2^256 → ∃ token', Z.mint account amount token = .ok token'

variable (Z : OpenZeppelin)

/-- `BETH.mint`, `onlyOwner` -/
def OpenZeppelin.bethMint (sender account : Address) (amount : U256) (token : Z.Token) :
    Except Bytes Z.Token := do
  Z.checkOwner sender token
  Z.mint account amount token

/-! ## the receiving contract -/

inductive AppDestError where
  | require (message : String)
  | decode
  | bubbled (data : Bytes)
deriving DecidableEq

/-- where the contracts are, and the endpoint id of the chain of `AppDest` -/
structure Bridge where
  appSource : Address
  appDest : Address
  endpoint : Address
  dstEid : UInt32

/-- the chain of `AppDest`: the token and the `BETHMinted` events -/
structure Dest where
  token : Z.Token
  minted : List (Address × U256)

variable {Z} (B : Bridge)

def Bridge.onLzReceive (sender : Address) (message : Bytes) (dest : Dest Z) :
    Except AppDestError (Dest Z) := do
  Except.failIf (sender ≠ B.endpoint) (.require "Only endpoint can call")
  let decoded ← Except.okOr .decode (decodeDeposit message)
  let token ← (Z.bethMint B.appDest decoded.1 decoded.2 dest.token).mapError .bubbled
  return { token, minted := dest.minted ++ [decoded] }

theorem Bridge.onLzReceive_eq_ok {sender : Address} {message : Bytes} {dest dest' : Dest Z} :
    B.onLzReceive sender message dest = .ok dest' ↔ sender = B.endpoint ∧ ∃ decoded token,
      decodeDeposit message = some decoded ∧ Z.checkOwner B.appDest dest.token = .ok () ∧
      Z.mint decoded.1 decoded.2 dest.token = .ok token ∧
      dest' = { token, minted := dest.minted ++ [decoded] } := by
  simp only [onLzReceive, OpenZeppelin.bethMint, Except.bind_eq_ok, Except.failIf_eq_ok,
    Except.okOr_eq_ok, Except.mapError_eq_ok, Except.pure_eq_ok, not_not, ne_eq]
  constructor
  · rintro ⟨_, hsender, decoded, hdecoded, token, ⟨_, howner, hmint⟩, hdest⟩
    exact ⟨hsender, decoded, token, hdecoded, howner, hmint, hdest.symm⟩
  · rintro ⟨hsender, decoded, token, hdecoded, howner, hmint, hdest⟩
    exact ⟨(), hsender, decoded, hdecoded, token, ⟨(), howner, hmint⟩, hdest.symm⟩

/-! ## the system -/

/-- a message that the endpoint took -/
structure LzMessage where
  sender : Address
  dstEid : UInt32
  receiver : Bytes
  message : Bytes
deriving DecidableEq

def Bridge.Addressed (m : LzMessage) : Prop := m.dstEid = B.dstEid ∧ m.receiver = addressWord B.appDest

instance (m : LzMessage) : Decidable (B.Addressed m) := inferInstanceAs (Decidable (_ ∧ _))

variable (Z) in
/-- the two chains; the endpoint's state are the messages in flight -/
structure BridgeState where
  source : World (List LzMessage)
  dest : Dest Z

inductive BridgeAction where
  | deposit (call : Deposit) (outcome : Except Bytes B256)
  | send (m : LzMessage)
  | deliver (m : LzMessage)
  | receive (sender : Address) (message : Bytes)

/-- the endpoint takes the message of `AppSource` or reverts -/
def Bridge.send (outcome : Except Bytes B256) : Send (List LzMessage) := fun call w =>
  outcome.map fun guid => (guid, { w with
    endpoint := w.endpoint ++ [⟨B.appSource, call.dstEid, call.receiver, call.message⟩] })

def BridgeState.setSource (s : BridgeState Z) (source : World (List LzMessage)) : BridgeState Z :=
  { s with source }

def BridgeState.setDest (s : BridgeState Z) (dest : Dest Z) : BridgeState Z := { s with dest }

def BridgeState.setPending (s : BridgeState Z) (pending : List LzMessage) : BridgeState Z :=
  s.setSource { s.source with endpoint := pending }

variable (Z) in
def Bridge.init : BridgeState Z where
  source := ⟨.init, []⟩
  dest := ⟨Z.deployed B.appDest, []⟩

/-- reverted calls leave the state as it was; a reverted delivery may be tried again -/
def Bridge.step : Machine (BridgeState Z) BridgeAction := fun s a =>
  match a with
  | .deposit call outcome =>
    match depositETH (B.send outcome) call s.source with
    | .ok (_, source) => some (s.setSource source)
    | .error _ => some s
  | .send m =>
    if m.sender = B.appSource then none else some (s.setPending (s.source.endpoint ++ [m]))
  | .deliver m =>
    if m ∈ s.source.endpoint ∧ B.Addressed m then
      match B.onLzReceive B.endpoint m.message s.dest with
      | .ok dest => some ((s.setPending (s.source.endpoint.erase m)).setDest dest)
      | .error _ => some s
    else none
  | .receive sender message =>
    if sender = B.endpoint then none else
      match B.onLzReceive sender message s.dest with
      | .ok dest => some (s.setDest dest)
      | .error _ => some s

theorem Bridge.step_deliver {s : BridgeState Z} {m : LzMessage} {dest : Dest Z}
    (hm : m ∈ s.source.endpoint ∧ B.Addressed m)
    (h : B.onLzReceive B.endpoint m.message s.dest = .ok dest) :
    B.step s (.deliver m) = some ((s.setPending (s.source.endpoint.erase m)).setDest dest) := by
  simp only [Bridge.step]
  rw [if_pos hm, h]

/-- what a step can do -/
inductive BridgeStepped (s : BridgeState Z) : BridgeAction → BridgeState Z → Prop
  | reverted (a : BridgeAction) : BridgeStepped s a s
  | deposit (call : Deposit) (outcome : Except Bytes B256) (guid : B256)
      (source : World (List LzMessage))
      (ok : depositETH (B.send outcome) call s.source = .ok (guid, source)) :
      BridgeStepped s (.deposit call outcome) (s.setSource source)
  | send (m : LzMessage) (other : m.sender ≠ B.appSource) :
      BridgeStepped s (.send m) (s.setPending (s.source.endpoint ++ [m]))
  | deliver (m : LzMessage) (dest : Dest Z) (pending : m ∈ s.source.endpoint)
      (addressed : B.Addressed m) (ok : B.onLzReceive B.endpoint m.message s.dest = .ok dest) :
      BridgeStepped s (.deliver m) ((s.setPending (s.source.endpoint.erase m)).setDest dest)

theorem Bridge.step_stepped {s s' : BridgeState Z} {a : BridgeAction}
    (h : B.step s a = some s') : BridgeStepped B s a s' := by
  cases a with
  | deposit call outcome =>
    simp only [Bridge.step] at h
    cases hd : depositETH (B.send outcome) call s.source with
    | ok r =>
      rw [hd] at h
      obtain rfl := Option.some.inj h
      exact .deposit call outcome r.1 r.2 hd
    | error e =>
      rw [hd] at h
      obtain rfl := Option.some.inj h
      exact .reverted _
  | send m =>
    simp only [Bridge.step] at h
    by_cases hm : m.sender = B.appSource
    · rw [if_pos hm] at h
      cases h
    · rw [if_neg hm] at h
      obtain rfl := Option.some.inj h
      exact .send m hm
  | deliver m =>
    simp only [Bridge.step] at h
    by_cases hm : m ∈ s.source.endpoint ∧ B.Addressed m
    · rw [if_pos hm] at h
      cases hr : B.onLzReceive B.endpoint m.message s.dest with
      | ok dest =>
        rw [hr] at h
        obtain rfl := Option.some.inj h
        exact .deliver m dest hm.1 hm.2 hr
      | error e =>
        rw [hr] at h
        obtain rfl := Option.some.inj h
        exact .reverted _
    · rw [if_neg hm] at h
      cases h
  | receive sender message =>
    simp only [Bridge.step] at h
    by_cases hs : sender = B.endpoint
    · rw [if_pos hs] at h
      cases h
    · rw [if_neg hs] at h
      cases hr : B.onLzReceive sender message s.dest with
      | ok dest => exact absurd (B.onLzReceive_eq_ok.mp hr).1 hs
      | error e =>
        rw [hr] at h
        obtain rfl := Option.some.inj h
        exact .reverted _

end ZkSymbiotic
