import Mathlib.Algebra.BigOperators.Group.List.Basic
import Mathlib.Logic.Function.Basic
import ZkSymbiotic.Abi
import ZkSymbiotic.Lib.Checked
import ZkSymbiotic.Lib.Result

/-!
# `AppSource`

The contract that takes deposits.  In the middle of a deposit it calls the endpoint, which is
another contract: it may revert, keep a state of its own, or call `depositETH` again.

* `depositETH`         the call, over any `send` of an endpoint with a state `E`;
* `depositETH_eq_ok`   a deposit returns if and only if the value exceeds the fee, the endpoint
                       returns and no sum overflows;
* `Advances s s' l`    the bookkeeping from `s` to `s'` where the events `l` are emitted;
* `DepositTx.exec`     deposits nested to any depth, and `DepositTx.exec_advances`.
-/

namespace ZkSymbiotic

/-! ## the contract -/

inductive AppSourceEvent where
  | ethDeposited (user : Address) (amount : U256) (guid : B256)
  | tokensLocked (event : TokensLocked)
deriving DecidableEq

/-- the storage, the balance in wei and the events emitted so far -/
structure AppSource where
  totalLocked : U256
  lockedTokens : Address → U256
  balance : Nat
  events : List AppSourceEvent

def AppSource.init : AppSource := ⟨0, fun _ => 0, 0, []⟩

inductive AppSourceError where
  | require (message : String)
  | panic
  | bubbled (data : Bytes)
deriving DecidableEq

/-- the sender, the value, the block time and the arguments of a deposit -/
structure Deposit where
  sender : Address
  value : U256
  timestamp : U256
  dstEid : UInt32
  receiver : B256
  options : Bytes

/-- a call of `endpoint.send` -/
structure SendCall where
  value : U256
  dstEid : UInt32
  receiver : Bytes
  message : Bytes
  options : Bytes

/-- the contract and its endpoint -/
structure World (E : Type) where
  app : AppSource
  endpoint : E

abbrev Send (E : Type) := SendCall → World E → Except Bytes (B256 × World E)

/-- 0.01 ETH for the cross-chain gas -/
def layerZeroFee : U256 := 10000000000000000

/-- the contract while the endpoint runs: the value is in, the fee is out -/
def AppSource.lock (app : AppSource) (value totalLocked : U256) : AppSource :=
  { app with totalLocked, balance := app.balance + value.toNat - layerZeroFee.toNat }

def AppSource.credit (app : AppSource) (call : Deposit) (guid : B256) (amount locked : U256) :
    AppSource :=
  { app with
    lockedTokens := Function.update app.lockedTokens call.sender locked
    events := app.events ++ [.ethDeposited call.sender amount guid,
      .tokensLocked { user := call.sender, amount, when := call.timestamp }] }

def Deposit.sendCall (call : Deposit) (amount : U256) : SendCall where
  value := layerZeroFee
  dstEid := call.dstEid
  receiver := call.receiver.bytes
  message := encodeDeposit call.sender amount
  options := call.options

section
variable {E : Type}

def World.update (w : World E) (f : AppSource → AppSource) : World E := { w with app := f w.app }

def depositETH (send : Send E) (call : Deposit) (w : World E) :
    Except AppSourceError (B256 × World E) := do
  Except.failIf (¬ 0 < call.value.toNat) (.require "Amount must be greater than 0")
  Except.failIf (¬ layerZeroFee.toNat < call.value.toNat)
    (.require "Insufficient value for LayerZero fees")
  let depositAmount ← Except.okOr .panic (checkedSub call.value layerZeroFee)
  let totalLocked ← Except.okOr .panic (checkedAdd w.app.totalLocked depositAmount)
  let sent ← (send (call.sendCall depositAmount)
    (w.update (·.lock call.value totalLocked))).mapError .bubbled
  let locked ← Except.okOr .panic
    (checkedAdd (sent.2.app.lockedTokens call.sender) depositAmount)
  return (sent.1, sent.2.update (·.credit call sent.1 depositAmount locked))

theorem depositETH_eq_ok {send : Send E} {call : Deposit} {w : World E} {r : B256 × World E} :
    depositETH send call w = .ok r ↔ layerZeroFee.toNat < call.value.toNat ∧
      ∃ amount total sent locked, amount.toNat + layerZeroFee.toNat = call.value.toNat ∧
        total.toNat = w.app.totalLocked.toNat + amount.toNat ∧
        send (call.sendCall amount) (w.update (·.lock call.value total)) = .ok sent ∧
        locked.toNat = (sent.2.app.lockedTokens call.sender).toNat + amount.toNat ∧
        r = (sent.1, sent.2.update (·.credit call sent.1 amount locked)) := by
  simp only [depositETH, Except.bind_eq_ok, Except.failIf_eq_ok, Except.okOr_eq_ok,
    Except.mapError_eq_ok, Except.pure_eq_ok, checkedAdd_eq_some, checkedSub_eq_some, not_not]
  constructor
  · intro ⟨_, _, _, hfee, amount, hamount, total, htotal, sent, hsend, locked, hlocked, hr⟩
    exact ⟨hfee, amount, total, sent, locked, hamount, htotal, hsend, hlocked, hr.symm⟩
  · intro ⟨hfee, amount, total, sent, locked, hamount, htotal, hsend, hlocked, hr⟩
    have hpos : 0 < call.value.toNat := lt_of_le_of_lt (Nat.zero_le _) hfee
    exact ⟨(), hpos, (), hfee, amount, hamount, total, htotal, sent, hsend, locked, hlocked,
      hr.symm⟩

end

/-! ## the bookkeeping -/

def AppSourceEvent.amountFor (user : Address) : AppSourceEvent → Nat
  | .ethDeposited _ _ _ => 0
  | .tokensLocked e => if e.user = user then e.amount.toNat else 0

def AppSourceEvent.amount : AppSourceEvent → Nat
  | .ethDeposited _ _ _ => 0
  | .tokensLocked e => e.amount.toNat

/-- what the events lock for a user -/
def lockedFor (user : Address) (l : List AppSourceEvent) : Nat := (l.map (·.amountFor user)).sum

def lockedBy (l : List AppSourceEvent) : Nat := (l.map (·.amount)).sum

theorem lockedFor_append (user : Address) (l m : List AppSourceEvent) :
    lockedFor user (l ++ m) = lockedFor user l + lockedFor user m := by
  rw [lockedFor, List.map_append, List.sum_append]
  rfl

theorem lockedBy_append (l m : List AppSourceEvent) :
    lockedBy (l ++ m) = lockedBy l + lockedBy m := by
  rw [lockedBy, List.map_append, List.sum_append]
  rfl

/-- the events of one deposit -/
def Deposit.events (call : Deposit) (guid : B256) (amount : U256) : List AppSourceEvent :=
  [.ethDeposited call.sender amount guid,
    .tokensLocked { user := call.sender, amount, when := call.timestamp }]

theorem lockedFor_deposit (user : Address) (call : Deposit) (guid : B256) (amount : U256) :
    lockedFor user (call.events guid amount) = if call.sender = user then amount.toNat else 0 := by
  show 0 + ((if call.sender = user then amount.toNat else 0) + 0) = _
  omega

theorem lockedBy_deposit (call : Deposit) (guid : B256) (amount : U256) :
    lockedBy (call.events guid amount) = amount.toNat := by
  show 0 + (amount.toNat + 0) = _
  omega

/-- from `s` to `s'` the events `l` are emitted and booked -/
structure Advances (s s' : AppSource) (l : List AppSourceEvent) : Prop where
  events : s'.events = s.events ++ l
  locked : ∀ user, (s'.lockedTokens user).toNat = (s.lockedTokens user).toNat + lockedFor user l
  total : s'.totalLocked.toNat = s.totalLocked.toNat + lockedBy l
  balance : s'.balance = s.balance + lockedBy l
  positive : ∀ e, .tokensLocked e ∈ l → 0 < e.amount.toNat

theorem Advances.refl (s : AppSource) : Advances s s [] where
  events := (List.append_nil _).symm
  locked := fun _ => rfl
  total := rfl
  balance := rfl
  positive := fun _ he => absurd he List.not_mem_nil

theorem Advances.trans {s₁ s₂ s₃ : AppSource} {l m : List AppSourceEvent} (h : Advances s₁ s₂ l)
    (h' : Advances s₂ s₃ m) : Advances s₁ s₃ (l ++ m) where
  events := by rw [h'.events, h.events, List.append_assoc]
  locked := fun user => by rw [h'.locked, h.locked, lockedFor_append, Nat.add_assoc]
  total := by rw [h'.total, h.total, lockedBy_append, Nat.add_assoc]
  balance := by rw [h'.balance, h.balance, lockedBy_append, Nat.add_assoc]
  positive := fun e he => (List.mem_append.mp he).elim (h.positive e) (h'.positive e)

/-- an endpoint that changes the contract by deposits only -/
def Send.Advancing {E : Type} (send : Send E) : Prop :=
  ∀ call w sent, send call w = .ok sent → ∃ l, Advances w.app sent.2.app l

theorem AppSource.lock_credit_advances {app mid : AppSource} {call : Deposit} {guid : B256}
    {amount total locked : U256} {l : List AppSourceEvent}
    (hfee : layerZeroFee.toNat < call.value.toNat)
    (hamount : amount.toNat + layerZeroFee.toNat = call.value.toNat)
    (htotal : total.toNat = app.totalLocked.toNat + amount.toNat)
    (hmid : Advances (app.lock call.value total) mid l)
    (hlocked : locked.toNat = (mid.lockedTokens call.sender).toNat + amount.toNat) :
    Advances app (mid.credit call guid amount locked) (l ++ call.events guid amount) where
  events := by
    show mid.events ++ call.events guid amount = _
    rw [hmid.events, List.append_assoc]
    rfl
  locked := by
    intro user
    have hl : (mid.lockedTokens user).toNat = (app.lockedTokens user).toNat + lockedFor user l :=
      hmid.locked user
    show (Function.update mid.lockedTokens call.sender locked user).toNat = _
    rw [lockedFor_append, lockedFor_deposit]
    by_cases hu : call.sender = user
    · subst hu
      rw [Function.update_self, hlocked, hl, if_pos rfl]
      omega
    · rw [Function.update_of_ne (Ne.symm hu), hl, if_neg hu]
      omega
  total := by
    have ht : mid.totalLocked.toNat = total.toNat + lockedBy l := hmid.total
    show mid.totalLocked.toNat = _
    rw [ht, htotal, lockedBy_append, lockedBy_deposit]
    omega
  balance := by
    have hb : mid.balance = app.balance + call.value.toNat - layerZeroFee.toNat + lockedBy l :=
      hmid.balance
    show mid.balance = _
    rw [hb, lockedBy_append, lockedBy_deposit]
    omega
  positive := by
    intro e he
    rcases List.mem_append.mp he with he | he
    · exact hmid.positive e he
    · obtain rfl : e = { user := call.sender, amount, when := call.timestamp } := by
        simpa [Deposit.events] using he
      show 0 < amount.toNat
      omega

/-- a deposit books its own amount on top of what is booked while the endpoint runs -/
theorem depositETH_advances {E : Type} {send : Send E} (hsend : send.Advancing) {call : Deposit}
    {w : World E} {r : B256 × World E} (h : depositETH send call w = .ok r) :
    ∃ l, Advances w.app r.2.app l := by
  obtain ⟨hfee, amount, total, sent, locked, hamount, htotal, hsent, hlocked, rfl⟩ :=
    depositETH_eq_ok.mp h
  obtain ⟨l, hl⟩ := hsend _ _ _ hsent
  exact ⟨_, AppSource.lock_credit_advances hfee hamount htotal hl hlocked⟩

/-! ## nested deposits -/

/-- a transaction that deposits: the endpoint makes the `inner` deposits, in their order, and then
returns or reverts -/
inductive DepositTx where
  | mk (call : Deposit) (inner : List DepositTx) (outcome : Except Bytes B256)

mutual

/-- a reverted deposit leaves the contract as it was -/
def DepositTx.exec : DepositTx → AppSource → AppSource
  | .mk call inner outcome, app =>
    match depositETH (fun _ w => outcome.map fun guid =>
        (guid, (w.update (DepositTx.execAll inner) : World Unit))) call ⟨app, ()⟩ with
    | .ok (_, w) => w.app
    | .error _ => app

def DepositTx.execAll : List DepositTx → AppSource → AppSource
  | [], app => app
  | tx :: txs, app => DepositTx.execAll txs (tx.exec app)

end

mutual

theorem DepositTx.exec_advances : ∀ (tx : DepositTx) (app : AppSource),
    ∃ l, Advances app (tx.exec app) l
  | .mk call inner outcome, app => by
    unfold DepositTx.exec
    cases h : depositETH (fun _ w => outcome.map fun guid =>
        (guid, (w.update (DepositTx.execAll inner) : World Unit))) call ⟨app, ()⟩ with
    | ok r =>
      refine depositETH_advances (fun _ w sent hsent => ?_) h
      cases outcome with
      | error e => cases hsent
      | ok guid =>
        obtain rfl := Except.ok.inj hsent
        exact DepositTx.execAll_advances inner w.app
    | error e => exact ⟨[], .refl app⟩

theorem DepositTx.execAll_advances : ∀ (txs : List DepositTx) (app : AppSource),
    ∃ l, Advances app (DepositTx.execAll txs app) l
  | [], app => ⟨[], .refl app⟩
  | tx :: txs, app => by
    obtain ⟨l, hl⟩ := DepositTx.exec_advances tx app
    obtain ⟨m, hm⟩ := DepositTx.execAll_advances txs (tx.exec app)
    exact ⟨l ++ m, hl.trans hm⟩

end

end ZkSymbiotic
