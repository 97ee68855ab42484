import Mathlib.Algebra.BigOperators.Finprod
import Mathlib.Data.Set.Finite.List
import ZkSymbiotic.Contracts.History

/-!
# The accounts of `AppSource` under re-entrancy

The endpoint may call `depositETH` again in the middle of a deposit, to any depth.  There the amount of
the outer deposit is in `totalLocked` and not yet in `lockedTokens`; once the outermost call is over,
the books are even.

* `DepositTx.booked`              the deposits of a call tree that no revert undoes;
* `finsum_lockedFor`              what is locked for all users is what is locked;
* `accounts_survive_reentrancy`   the accounts after any sequence of call trees.
-/

namespace ZkSymbiotic

/-! ## what a call tree books -/

/-- the contract as the endpoint finds it in a deposit -/
def Deposit.entered (call : Deposit) (app : AppSource) : AppSource :=
  app.lock call.value (app.totalLocked + (call.value - layerZeroFee))

/-- who a deposit is for, and its amount -/
def Deposit.amountFor (call : Deposit) : Address × Nat :=
  (call.sender, call.value.toNat - layerZeroFee.toNat)

/-- the call at the top of a tree -/
def DepositTx.topCall : DepositTx → AppSource → Except AppSourceError (B256 × World Unit)
  | .mk call inner outcome, app =>
    depositETH (fun _ w => outcome.map fun guid => (guid, w.update (DepositTx.execAll inner))) call
      ⟨app, ()⟩

def DepositTx.Reverts (tx : DepositTx) (app : AppSource) : Prop := ∃ e, tx.topCall app = .error e

mutual

/-- the deposits that return, each after the ones that its endpoint made -/
def DepositTx.booked : DepositTx → AppSource → List (Address × Nat)
  | .mk call inner outcome, app =>
    match DepositTx.topCall (.mk call inner outcome) app with
    | .ok _ => DepositTx.bookedAll inner (call.entered app) ++ [call.amountFor]
    | .error _ => []

def DepositTx.bookedAll : List DepositTx → AppSource → List (Address × Nat)
  | [], _ => []
  | tx :: txs, app => tx.booked app ++ DepositTx.bookedAll txs (tx.exec app)

end

theorem DepositTx.exec_eq (tx : DepositTx) (app : AppSource) : tx.exec app =
    match tx.topCall app with
    | .ok r => r.2.app
    | .error _ => app := by
  cases tx with
  | mk call inner outcome =>
    rw [DepositTx.exec, DepositTx.topCall]
    cases depositETH (fun _ w => outcome.map fun guid =>
        (guid, (w.update (DepositTx.execAll inner) : World Unit))) call ⟨app, ()⟩ with
    | ok r => rfl
    | error e => rfl

theorem DepositTx.exec_reverts {tx : DepositTx} {app : AppSource} (h : tx.Reverts app) :
    tx.exec app = app := by
  obtain ⟨e, he⟩ := h
  rw [DepositTx.exec_eq, he]

theorem DepositTx.booked_reverts {tx : DepositTx} {app : AppSource} (h : tx.Reverts app) :
    tx.booked app = [] := by
  obtain ⟨e, he⟩ := h
  cases tx with
  | mk call inner outcome => rw [DepositTx.booked, he]

theorem DepositTx.execAll_append (txs more : List DepositTx) (app : AppSource) :
    DepositTx.execAll (txs ++ more) app = DepositTx.execAll more (DepositTx.execAll txs app) := by
  induction txs generalizing app with
  | nil => rw [List.nil_append, DepositTx.execAll]
  | cons tx txs ih => rw [List.cons_append, DepositTx.execAll, DepositTx.execAll, ih]

/-! ## events -/

/-- the users and amounts of the `TokensLocked` events -/
def locks (events : List AppSourceEvent) : List (Address × Nat) :=
  (events.filterMap lockedEvent).map fun e => (e.user, e.amount.toNat)

theorem locks_append (l m : List AppSourceEvent) : locks (l ++ m) = locks l ++ locks m := by
  rw [locks, List.filterMap_append, List.map_append]
  rfl

theorem locks_deposit (call : Deposit) (guid : B256) (amount : U256) :
    locks (call.events guid amount) = [(call.sender, amount.toNat)] := rfl

/-- a deposit that returns: the endpoint ran in the entered contract, and the amount is locked -/
theorem DepositTx.topCall_ok {call : Deposit} {inner : List DepositTx} {outcome : Except Bytes B256}
    {app : AppSource} {r : B256 × World Unit}
    (h : DepositTx.topCall (.mk call inner outcome) app = .ok r) : ∃ amount : U256,
      r.2.app.events = (DepositTx.execAll inner (call.entered app)).events
        ++ call.events r.1 amount ∧ (call.sender, amount.toNat) = call.amountFor := by
  rw [DepositTx.topCall] at h
  obtain ⟨hfee, amount, total, sent, locked, hamount, htotal, hsent, _, rfl⟩ :=
    depositETH_eq_ok.mp h
  have hvalue : amount = call.value - layerZeroFee := by
    rw [← BitVec.toNat_inj, BitVec.toNat_sub]
    have hlt := amount.isLt
    have hle := call.value.isLt
    omega
  have hentered : total = app.totalLocked + (call.value - layerZeroFee) := by
    rw [← BitVec.toNat_inj, BitVec.toNat_add, ← hvalue, htotal, Nat.mod_eq_of_lt]
    rw [← htotal]
    exact total.isLt
  cases outcome with
  | error e => cases hsent
  | ok guid =>
    obtain rfl := Except.ok.inj hsent
    refine ⟨amount, ?_, Prod.ext rfl ?_⟩
    · rw [Deposit.entered, ← hentered]
      rfl
    · show amount.toNat = call.value.toNat - layerZeroFee.toNat
      omega

mutual

/-- what a call tree emits is what it books -/
theorem DepositTx.exec_locks : ∀ (tx : DepositTx) (app : AppSource),
    locks (tx.exec app).events = locks app.events ++ tx.booked app
  | .mk call inner outcome, app => by
    cases h : DepositTx.topCall (.mk call inner outcome) app with
    | error e =>
      rw [DepositTx.exec_reverts ⟨e, h⟩, DepositTx.booked_reverts ⟨e, h⟩, List.append_nil]
    | ok r =>
      obtain ⟨amount, hevents, hamount⟩ := DepositTx.topCall_ok h
      have hinner := DepositTx.execAll_locks inner (call.entered app)
      have hentered : (call.entered app).events = app.events := rfl
      rw [DepositTx.exec_eq, DepositTx.booked, h]
      show locks r.2.app.events = _
      rw [hevents, locks_append, hinner, hentered, locks_deposit, hamount, List.append_assoc]

theorem DepositTx.execAll_locks : ∀ (txs : List DepositTx) (app : AppSource),
    locks (DepositTx.execAll txs app).events = locks app.events ++ DepositTx.bookedAll txs app
  | [], app => by rw [DepositTx.execAll, DepositTx.bookedAll, List.append_nil]
  | tx :: txs, app => by
    rw [DepositTx.execAll, DepositTx.bookedAll, DepositTx.execAll_locks txs (tx.exec app),
      DepositTx.exec_locks tx app, List.append_assoc]

end

/-! ## the sum over the users -/

instance (n : Nat) : Finite (FixedBytes n) := by
  have hbyte : Finite UInt8 := Finite.of_injective UInt8.toFin fun _ _ h => UInt8.toFin_inj.mp h
  have hlists : Finite {l : Bytes // l.length = n} := List.finite_length_eq UInt8 n
  exact Finite.of_injective (fun a : FixedBytes n => (⟨a.bytes, a.len⟩ : {l : Bytes // l.length = n}))
    fun _ _ h => FixedBytes.bytes_inj (Subtype.mk.inj h)

theorem finsum_amountFor (event : AppSourceEvent) :
    ∑ᶠ user, event.amountFor user = event.amount := by
  cases event with
  | ethDeposited user amount guid => exact finsum_zero
  | tokensLocked e =>
    refine (finsum_eq_single _ e.user fun user hne => ?_).trans ?_
    · exact if_neg hne.symm
    · exact if_pos rfl

/-- what events lock for all users together -/
theorem finsum_lockedFor (l : List AppSourceEvent) : ∑ᶠ user, lockedFor user l = lockedBy l := by
  induction l with
  | nil => exact finsum_zero
  | cons event l ih =>
    show ∑ᶠ user, (event.amountFor user + lockedFor user l) = event.amount + lockedBy l
    rw [finsum_add_distrib (Set.toFinite _) (Set.toFinite _), finsum_amountFor, ih]

/-! ## the accounts -/

/-- the books are even, and filled by the given deposits -/
structure Accounts (app : AppSource) (deposits : List (Address × Nat)) : Prop where
  user : ∀ user, (app.lockedTokens user).toNat = lockedFor user app.events
  total : app.totalLocked.toNat = ∑ᶠ user, (app.lockedTokens user).toNat
  backed : app.totalLocked.toNat ≤ app.balance
  events : locks app.events = deposits

/-- **the accounts survive re-entrancy**: after any sequence of call trees they are even, filled by
the deposits that no revert undid; and a call that reverts, at the top or inside of another one,
leaves everything as if it had not been made -/
theorem accounts_survive_reentrancy (txs : List DepositTx) :
    Accounts (DepositTx.execAll txs .init) (DepositTx.bookedAll txs .init) ∧
    ∀ (app : AppSource) (before after : List DepositTx) (tx : DepositTx),
      tx.Reverts (DepositTx.execAll before app) →
        DepositTx.execAll (before ++ tx :: after) app = DepositTx.execAll (before ++ after) app := by
  obtain ⟨l, hl⟩ := DepositTx.execAll_advances txs .init
  have hevents : (DepositTx.execAll txs .init).events = l := hl.events
  have huser : ∀ user, ((DepositTx.execAll txs .init).lockedTokens user).toNat = lockedFor user l := by
    intro user
    exact (hl.locked user).trans (Nat.zero_add _)
  have htotal : (DepositTx.execAll txs .init).totalLocked.toNat = lockedBy l :=
    hl.total.trans (Nat.zero_add _)
  refine ⟨⟨?_, ?_, ?_, ?_⟩, fun app before after tx hreverts => ?_⟩
  · rw [hevents]
    exact huser
  · rw [htotal, finsum_congr huser, finsum_lockedFor]
  · rw [htotal, hl.balance]
    exact Nat.le_add_left _ _
  · exact DepositTx.execAll_locks txs .init
  · rw [DepositTx.execAll_append, DepositTx.execAll_append, DepositTx.execAll,
      DepositTx.exec_reverts hreverts]

end ZkSymbiotic
