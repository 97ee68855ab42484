import ZkSymbiotic.Consensus
import ZkSymbiotic.Lib.Shuffle

/-!
# Requests over several providers

`multiplex` asks all providers at once and takes the first success; `queryWithFallback` asks the
principal provider first.  In which order the futures complete is up to the environment, and so is
which of them are still running when their timeout fires (`Failure.pending`).

* `multiplex_ok`, `queryWithFallback_ok`   a result is the result of one of the providers;
* `multiplex_ne_pending`, `queryWithFallback_ne_pending`   the timeouts end every query.
-/

namespace ZkSymbiotic

/-- an `anyhow` error: a text, a program error, or a text in front of another error -/
inductive Error where
  | msg (text : String)
  | program (error : ProgramError)
  | context (text : String) (cause : Error)
deriving DecidableEq

/-- how a future fails: with an error, by a panic, or not at all before its timeout -/
inductive Failure where
  | error (error : Error)
  | panic
  | pending
deriving DecidableEq

def Failure.context (text : String) : Failure → Failure
  | .error cause => .error (.context text cause)
  | .panic => .panic
  | .pending => .pending

section
variable {P R : Type}

/-- `{:?}` of a duration in seconds -/
def debugSecs (secs : Nat) : String := if secs = 0 then "0ns" else s!"{secs}s"

def timeout (secs : Nat) : Except Failure R → Except Failure R
  | .error .pending => .error (.error (.msg s!"Provider timed out after {debugSecs secs}"))
  | result => result

/-- `select_ok` over results in the order in which they come in: the first success, else the last
error; a panic unwinds at once, and there has to be a future -/
def selectOk : List (Except Failure R) → Except Failure R
  | [] => .error .panic
  | [result] => result
  | .ok result :: _ => .ok result
  | .error (.error _) :: results => selectOk results
  | .error failure :: _ => .error failure

variable (f : P → Except Failure R)

def multiplex (providers : List P) (schedule : Shuffle providers) (timeoutDuration : Nat) :
    Except Failure R :=
  if providers.isEmpty then .error (.error (.msg "No providers available."))
  else (selectOk (schedule.order.map fun client => timeout timeoutDuration (f client))).mapError
    (Failure.context "All multiplexed requests failed: ")

def queryWithFallback (principalProvider : P) (backupProviders : List P)
    (schedule : Shuffle backupProviders) (timeoutDuration : Nat) : Except Failure R :=
  match f principalProvider with
  | .ok result => .ok result
  | .error .panic => .error .panic
  | .error _ =>
    if backupProviders.isEmpty then
      .error (.error (.msg "Principal provider failed and no backups available."))
    else
      (selectOk (schedule.order.map fun provider => timeout timeoutDuration (f provider))).mapError
        (Failure.context "All backups failed: ")

/-! ## where a result comes from -/

theorem timeout_eq_ok {secs : Nat} {x : Except Failure R} {r : R} :
    timeout secs x = .ok r ↔ x = .ok r := by
  cases x with
  | ok r' => exact Iff.rfl
  | error failure =>
    cases failure with
    | error e => exact Iff.rfl
    | panic => exact Iff.rfl
    | pending =>
      refine ⟨fun h => ?_, fun h => ?_⟩
      · cases h
      · cases h

theorem selectOk_ok {results : List (Except Failure R)} {r : R} (h : selectOk results = .ok r) :
    .ok r ∈ results := by
  induction results with
  | nil => cases h
  | cons result results ih =>
    cases results with
    | nil => exact List.mem_singleton.mpr h.symm
    | cons next rest =>
      cases result with
      | ok r' =>
        obtain rfl : r' = r := Except.ok.inj h
        exact List.mem_cons_self
      | error failure =>
        cases failure with
        | error e => exact List.mem_cons_of_mem _ (ih h)
        | panic => cases h
        | pending => cases h

theorem mem_of_selectOk {providers : List P} {schedule : Shuffle providers} {secs : Nat} {r : R}
    (h : selectOk (schedule.order.map fun client => timeout secs (f client)) = .ok r) :
    ∃ provider ∈ providers, f provider = .ok r := by
  obtain ⟨provider, hmem, hf⟩ := List.mem_map.mp (selectOk_ok h)
  exact ⟨provider, schedule.mem_order.mp hmem, timeout_eq_ok.mp hf⟩

/-- a multiplexed result is the result of one provider -/
theorem multiplex_ok {providers : List P} {schedule : Shuffle providers} {secs : Nat} {r : R}
    (h : multiplex f providers schedule secs = .ok r) :
    ∃ provider ∈ providers, f provider = .ok r := by
  unfold multiplex at h
  by_cases he : providers.isEmpty = true
  · rw [if_pos he] at h
    cases h
  · rw [if_neg he] at h
    exact mem_of_selectOk f (Except.mapError_eq_ok.mp h)

/-- a single provider's success is the result -/
theorem multiplex_single {provider : P} {r : R} (h : f provider = .ok r) (secs : Nat) :
    multiplex f [provider] (Shuffle.id _) secs = .ok r := by
  show Except.mapError (Failure.context "All multiplexed requests failed: ")
    (timeout secs (f provider)) = _
  rw [h]
  rfl

/-- a query ends as its principal provider does, without a backup, or as the backups do -/
theorem queryWithFallback_cases (principal : P) (backups : List P) (schedule : Shuffle backups)
    (secs : Nat) :
    queryWithFallback f principal backups schedule secs = f principal ∧
        f principal ≠ .error .pending ∨
      (∃ e, queryWithFallback f principal backups schedule secs = .error (.error e)) ∨
      backups ≠ [] ∧ queryWithFallback f principal backups schedule secs
        = (selectOk (schedule.order.map fun provider => timeout secs (f provider))).mapError
          (Failure.context "All backups failed: ") := by
  have hbackup : ∀ failure, failure ≠ Failure.panic → f principal = .error failure →
      queryWithFallback f principal backups schedule secs = if backups.isEmpty then
        .error (.error (.msg "Principal provider failed and no backups available."))
      else (selectOk (schedule.order.map fun provider => timeout secs (f provider))).mapError
        (Failure.context "All backups failed: ") := by
    intro failure hne hf
    unfold queryWithFallback
    rw [hf]
    cases failure with
    | error e => rfl
    | panic => exact absurd rfl hne
    | pending => rfl
  cases hf : f principal with
  | ok r =>
    refine .inl ⟨?_, nofun⟩
    unfold queryWithFallback
    rw [hf]
  | error failure =>
    by_cases hpanic : failure = .panic
    · subst hpanic
      refine .inl ⟨?_, nofun⟩
      unfold queryWithFallback
      rw [hf]
    · rw [hbackup failure hpanic hf]
      cases backups with
      | nil => exact .inr (.inl ⟨_, rfl⟩)
      | cons backup backups => exact .inr (.inr ⟨List.cons_ne_nil _ _, rfl⟩)

/-- the result of a query is the result of the principal provider or of a backup -/
theorem queryWithFallback_ok {principal : P} {backups : List P} {schedule : Shuffle backups}
    {secs : Nat} {r : R} (h : queryWithFallback f principal backups schedule secs = .ok r) :
    ∃ provider ∈ principal :: backups, f provider = .ok r := by
  rcases queryWithFallback_cases f principal backups schedule secs with
    ⟨hq, _⟩ | ⟨e, hq⟩ | ⟨_, hq⟩
  · exact ⟨principal, List.mem_cons_self, hq ▸ h⟩
  · rw [hq] at h
    cases h
  · rw [hq] at h
    obtain ⟨provider, hmem, hf⟩ := mem_of_selectOk f (Except.mapError_eq_ok.mp h)
    exact ⟨provider, List.mem_cons_of_mem _ hmem, hf⟩

/-- the principal provider's success is the result -/
theorem queryWithFallback_principal {principal : P} {r : R} (h : f principal = .ok r)
    (backups : List P) (schedule : Shuffle backups) (secs : Nat) :
    queryWithFallback f principal backups schedule secs = .ok r := by
  unfold queryWithFallback
  rw [h]

/-! ## every query ends -/

theorem timeout_ne_pending (secs : Nat) (x : Except Failure R) :
    timeout secs x ≠ .error .pending := by
  cases x with
  | ok r => exact nofun
  | error failure =>
    cases failure with
    | error e => exact nofun
    | panic => exact nofun
    | pending => exact nofun

/-- the last error is one of the futures' own; without futures there is a panic -/
theorem selectOk_error {results : List (Except Failure R)} {failure : Failure}
    (h : selectOk results = .error failure) :
    results = [] ∧ failure = .panic ∨ .error failure ∈ results := by
  induction results with
  | nil => exact .inl ⟨rfl, (Except.error.inj h).symm⟩
  | cons result results ih =>
    refine .inr ?_
    cases results with
    | nil => exact List.mem_singleton.mpr h.symm
    | cons next rest =>
      cases result with
      | ok r => cases h
      | error failure' =>
        cases failure' with
        | error e =>
          rcases ih h with ⟨hnil, _⟩ | hmem
          · exact absurd hnil (List.cons_ne_nil next rest)
          · exact List.mem_cons_of_mem _ hmem
        | panic => exact Except.error.inj h ▸ List.mem_cons_self
        | pending => exact Except.error.inj h ▸ List.mem_cons_self

/-- the first success of futures with timeouts, with a text in front of the last error -/
theorem selectOk_timeout_ne_pending {providers : List P} (secs : Nat) (text : String) :
    (selectOk (providers.map fun client => timeout secs (f client))).mapError
      (Failure.context text) ≠ .error .pending := by
  intro h
  obtain ⟨failure, hfailure, hcontext⟩ := Except.mapError_eq_error.mp h
  cases failure with
  | error e => cases hcontext
  | panic => cases hcontext
  | pending =>
    rcases selectOk_error hfailure with ⟨_, hpanic⟩ | hmem
    · cases hpanic
    · obtain ⟨client, _, hclient⟩ := List.mem_map.mp hmem
      exact timeout_ne_pending secs (f client) hclient

theorem multiplex_ne_pending {providers : List P} {schedule : Shuffle providers} {secs : Nat} :
    multiplex f providers schedule secs ≠ .error .pending := by
  unfold multiplex
  by_cases he : providers.isEmpty = true
  · rw [if_pos he]
    exact nofun
  · rw [if_neg he]
    exact selectOk_timeout_ne_pending f secs _

theorem queryWithFallback_ne_pending {principal : P} {backups : List P}
    {schedule : Shuffle backups} {secs : Nat} :
    queryWithFallback f principal backups schedule secs ≠ .error .pending := by
  rcases queryWithFallback_cases f principal backups schedule secs with
    ⟨hq, hne⟩ | ⟨e, hq⟩ | ⟨_, hq⟩
  · rw [hq]
    exact hne
  · rw [hq]
    exact nofun
  · rw [hq]
    exact selectOk_timeout_ne_pending f secs _

end

end ZkSymbiotic
