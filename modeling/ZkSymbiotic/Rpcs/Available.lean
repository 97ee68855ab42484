import ZkSymbiotic.Rpcs.Panics

/-!
# Windows in every order of the answers

In which order the providers answer is not up to the host.  Some windows come out of some order, and
under which providers a window comes out of every order can be said without one.

* `Serves`                  the results that some order of the answers gives a query;
* `queryWithFallback_always_iff`   when every order gives one;
* `ConsensusHttpProxy.Reordered`   the same providers, who answer in another order;
* `prepare_available_iff`   the windows that some order gives, and when every order gives one.
-/

namespace ZkSymbiotic

/-! ## the first success -/

section
variable {P R : Type} (f : P → Except Failure R)

/-- with an error or a success from everyone, one success is enough -/
theorem selectOk_answers {results : List (Except Failure R)}
    (herror : ∀ failure, .error failure ∈ results → ∃ e, failure = .error e) {r : R}
    (h : .ok r ∈ results) : ∃ r', selectOk results = .ok r' := by
  induction results with
  | nil => cases h
  | cons result results ih =>
    cases results with
    | nil => exact ⟨r, (List.mem_singleton.mp h).symm⟩
    | cons next rest =>
      cases result with
      | ok r' => exact ⟨r', rfl⟩
      | error failure =>
        obtain ⟨e, rfl⟩ := herror failure List.mem_cons_self
        exact ih (fun failure hmem => herror failure (List.mem_cons_of_mem _ hmem))
          ((List.mem_cons.mp h).resolve_left nofun)

/-- the first answer decides, unless it is an error -/
theorem selectOk_cons_ok (r : R) (results : List (Except Failure R)) :
    selectOk (.ok r :: results) = .ok r := by
  cases results with
  | nil => rfl
  | cons _ _ => rfl

theorem selectOk_cons_panic (results : List (Except Failure R)) :
    selectOk (.error .panic :: results) = .error .panic := by
  cases results with
  | nil => rfl
  | cons _ _ => rfl

theorem timeout_eq_panic {secs : Nat} {x : Except Failure R} :
    timeout secs x = .error .panic ↔ x = .error .panic := by
  constructor
  · intro h
    by_contra hne
    exact timeout_ne_panic hne h
  · intro h
    rw [h]
    rfl

/-- what `select_ok` makes of the futures in this order -/
def race {providers : List P} (schedule : Shuffle providers) (secs : Nat) : Except Failure R :=
  selectOk (schedule.order.map fun provider => timeout secs (f provider))

/-- each success is the first in some order -/
theorem race_reaches_iff {providers : List P} (secs : Nat) {r : R} :
    (∃ schedule : Shuffle providers, race f schedule secs = .ok r) ↔
      ∃ provider ∈ providers, f provider = .ok r := by
  constructor
  · intro ⟨schedule, h⟩
    exact mem_of_selectOk f h
  · intro ⟨provider, hmem, hf⟩
    obtain ⟨schedule, rest, horder⟩ := Shuffle.exists_first hmem
    refine ⟨schedule, ?_⟩
    unfold race
    rw [horder, List.map_cons, timeout_eq_ok.mpr hf]
    exact selectOk_cons_ok r _

/-- every order has a success exactly where there is one and nothing panics before it -/
theorem race_always_iff {providers : List P} (secs : Nat) :
    (∀ schedule : Shuffle providers, ∃ r, race f schedule secs = .ok r) ↔
      (∃ provider ∈ providers, ∃ r, f provider = .ok r) ∧
      ∀ provider ∈ providers, f provider ≠ .error .panic := by
  constructor
  · intro h
    refine ⟨?_, fun provider hmem hpanic => ?_⟩
    · obtain ⟨r, hr⟩ := h (Shuffle.id providers)
      obtain ⟨provider, hmem, hf⟩ := mem_of_selectOk f hr
      exact ⟨provider, hmem, r, hf⟩
    · obtain ⟨schedule, rest, horder⟩ := Shuffle.exists_first hmem
      obtain ⟨r, hr⟩ := h schedule
      unfold race at hr
      rw [horder, List.map_cons, timeout_eq_panic.mpr hpanic, selectOk_cons_panic] at hr
      cases hr
  · intro ⟨⟨provider, hmem, r, hf⟩, hpanic⟩ schedule
    refine selectOk_answers (r := r) (fun failure hfailure => ?_) ?_
    · obtain ⟨provider', hmem', hfailure⟩ := List.mem_map.mp hfailure
      cases failure with
      | error e => exact ⟨e, rfl⟩
      | panic =>
        exact absurd (timeout_eq_panic.mp hfailure) (hpanic _ (schedule.mem_order.mp hmem'))
      | pending => exact absurd hfailure (timeout_ne_pending secs _)
    · exact List.mem_map.mpr ⟨provider, schedule.mem_order.mpr hmem, timeout_eq_ok.mpr hf⟩

/-! ## requests -/

theorem multiplex_eq_ok {providers : List P} {schedule : Shuffle providers} {secs : Nat} {r : R} :
    multiplex f providers schedule secs = .ok r ↔ race f schedule secs = .ok r := by
  unfold multiplex
  cases providers with
  | nil =>
    refine ⟨nofun, fun h => ?_⟩
    obtain ⟨_, hmem, _⟩ := mem_of_selectOk f h
    cases hmem
  | cons provider providers => exact Except.mapError_eq_ok

/-- the result is the principal provider's, or a backup's where the principal provider fails -/
inductive Serves (principal : P) (backups : List P) (r : R) : Prop
  | principal (answer : f principal = .ok r)
  | backup (failure : Failure) (fails : f principal = .error failure) (lives : failure ≠ .panic)
      (provider : P) (listed : provider ∈ backups) (answer : f provider = .ok r)

/-- where the principal provider fails the backups race -/
theorem queryWithFallback_race {principal : P} {failure : Failure}
    (hfails : f principal = .error failure) (hlives : failure ≠ .panic) {backups : List P}
    {schedule : Shuffle backups} {secs : Nat} {r : R} :
    queryWithFallback f principal backups schedule secs = .ok r ↔ race f schedule secs = .ok r := by
  rw [← multiplex_eq_ok]
  unfold queryWithFallback multiplex
  rw [hfails]
  cases backups with
  | nil =>
    cases failure with
    | error e => exact ⟨nofun, nofun⟩
    | panic => exact absurd rfl hlives
    | pending => exact ⟨nofun, nofun⟩
  | cons backup backups =>
    cases failure with
    | error e => exact Except.mapError_eq_ok.trans Except.mapError_eq_ok.symm
    | panic => exact absurd rfl hlives
    | pending => exact Except.mapError_eq_ok.trans Except.mapError_eq_ok.symm

theorem queryWithFallback_reaches_iff {principal : P} {backups : List P} (secs : Nat) {r : R} :
    (∃ schedule, queryWithFallback f principal backups schedule secs = .ok r) ↔
      Serves f principal backups r := by
  constructor
  · intro ⟨schedule, h⟩
    cases hf : f principal with
    | ok r' =>
      rw [queryWithFallback_principal f hf] at h
      exact .principal (hf.trans h)
    | error failure =>
      by_cases hlives : failure = .panic
      · subst hlives
        rw [queryWithFallback_panic hf] at h
        cases h
      · obtain ⟨provider, hmem, hanswer⟩ :=
          mem_of_selectOk f ((queryWithFallback_race f hf hlives).mp h)
        exact .backup failure hf hlives provider hmem hanswer
  · intro h
    cases h with
    | principal answer =>
      exact ⟨Shuffle.id backups, queryWithFallback_principal f answer _ _ _⟩
    | backup failure fails lives provider listed answer =>
      obtain ⟨schedule, h⟩ := (race_reaches_iff f secs).mpr ⟨provider, listed, answer⟩
      exact ⟨schedule, (queryWithFallback_race f fails lives).mpr h⟩

/-- every order gives a result exactly where some order does, and the principal provider answers or
no backup panics -/
theorem queryWithFallback_always_iff {principal : P} {backups : List P} (secs : Nat) :
    (∀ schedule, ∃ r, queryWithFallback f principal backups schedule secs = .ok r) ↔
      (∃ r, Serves f principal backups r) ∧
      ((∃ r, f principal = .ok r) ∨ ∀ provider ∈ backups, f provider ≠ .error .panic) := by
  cases hf : f principal with
  | ok r =>
    refine ⟨fun _ => ⟨⟨r, .principal hf⟩, .inl ⟨r, rfl⟩⟩, fun _ schedule => ⟨r, ?_⟩⟩
    exact queryWithFallback_principal f hf _ _ _
  | error failure =>
    by_cases hlives : failure = .panic
    · subst hlives
      have hnone : ¬ ∃ r, Serves f principal backups r := by
        rintro ⟨r, answer | ⟨failure, fails, lives, _⟩⟩
        · exact absurd (hf.symm.trans answer) nofun
        · exact lives (Except.error.inj (fails.symm.trans hf))
      refine ⟨fun h => ?_, fun h => absurd h.1 hnone⟩
      obtain ⟨r, hr⟩ := h (Shuffle.id backups)
      exact absurd ⟨r, (queryWithFallback_reaches_iff f secs).mp ⟨_, hr⟩⟩ hnone
    · simp only [queryWithFallback_race f hf hlives, race_always_iff]
      constructor
      · intro ⟨⟨provider, hmem, r, hanswer⟩, hpanic⟩
        exact ⟨⟨r, .backup failure hf hlives provider hmem hanswer⟩, .inr hpanic⟩
      · rintro ⟨⟨r, answer | ⟨_, _, _, provider, listed, answer⟩⟩, h⟩
        · exact absurd (hf.symm.trans answer) nofun
        · refine ⟨⟨provider, listed, r, answer⟩, h.resolve_left ?_⟩
          rintro ⟨r', h'⟩
          cases h'

end

/-! ## windows -/

section
variable {S : ConsensusSpec} (H : Helios S) (C : Crypto)

/-- the same providers, who answer in another order -/
inductive ConsensusHttpProxy.Reordered (self : ConsensusHttpProxy S) : ConsensusHttpProxy S → Prop
  | unset (providers : Shuffle self.allProviders) (missing : self.execution = none) :
      Reordered self { self with schedule := providers }
  | set (providers : Shuffle self.allProviders) (proxy : ExecutionHttpProxy)
      (present : self.execution = some proxy) (backups : Shuffle proxy.backupProviders) :
      Reordered self
        { self with
          schedule := providers
          execution := some { proxy with schedule := backups } }

/-- the order of the providers themselves is one of their orders -/
theorem ConsensusHttpProxy.Reordered.refl (self : ConsensusHttpProxy S) : self.Reordered self := by
  obtain ⟨env, allProviders, schedule, validationTimeout, execution⟩ := self
  cases execution with
  | none =>
    exact @Reordered.unset S ⟨env, allProviders, schedule, validationTimeout, none⟩ schedule rfl
  | some proxy =>
    exact @Reordered.set S ⟨env, allProviders, schedule, validationTimeout, some proxy⟩ schedule
      proxy rfl proxy.schedule

/-- the request to the execution providers that the inputs of a consensus provider lead to -/
structure ConsensusHttpProxy.Requests (asker : ConsensusHttpProxy S) (p : ConsensusProofInputs S)
    (proxy : ExecutionHttpProxy) (inputBlock outputBlock : UInt64) : Prop where
  present : asker.execution = some proxy
  inputBlock : p.store.finalizedHeader.blockNumber = some inputBlock
  outputBlock : (H.finalityUpdateHeader p.finalityUpdate).blockNumber = some outputBlock

theorem ConsensusHttpProxy.Requests.unique {self : ConsensusHttpProxy S}
    {p : ConsensusProofInputs S} {proxy proxy' : ExecutionHttpProxy}
    {inputBlock inputBlock' outputBlock outputBlock' : UInt64}
    (h : self.Requests H p proxy inputBlock outputBlock)
    (h' : self.Requests H p proxy' inputBlock' outputBlock') :
    proxy = proxy' ∧ inputBlock = inputBlock' ∧ outputBlock = outputBlock' :=
  ⟨Option.some.inj (h.present.symm.trans h'.present),
    Option.some.inj (h.inputBlock.symm.trans h'.inputBlock),
    Option.some.inj (h.outputBlock.symm.trans h'.outputBlock)⟩

/-- the window around a prediction and the inputs that an execution provider completed -/
def ConsensusProofOutputs.window (c : ConsensusProofOutputs)
    (inputSlot inputBlock outputBlock : UInt64) (out : ProofInputs S) :
    ProofInputsWithWindow S where
  inputSlot
  expectedOutputSlot := c.outputSlot
  inputBlockNumber := inputBlock
  expectedOutputBlockNumber := outputBlock
  proofInputs := out
  expectedOutputStoreHash := c.outputStoreHash

/-- a window that some execution provider completes the prediction to -/
def ConsensusHttpProxy.Completes (self : ConsensusHttpProxy S) (inputSlot : UInt64)
    (prediction : ConsensusProofInputs S × ConsensusProofOutputs) (w : ProofInputsWithWindow S) :
    Prop :=
  ∃ proxy inputBlock outputBlock out, self.Requests H prediction.1 proxy inputBlock outputBlock ∧
    Serves (ExecutionRpc.prepare H C proxy.address inputBlock outputBlock prediction.1)
      proxy.principalProvider proxy.backupProviders out ∧
    w = prediction.2.window inputSlot inputBlock outputBlock out

/-- the execution providers complete the inputs in every order -/
def ConsensusHttpProxy.AlwaysCompletes (self : ConsensusHttpProxy S) (p : ConsensusProofInputs S) :
    Prop :=
  ∃ proxy inputBlock outputBlock, self.Requests H p proxy inputBlock outputBlock ∧
    (∃ out, Serves (ExecutionRpc.prepare H C proxy.address inputBlock outputBlock p)
      proxy.principalProvider proxy.backupProviders out) ∧
    ((∃ out, proxy.principalProvider.prepare H C proxy.address inputBlock outputBlock p
        = .ok out) ∨
      ∀ provider ∈ proxy.backupProviders,
        provider.prepare H C proxy.address inputBlock outputBlock p ≠ .error .panic)

theorem ConsensusRpc.prepare_ne_panic (env : ChainEnv S) (inputSlot : UInt64) (storeHash : B256)
    (validate : Bool) (rpc : ConsensusRpc S) :
    rpc.prepare H env inputSlot storeHash validate ≠ .error .panic := by
  unfold ConsensusRpc.prepare
  by_cases ht : rpc.timely = true
  · rw [if_pos ht]
    exact mapError_ne_panic
  · rw [if_neg ht]
    exact nofun

theorem blockNumber_eq_some {header : LightClientHeader S} {n : UInt64} :
    header.blockNumber = some n ↔ ∃ execution, header.execution = some execution ∧
      execution.blockNumber = n :=
  Option.map_eq_some_iff

/-- **a prepared window**: the consensus providers raced to a prediction, the execution providers
completed it -/
theorem prepareConsensusMptProofInputs_eq_ok {self : ConsensusHttpProxy S} {inputSlot : UInt64}
    {storeHash : B256} {validate : Bool} {w : ProofInputsWithWindow S} :
    prepareConsensusMptProofInputs H C self inputSlot storeHash validate = .ok w ↔
      ∃ prediction, race (ConsensusRpc.prepare H self.env inputSlot storeHash validate)
          self.schedule self.validationTimeout = .ok prediction ∧
        ∃ proxy inputBlock outputBlock out,
          self.Requests H prediction.1 proxy inputBlock outputBlock ∧
          queryWithFallback
            (ExecutionRpc.prepare H C proxy.address inputBlock outputBlock prediction.1)
            proxy.principalProvider proxy.backupProviders proxy.schedule proxy.validationTimeout
              = .ok out ∧
          w = prediction.2.window inputSlot inputBlock outputBlock out := by
  constructor
  · intro h
    obtain ⟨⟨p, c⟩, hrace, h⟩ := Except.bind_eq_ok.mp h
    obtain ⟨inputExecution, hinput, h⟩ := Except.bind_eq_ok.mp h
    obtain ⟨outputExecution, houtput, h⟩ := Except.bind_eq_ok.mp h
    obtain ⟨proxy, hproxy, h⟩ := Except.bind_eq_ok.mp h
    obtain ⟨out, hout, h⟩ := Except.bind_eq_ok.mp h
    exact ⟨(p, c), (multiplex_eq_ok _).mp hrace, proxy, _, _, out,
      ⟨Except.okOr_eq_ok.mp hproxy,
        blockNumber_eq_some.mpr ⟨inputExecution, Except.okOr_eq_ok.mp hinput, rfl⟩,
        blockNumber_eq_some.mpr ⟨outputExecution, Except.okOr_eq_ok.mp houtput, rfl⟩⟩,
      hout, (Except.pure_eq_ok.mp h).symm⟩
  · rintro ⟨⟨p, c⟩, hrace, proxy, inputBlock, outputBlock, out, ⟨hproxy, hinput, houtput⟩, hout,
      rfl⟩
    obtain ⟨inputExecution, hin, rfl⟩ := blockNumber_eq_some.mp hinput
    obtain ⟨outputExecution, hto, rfl⟩ := blockNumber_eq_some.mp houtput
    exact Except.bind_eq_ok.mpr ⟨(p, c), (multiplex_eq_ok _).mpr hrace,
      Except.bind_eq_ok.mpr ⟨inputExecution, Except.okOr_eq_ok.mpr hin,
        Except.bind_eq_ok.mpr ⟨outputExecution, Except.okOr_eq_ok.mpr hto,
          Except.bind_eq_ok.mpr ⟨proxy, Except.okOr_eq_ok.mpr hproxy,
            Except.bind_eq_ok.mpr ⟨out, hout, rfl⟩⟩⟩⟩⟩

section
variable {H C} {self self' : ConsensusHttpProxy S} {inputSlot : UInt64} {storeHash : B256}
  {validate : Bool}

/-- one order: the prediction of one of the providers and a window that completes it -/
theorem ConsensusHttpProxy.Reordered.sound (h : self.Reordered self') {w : ProofInputsWithWindow S}
    (hw : prepareConsensusMptProofInputs H C self' inputSlot storeHash validate = .ok w) :
    ∃ rpc ∈ self.allProviders, ∃ prediction,
      rpc.prepare H self.env inputSlot storeHash validate = .ok prediction ∧
      self.Completes H C inputSlot prediction w := by
  obtain ⟨prediction, hrace, proxy', inputBlock, outputBlock, out, ⟨hproxy, hinput, houtput⟩, hout,
    rfl⟩ := (prepareConsensusMptProofInputs_eq_ok H C).mp hw
  cases h with
  | unset providers missing => exact absurd (missing.symm.trans hproxy) nofun
  | set providers proxy present backups =>
    obtain ⟨rpc, hmem, hrpc⟩ := (race_reaches_iff _ _).mp ⟨providers, hrace⟩
    obtain rfl := Option.some.inj hproxy
    exact ⟨rpc, hmem, prediction, hrpc, proxy, inputBlock, outputBlock, out,
      ⟨present, hinput, houtput⟩, (queryWithFallback_reaches_iff _ _).mp ⟨backups, hout⟩, rfl⟩

/-- each prediction is the first in some order -/
theorem ConsensusHttpProxy.exists_prediction {rpc : ConsensusRpc S}
    (hmem : rpc ∈ self.allProviders)
    {prediction : ConsensusProofInputs S × ConsensusProofOutputs}
    (hrpc : rpc.prepare H self.env inputSlot storeHash validate = .ok prediction) :
    ∃ providers : Shuffle self.allProviders,
      race (ConsensusRpc.prepare H self.env inputSlot storeHash validate) providers
        self.validationTimeout = .ok prediction :=
  (race_reaches_iff _ self.validationTimeout).mpr ⟨rpc, hmem, hrpc⟩

/-- each completion of a prediction is the outcome of some order -/
theorem ConsensusHttpProxy.Completes.reached {rpc : ConsensusRpc S} (hmem : rpc ∈ self.allProviders)
    {prediction : ConsensusProofInputs S × ConsensusProofOutputs}
    (hrpc : rpc.prepare H self.env inputSlot storeHash validate = .ok prediction)
    {w : ProofInputsWithWindow S} (h : self.Completes H C inputSlot prediction w) :
    ∃ self', self.Reordered self' ∧
      prepareConsensusMptProofInputs H C self' inputSlot storeHash validate = .ok w := by
  obtain ⟨proxy, inputBlock, outputBlock, out, hrequests, hserves, rfl⟩ := h
  obtain ⟨providers, hrace⟩ := exists_prediction hmem hrpc
  obtain ⟨backups, hout⟩ := (queryWithFallback_reaches_iff _ proxy.validationTimeout).mpr hserves
  exact ⟨_, .set providers proxy hrequests.present backups,
    (prepareConsensusMptProofInputs_eq_ok H C).mpr ⟨prediction, hrace, _, inputBlock, outputBlock,
      out, ⟨rfl, hrequests.inputBlock, hrequests.outputBlock⟩, hout, rfl⟩⟩

/-- where every order gives a window there is an execution proxy, and a prediction -/
theorem ConsensusHttpProxy.prediction_of_always
    (h : ∀ self', self.Reordered self' →
      ∃ w, prepareConsensusMptProofInputs H C self' inputSlot storeHash validate = .ok w) :
    (∃ proxy, self.execution = some proxy) ∧ ∃ rpc ∈ self.allProviders, ∃ prediction,
      rpc.prepare H self.env inputSlot storeHash validate = .ok prediction := by
  have horder : ∃ self', self.Reordered self' := by
    cases hexec : self.execution with
    | none => exact ⟨_, .unset (Shuffle.id _) hexec⟩
    | some proxy => exact ⟨_, .set (Shuffle.id _) proxy hexec (Shuffle.id _)⟩
  obtain ⟨self', horder⟩ := horder
  obtain ⟨w, hw⟩ := h self' horder
  obtain ⟨rpc, hmem, prediction, hrpc, proxy, _, _, _, hrequests, _⟩ := horder.sound hw
  exact ⟨⟨proxy, hrequests.present⟩, rpc, hmem, prediction, hrpc⟩

/-- where every order gives a window each prediction is always completed: its provider comes first,
and then every order of the backups gives a window -/
theorem ConsensusHttpProxy.alwaysCompletes
    (h : ∀ self', self.Reordered self' →
      ∃ w, prepareConsensusMptProofInputs H C self' inputSlot storeHash validate = .ok w)
    {rpc : ConsensusRpc S} (hmem : rpc ∈ self.allProviders)
    {prediction : ConsensusProofInputs S × ConsensusProofOutputs}
    (hrpc : rpc.prepare H self.env inputSlot storeHash validate = .ok prediction) :
    self.AlwaysCompletes H C prediction.1 := by
  obtain ⟨⟨proxy, hproxy⟩, _⟩ := prediction_of_always h
  obtain ⟨providers, hrace⟩ := exists_prediction hmem hrpc
  have hcompletes : ∀ backups : Shuffle proxy.backupProviders, ∃ inputBlock outputBlock,
      self.Requests H prediction.1 proxy inputBlock outputBlock ∧ ∃ out, queryWithFallback
        (ExecutionRpc.prepare H C proxy.address inputBlock outputBlock prediction.1)
        proxy.principalProvider proxy.backupProviders backups proxy.validationTimeout
          = .ok out := by
    intro backups
    obtain ⟨w, hw⟩ := h _ (.set providers proxy hproxy backups)
    obtain ⟨prediction', hrace', proxy', inputBlock, outputBlock, out, ⟨hproxy', hin, hto⟩, hout,
      _⟩ := (prepareConsensusMptProofInputs_eq_ok H C).mp hw
    obtain rfl := Option.some.inj hproxy'
    obtain rfl := Except.ok.inj (hrace.symm.trans hrace')
    exact ⟨inputBlock, outputBlock, ⟨hproxy, hin, hto⟩, out, hout⟩
  obtain ⟨inputBlock, outputBlock, hrequests, _⟩ := hcompletes (Shuffle.id _)
  refine ⟨proxy, inputBlock, outputBlock, hrequests,
    (queryWithFallback_always_iff _ proxy.validationTimeout).mp fun backups => ?_⟩
  obtain ⟨inputBlock', outputBlock', hrequests', hout⟩ := hcompletes backups
  obtain ⟨_, rfl, rfl⟩ := hrequests.unique H hrequests'
  exact hout

/-- and where a provider predicts and each prediction is always completed, every order gives a
window -/
theorem ConsensusHttpProxy.always_prepares
    (hsome : ∃ rpc ∈ self.allProviders, ∃ prediction,
      rpc.prepare H self.env inputSlot storeHash validate = .ok prediction)
    (hall : ∀ rpc ∈ self.allProviders, ∀ prediction,
      rpc.prepare H self.env inputSlot storeHash validate = .ok prediction →
      self.AlwaysCompletes H C prediction.1)
    (h : self.Reordered self') :
    ∃ w, prepareConsensusMptProofInputs H C self' inputSlot storeHash validate = .ok w := by
  have hrace := (race_always_iff _ self.validationTimeout).mpr
    ⟨hsome, fun rpc _ => rpc.prepare_ne_panic H self.env inputSlot storeHash validate⟩
  cases h with
  | unset providers missing =>
    obtain ⟨rpc, hmem, prediction, hrpc⟩ := hsome
    obtain ⟨_, _, _, hrequests, _⟩ := hall rpc hmem prediction hrpc
    exact absurd (missing.symm.trans hrequests.present) nofun
  | set providers proxy present backups =>
    obtain ⟨prediction, hprediction⟩ := hrace providers
    obtain ⟨rpc, hmem, hrpc⟩ := (race_reaches_iff _ _).mp ⟨providers, hprediction⟩
    obtain ⟨proxy', inputBlock, outputBlock, hrequests, halways⟩ := hall rpc hmem prediction hrpc
    obtain rfl := Option.some.inj (present.symm.trans hrequests.present)
    obtain ⟨out, hout⟩ :=
      (queryWithFallback_always_iff _ proxy.validationTimeout).mpr halways backups
    exact ⟨_, (prepareConsensusMptProofInputs_eq_ok H C).mpr ⟨prediction, hprediction, _,
      inputBlock, outputBlock, out, ⟨rfl, hrequests.inputBlock, hrequests.outputBlock⟩, hout, rfl⟩⟩

end

/-- **Which windows the host can prepare, over every order of the answers.**  Some order gives a
window exactly if it completes the prediction of one of the consensus providers.  Every order gives
one exactly if a consensus provider predicts, and whatever any of them predicts is completed in every
order. -/
theorem prepare_available_iff (self : ConsensusHttpProxy S) (inputSlot : UInt64) (storeHash : B256)
    (validate : Bool) :
    (∀ w, (∃ self', self.Reordered self' ∧
        prepareConsensusMptProofInputs H C self' inputSlot storeHash validate = .ok w) ↔
      ∃ rpc ∈ self.allProviders, ∃ prediction,
        rpc.prepare H self.env inputSlot storeHash validate = .ok prediction ∧
        self.Completes H C inputSlot prediction w) ∧
    ((∀ self', self.Reordered self' →
        ∃ w, prepareConsensusMptProofInputs H C self' inputSlot storeHash validate = .ok w) ↔
      (∃ rpc ∈ self.allProviders, ∃ prediction,
        rpc.prepare H self.env inputSlot storeHash validate = .ok prediction) ∧
      ∀ rpc ∈ self.allProviders, ∀ prediction,
        rpc.prepare H self.env inputSlot storeHash validate = .ok prediction →
        self.AlwaysCompletes H C prediction.1) := by
  refine ⟨fun w => ⟨?_, ?_⟩, fun h => ⟨?_, ?_⟩, ?_⟩
  · intro ⟨self', horder, hw⟩
    exact horder.sound hw
  · intro ⟨rpc, hmem, prediction, hrpc, hcompletes⟩
    exact hcompletes.reached hmem hrpc
  · exact (ConsensusHttpProxy.prediction_of_always h).2
  · intro rpc hmem prediction hrpc
    exact ConsensusHttpProxy.alwaysCompletes h hmem hrpc
  · intro ⟨hsome, hall⟩ self' horder
    exact ConsensusHttpProxy.always_prepares hsome hall horder

end

end ZkSymbiotic
