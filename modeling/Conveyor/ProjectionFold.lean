import Conveyor.Library.Register
import Conveyor.Projection

/-!
# What the projection folds

The fields of the loop of `rebuild` in terms of the ledger alone. The state, the feature
and the gate are registers that events write to; the entry of a transaction has the state
its last event put it in and the feature its start named; a feature is integrated when a
completed milestone integration names it. `FoldStep` says once what a pass of the loop
does, and `Folded` what the loop has computed.
-/

namespace Conveyor

open Library EventType

/-! ### What an event writes -/

/-- The state of the project that an event names. -/
def stateNamed (event : LedgerEvent) : Option Json :=
  match event.eventType with
  | transactionStarted => some (.str (WORKFLOW_ACTIVE_STATE event.workflowType))
  | humanGateRaised => some (.str "human_decision_required")
  | transactionBlocked | transactionSuperseded | transactionCompleted =>
      event.payload.get? "next_state"
  | projectionUpdated => event.payload.get? "current_state"
  | _ => none

/-- The current feature that an event names. -/
def featureNamed (event : LedgerEvent) : Option Json :=
  match event.eventType with
  | transactionStarted =>
      if (event.payload.get "feature_id").truthy then some (event.payload.get "feature_id")
      else none
  | transactionCompleted => event.payload.get? "feature_id"
  | projectionUpdated => event.payload.get? "current_feature"
  | _ => none

/-- The gate that an event shows, or that it takes down. -/
def gateNamed (event : LedgerEvent) : Option Json :=
  match event.eventType with
  | humanGateRaised => some (firstTruthy [event.payload.get "gate", .obj event.payload])
  | humanGateResolved => some .null
  | transactionCompleted => event.payload.get? "human_merge_gate"
  | _ => none

/-- The state that an event puts its transaction in. -/
def viewStateNamed (event : LedgerEvent) : Option Json :=
  match event.eventType with
  | transactionStarted => some (.str "lease_pending")
  | leaseAcquired | snapshotCaptured => some (.str "active")
  | sessionLaunched | deterministicExecutionStarted => some (.str "result_pending")
  | sessionResultAccepted | deterministicResultAccepted | validationStarted =>
      some (.str "validating")
  | validationPassed | commitFinalized => some (.str "finalizing")
  | humanGateRaised => some (.str "human_decision_required")
  | transactionBlocked => some (event.payload.getD "terminal_state" (.str "blocked"))
  | transactionSuperseded => some (.str "superseded")
  | transactionCompleted => some (.str "completed")
  | _ => none

/-- A start that is no part of an import: imported facts end with it. -/
def isCanonicalStart (event : LedgerEvent) : Prop :=
  event.eventType = transactionStarted ∧ (event.payload.get "legacy_import").truthy = false ∧
    (event.payload.get "migration_batch").truthy = false

instance (event : LedgerEvent) : Decidable (isCanonicalStart event) := instDecidableAnd

/-- The imported facts an event brings. -/
def factsNamed (event : LedgerEvent) : Fields :=
  if event.eventType = projectionUpdated then
    match event.payload.get "projection_facts" with
    | .obj facts => facts
    | _ => []
  else []

/-- The imported facts in force after an event. -/
def factsAfter (facts : Fields) (event : LedgerEvent) : Fields :=
  if isCanonicalStart event then [] else facts.update (factsNamed event)

def isIntegration (event : LedgerEvent) : Prop :=
  event.eventType = transactionCompleted ∧ event.workflowType = .milestoneIntegration

instance (event : LedgerEvent) : Decidable (isIntegration event) := instDecidableAnd

/-- The feature that a completed integration of a transaction with this feature integrates. -/
def integratedFeature (featureId : Json) (event : LedgerEvent) : Json :=
  firstTruthy [event.payload.get "feature_id", featureId]

/-! ### One pass of the loop -/

/-- What a pass of the loop does to its state. -/
structure FoldStep (s : ProjectionState) (event : LedgerEvent) (t : ProjectionState) : Prop where
  state : t.currentState = (stateNamed event).getD s.currentState
  feature : t.currentFeature = (featureNamed event).getD s.currentFeature
  gate : t.humanGate = (gateNamed event).getD s.humanGate
  facts : t.projectionFacts = factsAfter s.projectionFacts event
  integrated : ∀ key, key ∈ t.integratedFeatures ↔ key ∈ s.integratedFeatures ∨
    isIntegration event ∧
      (integratedFeature (viewOf s event).featureId event).truthy = true ∧
      hashKey (integratedFeature (viewOf s event).featureId event) = .ok key
  outcomes : t.historicalIntegrationOutcomes = s.historicalIntegrationOutcomes ∧
      ¬isIntegration event ∨
    ∃ outcome, integrationOutcome event = .ok outcome ∧ isIntegration event ∧
      t.historicalIntegrationOutcomes = s.historicalIntegrationOutcomes ++ [outcome]
  views : ∃ view : TransactionView,
    (∀ transactionId, t.transactions.get? transactionId =
      if transactionId = event.transactionId then some view
      else s.transactions.get? transactionId) ∧
    view.transactionId = event.transactionId ∧
    view.state = (viewStateNamed event).getD (viewOf s event).state ∧
    view.featureId = (if event.eventType = transactionStarted then event.payload.get "feature_id"
      else (viewOf s event).featureId)
  distinct : s.transactions.keys.Nodup → t.transactions.keys.Nodup

variable {s t : ProjectionState} {event : LedgerEvent} {view : TransactionView}

/-- The entry of a transaction bears its identifier. -/
def Keyed (s : ProjectionState) : Prop :=
  ∀ transactionId view, s.transactions.get? transactionId = some view →
    view.transactionId = transactionId

theorem viewOf_transactionId (hkeyed : Keyed s) (event : LedgerEvent) :
    (viewOf s event).transactionId = event.transactionId := by
  cases hfound : s.transactions.get? event.transactionId with
  | none => simp [viewOf, hfound, TransactionView.created]
  | some view => simp [viewOf, hfound, hkeyed _ _ hfound]

/-- The entry that a pass leaves: the last one put under its transaction. -/
structure Put (s : ProjectionState) (event : LedgerEvent) (t : ProjectionState)
    (view : TransactionView) : Prop where
  get : ∀ transactionId, t.transactions.get? transactionId =
    if transactionId = event.transactionId then some view
    else s.transactions.get? transactionId
  key : view.transactionId = event.transactionId
  distinct : s.transactions.keys.Nodup → t.transactions.keys.Nodup

theorem put_viewOf (hkeyed : Keyed s) (ht : t.transactions = (s.put (viewOf s event)).transactions) :
    Put s event t (viewOf s event) where
  get transactionId := by
    rw [ht, ProjectionState.put, Dict.get?_insert, viewOf_transactionId hkeyed]
  key := viewOf_transactionId hkeyed event
  distinct h := by
    rw [ht]
    exact Dict.nodup_keys_insert h _ _

theorem put_put (hkeyed : Keyed s)
    (ht : t.transactions = ((s.put (viewOf s event)).put view).transactions)
    (hkey : view.transactionId = (viewOf s event).transactionId) :
    Put s event t view where
  get transactionId := by
    rw [ht]
    simp only [ProjectionState.put, Dict.get?_insert, hkey, viewOf_transactionId hkeyed]
    split <;> rfl
  key := hkey.trans (viewOf_transactionId hkeyed event)
  distinct h := by
    rw [ht]
    exact Dict.nodup_keys_insert (Dict.nodup_keys_insert h _ _) _ _

/-- A pass that changes nothing but its transaction's entry. -/
theorem foldStep_of_put (hput : Put s event t view) (hstate : stateNamed event = none)
    (hfeature : featureNamed event = none) (hgate : gateNamed event = none)
    (hkinds : event.eventType ≠ transactionStarted ∧ event.eventType ≠ projectionUpdated ∧
      event.eventType ≠ transactionCompleted)
    (hview : view.state = (viewStateNamed event).getD (viewOf s event).state)
    (hid : view.featureId = (viewOf s event).featureId)
    (hsame : t = { s with transactions := t.transactions, warnings := t.warnings }) :
    FoldStep s event t where
  state := by rw [hstate, hsame, Option.getD_none]
  feature := by rw [hfeature, hsame, Option.getD_none]
  gate := by rw [hgate, hsame, Option.getD_none]
  facts := by
    rw [factsAfter, if_neg fun h => hkinds.1 h.1, factsNamed, if_neg hkinds.2.1, hsame]
    rfl
  integrated key := by
    rw [hsame]
    exact ⟨Or.inl, fun h => h.resolve_right fun h => hkinds.2.2 h.1.1⟩
  outcomes := by
    rw [hsame]
    exact Or.inl ⟨rfl, fun h => hkinds.2.2 h.1⟩
  views := ⟨view, hput.get, hput.key, hview, by rw [if_neg hkinds.1, hid]⟩
  distinct := hput.distinct

/-- The entry of a transaction that has just started. -/
def startedView (s : ProjectionState) (event : LedgerEvent) : TransactionView :=
  { viewOf s event with
    state := .str "lease_pending"
    featureId := event.payload.get "feature_id"
    milestone := event.payload.get "milestone"
    runId := event.payload.get "run_id" }

theorem foldStarted_step (hkeyed : Keyed s) (hkind : event.eventType = transactionStarted)
    (h : foldStarted (s.put (viewOf s event)) (viewOf s event) event = .ok t) :
    FoldStep s event t := by
  have hnone : ¬isIntegration event := fun h => absurd (hkind.symm.trans h.1) (by decide)
  have hfacts : (if ((event.payload.get "legacy_import").truthy ||
      (event.payload.get "migration_batch").truthy) = true then s.projectionFacts else []) =
        factsAfter s.projectionFacts event := by
    simp only [factsAfter, factsNamed, isCanonicalStart, hkind]
    cases (event.payload.get "legacy_import").truthy <;>
      cases (event.payload.get "migration_batch").truthy <;> rfl
  have hput (t : ProjectionState) (ht : t.transactions =
      ((s.put (viewOf s event)).put (startedView s event)).transactions) :
      Put s event t (startedView s event) := put_put hkeyed ht rfl
  simp only [foldStarted, pure, Except.pure] at h
  split at h
  · rename_i hfeature
    simp only [bind_eq_ok, Except.ok.injEq] at h
    obtain ⟨commit, -, integrated, -, rfl⟩ := h
    have hput := hput _ rfl
    refine ⟨?_, ?_, ?_, hfacts, fun key => ?_, Or.inl ⟨rfl, hnone⟩,
      ⟨_, hput.get, hput.key, ?_, ?_⟩, hput.distinct⟩
    · simp only [stateNamed, hkind]
      rfl
    · simp only [featureNamed, hkind, hfeature]
      rfl
    · simp only [gateNamed, hkind]
      rfl
    · exact ⟨Or.inl, fun h => h.resolve_right fun h => hnone h.1⟩
    · simp only [viewStateNamed, hkind]
      rfl
    · rw [if_pos hkind]
      rfl
  · rename_i hfeature
    simp only [Except.ok.injEq] at h
    subst h
    have hput := hput _ rfl
    refine ⟨?_, ?_, ?_, hfacts, fun key => ?_, Or.inl ⟨rfl, hnone⟩,
      ⟨_, hput.get, hput.key, ?_, ?_⟩, hput.distinct⟩
    · simp only [stateNamed, hkind]
      rfl
    · simp only [featureNamed, hkind, hfeature]
      rfl
    · simp only [gateNamed, hkind]
      rfl
    · exact ⟨Or.inl, fun h => h.resolve_right fun h => hnone h.1⟩
    · simp only [viewStateNamed, hkind]
      rfl
    · rw [if_pos hkind]
      rfl

/-- The set of integrated features after a completed event. -/
theorem addIntegrated_eq_ok {features added : List Json} {feature : Json}
    (h : addIntegrated features feature = .ok added) (key : Json) :
    key ∈ added ↔ key ∈ features ∨ feature.truthy = true ∧ hashKey feature = .ok key := by
  unfold addIntegrated at h
  split at h
  · rename_i htruthy
    simp only [bind_eq_ok, pure, Except.pure, Except.ok.injEq] at h
    obtain ⟨found, hfound, rfl⟩ := h
    rw [List.mem_cons, hfound, htruthy, Except.ok.injEq, or_comm, eq_comm]
    simp
  · rename_i htruthy
    cases h
    simp [htruthy]

/-- The entry of a transaction that has just completed. -/
def completedView (s : ProjectionState) (event : LedgerEvent) : TransactionView :=
  { viewOf s event with
    state := .str "completed"
    terminalClassification := event.payload.get "classification"
    terminalReference := event.payload.get "reference"
    terminalSnapshot := event.payload.get "terminal_snapshot" }

/-- A pass over a completion but for the history of integrations. -/
theorem foldCompleted_routing (hkeyed : Keyed s) (hkind : event.eventType = transactionCompleted)
    {commits : List (Json × Json)} (ht : t = { completeRouting
      ((s.put (viewOf s event)).put (completedView s event)) event.payload with
        featureCommits := commits
        integratedFeatures := t.integratedFeatures
        historicalIntegrationOutcomes := t.historicalIntegrationOutcomes })
    (hintegrated : ∀ key, key ∈ t.integratedFeatures ↔ key ∈ s.integratedFeatures ∨
      isIntegration event ∧
        (integratedFeature (viewOf s event).featureId event).truthy = true ∧
        hashKey (integratedFeature (viewOf s event).featureId event) = .ok key)
    (houtcomes : t.historicalIntegrationOutcomes = s.historicalIntegrationOutcomes ∧
        ¬isIntegration event ∨
      ∃ outcome, integrationOutcome event = .ok outcome ∧ isIntegration event ∧
        t.historicalIntegrationOutcomes = s.historicalIntegrationOutcomes ++ [outcome]) :
    FoldStep s event t := by
  have hput : Put s event t (completedView s event) := put_put hkeyed (by rw [ht]; rfl) rfl
  have hstart : event.eventType ≠ transactionStarted := by
    rw [hkind]
    decide
  refine ⟨?_, ?_, ?_, ?_, hintegrated, houtcomes, ⟨_, hput.get, hput.key, ?_, ?_⟩, hput.distinct⟩
  · simp only [stateNamed, hkind]
    rw [ht]
    rfl
  · simp only [featureNamed, hkind]
    rw [ht]
    rfl
  · simp only [gateNamed, hkind]
    rw [ht]
    rfl
  · rw [factsAfter, if_neg fun h => hstart h.1, factsNamed, hkind, ht]
    rfl
  · simp only [viewStateNamed, hkind]
    rfl
  · rw [if_neg hstart]
    rfl

theorem foldCompleted_step (hkeyed : Keyed s) (hkind : event.eventType = transactionCompleted)
    (h : foldCompleted (s.put (viewOf s event)) (viewOf s event) event = .ok t) :
    FoldStep s event t := by
  simp only [foldCompleted, bind_eq_ok] at h
  obtain ⟨u, hremember, hrecord⟩ := h
  have hu : ∃ commits, u = { completeRouting
      ((s.put (viewOf s event)).put (completedView s event)) event.payload with
        featureCommits := commits } := by
    unfold rememberCommit at hremember
    split at hremember
    · simp only [bind_eq_ok, pure, Except.pure, Except.ok.injEq] at hremember
      obtain ⟨key, -, rfl⟩ := hremember
      exact ⟨_, rfl⟩
    · cases hremember
      exact ⟨_, rfl⟩
  obtain ⟨commits, rfl⟩ := hu
  unfold recordIntegration at hrecord
  split at hrecord
  · rename_i hworkflow
    have hintegration : isIntegration event := ⟨hkind, hworkflow⟩
    simp only [bind_eq_ok, pure, Except.pure, Except.ok.injEq] at hrecord
    obtain ⟨added, hadded, outcome, houtcome, rfl⟩ := hrecord
    refine foldCompleted_routing hkeyed hkind rfl (fun key => ?_)
      (Or.inr ⟨outcome, houtcome, hintegration, rfl⟩)
    refine (addIntegrated_eq_ok hadded key).trans (or_congr Iff.rfl ?_)
    exact ⟨fun h => ⟨hintegration, h⟩, fun h => h.2⟩
  · rename_i hworkflow
    have hnone : ¬isIntegration event := fun h => hworkflow h.2
    cases hrecord
    refine foldCompleted_routing hkeyed hkind rfl (fun key => ?_) (Or.inl ⟨rfl, hnone⟩)
    exact ⟨Or.inl, fun h => h.resolve_right fun h => hnone h.1⟩

theorem foldProjectionUpdated_step (hkeyed : Keyed s)
    (hkind : event.eventType = projectionUpdated) :
    FoldStep s event (foldProjectionUpdated (s.put (viewOf s event)) event.payload) := by
  have hstart : event.eventType ≠ transactionStarted := by
    rw [hkind]
    decide
  have hnone : ¬isIntegration event := fun h => absurd (hkind.symm.trans h.1) (by decide)
  have hput : Put s event _ (viewOf s event) := put_viewOf hkeyed rfl
  refine ⟨?_, ?_, ?_, ?_, fun key => ?_, Or.inl ⟨rfl, hnone⟩, ⟨_, hput.get, hput.key, ?_, ?_⟩,
    hput.distinct⟩
  · simp only [stateNamed, hkind]
    rfl
  · simp only [featureNamed, hkind]
    rfl
  · simp only [gateNamed, hkind]
    rfl
  · rw [factsAfter, if_neg fun h => hstart h.1, factsNamed, if_pos hkind]
    simp only [foldProjectionUpdated]
    cases event.payload.get "projection_facts" <;> rfl
  · exact ⟨Or.inl, fun h => h.resolve_right fun h => hnone h.1⟩
  · simp only [viewStateNamed, hkind]
    rfl
  · rw [if_neg hstart]

/-- A pass that ends its transaction without completing it, or takes a gate down. -/
theorem foldStep_of_terminal (hput : Put s event t view)
    (hkinds : event.eventType ≠ transactionStarted ∧ event.eventType ≠ projectionUpdated ∧
      event.eventType ≠ transactionCompleted)
    (hstate : t.currentState = (stateNamed event).getD s.currentState)
    (hgate : t.humanGate = (gateNamed event).getD s.humanGate)
    (hfeature : featureNamed event = none)
    (hview : view.state = (viewStateNamed event).getD (viewOf s event).state)
    (hid : view.featureId = (viewOf s event).featureId)
    (hsame : t = { s with
      transactions := t.transactions
      currentState := t.currentState
      humanGate := t.humanGate }) : FoldStep s event t where
  state := hstate
  feature := by rw [hfeature, hsame, Option.getD_none]
  gate := hgate
  facts := by
    rw [factsAfter, if_neg fun h => hkinds.1 h.1, factsNamed, if_neg hkinds.2.1, hsame]
    rfl
  integrated key := by
    rw [hsame]
    exact ⟨Or.inl, fun h => h.resolve_right fun h => hkinds.2.2 h.1.1⟩
  outcomes := by
    rw [hsame]
    exact Or.inl ⟨rfl, fun h => hkinds.2.2 h.1⟩
  views := ⟨view, hput.get, hput.key, hview, by rw [if_neg hkinds.1, hid]⟩
  distinct := hput.distinct

theorem foldEvent_step (hkeyed : Keyed s) (h : foldEvent s event = .ok t) :
    FoldStep s event t := by
  unfold foldEvent at h
  cases hkind : event.eventType <;> simp only [hkind] at h
  case transactionStarted => exact foldStarted_step hkeyed hkind h
  case transactionCompleted => exact foldCompleted_step hkeyed hkind h
  case projectionUpdated =>
    cases h
    exact foldProjectionUpdated_step hkeyed hkind
  case humanGateRaised | transactionBlocked | transactionSuperseded =>
    cases h
    exact foldStep_of_terminal (put_put hkeyed rfl rfl) (by simp [hkind])
      (by simp only [stateNamed, hkind]; rfl) (by simp only [gateNamed, hkind]; rfl)
      (by simp only [featureNamed, hkind]) (by simp only [viewStateNamed, hkind]; rfl) rfl rfl
  case humanGateResolved =>
    cases h
    exact foldStep_of_terminal (put_viewOf hkeyed rfl) (by simp [hkind])
      (by simp only [stateNamed, hkind]; rfl) (by simp only [gateNamed, hkind]; rfl)
      (by simp only [featureNamed, hkind]) (by simp only [viewStateNamed, hkind]; rfl) rfl rfl
  case validationFailed | leaseReleased | changesDetected | recoveryApplied
      | legacyEvidenceImported | checkpointRecorded =>
    cases h
    exact foldStep_of_put (put_viewOf hkeyed rfl) (by simp only [stateNamed, hkind])
      (by simp only [featureNamed, hkind]) (by simp only [gateNamed, hkind]) (by simp [hkind])
      (by simp only [viewStateNamed, hkind]; rfl) rfl rfl
  all_goals
    cases h
    exact foldStep_of_put (put_put hkeyed rfl rfl) (by simp only [stateNamed, hkind])
      (by simp only [featureNamed, hkind]) (by simp only [gateNamed, hkind]) (by simp [hkind])
      (by simp only [viewStateNamed, hkind]; rfl) rfl rfl

/-! ### The whole loop -/

/-- The feature that the start of a transaction names. -/
def startFeature (events : List LedgerEvent) (transactionId : String) : Json :=
  ((events.find? fun event => event.transactionId = transactionId ∧
    event.eventType = transactionStarted).map fun event => event.payload.get "feature_id").getD .null

/-- The state that its last event put a transaction in. -/
def viewState (events : List LedgerEvent) (transactionId : String) : Json :=
  lastWrite (fun event => if event.transactionId = transactionId then viewStateNamed event else none)
    (.str "created") events

/-- After these events this one completes the integration of the feature with this key. -/
def IntegratesAt (key : Json) (earlier : List LedgerEvent) (event : LedgerEvent) : Prop :=
  isIntegration event ∧
    (integratedFeature (startFeature earlier event.transactionId) event).truthy = true ∧
    hashKey (integratedFeature (startFeature earlier event.transactionId) event) = .ok key

def Integrates (events : List LedgerEvent) (key : Json) : Prop :=
  ∃ earlier event later, events = earlier ++ event :: later ∧ IntegratesAt key earlier event

theorem integrates_snoc {events : List LedgerEvent} {event : LedgerEvent} {key : Json} :
    Integrates (events ++ [event]) key ↔ Integrates events key ∨ IntegratesAt key events event :=
  split_snoc_iff

/-- What the loop has computed. -/
structure Folded (events : List LedgerEvent) (s : ProjectionState) : Prop where
  state : s.currentState = lastWrite stateNamed (.str "discover") events
  feature : s.currentFeature = lastWrite featureNamed .null events
  gate : s.humanGate = lastWrite gateNamed .null events
  facts : s.projectionFacts = events.foldl factsAfter []
  integrated : ∀ key, key ∈ s.integratedFeatures ↔ Integrates events key
  known : ∀ transactionId, s.transactions.get? transactionId = none ↔
    historyOf events transactionId = []
  views : ∀ transactionId view, s.transactions.get? transactionId = some view →
    view.transactionId = transactionId ∧ view.featureId = startFeature events transactionId ∧
      view.state = viewState events transactionId
  distinct : s.transactions.keys.Nodup

variable {P : Platform} {L : LedgerIdentity} {events : List LedgerEvent} {transactionId : String}

theorem folded_nil : Folded [] {} where
  state := rfl
  feature := rfl
  gate := rfl
  facts := rfl
  integrated key := by simp [Integrates]
  known transactionId := by simp [historyOf]
  views transactionId view h := by simp at h
  distinct := List.nodup_nil

theorem Folded.keyed (h : Folded events s) : Keyed s := fun transactionId view hview =>
  (h.views transactionId view hview).1

theorem mem_historyOf {kind : EventType} : kind ∈ historyOf events transactionId ↔
    ∃ event ∈ events, event.transactionId = transactionId ∧ event.eventType = kind := by
  simp [historyOf, and_assoc]

theorem historyOf_eq_nil : historyOf events transactionId = [] ↔
    ∀ event ∈ events, event.transactionId ≠ transactionId := by
  simp [historyOf, List.filter_eq_nil_iff]

theorem startFeature_snoc_known (h : transactionStarted ∈ historyOf events transactionId) :
    startFeature (events ++ [event]) transactionId = startFeature events transactionId := by
  obtain ⟨start, hmem, hid, hkind⟩ := mem_historyOf.mp h
  have hsome : (events.find? fun event => event.transactionId = transactionId ∧
      event.eventType = transactionStarted).isSome := by
    rw [List.find?_isSome]
    exact ⟨start, hmem, by simp [hid, hkind]⟩
  rw [startFeature, List.find?_append, Option.or_of_isSome hsome, startFeature]

theorem startFeature_snoc_other (h : event.transactionId ≠ transactionId) :
    startFeature (events ++ [event]) transactionId = startFeature events transactionId := by
  have hnone : ([event].find? fun event => event.transactionId = transactionId ∧
      event.eventType = transactionStarted) = none := by
    simp [h]
  rw [startFeature, List.find?_append, hnone, Option.or_none, startFeature]

theorem startFeature_snoc_started (h : historyOf events event.transactionId = [])
    (hkind : event.eventType = transactionStarted) :
    startFeature (events ++ [event]) event.transactionId = event.payload.get "feature_id" := by
  have hnone : (events.find? fun other => other.transactionId = event.transactionId ∧
      other.eventType = transactionStarted) = none := by
    rw [List.find?_eq_none]
    intro other hother
    simp [historyOf_eq_nil.mp h other hother]
  rw [startFeature, List.find?_append, hnone, Option.none_or]
  simp [hkind]

theorem viewState_snoc : viewState (events ++ [event]) transactionId =
    if event.transactionId = transactionId then
      (viewStateNamed event).getD (viewState events transactionId)
    else viewState events transactionId := by
  rw [viewState, lastWrite_snoc]
  split <;> rfl

theorem viewState_of_unknown (h : historyOf events transactionId = []) :
    viewState events transactionId = .str "created" :=
  lastWrite_of_silent fun other hother => if_neg (historyOf_eq_nil.mp h other hother)

/-- What the pass over an event starts its entry from. -/
theorem Folded.viewOf (h : Folded events s)
    (hstarted : historyOf events event.transactionId = [] → event.eventType = transactionStarted) :
    (viewOf s event).state = viewState events event.transactionId ∧
      (event.eventType ≠ transactionStarted →
        (viewOf s event).featureId = startFeature events event.transactionId) := by
  cases hfound : s.transactions.get? event.transactionId with
  | none =>
      have hnil := (h.known _).mp hfound
      rw [viewState_of_unknown hnil]
      exact ⟨by simp [Conveyor.viewOf, hfound, TransactionView.created],
        fun hkind => absurd (hstarted hnil) hkind⟩
  | some view =>
      obtain ⟨-, hfeature, hstate⟩ := h.views _ _ hfound
      simp only [Conveyor.viewOf, hfound, Option.getD_some]
      exact ⟨hstate, fun _ => hfeature⟩

theorem Folded.snoc (h : Folded events s) (hstep : FoldStep s event t)
    (hbegun : historyOf events event.transactionId = [] → event.eventType = transactionStarted)
    (honce : event.eventType = transactionStarted →
      historyOf events event.transactionId = [])
    (hknown : historyOf events event.transactionId ≠ [] →
      transactionStarted ∈ historyOf events event.transactionId) :
    Folded (events ++ [event]) t := by
  obtain ⟨hstate, hfeature⟩ := h.viewOf hbegun
  obtain ⟨view, hget, hkey, hviewState, hviewFeature⟩ := hstep.views
  refine ⟨?_, ?_, ?_, ?_, fun key => ?_, fun transactionId => ?_, fun transactionId found hfound => ?_,
    hstep.distinct h.distinct⟩
  · rw [hstep.state, lastWrite_snoc, h.state]
  · rw [hstep.feature, lastWrite_snoc, h.feature]
  · rw [hstep.gate, lastWrite_snoc, h.gate]
  · rw [hstep.facts, List.foldl_append, h.facts]
    rfl
  · rw [hstep.integrated, h.integrated, integrates_snoc]
    refine or_congr Iff.rfl (and_congr_right fun hintegration => ?_)
    have hkind : event.eventType ≠ transactionStarted := by
      rw [hintegration.1]
      decide
    rw [hfeature hkind]
  · rw [hget, historyOf_snoc]
    by_cases hid : transactionId = event.transactionId
    · simp [hid]
    · rw [if_neg hid, if_neg (Ne.symm hid), h.known]
  · rw [hget] at hfound
    split at hfound
    · rename_i hid
      cases hfound
      subst hid
      refine ⟨hkey, ?_, ?_⟩
      · rw [hviewFeature]
        split
        · rename_i hkind
          rw [startFeature_snoc_started (honce hkind) hkind]
        · rename_i hkind
          have hne : historyOf events event.transactionId ≠ [] := fun hnil => hkind (hbegun hnil)
          rw [hfeature hkind, startFeature_snoc_known (hknown hne)]
      · rw [hviewState, hstate, viewState_snoc, if_pos rfl]
    · rename_i hid
      obtain ⟨hid', hfeature', hstate'⟩ := h.views _ _ hfound
      rw [startFeature_snoc_other (Ne.symm hid), viewState_snoc, if_neg (Ne.symm hid)]
      exact ⟨hid', hfeature', hstate'⟩

/-- Every transaction of an accepted ledger begins with its start. -/
def Begun (events : List LedgerEvent) : Prop :=
  ∀ transactionId, historyOf events transactionId ≠ [] →
    (historyOf events transactionId).head? = some transactionStarted

theorem Valid.begun (h : Valid P L events) : Begun events := fun transactionId hne =>
  (h.histories transactionId hne).begins

theorem Begun.init (h : Begun (events ++ [event])) : Begun events := by
  intro transactionId hne
  have hall := h transactionId
  rw [historyOf_snoc] at hall
  split at hall
  · have hhead := hall (by simp)
    rwa [List.head?_append_of_ne_nil _ hne] at hhead
  · exact hall hne

theorem Begun.mem (h : Begun events) (hne : historyOf events transactionId ≠ []) :
    transactionStarted ∈ historyOf events transactionId :=
  List.mem_of_mem_head? (h transactionId hne)

/-- The loop over an accepted ledger that came to its end. -/
theorem foldEvents_folded (hreplays : Replays P L events) (hbegun : Begun events)
    (h : foldEvents events = .ok s) : Folded events s := by
  induction hreplays generalizing s with
  | nil =>
      cases h
      exact folded_nil
  | @snoc events event prior record follows ih =>
      obtain ⟨u, hrest, hlast⟩ := foldlM_snoc_eq_ok.mp h
      have hu := ih hbegun.init hrest
      refine hu.snoc (foldEvent_step hu.keyed hlast) (fun hnil => ?_) (fun hkind => ?_)
        hbegun.init.mem
      · have hhead := hbegun event.transactionId (by simp [historyOf_snoc])
        rw [historyOf_snoc_self, hnil] at hhead
        simpa using hhead
      · by_contra hne
        exact (follows.start hkind).1 (hbegun.init.mem hne)

/-- The settlement leaves the imported facts alone. -/
theorem settleIdle_facts {s settled : ProjectionState} {active : Option TransactionView}
    (h : settleIdle s active = .ok settled) : settled.projectionFacts = s.projectionFacts := by
  cases active with
  | some view => cases h; rfl
  | none =>
      simp only [settleIdle, settle, bind_eq_ok] at h
      obtain ⟨integrated, -, h⟩ := h
      split at h
      · simp only [bind_eq_ok, pure, Except.pure, Except.ok.injEq] at h
        obtain ⟨selected, -, feature, -, state, -, rfl⟩ := h
        rfl
      · cases h; rfl

end Conveyor
