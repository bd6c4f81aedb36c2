import Conveyor.LedgerDurability

/-!
# The projection

The current state of a project, folded from its ledger (`projection.py`). This module
has the definitions: the loop over the events, one function per kind of event that
changes more than its transaction, the settlement after the loop, the document
`rebuild` returns and writes to the cache, and the cache's readers.

A value taken from a payload may be any JSON value. Where the source uses one as a
dictionary key or looks it up in a set, a list or an object raises `TypeError`.
-/

namespace Conveyor

open Library EventType

def projectionError (message : String) : Failure := ⟨.projectionError, message⟩

def staleProjectionCache (message : String) : Failure := ⟨.staleProjectionCache, message⟩

def WORKFLOW_ACTIVE_STATE : WorkflowType → String
  | .queueReconciliation => "queue_reconciliation"
  | .featurePreparation => "feature_preparing"
  | .featureExecution => "feature_running"
  | .featureAcceptance => "feature_review"
  | .milestoneIntegration => "integrating"
  | .milestoneGate => "milestone_gate"
  | .humanDecisionResolution => "human_decision_required"
  | .recovery => "queue_reconciliation"

def NEXT_ACTION : Dict String :=
  [("feature_ready", "feature_cycle"), ("feature_preparing", "feature_cycle"),
   ("feature_accepted", "milestone_integration"),
   ("integration_pending", "milestone_integration"),
   ("integration_ready", "milestone_integration"),
   ("feature_integrated", "queue_reconciliation"),
   ("queue_reconciliation", "queue_reconciliation"), ("milestone_gate", "milestone_gate"),
   ("human_decision_required", "human_decision_resolution"),
   ("milestone_complete", "human_merge_approval"),
   ("milestone_ready_for_merge", "human_merge_approval")]

def PROJECTION_SEMANTICS_VERSION : Int := 2

/-- `projection_fingerprint`. -/
def projectionFingerprint (P : Platform) (value : Fields) : String :=
  P.fingerprint (.obj (value.erase "projection_fingerprint"))

/-! ### The state of the loop -/

structure TransactionView where
  transactionId : String
  workflowType : WorkflowType
  state : Json
  featureId : Json
  milestone : Json
  runId : Json
  sessionIds : List Json := []
  terminalClassification : Json := .null
  terminalReference : Json := .null
  startingSnapshot : Json := .null
  terminalSnapshot : Json := .null
  lastSequence : Nat
  deterministicPlanFingerprint : Option Json := none
  deterministicResultClassification : Option Json := none
deriving DecidableEq

namespace TransactionView

/-- The entry the loop makes for the first event of a transaction. -/
def created (event : LedgerEvent) : TransactionView where
  transactionId := event.transactionId
  workflowType := event.workflowType
  state := .str "created"
  featureId := event.payload.get "feature_id"
  milestone := event.payload.get "milestone"
  runId := event.payload.get "run_id"
  lastSequence := event.sequence

/-- The entries the loop adds to a transaction only when their event occurs. -/
def deterministicFields (view : TransactionView) : Fields :=
  (view.deterministicPlanFingerprint.map fun value =>
      ("deterministic_plan_fingerprint", value)).toList ++
    (view.deterministicResultClassification.map fun value =>
      ("deterministic_result_classification", value)).toList

def toFields (view : TransactionView) : Fields :=
  .ofPairs ([("transaction_id", .str view.transactionId),
    ("workflow_type", .str view.workflowType.value), ("state", view.state),
    ("feature_id", view.featureId), ("milestone", view.milestone), ("run_id", view.runId),
    ("session_ids", .arr view.sessionIds),
    ("terminal_classification", view.terminalClassification),
    ("terminal_reference", view.terminalReference),
    ("starting_snapshot", view.startingSnapshot),
    ("terminal_snapshot", view.terminalSnapshot),
    ("last_sequence", .int view.lastSequence)] ++ view.deterministicFields)

end TransactionView

/-- What the loop of `rebuild` carries from event to event. -/
structure ProjectionState where
  transactions : Dict TransactionView := []
  currentState : Json := .str "discover"
  currentFeature : Json := .null
  selectedNextFeature : Json := .null
  selectedFeatureStartingCommit : Json := .null
  acceptedFeatureCommit : Json := .null
  integrationStatus : Json := .null
  planningStatus : Json := .null
  humanGate : Json := .null
  featureCommits : List (Json × Json) := []
  integratedFeatures : List Json := []
  historicalIntegrationOutcomes : List Json := []
  warnings : List Json := []
  projectionFacts : Fields := []
deriving DecidableEq

namespace ProjectionState

def put (s : ProjectionState) (view : TransactionView) : ProjectionState :=
  { s with transactions := s.transactions.insert view.transactionId view }

/-- `feature_commits.get(feature)`. -/
def featureCommit (s : ProjectionState) (feature : Json) : Result Json := do
  let key ← hashKey feature
  return (s.featureCommits.lookup key).getD .null

/-- `feature in integrated_features`. -/
def isIntegrated (s : ProjectionState) (feature : Json) : Result Bool := do
  let key ← hashKey feature
  return decide (key ∈ s.integratedFeatures)

end ProjectionState

/-! ### The loop -/

def foldStarted (s : ProjectionState) (view : TransactionView) (event : LedgerEvent) :
    Result ProjectionState := do
  let payload := event.payload
  -- Imported facts bootstrap routing only until the first canonical transaction.
  let imported := (payload.get "legacy_import").truthy || (payload.get "migration_batch").truthy
  let s := { s with
    projectionFacts := if imported then s.projectionFacts else []
    currentState := .str (WORKFLOW_ACTIVE_STATE event.workflowType) }
  let s := s.put { view with
    state := .str "lease_pending"
    featureId := payload.get "feature_id"
    milestone := payload.get "milestone"
    runId := payload.get "run_id" }
  let feature := payload.get "feature_id"
  if feature.truthy then
    let commit ← s.featureCommit feature
    let integrated ← s.isIntegrated feature
    return { s with
      currentFeature := feature
      acceptedFeatureCommit := commit
      integrationStatus := if integrated then .str "passed" else .null }
  else return s

def launchSession (view : TransactionView) (session : Json) : TransactionView :=
  { view with
    state := .str "result_pending"
    sessionIds :=
      if session.truthy && decide (session ∉ view.sessionIds) then view.sessionIds ++ [session]
      else view.sessionIds }

/-- The entry of a milestone integration in the list of historical outcomes. -/
def integrationOutcome (event : LedgerEvent) : Result Json := do
  let payload := event.payload
  let head ← snapshotField (payload.get "terminal_snapshot") "head"
  let clean ← snapshotField (payload.get "terminal_snapshot") "clean"
  return .obj (Fields.ofPairs
    [("transaction_id", .str event.transactionId),
     ("classification", payload.get "classification"),
     ("feature_id", payload.get "feature_id"),
     ("accepted_commit", payload.get "accepted_feature_commit"),
     ("integrated_commit", payload.get "integrated_commit"),
     ("terminal_head", head), ("terminal_repository_clean", clean),
     ("sequence", .int event.sequence)])

/-- A completion changes the routing fields its payload has, and keeps the others. -/
def completeRouting (s : ProjectionState) (payload : Fields) : ProjectionState :=
  { s with
    currentState := payload.getD "next_state" s.currentState
    currentFeature := payload.getD "feature_id" s.currentFeature
    selectedNextFeature := payload.getD "selected_feature" s.selectedNextFeature
    selectedFeatureStartingCommit :=
      payload.getD "selected_feature_starting_commit" s.selectedFeatureStartingCommit
    acceptedFeatureCommit := payload.getD "accepted_feature_commit" s.acceptedFeatureCommit
    integrationStatus := payload.getD "integration_status" s.integrationStatus
    planningStatus := payload.getD "planning_status" s.planningStatus
    humanGate := payload.getD "human_merge_gate" s.humanGate }

/-- A completed feature's accepted commit, remembered under the feature. -/
def rememberCommit (s : ProjectionState) (view : TransactionView) (payload : Fields) :
    Result ProjectionState :=
  if view.featureId.truthy && (payload.get "accepted_feature_commit").truthy then do
    let key ← hashKey view.featureId
    return { s with
      featureCommits := (key, payload.get "accepted_feature_commit") :: s.featureCommits }
  else return s

/-- `integrated_features.add(feature)`, unless there is no feature. -/
def addIntegrated (features : List Json) (feature : Json) : Result (List Json) :=
  if feature.truthy then do
    let key ← hashKey feature
    return key :: features
  else return features

def recordIntegration (s : ProjectionState) (view : TransactionView) (event : LedgerEvent) :
    Result ProjectionState :=
  if event.workflowType = .milestoneIntegration then do
    let integrated ← addIntegrated s.integratedFeatures
      (firstTruthy [event.payload.get "feature_id", view.featureId])
    let outcome ← integrationOutcome event
    return { s with
      integratedFeatures := integrated
      historicalIntegrationOutcomes := s.historicalIntegrationOutcomes ++ [outcome] }
  else return s

def foldCompleted (s : ProjectionState) (view : TransactionView) (event : LedgerEvent) :
    Result ProjectionState := do
  let payload := event.payload
  let view := { view with
    state := .str "completed"
    terminalClassification := payload.get "classification"
    terminalReference := payload.get "reference"
    terminalSnapshot := payload.get "terminal_snapshot" }
  let s ← rememberCommit (completeRouting (s.put view) payload) view payload
  recordIntegration s view event

def foldProjectionUpdated (s : ProjectionState) (payload : Fields) : ProjectionState :=
  { s with
    currentState := payload.getD "current_state" s.currentState
    selectedNextFeature := payload.getD "selected_feature" s.selectedNextFeature
    currentFeature := payload.getD "current_feature" s.currentFeature
    projectionFacts :=
      match payload.get "projection_facts" with
      | .obj facts => s.projectionFacts.update facts
      | _ => s.projectionFacts }

def foldGateRaised (s : ProjectionState) (view : TransactionView) (payload : Fields) :
    ProjectionState :=
  { s.put { view with
      state := .str "human_decision_required"
      terminalClassification := payload.getD "classification" (.str "HUMAN_DECISION_REQUIRED")
      terminalReference := payload.get "gate_id"
      terminalSnapshot := payload.get "terminal_snapshot" } with
    humanGate := firstTruthy [payload.get "gate", .obj payload]
    currentState := .str "human_decision_required" }

def foldBlocked (s : ProjectionState) (view : TransactionView) (payload : Fields) :
    ProjectionState :=
  { s.put { view with
      state := payload.getD "terminal_state" (.str "blocked")
      terminalClassification := payload.get "classification"
      terminalReference := payload.get "reference"
      terminalSnapshot := payload.get "terminal_snapshot" } with
    currentState := payload.getD "next_state" s.currentState }

def foldSuperseded (s : ProjectionState) (view : TransactionView) (payload : Fields) :
    ProjectionState :=
  { s.put { view with
      state := .str "superseded"
      terminalClassification := payload.getD "classification" (.str "TRANSACTION_SUPERSEDED")
      terminalReference := payload.get "superseded_by"
      terminalSnapshot := payload.get "terminal_snapshot" } with
    currentState := payload.getD "next_state" s.currentState }

/-- The entry of an event's transaction, with its last sequence moved to the event. -/
def viewOf (s : ProjectionState) (event : LedgerEvent) : TransactionView :=
  { (s.transactions.get? event.transactionId).getD (.created event) with
    lastSequence := event.sequence }

/-- One pass of the loop of `rebuild`. -/
def foldEvent (s : ProjectionState) (event : LedgerEvent) : Result ProjectionState :=
  let payload := event.payload
  let view := viewOf s event
  let s := s.put view
  match event.eventType with
  | transactionStarted => foldStarted s view event
  | leaseAcquired => .ok (s.put { view with state := .str "active" })
  | snapshotCaptured =>
      .ok (s.put { view with
        startingSnapshot := payload.get "snapshot", state := .str "active" })
  | sessionLaunched => .ok (s.put (launchSession view (payload.get "session_id")))
  | deterministicExecutionStarted =>
      .ok (s.put { view with
        state := .str "result_pending"
        deterministicPlanFingerprint := some (payload.get "plan_fingerprint") })
  | sessionResultAccepted => .ok (s.put { view with state := .str "validating" })
  | deterministicResultAccepted =>
      .ok (s.put { view with
        state := .str "validating"
        deterministicResultClassification := some (payload.get "classification") })
  | validationStarted => .ok (s.put { view with state := .str "validating" })
  | validationPassed => .ok (s.put { view with state := .str "finalizing" })
  | validationFailed =>
      .ok { s with warnings :=
        s.warnings ++ [.str ("validation_failed:" ++ event.transactionId)] }
  | commitFinalized => .ok (s.put { view with state := .str "finalizing" })
  | humanGateRaised => .ok (foldGateRaised s view payload)
  | humanGateResolved => .ok { s with humanGate := .null }
  | transactionBlocked => .ok (foldBlocked s view payload)
  | transactionSuperseded => .ok (foldSuperseded s view payload)
  | transactionCompleted => foldCompleted s view event
  | projectionUpdated => .ok (foldProjectionUpdated s payload)
  | leaseReleased | changesDetected | recoveryApplied | legacyEvidenceImported
  | checkpointRecorded => .ok s

def foldEvents (events : List LedgerEvent) : Result ProjectionState :=
  events.foldlM foldEvent {}

/-! ### After the loop -/

/-- The states in which a transaction is no longer active. -/
def INACTIVE_STATES : List String :=
  ["completed", "blocked", "human_decision_required", "retryable_failure", "terminal_failure",
   "superseded"]

def isInactive (view : TransactionView) : Bool :=
  match view.state with
  | .str state => decide (state ∈ INACTIVE_STATES)
  | _ => false

/-- The one transaction without a terminal outcome, if there is one. -/
def activeTransaction (s : ProjectionState) : Result (Option TransactionView) := do
  let views := s.transactions.map Prod.snd
  requireAll (fun view => (hashKey view.state).map fun _ => ()) views
  let active := views.filter fun view => !isInactive view
  require (active.length ≤ 1)
    (projectionError
      "multiple incomplete transactions violate single-writer projection invariants")
  return active.getLast?

/-- The states that name a feature that an integration has made history. -/
def FEATURE_STATES : List String :=
  ["feature_ready", "feature_accepted", "integration_pending", "integration_ready",
   "feature_integrated"]

/-- `None` in place of a feature that is already integrated. -/
def withoutIntegrated (s : ProjectionState) (feature : Json) : Result Json := do
  let integrated ← s.isIntegrated feature
  return if integrated then .null else feature

/-- The state to go on from, when no feature is current any more. -/
def settledState (feature state : Json) : Result Json :=
  if feature = .null then do
    let key ← hashKey state
    return if key ∈ FEATURE_STATES.map Json.str then .str "queue_reconciliation" else state
  else return state

/-- A current feature that is integrated gives way to the selected one. -/
def settle (s : ProjectionState) : Result ProjectionState := do
  let integrated ← s.isIntegrated s.currentFeature
  if integrated = true ∧ s.currentFeature ≠ .null then do
    let selected ← withoutIntegrated s s.selectedNextFeature
    let feature ← withoutIntegrated s selected
    let state ← settledState feature s.currentState
    return { s with
      selectedNextFeature := selected
      currentFeature := feature
      acceptedFeatureCommit := .null
      integrationStatus := .null
      currentState := state
      humanGate := if state ≠ .str "human_decision_required" then .null else s.humanGate }
  else return s

/-- The settlement waits until no transaction is active. -/
def settleIdle (s : ProjectionState) (active : Option TransactionView) :
    Result ProjectionState :=
  match active with
  | none => settle s
  | some _ => return s

/-- `current_accepted_commit`. -/
def currentAcceptedCommit (s : ProjectionState) : Result Json :=
  if s.currentFeature.truthy then s.featureCommit s.currentFeature
  else .ok s.acceptedFeatureCommit

/-- A running feature whose commit is already accepted waits for its integration. -/
def readyForIntegration (s : ProjectionState) (commit : Json) : Result Json :=
  if commit.truthy = true ∧ s.currentState = .str "feature_running" then do
    let integrated ← s.isIntegrated s.currentFeature
    return if integrated then s.currentState else .str "integration_ready"
  else .ok s.currentState

def sessionResumeEligible (active : Option TransactionView) (commit : Json) : Bool :=
  match active with
  | none => false
  | some view =>
      decide (view.state = .str "active" ∨ view.state = .str "result_pending") &&
        !view.sessionIds.isEmpty && !commit.truthy

/-! ### Observations -/

/-- What current observations contribute to the projection. -/
structure Observed where
  consistency : String
  observations : Json
  sessionResumeEligible : Bool
  integrationStatus : Json

/-- `any(git_operations.values())`, with `{}` for a missing field. -/
def anyGitOperation (observations : Fields) : Result Bool :=
  match observations.getD "git_operations" (.obj []) with
  | .obj operations => .ok (operations.any fun item => item.2.truthy)
  | _ => .error ⟨.attributeError, "object has no attribute 'values'"⟩

def repositoryConsistency (s : ProjectionState) (active : Option TransactionView)
    (observations : Fields) : Result String := do
  let operating ← anyGitOperation observations
  let lease := observations.get "lease_transaction"
  let queueFeature := observations.get "queue_feature"
  if operating = true ∨ observations.get "branch" = .null then return "unsafe_git_state"
  else match active with
    | some view =>
        if (observations.get "lease_valid").truthy = false ∨ lease ≠ .str view.transactionId then
          return "lease_mismatch"
        else if s.currentFeature ≠ .null ∧ queueFeature ≠ .null ∧
            queueFeature ≠ s.currentFeature then
          return "queue_projection_disagreement"
        else return "consistent"
    | none =>
        if lease ≠ .null then return "orphaned_lease"
        else if s.currentFeature ≠ .null ∧ queueFeature ≠ .null ∧
            queueFeature ≠ s.currentFeature then
          return "queue_projection_disagreement"
        else if (observations.get "clean").truthy = false then
          return "unexplained_dirty_worktree"
        else return "consistent"

/-- Whether the observed live session is another than the transaction's latest. -/
def staleSession (active : Option TransactionView) (observations : Fields) : Result Bool :=
  match active.bind fun view => view.sessionIds.getLast? with
  | none => .ok false
  | some latest => do
      let latest ← hashKey latest
      let live ← hashKey (observations.get "live_session_id")
      return decide (live ≠ .null ∧ live ≠ latest)

def observe (P : Platform) (s : ProjectionState) (active : Option TransactionView)
    (eligible : Bool) (observations : Option Fields) : Result Observed :=
  match observations with
  | none => .ok ⟨"not_observed", .null, eligible, s.integrationStatus⟩
  | some given => do
      let value := given.erase "observation_fingerprint"
      let claimed := given.get "observation_fingerprint"
      require (claimed = .str (P.fingerprint (.obj value)))
        (projectionError "current observation fingerprint is invalid")
      let value := value.set "observation_fingerprint" claimed
      let consistency ← repositoryConsistency s active value
      let stale ← staleSession active value
      let integration := value.get "queue_integration_status"
      return {
        consistency := if stale then "stale_session" else consistency
        observations := .obj value
        sessionResumeEligible := eligible && !stale
        integrationStatus :=
          if s.currentFeature.truthy = true ∧ integration ≠ .null then integration
          else s.integrationStatus }

/-! ### The document -/

/-- `NEXT_ACTION.get(current_state, "verify_consistency")`. -/
def nextAction (state : Json) : Result String := do
  let key ← hashKey state
  match key with
  | .str state => return (NEXT_ACTION.get? state).getD "verify_consistency"
  | _ => return "verify_consistency"

/-- The projection's own fields, before the imported facts. -/
def projectionPairs (L : LedgerIdentity) (sequence : Nat) (fingerprint : String)
    (s : ProjectionState) (active : Option TransactionView) (state commit : Json) (action : String)
    (observed : Observed) : Fields :=
  [("schema_version", .int 1),
   ("projection_semantics_version", .int PROJECTION_SEMANTICS_VERSION),
   ("project_id", .str L.projectId),
   ("repository_identity", .str L.repositoryIdentity),
   ("repository_path_fingerprint", .str L.repositoryPathFingerprint),
   ("ledger_sequence", .int sequence),
   ("ledger_fingerprint", .str fingerprint),
   ("current_state", state),
   ("active_transaction", .ofOption (active.map fun view => view.transactionId)),
   ("current_feature", s.currentFeature),
   ("selected_next_feature", s.selectedNextFeature),
   ("selected_feature_starting_commit", s.selectedFeatureStartingCommit),
   ("accepted_feature_commit", commit),
   ("integration_status", observed.integrationStatus),
   ("planning_status", s.planningStatus),
   ("human_gate", s.humanGate),
   ("allowed_next_action", .str action),
   ("session_resume_eligible", .bool observed.sessionResumeEligible),
   ("required_lease",
      .ofOption (active.map fun view => (WORKFLOW_LEASE view.workflowType).value)),
   ("historical_integration_outcomes", .arr s.historicalIntegrationOutcomes),
   ("current_repository_consistency", .str observed.consistency),
   ("current_observations", observed.observations),
   ("transactions", .arr (s.transactions.map fun item => .obj item.2.toFields)),
   ("warnings", .arr s.warnings)]

/-- `rebuild` between its reads and its write: the projection before its fingerprint, on
    a ledger with this integrity. -/
def project (P : Platform) (L : LedgerIdentity) (sequence : Nat) (fingerprint : String)
    (events : List LedgerEvent) (observations : Option Fields) : Result Fields := do
  let s ← foldEvents events
  let active ← activeTransaction s
  let s ← settleIdle s active
  let commit ← currentAcceptedCommit s
  let state ← readyForIntegration s commit
  let observed ← observe P s active (sessionResumeEligible active commit) observations
  let action ← nextAction state
  let value := Fields.update
    (.ofPairs (projectionPairs L sequence fingerprint s active state commit action observed))
    s.projectionFacts
  return if observed.consistency ∈ ["not_observed", "consistent"] then value
    else value.set "allowed_next_action" (.str "verify_consistency")

/-! ### The engine and its cache -/

/-- What is at the cache path. -/
inductive CacheFile where
  | absent
  | unreadable
  | document (value : Json)
deriving DecidableEq

/-- The files of a project as one engine sees them; without a cache path there is no
    cache. -/
structure ProjectionFiles where
  storage : Storage
  cache : Option CacheFile
deriving DecidableEq

/-- `EvidenceLedger.verify`, with the storage it leaves. -/
def Storage.verify (P : Platform) (L : LedgerIdentity) (storage : Storage) :
    Result (LedgerIntegrity × Storage) := do
  let (integrity, events) ← validate P L storage.records
  let storage ← verifyHead P true events storage
  return (integrity, storage)

/-- The signed projection of an unsigned one. -/
def signProjection (P : Platform) (value : Fields) : Fields :=
  value.set "projection_fingerprint" (.str (projectionFingerprint P value))

/-- `rebuild`, with the files it leaves. -/
def rebuild (P : Platform) (L : LedgerIdentity) (persistCache : Bool)
    (observations : Option Fields) (files : ProjectionFiles) :
    Result (Fields × ProjectionFiles) := do
  let (events, storage) ← files.storage.read P L
  let (integrity, storage) ← storage.verify P L
  let value ← project P L integrity.sequence integrity.fingerprint events observations
  let projection := signProjection P value
  let cache := if persistCache then
      files.cache.map fun _ => CacheFile.document (atomicWriteJson P (.obj projection))
    else files.cache
  return (projection, ⟨storage, cache⟩)

/-- The checks of `load_cache` on the document it read. -/
def checkCache (integrity : LedgerIntegrity) (value : Fields) : Result Fields :=
  match asInt? (value.get "ledger_sequence") with
  | none => .error (projectionError "projection cache ledger sequence is invalid")
  | some sequence => do
      require (sequence ≤ integrity.sequence)
        (projectionError "projection cache claims a later sequence than the ledger")
      require (integrity.sequence ≤ sequence)
        (staleProjectionCache "projection cache is older than the ledger")
      require (value.get "ledger_fingerprint" = .str integrity.fingerprint)
        (projectionError "projection cache does not match the ledger fingerprint")
      return value

/-- `load_cache`, with the files it leaves. -/
def loadCache (P : Platform) (L : LedgerIdentity) (files : ProjectionFiles) :
    Result (Option Fields × ProjectionFiles) :=
  match files.cache with
  | none | some .absent => .ok (none, files)
  | some .unreadable => .error (projectionError "projection cache is unreadable")
  | some (.document (.obj value)) => do
      require ((Fields.get value "schema_version").equalsInt 1 = true)
        (projectionError "projection cache has an invalid schema")
      require (Fields.get value "projection_fingerprint" = .str (projectionFingerprint P value))
        (projectionError "projection cache fingerprint is invalid")
      let (integrity, storage) ← files.storage.verify P L
      let checked ← checkCache integrity value
      return (some checked, { files with storage := storage })
  | some (.document _) => .error (projectionError "projection cache has an invalid schema")

/-- The cache `current` considers: a stale one is the one failure of `load_cache` that
    counts as no cache. -/
def currentCache (P : Platform) (L : LedgerIdentity) (files : ProjectionFiles) :
    Result (Option Fields × ProjectionFiles) :=
  match loadCache P L files with
  | .ok found => .ok found
  | .error failure =>
      if failure.kind = .staleProjectionCache then .ok (none, files) else .error failure

/-- `current`: the cache when it is the ledger's, else a rebuild. -/
def current (P : Platform) (L : LedgerIdentity) (files : ProjectionFiles) :
    Result (Fields × ProjectionFiles) := do
  let (cache, files) ← currentCache P L files
  let (integrity, storage) ← files.storage.verify P L
  let files := { files with storage := storage }
  match cache with
  | some value =>
      if asInt? (value.get "ledger_sequence") = some (integrity.sequence : Int) ∧
          value.get "ledger_fingerprint" = .str integrity.fingerprint then
        return (value, files)
      else rebuild P L true none files
  | none => rebuild P L true none files

end Conveyor
