import Conveyor.FeatureScoping

/-!
# Decisions on queue features

The deterministic resolution of decision-gated features (`feature_decisions.py`): what `inspect`
asks of the decision file, the project and the queue before it makes a request of them, and
what `_validate_rendered` asks of the worktree that the request was rendered into.
-/

namespace Conveyor

open Library

def recoveryError (message : String) : Failure := ⟨.recoveryError, message⟩

/-- What `inspect` finds around the queue: the decision file with its digest, the project, its
    repository and adapter, the evidence and its projection. -/
structure DecisionContext where
  regularFile : Option Bool
  document : Option Json
  decisionSha256 : String
  projectId : String
  activeMilestone : Option String
  repository : String
  repositoryId : String
  pathFingerprint : String
  ledgerHeadCurrent : Bool
  projection : Fields
  adapter : Result Json
  currentBranch : Option String
  head : String
  isClean : Bool
  gitOperation : Bool
  writerLease : Bool
  controllerReservation : Bool
  events : List Fields

structure FeatureDecision where
  featureId : String
  recordedQuestion : String
  approvedResolution : String
  targetStatus : String
  expectedDependencies : Option (List String)
  approvedDependencies : Option (List String)
  requiredIntegratedDependencies : List String

/-- What `_validate_rendered` reads of a `FeatureDecisionRequest`. -/
structure FeatureDecisionRequest where
  activeMilestone : Option String
  decisionSha256 : String
  expectedSelectedFeature : String
  selectedFeature : String
  decisions : List FeatureDecision
  baselineFeatures : List Fields
  authorizedPaths : List String

def DECISION_AUTHORIZED_PATHS : List String :=
  ["docs/CURRENT_STATUS.md", "docs/FEATURE_CATALOG.md", "docs/FEATURE_QUEUE.yaml",
   "docs/ROADMAP.md", "docs/RUN_LOG.md",
   "docs/features/F006-permission-and-privacy-center.md",
   "docs/features/F010-diagnostics-and-latency-instrumentation.md",
   "docs/features/F011-automated-test-harness.md",
   "docs/features/F097-imported-audio-transcription-workflow.md"]

/-! ### The decision file -/

def requireExactKeys (value : Fields) (allowed : List String) (path : String) : Result Unit :=
  let extra := ((value.keys.filter fun key => key ∉ allowed).dedup).insertionSort (· ≤ ·)
  let names := ", ".intercalate extra
  require (extra = []) (queueError s!"{path}: unsupported keys: {names}")

def nonemptyText (value : Json) (path : String) : Result String := do
  let text ← FeatureQueue.textOf value (queueError s!"{path}: expected a non-empty string")
  return Platform.strip text

/-- The object of a field. -/
def objectOf (value : Json) (failure : Failure) : Result Fields :=
  match value with
  | .obj fields => .ok fields
  | _ => .error failure

/-- An array of distinct non-empty texts. -/
def uniqueIds (value : Json) (failure : Failure) : Result (List String) := do
  let ids ← idArray value failure
  require ids.Nodup failure
  return ids

/-- The change of a decision's dependencies, of a feature as it is in the queue. -/
def readDependencyChange (path featureId : String) (feature : Fields) (change : Json) :
    Result (Option (List String) × Option (List String)) :=
  match change with
  | .null => .ok (none, none)
  | change => do
      let change ← objectOf change (queueError s!"{path}.dependency_change: expected an object")
      requireExactKeys change ["expected", "approved"] s!"{path}.dependency_change"
      let failure := queueError s!"{path}.dependency_change: expected unique feature-ID arrays"
      let before ← uniqueIds (change.get "expected") failure
      let after ← uniqueIds (change.get "approved") failure
      let current ← tupleOf (feature.get "dependencies")
      require (current = before.map Json.str)
        (recoveryError s!"feature dependencies changed before resolution: {featureId}")
      return (some before, some after)

/-- One entry of the decision file. -/
def readDecision (queue : FeatureQueue) (path : String) (seen : List String) (raw : Json) :
    Result FeatureDecision := do
  let raw ← objectOf raw (queueError s!"{path}: expected an object")
  requireExactKeys raw ["feature_id", "recorded_question", "approved_resolution", "target_status",
    "dependency_change", "required_integrated_dependencies"] path
  let featureId ← nonemptyText (raw.get "feature_id") s!"{path}.feature_id"
  require (featureId ∉ seen) (queueError s!"{path}: duplicate feature decision")
  let feature ← match queue.feature featureId with
    | some feature => .ok feature
    | none => .error (queueError s!"decision feature is absent: {featureId}")
  require (feature.get "status" = .str "human_decision_required" ∧
      feature.get "requires_human_decision" = .bool true)
    (recoveryError s!"feature is not decision-gated: {featureId}")
  let question ← nonemptyText (raw.get "recorded_question") s!"{path}.recorded_question"
  let recorded := match feature.get "human_decision" with
    | .obj recorded => decide (Fields.get recorded "question" = .str question)
    | _ => false
  require (recorded = true)
    (recoveryError s!"recorded decision question does not match exactly: {featureId}")
  let targetStatus ← nonemptyText (raw.get "target_status") s!"{path}.target_status"
  require (targetStatus ∈ ["proposed", "ready"])
    (queueError s!"{path}.target_status: expected proposed or ready")
  let change ← readDependencyChange path featureId feature (raw.get "dependency_change")
  let required ← uniqueIds (raw.getD "required_integrated_dependencies" (.arr []))
    (queueError s!"{path}.required_integrated_dependencies: expected unique IDs")
  let resolution ← nonemptyText (raw.get "approved_resolution") s!"{path}.approved_resolution"
  return ⟨featureId, question, resolution, targetStatus, change.1, change.2, required⟩

/-- The entries of the decision file, in their order. -/
def readDecisions (queue : FeatureQueue) (raws : List Json) : Result (List FeatureDecision) :=
  (raws.mapIdx fun index raw => (index, raw)).foldlM (fun decisions (index, raw) => do
    let decision ← readDecision queue s!"$.features[{index}]"
      (decisions.map FeatureDecision.featureId) raw
    return decisions ++ [decision]) []

/-! ### Inspection -/

/-- The file of the decisions, as an object. -/
def decisionDocument (context : DecisionContext) : Result Fields := do
  match context.regularFile with
  | none => .error (queueError "decision file must be readable UTF-8 JSON")
  | some regular =>
      require (regular = true)
        (queueError "decision file must be one regular single-link file")
  match context.document with
  | none => .error (queueError "decision file must be readable UTF-8 JSON")
  | some document => objectOf document (queueError "decision file root must be an object")

/-- The checks of the project and its repository, before the queue is read: the feature that is
    selected now and the one that is desired. -/
def preflight (context : DecisionContext) (selectedFeature : String) (document : Fields) :
    Result (String × String) := do
  requireExactKeys document ["schema_version", "project_id", "repository", "expected", "desired",
    "features", "commit_subject"] "$"
  require ((document.get "schema_version").equalsInt 1 = true)
    (queueError "$.schema_version: expected 1")
  let projectId ← nonemptyText (document.get "project_id") "$.project_id"
  require (projectId = context.projectId)
    (queueError "decision file project does not match the selected project")
  let contract ← objectOf (document.get "repository")
    (queueError "$.repository: expected an object")
  let expected ← objectOf (document.get "expected")
    (queueError "$.expected and $.desired must be objects")
  let desired ← objectOf (document.get "desired")
    (queueError "$.expected and $.desired must be objects")
  let isList := match document.get "features" with
    | .arr (_ :: _) => true
    | _ => false
  require (isList = true) (queueError "$.features: expected a non-empty array")
  requireExactKeys contract ["path", "repository_id", "path_fingerprint", "adapter_project_id"]
    "$.repository"
  requireExactKeys expected ["branch", "head", "projection_state", "selected_feature"] "$.expected"
  requireExactKeys desired ["selected_feature", "sole_ready_feature"] "$.desired"
  require (context.ledgerHeadCurrent = true)
    (recoveryError "feature-decision inspection refuses a stale durable ledger head")
  let adapterProject := match ← context.adapter with
    | .obj adapter => Fields.get adapter "project"
    | _ => .null
  let disagrees := recoveryError
    "application adapter project identity disagrees with decision file"
  let adapterProject ← objectOf adapterProject disagrees
  let adapterId ← nonemptyText (contract.get "adapter_project_id") "$.repository.adapter_project_id"
  require (adapterProject.get "id" = .str adapterId) disagrees
  let path ← nonemptyText (contract.get "path") "$.repository.path"
  let repositoryId ← nonemptyText (contract.get "repository_id") "$.repository.repository_id"
  let fingerprint ← nonemptyText (contract.get "path_fingerprint") "$.repository.path_fingerprint"
  let branch ← nonemptyText (expected.get "branch") "$.expected.branch"
  let head ← nonemptyText (expected.get "head") "$.expected.head"
  let state ← nonemptyText (expected.get "projection_state") "$.expected.projection_state"
  let selected ← nonemptyText (expected.get "selected_feature") "$.expected.selected_feature"
  let checks : List (String × Bool) :=
    [("repository_path", path = context.repository),
     ("repository_id", repositoryId = context.repositoryId),
     ("path_fingerprint", fingerprint = context.pathFingerprint),
     ("branch", some branch = context.currentBranch),
     ("head", head = context.head),
     ("clean", context.isClean),
     ("no_git_operation", !context.gitOperation),
     ("no_writer_lease", !context.writerLease),
     ("no_controller_reservation", !context.controllerReservation),
     ("no_active_transaction", context.projection.get "active_transaction" = .null),
     ("projection_state", state = "feature_ready" ∧
        context.projection.get "current_state" = .str "feature_ready"),
     ("selected_feature", context.projection.get "selected_next_feature" = .str selected)]
  let failed := (checks.filter fun check => !check.2).map Prod.fst
  let names := ", ".intercalate failed
  require (failed = []) (recoveryError s!"feature-decision preflight failed: {names}")
  let desiredSelected ← nonemptyText (desired.get "selected_feature") "$.desired.selected_feature"
  let soleReady ← nonemptyText (desired.get "sole_ready_feature") "$.desired.sole_ready_feature"
  require (selectedFeature = desiredSelected ∧ desiredSelected = soleReady)
    (queueError
      "--select-feature must equal the decision file's sole desired ready feature")
  return ((expected.get "selected_feature").asString?.getD "", desiredSelected)

/-- The checks of the feature that the decisions select. -/
def checkSelected (site : PlanningSite) (queue : FeatureQueue) (decisions : List FeatureDecision)
    (selectedFeature : String) : Result Unit := do
  let missing := queueError "selected feature must have one ready decision resolution"
  let decision ← match decisions.find? fun item => item.featureId = selectedFeature with
    | some decision => .ok decision
    | none => .error missing
  require (decision.targetStatus = "ready") missing
  let feature := (queue.feature selectedFeature).getD []
  let dependencies ← tupleOf (feature.get "dependencies")
  require (dependencies = decision.requiredIntegratedDependencies.map Json.str)
    (recoveryError "selected feature integrated-dependency contract does not match its queue")
  let complete ← queue.dependenciesComplete site.platform feature
  require (complete = true) (recoveryError "selected feature dependencies are not integrated")
  match feature.get "acceptance_criteria", feature.get "spec" with
  | .arr (_ :: _), .str specification => specIdentity site specification selectedFeature
  | _, _ => .error (recoveryError "selected feature lacks specification or acceptance criteria")

def PREPARATION_WORKFLOWS : List Json :=
  [.str "feature_preparation", .str "feature_execution", .str "feature_acceptance",
   .str "milestone_integration"]

/-- The feature that was selected before has not started. -/
def checkPrevious (context : DecisionContext) (queue : FeatureQueue) (previousId : String) :
    Result Unit :=
  let previous := (queue.feature previousId).getD []
  let started := context.events.any fun event =>
    let named := match event.get "payload" with
      | .obj payload => decide (Fields.get payload "feature_id" = .str previousId)
      | _ => false
    event.get "event_type" = .str "TransactionStarted" && named &&
      event.get "workflow_type" ∈ PREPARATION_WORKFLOWS
  let prepared := ["branch", "accepted_commit", "integrated_commit", "integration_base_commit"].any
    fun key => (previous.get key).truthy
  require (previous.get "status" = .str "ready" ∧ prepared = false ∧ started = false)
    (recoveryError "previous selected feature has started or been prepared")

/-- `FeatureDecisionResolver.inspect`, of the queue document in the worktree. -/
def inspectDecisions (site : PlanningSite) (context : DecisionContext) (selectedFeature : String)
    (file : Option Json) : Result FeatureDecisionRequest := do
  let document ← decisionDocument context
  let (previousId, desired) ← preflight context selectedFeature document
  let queue ← FeatureQueue.fromLocation site.toQueueSite file
  assertAcyclic site.platform queue
  let raws := match document.get "features" with
    | .arr raws => raws
    | _ => []
  let decisions ← readDecisions queue raws
  checkSelected site queue decisions desired
  checkPrevious context queue previousId
  let _ ← nonemptyText (document.get "commit_subject") "$.commit_subject"
  return {
      activeMilestone := context.activeMilestone
      decisionSha256 := context.decisionSha256
      expectedSelectedFeature := previousId
      selectedFeature := desired
      decisions := decisions
      baselineFeatures := queue.features
      authorizedPaths := DECISION_AUTHORIZED_PATHS }

/-! ### The rendered decisions -/

/-- The feature once a decision on it is resolved. -/
def resolvedFeature (request : FeatureDecisionRequest) (decision : FeatureDecision)
    (feature : Fields) : Result Fields := do
  let before ← tupleOf (feature.get "dependencies")
  let feature := match decision.approvedDependencies with
    | some approved => feature.set "dependencies" (.arr (approved.map Json.str))
    | none => feature
  let feature := feature.set "status" (.str decision.targetStatus)
  let feature := feature.set "requires_human_decision" (.bool false)
  let after ← tupleOf (feature.get "dependencies")
  return feature.set "decision_resolution" (.obj
    [("approved_resolution", .str decision.approvedResolution),
     ("decision_file_sha256", .str request.decisionSha256),
     ("dependency_change", .obj [("after", .arr after), ("before", .arr before)]),
     ("recorded_question", .str decision.recordedQuestion),
     ("selected_feature", .bool (decision.featureId = request.selectedFeature))])

/-- The feature that was selected before, once it is not. -/
def returnedFeature (request : FeatureDecisionRequest) (feature : Fields) : Fields :=
  (feature.set "status" (.str "proposed")).set "selection_resolution" (.obj
    [("decision_file_sha256", .str request.decisionSha256),
     ("implementation_started", .bool false),
     ("preparation_started", .bool false),
     ("previous_status", .str "ready"),
     ("resulting_status", .str "proposed"),
     ("selected_feature", .str request.selectedFeature)])

/-- The features that the decisions leave, under their identifiers. -/
def expectedFeatures (request : FeatureDecisionRequest) (baseline : Dict Fields) :
    Result (Dict Fields) := do
  let resolved ← request.decisions.foldlM (fun features decision => do
    let feature ← lookupKey features decision.featureId
    let feature ← resolvedFeature request decision feature
    return features.insert decision.featureId feature) baseline
  let previous ← lookupKey resolved request.expectedSelectedFeature
  return resolved.insert request.expectedSelectedFeature (returnedFeature request previous)

/-- The gate of a decided feature is cleared, and the evidence is there. -/
def checkCleared (queue : FeatureQueue) (decision : FeatureDecision) : Result Unit := do
  let feature := (queue.feature decision.featureId).getD []
  require (feature.get "status" = .str decision.targetStatus ∧
      feature.get "requires_human_decision" = .bool false)
    (queueError s!"decision resolution did not clear feature gate: {decision.featureId}")
  let dependencies ← tupleOf (feature.get "dependencies")
  require (∀ approved ∈ decision.approvedDependencies, dependencies = approved.map Json.str)
    (queueError s!"dependency resolution disagrees for {decision.featureId}")
  let evidence := match feature.get "decision_resolution" with
    | .obj evidence =>
        decide (Fields.get evidence "recorded_question" = .str decision.recordedQuestion ∧
          Fields.get evidence "approved_resolution" = .str decision.approvedResolution)
    | _ => false
  require (evidence = true)
    (queueError s!"durable decision evidence is incomplete: {decision.featureId}")

structure DecisionResult where
  readyFeatures : List String
  selectedFeature : String
  previousSelectedFeature : String
  changedPaths : List String

/-- `_validate_rendered`, of the queue document in the worktree. -/
def validateRendered (site : PlanningSite) (request : FeatureDecisionRequest)
    (changedPaths : List String) (file : Option Json) : Result DecisionResult := do
  let queue ← FeatureQueue.fromLocation site.toQueueSite file
  assertAcyclic site.platform queue
  let baseline ← byId site.platform request.baselineFeatures
  let after ← byId site.platform queue.features
  require ((∀ id ∈ after.keys, id ∈ baseline.keys) ∧ ∀ id ∈ baseline.keys, id ∈ after.keys)
    (queueError "feature IDs changed during decision resolution")
  let expected ← expectedFeatures request baseline
  let changed := (after.filter fun entry =>
    !Json.equals site.numbersEqual (.obj entry.2) (.obj ((expected.get? entry.1).getD []))).map
      Prod.fst
  let names := ", ".intercalate (changed.insertionSort (· ≤ ·))
  require (changed = [])
    (queueError s!"feature metadata changed outside the exact decision contract: {names}")
  let ready := readyIds site.platform queue (request.activeMilestone.getD "")
  require (ready = [request.selectedFeature])
    (queueError "decision resolution must leave exactly one ready feature")
  requireAll (checkCleared queue) request.decisions
  let previous := (queue.feature request.expectedSelectedFeature).getD []
  require (previous.get "status" = .str "proposed")
    (queueError "previous selected feature did not return to proposed")
  let unauthorized := unauthorizedPaths changedPaths request.authorizedPaths
  let names := ", ".intercalate unauthorized
  require (unauthorized = [])
    (queueError s!"feature-decision resolution changed unauthorized paths: {names}")
  require (site.diffCheck = true)
    (queueError "feature-decision resolution git diff --check failed")
  return ⟨ready, request.selectedFeature, request.expectedSelectedFeature, changedPaths⟩

end Conveyor
