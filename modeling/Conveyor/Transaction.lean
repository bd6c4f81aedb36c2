import Conveyor.Repository

/-!
# Transactions

What one writable phase is made of (`contracts.py`): the policy of paths it may change,
the repository snapshot it starts from, its identity and state, and the result envelope
its session returns.
-/

namespace Conveyor

open Library

/-! ### Paths and policies -/

/-- Whether `PurePosixPath` keeps the path as it is and it is relative, without `..`. -/
def isSafeRelativePath (path : String) : Bool :=
  decide (path = ".") || (path.toList.splitOn '/').all fun part =>
    decide (part ≠ [] ∧ part ≠ ['.'] ∧ part ≠ ['.', '.'])

def safeRelativePath (path : String) : Result Unit :=
  require (isSafeRelativePath path = true)
    (transactionError s!"unsafe repository-relative path: {path}")

/-- `item.rstrip("/")`. -/
def stripSlashes (path : String) : String :=
  String.ofList (path.toList.reverse.dropWhile (· = '/')).reverse

/-- The path is one of the given ones or lies under one of the prefixes. -/
def coveredBy (paths prefixes : List String) (path : String) : Bool :=
  decide (path ∈ paths) || prefixes.any fun root =>
    decide (path = root) || (root ++ "/").toList.isPrefixOf path.toList

structure MutationPolicy where
  allowedPaths : List String
  allowedPrefixes : List String := []
  deniedPaths : List String := []
  deniedPrefixes : List String := []
  allowUntracked : Bool := false
  requireCleanStart : Bool := true
  commitSubject : Option String := none
deriving DecidableEq, Repr

namespace MutationPolicy

/-- `__post_init__`: the four lists are normalized, sorted and unique. -/
def checked (policy : MutationPolicy) : Result MutationPolicy := do
  requireAll safeRelativePath policy.allowedPaths
  require (sortedSet policy.allowedPaths = policy.allowedPaths)
    (transactionError "allowed paths must be sorted and unique")
  requireAll (fun root => safeRelativePath (stripSlashes root)) policy.allowedPrefixes
  require (sortedSet (policy.allowedPrefixes.map stripSlashes) = policy.allowedPrefixes)
    (transactionError "allowed prefixes must be normalized, sorted, and unique")
  requireAll safeRelativePath policy.deniedPaths
  require (sortedSet policy.deniedPaths = policy.deniedPaths)
    (transactionError "denied paths must be normalized, sorted, and unique")
  requireAll (fun root => safeRelativePath (stripSlashes root)) policy.deniedPrefixes
  require (sortedSet (policy.deniedPrefixes.map stripSlashes) = policy.deniedPrefixes)
    (transactionError "denied prefixes must be normalized, sorted, and unique")
  return policy

def isDenied (policy : MutationPolicy) : String → Bool :=
  coveredBy policy.deniedPaths policy.deniedPrefixes

def isAllowed (policy : MutationPolicy) : String → Bool :=
  coveredBy policy.allowedPaths policy.allowedPrefixes

/-- `validate`. -/
def validate (policy : MutationPolicy) (paths : List String) : Result (List String) := do
  requireAll safeRelativePath paths
  let observed := sortedSet paths
  let denied := ", ".intercalate (observed.filter policy.isDenied)
  let unauthorized := ", ".intercalate (observed.filter fun path => !policy.isAllowed path)
  require (observed.filter policy.isDenied = [])
    (transactionError s!"denied control-plane mutation: {denied}")
  require ((observed.filter fun path => !policy.isAllowed path) = [])
    (transactionError s!"unauthorized path mutation: {unauthorized}")
  return observed

def textArray (items : List String) : Json := .arr (items.map .str)

/-- `to_dict`. -/
def toFields (policy : MutationPolicy) : Fields :=
  Fields.ofPairs
    [("allowed_paths", textArray policy.allowedPaths),
     ("allowed_prefixes", textArray policy.allowedPrefixes),
     ("denied_paths", textArray policy.deniedPaths),
     ("denied_prefixes", textArray policy.deniedPrefixes),
     ("allow_untracked", .bool policy.allowUntracked),
     ("require_clean_start", .bool policy.requireCleanStart),
     ("commit_subject", .ofOption policy.commitSubject)]

end MutationPolicy

/-! ### Snapshots -/

structure RepositorySnapshot where
  repositoryIdentity : String
  repositoryPathFingerprint : String
  branch : String
  head : String
  queueFingerprint : Option String
  trackedDiffFingerprint : String
  untrackedFingerprint : String
  trackedChangedPaths : List String
  untrackedPaths : List String
  gitOperations : Dict Bool
deriving DecidableEq

namespace RepositorySnapshot

def clean (snapshot : RepositorySnapshot) : Bool :=
  snapshot.trackedChangedPaths.isEmpty && snapshot.untrackedPaths.isEmpty

/-- `any(git_operations.values())`. -/
def operating (snapshot : RepositorySnapshot) : Bool := snapshot.gitOperations.any fun item => item.2

def toFields (snapshot : RepositorySnapshot) : Fields :=
  Fields.ofPairs
    [("repository_identity", .str snapshot.repositoryIdentity),
     ("repository_path_fingerprint", .str snapshot.repositoryPathFingerprint),
     ("branch", .str snapshot.branch), ("head", .str snapshot.head),
     ("queue_fingerprint", .ofOption snapshot.queueFingerprint),
     ("tracked_diff_fingerprint", .str snapshot.trackedDiffFingerprint),
     ("untracked_fingerprint", .str snapshot.untrackedFingerprint),
     ("tracked_changed_paths", MutationPolicy.textArray snapshot.trackedChangedPaths),
     ("untracked_paths", MutationPolicy.textArray snapshot.untrackedPaths),
     ("git_operations", .obj (Fields.ofPairs (snapshot.gitOperations.map fun item =>
       (item.1, .bool item.2))))]

end RepositorySnapshot

/-! ### Session results -/

def WORKFLOW_CLASSIFICATIONS : WorkflowType → List String
  | .queueReconciliation =>
      ["RECONCILED_READY_WORK", "RECONCILED_NO_READY_WORK", "HUMAN_DECISION_REQUIRED",
       "MILESTONE_COMPLETE", "PLANNING_VALIDATION_FAILED", "PLANNING_SEMANTIC_CONFLICT",
       "RETRYABLE_PLANNING_FAILURE", "TERMINAL_PLANNING_FAILURE"]
  | .featurePreparation =>
      ["FEATURE_PREPARED", "FEATURE_VALIDATION_FAILED", "HUMAN_DECISION_REQUIRED",
       "RETRYABLE_FEATURE_FAILURE", "TERMINAL_FEATURE_FAILURE"]
  | .featureExecution | .featureAcceptance =>
      ["FEATURE_ACCEPTED", "FEATURE_REJECTED", "FEATURE_VALIDATION_FAILED",
       "HUMAN_DECISION_REQUIRED", "RETRYABLE_FEATURE_FAILURE", "TERMINAL_FEATURE_FAILURE"]
  | .milestoneIntegration =>
      ["INTEGRATED", "VALIDATION_FAILED", "HUMAN_DECISION_REQUIRED", "SEMANTIC_CONFLICT",
       "RETRYABLE_INTEGRATION_FAILURE", "TERMINAL_INTEGRATION_FAILURE"]
  | .milestoneGate =>
      ["MILESTONE_GATE_PASSED", "MILESTONE_GATE_FAILED", "HUMAN_DECISION_REQUIRED",
       "RETRYABLE_GATE_FAILURE", "TERMINAL_GATE_FAILURE"]
  | .humanDecisionResolution =>
      ["HUMAN_GATE_RESOLVED", "HUMAN_DECISION_REQUIRED", "TERMINAL_RESOLUTION_FAILURE"]
  | .recovery =>
      ["RECOVERY_APPLIED", "TRANSACTION_SUPERSEDED", "HUMAN_DECISION_REQUIRED",
       "RETRYABLE_RECOVERY_FAILURE", "TERMINAL_RECOVERY_FAILURE"]

structure SessionResultEnvelope where
  workflowType : WorkflowType
  classification : String
  projectId : String
  repositoryIdentity : String
  transactionId : String
  runId : String
  sessionId : String
  startingBranch : String
  startingCommit : String
  currentCommit : String
  featureId : Option String
  changedPaths : List String
  evidence : Fields
  nextState : String
deriving DecidableEq

namespace SessionResultEnvelope

def schemaError (message : String) : Failure := ⟨.schemaValidationError, message⟩

def REQUIRED : List String :=
  ["schema_version", "workflow_type", "classification", "project_id", "repository_identity",
   "transaction_id", "run_id", "session_id", "starting_branch", "starting_commit",
   "current_commit", "changed_paths", "evidence", "next_state"]

/-- The workflows whose results name a feature. -/
def NAMES_FEATURE : List WorkflowType :=
  [.featurePreparation, .featureExecution, .featureAcceptance, .milestoneIntegration]

def textItems : List Json → Option (List String)
  | [] => some []
  | .str text :: rest => (textItems rest).map (text :: ·)
  | _ :: _ => none

/-- A required text: present, a text, and not empty. -/
def identityText (value : Fields) (name : String) : Result String :=
  match value.get name with
  | .str text =>
      if text = "" then
        .error (schemaError "session-result identity fields must be non-empty strings")
      else .ok text
  | _ => .error (schemaError "session-result identity fields must be non-empty strings")

def workflowOf (value : Fields) : Result WorkflowType :=
  match (value.get "workflow_type").asString?.bind WorkflowType.ofValue? with
  | some workflow => .ok workflow
  | none => .error (schemaError "session-result workflow_type is invalid")

/-- A list or an object cannot be looked up in the set of the classifications. -/
def classificationOf (value : Fields) (workflow : WorkflowType) : Result String := do
  let _ ← hashKey (value.get "classification")
  match (value.get "classification").asString? with
  | some classification =>
      require (classification ∈ WORKFLOW_CLASSIFICATIONS workflow)
        (schemaError s!"classification is not valid for {workflow.value}")
      return classification
  | none => .error (schemaError s!"classification is not valid for {workflow.value}")

def changedPathsOf (value : Fields) : Result (List String) := do
  match value.get "changed_paths" with
  | .arr items =>
      match textItems items with
      | some changed =>
          requireAll safeRelativePath changed
          require (changed = sortedSet changed)
            (schemaError "session-result changed_paths must be sorted and unique")
          return changed
      | none => .error (schemaError "session-result changed_paths must be a string array")
  | _ => .error (schemaError "session-result changed_paths must be a string array")

def featureOf (value : Fields) (workflow : WorkflowType) : Result (Option String) := do
  match value.get "feature_id" with
  | .null =>
      require (workflow ∉ NAMES_FEATURE)
        (schemaError s!"session-result feature_id is required for {workflow.value}")
      return none
  | .str feature =>
      require (feature ≠ "")
        (schemaError "session-result feature_id must be null or a non-empty string")
      return some feature
  | _ => .error (schemaError "session-result feature_id must be null or a non-empty string")

/-- `evidence`, with the queue validation a reconciliation carries; `accepts` stands for
    `normalize_warning_evidence` returning. -/
def evidenceOf (accepts : Json → Bool) (value : Fields) (workflow : WorkflowType) :
    Result Fields := do
  match value.get "evidence" with
  | .obj evidence =>
      require (workflow = .queueReconciliation →
          (Fields.get evidence "queue_validation").isInstance .dict = true)
        (schemaError "queue-reconciliation evidence.queue_validation must be an object")
      require (workflow = .queueReconciliation →
          accepts (Fields.get evidence "queue_validation") = true)
        (schemaError "queue validation evidence is invalid")
      return evidence
  | _ => .error (schemaError "session-result evidence must be an object")

/-- `from_dict`. -/
def fromDict (accepts : Json → Bool) (value : Fields) : Result SessionResultEnvelope := do
  let missing := ", ".intercalate (REQUIRED.filter (· ∉ value.keys))
  require (REQUIRED.filter (· ∉ value.keys) = [])
    (schemaError s!"session-result envelope missing: {missing}")
  let workflow ← workflowOf value
  require ((value.get "schema_version").equalsInt 1 = true)
    (schemaError "session-result schema_version must be 1")
  let classification ← classificationOf value workflow
  let changed ← changedPathsOf value
  let evidence ← evidenceOf accepts value workflow
  let projectId ← identityText value "project_id"
  let repositoryIdentity ← identityText value "repository_identity"
  let transactionId ← identityText value "transaction_id"
  let runId ← identityText value "run_id"
  let sessionId ← identityText value "session_id"
  let startingBranch ← identityText value "starting_branch"
  let startingCommit ← identityText value "starting_commit"
  let currentCommit ← identityText value "current_commit"
  let nextState ← identityText value "next_state"
  let feature ← featureOf value workflow
  return {
    workflowType := workflow, classification := classification, projectId := projectId
    repositoryIdentity := repositoryIdentity, transactionId := transactionId, runId := runId
    sessionId := sessionId, startingBranch := startingBranch, startingCommit := startingCommit
    currentCommit := currentCommit, featureId := feature, changedPaths := changed
    evidence := evidence, nextState := nextState }

/-- `to_dict`. -/
def toFields (envelope : SessionResultEnvelope) : Fields :=
  Fields.ofPairs
    [("schema_version", .int 1), ("workflow_type", .str envelope.workflowType.value),
     ("classification", .str envelope.classification), ("project_id", .str envelope.projectId),
     ("repository_identity", .str envelope.repositoryIdentity),
     ("transaction_id", .str envelope.transactionId), ("run_id", .str envelope.runId),
     ("session_id", .str envelope.sessionId), ("starting_branch", .str envelope.startingBranch),
     ("starting_commit", .str envelope.startingCommit),
     ("current_commit", .str envelope.currentCommit),
     ("feature_id", .ofOption envelope.featureId),
     ("changed_paths", MutationPolicy.textArray envelope.changedPaths),
     ("evidence", .obj envelope.evidence), ("next_state", .str envelope.nextState)]

end SessionResultEnvelope

/-! ### One transaction -/

structure PhaseTransaction where
  transactionId : String
  workflowType : WorkflowType
  projectId : String
  repositoryIdentity : String
  repositoryPathFingerprint : String
  milestone : Option String
  featureId : Option String
  runId : String
  sessionIds : List String := []
  startingBranch : String
  startingHead : String
  startingQueueFingerprint : Option String
  startingTrackedDiffFingerprint : String
  startingUntrackedFingerprint : String
  allowedMutationPolicy : MutationPolicy
  leaseIdentity : Option String := none
  currentState : TransactionState := .created
  terminalClassification : Option String := none
  terminalReference : Option String := none
  nextProjectState : Option String := none
deriving DecidableEq

namespace PhaseTransaction

/-- The arguments of a phase. -/
structure Request where
  workflowType : WorkflowType
  milestone : Option String
  featureId : Option String
  runId : String
  policy : MutationPolicy
  transactionId : Option String := none

/-- `create`; `uuid4` names a transaction without a given name. -/
def create (request : Request) (projectId : String) (snapshot : RepositorySnapshot)
    (uuid4 : String) : Result PhaseTransaction := do
  require (isSafeIdentifier projectId = true) (transactionError s!"invalid project_id: {projectId}")
  require (isSafeIdentifier request.runId = true)
    (transactionError s!"invalid run_id: {request.runId}")
  return {
    transactionId := match request.transactionId with
      | some name => if name = "" then uuid4 else name
      | none => uuid4
    workflowType := request.workflowType
    projectId := projectId
    repositoryIdentity := snapshot.repositoryIdentity
    repositoryPathFingerprint := snapshot.repositoryPathFingerprint
    milestone := request.milestone
    featureId := request.featureId
    runId := request.runId
    startingBranch := snapshot.branch
    startingHead := snapshot.head
    startingQueueFingerprint := snapshot.queueFingerprint
    startingTrackedDiffFingerprint := snapshot.trackedDiffFingerprint
    startingUntrackedFingerprint := snapshot.untrackedFingerprint
    allowedMutationPolicy := request.policy }

def transition (transaction : PhaseTransaction) (target : TransactionState) :
    Result PhaseTransaction :=
  if target = transaction.currentState then .ok transaction
  else do
    let current := transaction.currentState.value
    require (target ∈ ALLOWED_TRANSITIONS transaction.currentState)
      (transactionError s!"invalid transaction transition: {current} -> {target.value}")
    return { transaction with currentState := target }

def terminate (transaction : PhaseTransaction) (state : TransactionState)
    (classification : String) (reference : Option String) : Result PhaseTransaction := do
  require (state ∈ TERMINAL_STATES)
    (transactionError "terminal outcome requires a terminal state")
  require (transaction.terminalClassification = none ∧
      transaction.currentState ∉ TERMINAL_STATES)
    (transactionError "transaction already has a terminal outcome")
  let transaction ← transaction.transition state
  return { transaction with
    terminalClassification := some classification, terminalReference := reference }

theorem transition_eq_ok {transaction after : PhaseTransaction} {target : TransactionState}
    (h : transaction.transition target = .ok after) :
    after = { transaction with currentState := target } := by
  unfold transition at h
  split at h
  · rename_i htarget
    cases h
    rw [htarget]
  · simp only [require_bind_eq_ok, pure, Except.pure, Except.ok.injEq] at h
    exact h.2.symm

theorem terminate_eq_ok {transaction after : PhaseTransaction} {state : TransactionState}
    {classification : String} {reference : Option String}
    (h : transaction.terminate state classification reference = .ok after) :
    after = { transaction with
      currentState := state
      terminalClassification := some classification
      terminalReference := reference } := by
  simp only [terminate, bind_eq_ok, require_eq_ok, exists_const, pure, Except.pure,
    Except.ok.injEq] at h
  obtain ⟨-, -, moved, hmoved, rfl⟩ := h
  rw [transition_eq_ok hmoved]

end PhaseTransaction

end Conveyor
