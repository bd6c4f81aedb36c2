import Conveyor.Projection

/-!
# Execution plans

The typed plan derived from a projection (`execution_plan.py`): which workflow its next action
stands for, the identity of the feature and of the commits it works on, and the checks that
make `from_projection` refuse a projection. The same identity is derived once more when a plan
is validated against its projection.
-/

namespace Conveyor

open Library

/-- The workflow of an action. No workflow stands for the approval of a merge by a human. -/
def ACTION_WORKFLOW : Dict (Option WorkflowType) :=
  [("queue_reconciliation", some .queueReconciliation),
   ("feature_cycle", some .featureExecution),
   ("milestone_integration", some .milestoneIntegration), ("milestone_gate", some .milestoneGate),
   ("human_decision_resolution", some .humanDecisionResolution),
   ("verify_consistency", some .recovery), ("human_merge_approval", none)]

def WORKFLOW_NEXT_STATE : WorkflowType → String
  | .queueReconciliation => "feature_ready"
  | .featurePreparation => "feature_preparing"
  | .featureExecution => "feature_accepted"
  | .featureAcceptance => "integration_ready"
  | .milestoneIntegration => "feature_integrated"
  | .milestoneGate => "milestone_ready_for_merge"
  | .humanDecisionResolution => "queue_reconciliation"
  | .recovery => "verify_consistency"

/-- `workflow.value if isinstance(workflow, WorkflowType) else workflow`. -/
def workflowText (workflow : Option WorkflowType) : String :=
  (workflow.map WorkflowType.value).getD "human_merge_approval"

/-- The lease of a workflow, if it has one. -/
def workflowLease (workflow : Option WorkflowType) : Json :=
  .ofOption (workflow.map fun workflow => (WORKFLOW_LEASE workflow).value)

/-- The items of `for item in value`. -/
def itemsOf (value : Json) : Result (List Json) :=
  match value with
  | .arr items => .ok items
  | .obj fields => .ok (Fields.keys fields |>.map Json.str)
  | .str text => .ok (text.toList.map fun c => .str (String.singleton c))
  | _ => .error ⟨.typeError, "object is not iterable"⟩

/-- `projection.get(key, [])`, iterated. -/
def itemsAt (projection : Fields) (key : String) : Result (List Json) :=
  itemsOf (projection.getD key (.arr []))

def asFields? : Json → Option Fields
  | .obj fields => some fields
  | _ => none

/-! ### The identity of a plan -/

/-- The terminal head of a transaction, if it is the completed integration of the outcome. -/
def terminalHeadOf (outcome transaction : Fields) (milestoneBranch : Json) : Option String := do
  let head ← (outcome.get "terminal_head").asString?
  let terminal ← asFields? (transaction.get "terminal_snapshot")
  let operations ← asFields? (terminal.get "git_operations")
  if transaction.get "workflow_type" = .str WorkflowType.milestoneIntegration.value ∧
      transaction.get "state" = .str "completed" ∧
      transaction.get "terminal_classification" = .str "INTEGRATED" ∧
      transaction.get "feature_id" = outcome.get "feature_id" ∧
      transaction.get "terminal_reference" = .str head ∧
      terminal.get "branch" = milestoneBranch ∧ terminal.get "head" = .str head ∧
      terminal.get "clean" = .bool true ∧ operations.all (fun item => !item.2.truthy) = true
  then some head else none

/-- An outcome that names everything a planning baseline needs. -/
def isCompleteOutcome (outcome : Fields) : Bool :=
  ["terminal_head", "transaction_id", "feature_id", "accepted_commit", "integrated_commit"].all
      (fun field => textField outcome field nonempty) &&
    outcome.get "terminal_repository_clean" = .bool true

/-- The first of the outcomes with the greatest sequence. -/
def latestOutcome (outcomes : List (Int × Fields)) : Option Fields :=
  (outcomes.foldl (fun best item => match best with
    | none => some item
    | some found => if found.1 < item.1 then some item else best) none).map Prod.snd

/-- The projection of an idle project whose last feature is integrated. -/
def isIdleProjection (projection : Fields) (workflow : Option WorkflowType) : Bool :=
  decide (workflow = some .queueReconciliation) &&
    projection.get "current_state" = .str "queue_reconciliation" &&
    projection.get "allowed_next_action" = .str "queue_reconciliation" &&
    ["active_transaction", "current_feature", "selected_next_feature", "accepted_feature_commit",
      "human_gate", "required_lease"].all (fun field => projection.get field = .null) &&
    projection.get "session_resume_eligible" = .bool false

/-- `completed_integration_planning_baseline`. -/
def completedIntegrationPlanningBaseline (projection : Fields) (workflow : Option WorkflowType)
    (milestoneBranch : Json) : Result (Option String) :=
  let expected := firstTruthy [projection.get "milestone_branch", milestoneBranch]
  if isIdleProjection projection workflow = false ∨ expected.isInstance .str = false ∨
      expected.truthy = false then .ok none
  else do
    let items ← itemsAt projection "historical_integration_outcomes"
    let outcomes := (items.filterMap asFields?).filterMap fun item =>
      if item.get "classification" = .str "INTEGRATED" then
        (asInt? (item.get "sequence")).map fun sequence => (sequence, item)
      else none
    match latestOutcome outcomes with
    | none => return none
    | some outcome =>
        if isCompleteOutcome outcome = false then return none
        else
          let transactions ← itemsAt projection "transactions"
          let transaction := (transactions.filterMap asFields?).find? fun item =>
            Fields.get item "transaction_id" = outcome.get "transaction_id"
          return transaction.bind fun transaction => terminalHeadOf outcome transaction expected

structure ExecutionIdentity where
  featureId : Json
  acceptedCommit : Json
  startingCommit : Json
  featureBranch : Json
  milestoneBranch : Json
  humanGateAuthoritative : Bool
deriving DecidableEq

/-- The gate that speaks for the identity of a plan: only one that is being decided does. -/
def gateIdentity (projection : Fields) (workflow : Option WorkflowType) : Option Fields :=
  if projection.get "current_state" = .str "human_decision_required" ∧
      workflow = some .humanDecisionResolution then
    asFields? (projection.get "human_gate")
  else none

/-- `execution_identity`. -/
def executionIdentity (projection : Fields) (workflow : Option WorkflowType)
    (milestoneBranch : Json) : Result ExecutionIdentity := do
  let authoritative := gateIdentity projection workflow
  let gate : Fields := authoritative.getD []
  let baseline ← completedIntegrationPlanningBaseline projection workflow milestoneBranch
  return {
    featureId := firstTruthy [gate.get "feature_id", gate.get "feature",
      projection.get "current_feature", projection.get "selected_next_feature"]
    acceptedCommit := firstTruthy [gate.get "accepted_feature_commit",
      gate.get "accepted_commit", projection.get "accepted_feature_commit"]
    startingCommit := firstTruthy [gate.get "feature_starting_commit",
      gate.get "candidate_validated_planning_commit", .ofOption baseline,
      projection.get "selected_feature_starting_commit"]
    featureBranch := firstTruthy [gate.get "feature_branch", projection.get "feature_branch"]
    milestoneBranch := firstTruthy [gate.get "milestone_branch",
      projection.get "milestone_branch", milestoneBranch]
    humanGateAuthoritative := authoritative.isSome }

/-! ### Plans -/

/-- The arguments of `from_projection` beside the projection. -/
structure PlanArguments where
  startingCommit : Option String := none
  featureBranch : Option String := none
  milestoneBranch : Option String := none
  acceptedTree : Option String := none
  featureWorktree : Option String := none
  integrationWorktree : Option String := none
  acceptanceTransaction : Option String := none

structure ExecutionPlan where
  projectId : String
  ledgerSequence : Int
  ledgerFingerprint : String
  projectionFingerprint : String
  currentState : String
  workflow : Option WorkflowType
  featureId : Json
  acceptedCommit : Json
  startingBranch : Json
  startingCommit : Json
  featureBranch : Json
  milestoneBranch : Json
  transactionMode : String
  sessionResumeEligible : Bool
  sessionToResume : Json
  leaseType : Json
  applicationMutationExpected : Bool
  nextStateOnSuccess : String
  acceptedTree : Option String
  featureWorktree : Option String
  integrationWorktree : Option String
  acceptanceTransaction : Option String
deriving DecidableEq

namespace ExecutionPlan

/-- `str(projection.get("allowed_next_action") or "verify_consistency")`. -/
def nextAction (P : Platform) (projection : Fields) : String :=
  P.str (firstTruthy [projection.get "allowed_next_action", .str "verify_consistency"])

/-- `WorkflowType(str(active["workflow_type"]))`. -/
def workflowOf (P : Platform) (transaction : Fields) : Result WorkflowType :=
  match transaction.get? "workflow_type" with
  | none => .error ⟨.keyError, "'workflow_type'"⟩
  | some value =>
      match WorkflowType.ofValue? (P.str value) with
      | some workflow => .ok workflow
      | none => .error ⟨.valueError, s!"{P.str value} is not a valid WorkflowType"⟩

/-- The branch a prepared feature starts from. -/
def preparedBranch (projection : Fields) (workflow : Option WorkflowType) : Json :=
  match workflow, projection.get "prepared_feature_execution" with
  | some .featureExecution, .obj prepared => Fields.get prepared "feature_branch"
  | _, _ => .null

/-- What a prepared feature must agree with. -/
def preparedAgrees (projection : Fields) (workflow : Option WorkflowType)
    (identity : ExecutionIdentity) : Bool :=
  match projection.get "prepared_feature_execution" with
  | .obj prepared =>
      decide (workflow = some .featureExecution) &&
        Fields.get prepared "feature_id" = identity.featureId &&
        Fields.get prepared "feature_branch" = identity.featureBranch &&
        Fields.get prepared "starting_commit" = identity.startingCommit &&
        Fields.get prepared "milestone_branch" = identity.milestoneBranch
  | _ => true

/-- The transaction of the projection that is active. -/
def activeOf (projection : Fields) : Result (Option Fields) := do
  let transactions ← itemsAt projection "transactions"
  return (transactions.filterMap asFields?).find? fun item =>
    Fields.get item "transaction_id" = projection.get "active_transaction"

/-- The features that the history lists as integrated, as keys. -/
def integratedFeatures (historical : List Json) : Result (List Json) :=
  ((historical.filterMap asFields?).filter fun item =>
    item.get "classification" = .str "INTEGRATED").mapM fun item =>
      hashKey (item.get "feature_id")

/-- The accepted commits that the history lists. -/
def historicalAcceptedCommits (historical : List Json) : List Json :=
  ((historical.filterMap asFields?).map fun item => item.get "accepted_commit").filter
    fun commit => commit.isInstance .str

def EXECUTABLE_WORKFLOWS : List (Option WorkflowType) :=
  [some .featureExecution, some .milestoneIntegration]

/-- A plan for a feature is not one for history. -/
def requireFreshFeature (workflow : Option WorkflowType) (identity : ExecutionIdentity)
    (integrated commits : List Json) : Result Unit :=
  if workflow ∈ EXECUTABLE_WORKFLOWS then do
    require (isText identity.featureId = true)
      (projectionError "executable feature workflow lacks a selected feature")
    require (identity.featureId ∉ integrated)
      (projectionError "integrated feature cannot receive a new executable plan")
    let commit ← hashKey identity.acceptedCommit
    require (commit ∉ commits)
      (projectionError "historical accepted commit cannot create a fresh executable plan")
  else return ()

/-- `int(projection.get("ledger_sequence", -1))`. -/
def sequenceOf (projection : Fields) : Result Int := do
  let key ← hashKey (projection.getD "ledger_sequence" (.int (-1)))
  match key with
  | .int sequence => return sequence
  | _ => .error ⟨.valueError, "invalid literal for int()"⟩

/-- The transaction of this name, of a list in which every item before it must be an object. -/
def namedTransaction (transactionId : Json) : List Json → Result (Option Fields)
  | [] => .ok none
  | .obj item :: rest =>
      if Fields.get item "transaction_id" = transactionId then .ok (some item)
      else namedTransaction transactionId rest
  | _ :: _ => .error ⟨.attributeError, "object has no attribute 'get'"⟩

/-- The workflow that the projection asks for, as a plan is validated against it. -/
def expectedWorkflow (P : Platform) (projection : Fields) : Result (Option WorkflowType) := do
  let activeId := projection.get "active_transaction"
  if activeId ≠ .null then
    let transactions ← itemsAt projection "transactions"
    let active ← namedTransaction activeId transactions
    match active with
    | none => .error (projectionError "execution plan names an absent active transaction")
    | some transaction => (workflowOf P transaction).map some
  else
    return (ACTION_WORKFLOW.get? (nextAction P projection)).getD (some .recovery)

/-- The checks of `validate_against` with their names. -/
def planChecks (projection : Fields) (plan : ExecutionPlan) (workflow : Option WorkflowType)
    (identity : ExecutionIdentity) : List (String × Bool) :=
  let startingBranch := match workflow, projection.get "prepared_feature_execution" with
    | some .featureExecution, .obj prepared => Fields.get prepared "feature_branch"
    | _, _ => firstTruthy [identity.milestoneBranch, plan.milestoneBranch]
  let optional := fun (name : String) (planned expected : Json) =>
    if expected = .null then [] else [(name, decide (planned = expected))]
  [("project_id", decide (.str plan.projectId = projection.get "project_id")),
   ("ledger_sequence", (projection.get "ledger_sequence").equalsInt plan.ledgerSequence),
   ("ledger_fingerprint",
     decide (.str plan.ledgerFingerprint = projection.get "ledger_fingerprint")),
   ("projection_fingerprint",
     decide (.str plan.projectionFingerprint = projection.get "projection_fingerprint")),
   ("current_state", decide (.str plan.currentState = projection.get "current_state")),
   ("workflow_type", decide (plan.workflow = workflow)),
   ("feature_id", decide (plan.featureId = identity.featureId)),
   ("accepted_commit", decide (plan.acceptedCommit = identity.acceptedCommit)),
   ("starting_branch", decide (plan.startingBranch = startingBranch)),
   ("session_resume_eligible",
     plan.sessionResumeEligible == (projection.get "session_resume_eligible").truthy),
   ("lease_type", decide (plan.leaseType =
     firstTruthy [projection.get "required_lease", workflowLease workflow]))] ++
    optional "starting_commit" plan.startingCommit identity.startingCommit ++
    optional "feature_branch" plan.featureBranch identity.featureBranch ++
    optional "milestone_branch" plan.milestoneBranch identity.milestoneBranch

/-- `validate_against`. -/
def validateAgainst (P : Platform) (projection : Fields) (plan : ExecutionPlan) : Result Unit := do
  let workflow ← expectedWorkflow P projection
  let identity ← executionIdentity projection workflow plan.milestoneBranch
  let failed := ((planChecks projection plan workflow identity).filter fun check => !check.2).map
    Prod.fst
  let names := ", ".intercalate failed
  require (failed = [])
    (projectionError s!"execution plan disagrees with authoritative projection: {names}")

/-- The workflow of the plan: of the active transaction, or else of the next action. -/
def plannedWorkflow (P : Platform) (projection : Fields) (active : Option Fields) :
    Result (Option WorkflowType) :=
  match active with
  | some transaction =>
      match workflowOf P transaction with
      | .ok workflow => .ok (some workflow)
      | .error _ =>
          .error (projectionError "active projection transaction has invalid workflow type")
  | none => .ok ((ACTION_WORKFLOW.get? (nextAction P projection)).getD (some .recovery))

/-- `session_ids[-1]` of the active transaction, if the projection may resume it. -/
def resumedSession (projection : Fields) (active : Option Fields) : Result Json := do
  let sessions ← itemsOf (firstTruthy [(active.getD []).get "session_ids", .arr []])
  let resume := (projection.get "session_resume_eligible").truthy
  require (resume = true → sessions ≠ [])
    (projectionError "resume-eligible projection lacks an exact kernel session")
  return if resume then sessions.getLast?.getD .null else .null

/-- Whether the plan mutates the application. -/
def mutatesApplication (workflow : Option WorkflowType) : Bool :=
  match workflow with
  | none | some .featureAcceptance | some .humanDecisionResolution | some .recovery => false
  | some _ => true

/-- `from_projection`. -/
def fromProjection (P : Platform) (projection : Fields) (arguments : PlanArguments) :
    Result ExecutionPlan := do
  let claimed := projection.get "projection_fingerprint"
  require (claimed = .str (Conveyor.projectionFingerprint P projection))
    (projectionError "authoritative projection fingerprint is invalid")
  let action := nextAction P projection
  require (action ∈ ACTION_WORKFLOW.keys)
    (projectionError s!"projection has unsupported next action: {action}")
  let active ← activeOf projection
  let workflow ← plannedWorkflow P projection active
  let session ← resumedSession projection active
  let projectedLease := projection.get "required_lease"
  require (projectedLease = .null ∨ projectedLease = workflowLease workflow)
    (projectionError "projection required lease disagrees with its workflow")
  let milestoneBranch := Json.ofOption arguments.milestoneBranch
  let identity ← executionIdentity projection workflow milestoneBranch
  require (preparedAgrees projection workflow identity = true)
    (projectionError
      "prepared feature boundary disagrees with authoritative projection identity")
  let historical ← itemsOf (firstTruthy
    [projection.get "historical_integration_outcomes", .arr []])
  let integrated ← integratedFeatures historical
  requireFreshFeature workflow identity integrated (historicalAcceptedCommits historical)
  let sequence ← sequenceOf projection
  let plan : ExecutionPlan := {
    projectId := P.str (firstTruthy [projection.get "project_id", .str ""])
    ledgerSequence := sequence
    ledgerFingerprint := P.str (firstTruthy [projection.get "ledger_fingerprint", .str ""])
    projectionFingerprint := Conveyor.projectionFingerprint P projection
    currentState := P.str (firstTruthy [projection.get "current_state", .str ""])
    workflow := workflow
    featureId := identity.featureId
    acceptedCommit := identity.acceptedCommit
    startingBranch := firstTruthy
      [preparedBranch projection workflow, identity.milestoneBranch, milestoneBranch]
    startingCommit := firstTruthy [identity.startingCommit, .ofOption arguments.startingCommit]
    featureBranch := firstTruthy [identity.featureBranch, .ofOption arguments.featureBranch]
    milestoneBranch := firstTruthy [identity.milestoneBranch, milestoneBranch]
    transactionMode := if active.isSome then "recovery" else "fresh"
    sessionResumeEligible := (projection.get "session_resume_eligible").truthy
    sessionToResume := session
    leaseType := workflowLease workflow
    applicationMutationExpected := mutatesApplication workflow
    nextStateOnSuccess := (workflow.map WORKFLOW_NEXT_STATE).getD "milestone_ready_for_merge"
    acceptedTree := arguments.acceptedTree
    featureWorktree := arguments.featureWorktree
    integrationWorktree := arguments.integrationWorktree
    acceptanceTransaction := arguments.acceptanceTransaction }
  validateAgainst P projection plan
  return plan

end ExecutionPlan

end Conveyor
