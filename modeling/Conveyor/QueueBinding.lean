import Conveyor.FeatureQueue
import Conveyor.ProjectionHistory
import Conveyor.Repository

/-!
# Plans for the next feature

How the next transaction is planned when no transaction is active: the projection is bound to the
queue of the milestone (`bind_projection_to_queue`), the plan of the bound projection is derived
with the commit that the last recorded snapshot names (`CycleEngine._execution_plan`), and a
dispatch compares the start of the plan with the repository.
-/

namespace Conveyor

open Library EventType

/-- `select_exact`. -/
def FeatureQueue.selectExact (site : QueueSite) (queue : FeatureQueue)
    (milestoneId featureId : String) : Result Selection :=
  match queue.feature featureId with
  | none => .error (queueError s!"unknown feature: {featureId}")
  | some feature => do
      let milestone := queue.milestone site.platform milestoneId
      require (milestone.map (fun milestone => milestone.get "id") = some (feature.get "milestone"))
        (queueError s!"feature {featureId} is not in active milestone {milestoneId}")
      let readiness ← queue.readiness site feature
      let blocked := readiness.blockedReason.getD "None"
      require (readiness.ready = true)
        (queueError s!"feature {featureId} is ineligible: {blocked}")
      return {
        featureId := feature.get "id"
        title := feature.get "title"
        reason := s!"Selected exact requested feature {featureId} without changing " ++
          "queue order; status, dependencies, blocked state, and specification are eligible."
        feature := feature }

/-! ### The binding to the queue -/

/-- The routing of a bound projection before a feature is selected. -/
def unroutedPairs : Fields :=
  [("accepted_feature_commit", .null), ("integration_status", .null), ("required_lease", .null),
   ("session_resume_eligible", .bool false), ("human_gate", .null)]

/-- The routing to the selected feature, or to the reconciliation of the queue. -/
def routedPairs (queue : FeatureQueue) (selected : Option FeatureQueue.Selection) : Fields :=
  match selected with
  | none =>
      [("current_state", .str "queue_reconciliation"), ("current_feature", .null),
       ("selected_next_feature", .null), ("feature_branch", .null),
       ("allowed_next_action", .str "queue_reconciliation")]
  | some selection =>
      let feature := (selection.featureId.asString?.bind queue.feature).getD []
      [("current_state", .str "feature_ready"), ("current_feature", selection.featureId),
       ("selected_next_feature", selection.featureId),
       ("feature_branch", feature.get "branch"), ("allowed_next_action", .str "feature_cycle")]

/-- The feature that the projection names next. -/
def nextFeature (projection : Fields) : Json :=
  firstTruthy [projection.get "current_feature", projection.get "selected_next_feature"]

/-- The queue has the feature integrated. -/
def isTerminalFeature (site : QueueSite) (queue : FeatureQueue) (candidate : Json) : Bool :=
  candidate.truthy && (queue.feature (site.platform.str candidate)).any fun feature =>
    feature.get "status" = .str "integrated" && feature.get "integration_status" = .str "passed"

/-- The feature that the binding selects. -/
def selectBound (site : QueueSite) (queue : FeatureQueue) (milestoneId : String)
    (action candidate : Json) : Result (Option FeatureQueue.Selection) :=
  if action = .str "feature_cycle" ∧ candidate.truthy = true then do
    let selection ← queue.selectExact site milestoneId (site.platform.str candidate)
    return some selection
  else queue.selectNext site milestoneId

/-- `bind_projection_to_queue`. -/
def bindProjectionToQueue (site : QueueSite) (projection : Fields) (queue : FeatureQueue)
    (milestoneId : String) : Result Fields :=
  if projection.get "active_transaction" ≠ .null then .ok projection
  else do
    let action := projection.get "allowed_next_action"
    let candidate := nextFeature projection
    let key ← hashKey action
    if key ∉ [Json.str "feature_cycle", .str "queue_reconciliation"] ∧
        isTerminalFeature site queue candidate = false then return projection
    else
      let selected ← selectBound site queue milestoneId action candidate
      let bound := (Fields.update projection unroutedPairs).update (routedPairs queue selected)
      return signProjection site.platform bound

/-! ### The plan of a bound projection -/

/-- What `discover_integration_target` finds of an accepted feature. -/
structure IntegrationDiscovery where
  integrationStartingCommit : String
  acceptedTree : String
  featureWorktree : Option String
  integrationWorktree : String
  acceptanceTransaction : Option String

/-- `except (QueueError, OSError)`. -/
def isQueueFailure (failure : Failure) : Bool :=
  decide (failure.kind = .queueError ∨ failure.kind = .osError)

/-- What the engine reads beside the projection and the ledger: the project's branch, the queue,
    the branch that the repository's adapter gives a feature, and the worktrees of a target. -/
structure PlanSite where
  queueSite : QueueSite
  milestoneBranch : Option String
  queue : Result FeatureQueue
  expectedFeatureBranch : Fields → Result String
  /-- A branch begins with `codex/`. -/
  expectedFeatureBranch_ne : ∀ feature branch, expectedFeatureBranch feature = .ok branch →
    branch ≠ ""
  /-- An adapter that cannot be read is a failure of the recovery, not of the queue. -/
  expectedFeatureBranch_error : ∀ feature failure, expectedFeatureBranch feature = .error failure →
    isQueueFailure failure = false
  discoverIntegrationTarget : String → String → String → String → Json → List LedgerEvent →
    Result IntegrationDiscovery

namespace CycleEngine

/-- The transactions of the projection; every one has to be an object. -/
def transactionsOf (projection : Fields) : Result (List Fields) := do
  let items ← itemsAt projection "transactions"
  items.mapM fun item => match item with
    | .obj fields => .ok fields
    | _ => .error ⟨.attributeError, "object has no attribute 'get'"⟩

def CLOSED_STATES : List Json := [.str "completed", .str "superseded", .str "terminal_failure"]

/-- `completed_transactions`. -/
def closedTransactions (transactions : List Fields) : Result (List Fields) := do
  requireAll (fun item => (hashKey (item.get "state")).map fun _ => ()) transactions
  return transactions.filter fun item => item.get "state" ∈ CLOSED_STATES

/-- The last execution of the feature whose starting snapshot is on record. -/
def featureExecution (transactions : List Fields) (featureId : Json) : Option Fields :=
  transactions.reverse.find? fun item =>
    item.get "workflow_type" = .str WorkflowType.featureExecution.value &&
      item.get "feature_id" = featureId && (item.get "starting_snapshot").isInstance .dict

def isIntegrating (projection : Fields) : Bool :=
  projection.get "allowed_next_action" = .str "milestone_integration"

/-- `authoritative_snapshot`. -/
def authoritativeSnapshot (projection : Fields) (transactions closed : List Fields) : Json :=
  let active := transactions.find? fun item =>
    item.get "transaction_id" = projection.get "active_transaction"
  let recorded := match active with
    | some transaction => transaction.get "starting_snapshot"
    | none => (closed.getLast?.map fun item => item.get "terminal_snapshot").getD .null
  let execution := if isIntegrating projection = true ∧
      projection.get "selected_feature_starting_commit" = .null then
    featureExecution transactions (nextFeature projection) else none
  match execution with
  | some transaction => transaction.get "starting_snapshot"
  | none => firstTruthy [recorded, .obj []]

/-- The implementation ref of the last acceptance of this commit by the controller. -/
def controllerBranch (events : List LedgerEvent) (featureId acceptedCommit : Json) :
    Option String := do
  let event ← events.reverse.find? fun event =>
    event.eventType = transactionCompleted && event.workflowType = .featureAcceptance &&
      event.payload.get "feature_id" = featureId &&
      event.payload.get "accepted_feature_commit" = acceptedCommit &&
      (event.payload.get "implementation_ref").isInstance .str
  (event.payload.get "implementation_ref").asString?

/-- The branch of the feature as the queue has it. -/
def queuedBranch (site : PlanSite) (featureId : Json) : Result (Option String) := do
  let queue ← site.queue
  let feature := if featureId.truthy then queue.feature (site.queueSite.platform.str featureId)
    else none
  match feature with
  | none => return none
  | some feature => (site.expectedFeatureBranch feature).map some

/-- The branch of the feature, from the first of the sources that has it. -/
def featureBranch (site : PlanSite) (projection : Fields) (events : List LedgerEvent)
    (transactions : List Fields) : Result (Option String) := do
  let featureId := nextFeature projection
  let recorded := if isIntegrating projection then (projection.get "feature_branch").asString?
    else none
  let known := recorded.or
    (controllerBranch events featureId (projection.get "accepted_feature_commit"))
  let found ← match known with
    | some branch => pure (some branch)
    | none => match queuedBranch site featureId with
        | .ok branch => pure branch
        | .error failure => if isQueueFailure failure then pure none else .error failure
  if found = none ∧ featureId ≠ .null then
    let snapshot := ((featureExecution transactions featureId).map fun item =>
      item.get "starting_snapshot").getD .null
    let branch ← snapshotField snapshot "branch"
    return branch.asString?
  else return found

/-- The integration target, when the next action is an integration of an accepted commit. -/
def integrationTarget (site : PlanSite) (projection : Fields) (events : List LedgerEvent)
    (branch milestoneBranch : Option String) : Result (Option IntegrationDiscovery) :=
  match (nextFeature projection).asString?, branch,
      (projection.get "accepted_feature_commit").asString?, milestoneBranch with
  | some featureId, some branch, some accepted, some milestoneBranch =>
      if isIntegrating projection then
        (site.discoverIntegrationTarget featureId branch accepted milestoneBranch
          (projection.get "selected_feature_starting_commit") events).map some
      else .ok none
  | _, _, _, _ => .ok none

/-- `_execution_plan`. -/
def executionPlan (site : PlanSite) (projection : Fields) (events : List LedgerEvent) :
    Result ExecutionPlan := do
  let transactions ← transactionsOf projection
  let closed ← closedTransactions transactions
  let branch ← featureBranch site projection events transactions
  let milestoneBranch :=
    (firstTruthy [projection.get "milestone_branch", .ofOption site.milestoneBranch]).asString?
  let integration ← integrationTarget site projection events branch milestoneBranch
  let head ← match integration with
    | some target => pure (some target.integrationStartingCommit)
    | none => do
        -- A live ref is an observation: the start is that of the last recorded snapshot.
        let head ← snapshotField (authoritativeSnapshot projection transactions closed) "head"
        pure head.asString?
  ExecutionPlan.fromProjection site.queueSite.platform projection {
    startingCommit := head
    featureBranch := branch
    milestoneBranch := milestoneBranch
    acceptedTree := integration.map IntegrationDiscovery.acceptedTree
    featureWorktree := integration.bind IntegrationDiscovery.featureWorktree
    integrationWorktree := integration.map IntegrationDiscovery.integrationWorktree
    acceptanceTransaction := integration.bind IntegrationDiscovery.acceptanceTransaction }

/-- The check of the start in `_validate_projected_dispatch`, for a dispatch that needs the
    starting branch checked out. -/
def checkStart (site : PlanSite) (repository : Repository) (plan : ExecutionPlan) :
    Result Unit := do
  require (plan.milestoneBranch.truthy = true ∧ plan.startingBranch.truthy = true ∧
      plan.startingCommit.truthy = true)
    (projectionError "execution plan lacks an exact starting branch and commit")
  let milestoneHead := plan.milestoneBranch.asString?.bind repository.revParse
  require (plan.milestoneBranch = .ofOption site.milestoneBranch ∧
      .ofOption milestoneHead = plan.startingCommit ∧
      (plan.workflow ≠ some .milestoneIntegration →
        .ofOption repository.branch = plan.startingBranch ∧
          .str repository.head = plan.startingCommit))
    (projectionError "repository no longer matches the execution plan starting branch and commit")

end CycleEngine

/-! ### Plans of idle projections -/

/-- What a plan reads of an idle projection: no transaction is active, and nothing but the action,
    the feature and the start speaks for the plan. -/
structure IdleProjection (P : Platform) (bound : Fields) (action : String)
    (workflow : WorkflowType) (views : List TransactionView) (outcomes : List Json) : Prop where
  signed : bound.get "projection_fingerprint" = .str (projectionFingerprint P bound)
  next : bound.get "allowed_next_action" = .str action
  known : ACTION_WORKFLOW.get? action = some (some workflow)
  texts : ∀ key ∈ ["project_id", "ledger_fingerprint", "current_state"],
    ∃ text, bound.get key = .str text
  sequence : ∃ sequence : Nat, bound.get? "ledger_sequence" = some (.int sequence)
  resume : bound.get "session_resume_eligible" = .bool false
  nulls : ∀ key ∈ ["active_transaction", "required_lease", "human_gate", "accepted_feature_commit",
    "prepared_feature_execution", "milestone_branch"], bound.get key = .null
  transactions : bound.get? "transactions" =
    some (.arr (views.map fun view => .obj view.toFields))
  history : bound.get? HISTORY_KEY = some (.arr outcomes)

section Idle

variable {P : Platform} {bound : Fields} {action : String} {workflow : WorkflowType}
  {views : List TransactionView} {outcomes : List Json} {branch : String}

/-- The identity of the plan for an idle projection. -/
def idleIdentity (bound : Fields) (baseline : Option String) (branch : String) :
    ExecutionIdentity where
  featureId := nextFeature bound
  acceptedCommit := .null
  startingCommit := firstTruthy [.ofOption baseline, bound.get "selected_feature_starting_commit"]
  featureBranch := bound.get "feature_branch"
  milestoneBranch := .str branch
  humanGateAuthoritative := false

/-- The entry's own fields, of one that may have the fields of a deterministic run. -/
theorem get_toFields (view : TransactionView) {key : String}
    (hplan : key ≠ "deterministic_plan_fingerprint")
    (hresult : key ≠ "deterministic_result_classification") :
    Fields.get view.toFields key =
      Fields.get (TransactionView.toFields { view with
        deterministicPlanFingerprint := none, deterministicResultClassification := none }) key := by
  rw [Fields.get, Fields.get, TransactionView.toFields, TransactionView.toFields,
    Fields.get?_ofPairs, Fields.get?_ofPairs, List.reverse_append, List.reverse_append,
    Fields.get?_append, Fields.get?_append]
  have hnone : Fields.get? view.deterministicFields.reverse key = none := by
    unfold TransactionView.deterministicFields
    cases view.deterministicPlanFingerprint <;> cases view.deterministicResultClassification <;>
      simp [Fields.get?_cons, hplan, hresult]
  rw [hnone]
  rfl

theorem IdleProjection.identity (h : IdleProjection P bound action workflow views outcomes)
    {baseline : Option String}
    (hbaseline : completedIntegrationPlanningBaseline bound (some workflow) (.str branch) =
      .ok baseline) :
    executionIdentity bound (some workflow) (.str branch) =
      .ok (idleIdentity bound baseline branch) := by
  have hgate : gateIdentity bound (some workflow) = none := by
    rw [gateIdentity, h.nulls "human_gate" (by simp)]
    split <;> rfl
  rw [executionIdentity, hbaseline, ok_bind, hgate, h.nulls "accepted_feature_commit" (by simp),
    h.nulls "milestone_branch" (by simp)]
  simp [idleIdentity, nextFeature, firstTruthy, Fields.get, Json.truthy, pure, Except.pure]

/-- The plan for an idle projection. -/
def idlePlan (P : Platform) (bound : Fields) (workflow : WorkflowType) (sequence : Int)
    (identity : ExecutionIdentity) (branch : String) (arguments : PlanArguments) :
    ExecutionPlan where
  projectId := P.str (firstTruthy [bound.get "project_id", .str ""])
  ledgerSequence := sequence
  ledgerFingerprint := P.str (firstTruthy [bound.get "ledger_fingerprint", .str ""])
  projectionFingerprint := projectionFingerprint P bound
  currentState := P.str (firstTruthy [bound.get "current_state", .str ""])
  workflow := some workflow
  featureId := identity.featureId
  acceptedCommit := .null
  startingBranch := .str branch
  startingCommit := firstTruthy [identity.startingCommit, .ofOption arguments.startingCommit]
  featureBranch := firstTruthy [identity.featureBranch, .ofOption arguments.featureBranch]
  milestoneBranch := .str branch
  transactionMode := "fresh"
  sessionResumeEligible := false
  sessionToResume := .null
  leaseType := workflowLease (some workflow)
  applicationMutationExpected := ExecutionPlan.mutatesApplication (some workflow)
  nextStateOnSuccess := WORKFLOW_NEXT_STATE workflow
  acceptedTree := arguments.acceptedTree
  featureWorktree := arguments.featureWorktree
  integrationWorktree := arguments.integrationWorktree
  acceptanceTransaction := arguments.acceptanceTransaction

theorem IdleProjection.active (h : IdleProjection P bound action workflow views outcomes) :
    ExecutionPlan.activeOf bound = .ok none := by
  have hitems : itemsAt bound "transactions" =
      .ok (views.map fun view => .obj view.toFields) := by
    rw [itemsAt, Fields.getD, h.transactions]
    rfl
  rw [ExecutionPlan.activeOf, hitems, ok_bind, h.nulls "active_transaction" (by simp)]
  have hnone : (((views.map fun view => Json.obj view.toFields).filterMap asFields?).find?
      fun item => Fields.get item "transaction_id" = .null) = none := by
    rw [List.find?_eq_none]
    intro item hitem
    obtain ⟨value, hvalue, hfields⟩ := List.mem_filterMap.mp hitem
    obtain ⟨view, -, rfl⟩ := List.mem_map.mp hvalue
    cases hfields
    rw [get_toFields view (by decide) (by decide)]
    simp [TransactionView.toFields, Fields.get, Fields.get?_ofPairs, Fields.get?_cons,
      TransactionView.deterministicFields]
  rw [hnone]
  rfl

theorem IdleProjection.action_eq (h : IdleProjection P bound action workflow views outcomes) :
    ExecutionPlan.nextAction P bound = action := by
  rw [ExecutionPlan.nextAction, h.next]
  have hne : action ≠ "" := by
    rintro rfl
    exact absurd h.known (by simp [ACTION_WORKFLOW, Dict.get?_cons])
  simp [firstTruthy, Json.truthy, hne]

theorem requireFreshFeature_eq_ok {identity : ExecutionIdentity} {integrated commits : List Json}
    (haccepted : identity.acceptedCommit = .null) (hcommits : .null ∉ commits) :
    ExecutionPlan.requireFreshFeature (some workflow) identity integrated commits = .ok () ↔
      (some workflow ∈ ExecutionPlan.EXECUTABLE_WORKFLOWS →
        isText identity.featureId = true ∧ identity.featureId ∉ integrated) := by
  unfold ExecutionPlan.requireFreshFeature
  split
  · rename_i hworkflow
    have hkey : hashKey .null = .ok .null := rfl
    simp only [require_bind_eq_ok, haccepted, hkey, ok_bind, require_eq_ok, hworkflow,
      forall_const, hcommits, not_false_eq_true, and_true]
  · rename_i hworkflow
    simp [hworkflow, pure, Except.pure]

theorem str_firstTruthy (text : String) : P.str (firstTruthy [.str text, .str ""]) = text := by
  by_cases htext : text = "" <;> simp [firstTruthy, Json.truthy, htext]

/-- A check that a plan makes of a value only when there is one. -/
theorem optional_passes {name : String} {planned expected : Json} :
    ((if expected = .null then [] else [(name, decide (planned = expected))]).filter
      fun check : String × Bool => !check.2) = [] ↔ (expected ≠ .null → planned = expected) := by
  split
  · rename_i hnull
    simp [hnull]
  · rename_i hsome
    by_cases heq : planned = expected <;> simp [heq, hsome]

theorem IdleProjection.validates (h : IdleProjection P bound action workflow views outcomes)
    (hbranch : branch ≠ "") {baseline : Option String}
    (hbaseline : completedIntegrationPlanningBaseline bound (some workflow) (.str branch) =
      .ok baseline)
    {sequence : Nat} (hsequence : bound.get? "ledger_sequence" = some (.int sequence))
    (arguments : PlanArguments) :
    let identity := idleIdentity bound baseline branch
    let plan := idlePlan P bound workflow sequence identity branch arguments
    ExecutionPlan.validateAgainst P bound plan = .ok () ↔
      (identity.startingCommit ≠ .null → plan.startingCommit = identity.startingCommit) ∧
      (identity.featureBranch ≠ .null → plan.featureBranch = identity.featureBranch) := by
  intro identity plan
  have hworkflow : ExecutionPlan.expectedWorkflow P bound = .ok (some workflow) := by
    rw [ExecutionPlan.expectedWorkflow, h.nulls "active_transaction" (by simp), if_neg (by simp),
      h.action_eq, h.known]
    rfl
  have hidentity : executionIdentity bound (some workflow) plan.milestoneBranch = .ok identity :=
    h.identity hbaseline
  rw [ExecutionPlan.validateAgainst, hworkflow, ok_bind, hidentity, ok_bind, require_eq_ok]
  obtain ⟨project, hproject⟩ := h.texts "project_id" (by simp)
  obtain ⟨fingerprint, hfingerprint⟩ := h.texts "ledger_fingerprint" (by simp)
  obtain ⟨state, hstate⟩ := h.texts "current_state" (by simp)
  have hlease : firstTruthy [bound.get "required_lease", workflowLease (some workflow)] =
      workflowLease (some workflow) := by
    rw [h.nulls "required_lease" (by simp)]
    rfl
  have hnumber : Fields.get bound "ledger_sequence" = .int sequence := by
    rw [Fields.get, hsequence]
    rfl
  rw [List.map_eq_nil_iff, ExecutionPlan.planChecks.eq_def, List.filter_append, List.filter_append,
    List.filter_append, List.append_eq_nil_iff, List.append_eq_nil_iff, List.append_eq_nil_iff,
    optional_passes, optional_passes, optional_passes, hlease, hproject, hfingerprint,
    hstate, hnumber, h.signed, h.resume, h.nulls "prepared_feature_execution" (by simp)]
  have hprojectId : plan.projectId = project := by
    change P.str (firstTruthy [bound.get "project_id", .str ""]) = project
    rw [hproject, str_firstTruthy]
  have hledger : plan.ledgerFingerprint = fingerprint := by
    change P.str (firstTruthy [bound.get "ledger_fingerprint", .str ""]) = fingerprint
    rw [hfingerprint, str_firstTruthy]
  have hcurrent : plan.currentState = state := by
    change P.str (firstTruthy [bound.get "current_state", .str ""]) = state
    rw [hstate, str_firstTruthy]
  rw [hprojectId, hledger, hcurrent]
  have hstarting : firstTruthy [.str branch, .str branch] = .str branch := by
    simp [firstTruthy, Json.truthy, hbranch]
  cases workflow <;>
    simp [hstarting, plan, identity, idlePlan, idleIdentity, Json.equalsInt, Json.truthy]

theorem null_notMem_commits (historical : List Json) :
    .null ∉ ExecutionPlan.historicalAcceptedCommits historical := by
  intro hmem
  have htext := (List.mem_filter.mp hmem).2
  cases htext

/-- The plan for an idle projection: the feature has to be a fresh one, and what the projection
    says of the start and of the branch has to be what the plan takes. -/
theorem IdleProjection.fromProjection (h : IdleProjection P bound action workflow views outcomes)
    (hbranch : branch ≠ "") {baseline : Option String}
    (hbaseline : completedIntegrationPlanningBaseline bound (some workflow) (.str branch) =
      .ok baseline)
    {sequence : Nat} (hsequence : bound.get? "ledger_sequence" = some (.int sequence))
    {integrated : List Json}
    (hintegrated : ExecutionPlan.integratedFeatures outcomes = .ok integrated)
    {arguments : PlanArguments} (harguments : arguments.milestoneBranch = some branch)
    {plan : ExecutionPlan} :
    ExecutionPlan.fromProjection P bound arguments = .ok plan ↔
      plan = idlePlan P bound workflow sequence (idleIdentity bound baseline branch) branch
        arguments ∧
      (some workflow ∈ ExecutionPlan.EXECUTABLE_WORKFLOWS →
        isText (nextFeature bound) = true ∧ nextFeature bound ∉ integrated) ∧
      (firstTruthy [.ofOption baseline, bound.get "selected_feature_starting_commit"] ≠ .null →
        plan.startingCommit =
          firstTruthy [.ofOption baseline, bound.get "selected_feature_starting_commit"]) ∧
      (bound.get "feature_branch" ≠ .null → plan.featureBranch = bound.get "feature_branch") := by
  have hidentity := h.identity hbaseline
  have hvalid := h.validates hbranch hbaseline hsequence arguments
  have hfresh : ExecutionPlan.requireFreshFeature (some workflow)
      (idleIdentity bound baseline branch) integrated
      (ExecutionPlan.historicalAcceptedCommits outcomes) = .ok () ↔ _ :=
    requireFreshFeature_eq_ok rfl (null_notMem_commits outcomes)
  have hhistory : itemsOf (firstTruthy [bound.get "historical_integration_outcomes", .arr []]) =
      .ok outcomes := by
    have hget : bound.get "historical_integration_outcomes" = .arr outcomes := by
      rw [Fields.get]
      exact congrArg (Option.getD · .null) h.history
    rw [hget]
    cases outcomes <;> rfl
  have hnumber : ExecutionPlan.sequenceOf bound = .ok sequence := by
    rw [ExecutionPlan.sequenceOf, Fields.getD, hsequence]
    rfl
  have hplanned : ExecutionPlan.plannedWorkflow P bound none = .ok (some workflow) := by
    rw [ExecutionPlan.plannedWorkflow, h.action_eq, h.known]
    rfl
  have hsession : ExecutionPlan.resumedSession bound none = .ok .null := by
    rw [ExecutionPlan.resumedSession, h.resume]
    rfl
  have hprepared : ExecutionPlan.preparedAgrees bound (some workflow)
      (idleIdentity bound baseline branch) = true := by
    rw [ExecutionPlan.preparedAgrees, h.nulls "prepared_feature_execution" (by simp)]
  have hknown : action ∈ ACTION_WORKFLOW.keys := by
    by_contra hnot
    have hnone := Dict.get?_eq_none.mpr hnot
    rw [h.known] at hnone
    cases hnone
  have hlease : bound.get "required_lease" = .null ∨
      bound.get "required_lease" = workflowLease (some workflow) :=
    Or.inl (h.nulls "required_lease" (by simp))
  have hmilestone : Json.ofOption arguments.milestoneBranch = .str branch := by
    rw [harguments]
    rfl
  unfold ExecutionPlan.fromProjection
  dsimp only
  rw [require_of h.signed, ok_bind, h.action_eq, require_of hknown, ok_bind, h.active, ok_bind,
    hplanned, ok_bind, hsession, ok_bind, require_of hlease, ok_bind, hmilestone, hidentity,
    ok_bind, require_of hprepared, ok_bind, hhistory, ok_bind, hintegrated, ok_bind, hnumber]
  have hstarting : firstTruthy [ExecutionPlan.preparedBranch bound (some workflow),
      (idleIdentity bound baseline branch).milestoneBranch, .str branch] = .str branch := by
    have hnone : ExecutionPlan.preparedBranch bound (some workflow) = .null := by
      unfold ExecutionPlan.preparedBranch
      rw [h.nulls "prepared_feature_execution" (by simp)]
      cases workflow <;> rfl
    simp [hnone, idleIdentity, firstTruthy, Json.truthy, hbranch]
  have hbranches : firstTruthy [(idleIdentity bound baseline branch).milestoneBranch, .str branch] =
      .str branch := by
    simp [idleIdentity, firstTruthy, Json.truthy, hbranch]
  rw [hstarting, hbranches, h.resume]
  set taken := idlePlan P bound workflow sequence (idleIdentity bound baseline branch) branch
    arguments with htaken
  change (do
    ExecutionPlan.requireFreshFeature (some workflow) (idleIdentity bound baseline branch)
      integrated (ExecutionPlan.historicalAcceptedCommits outcomes)
    ExecutionPlan.validateAgainst P bound taken
    pure taken : Result ExecutionPlan) = .ok plan ↔ _
  simp only [bind_eq_ok, exists_const, pure, Except.pure, Except.ok.injEq, hfresh]
  constructor
  · rintro ⟨hfeature, ⟨⟩, hagrees, rfl⟩
    exact ⟨rfl, hfeature, hvalid.mp hagrees⟩
  · rintro ⟨rfl, hfeature, hagrees⟩
    exact ⟨hfeature, (), hvalid.mpr hagrees, rfl⟩

/-! ### What a bound projection reads -/

/-- A field of the bound projection comes from the routing to the queue, or is what it was. -/
theorem get?_bound {projection pairs : Fields} {key : String} (h : key ≠ "projection_fingerprint") :
    Fields.get? (signProjection P ((Fields.update projection unroutedPairs).update pairs)) key =
      (Fields.get? pairs.reverse key).or
        ((Fields.get? unroutedPairs.reverse key).or (projection.get? key)) := by
  rw [signProjection, Fields.get?_set_of_ne h, Fields.get?_update, Fields.get?_append,
    Fields.get?_update, Fields.get?_append]
  cases Fields.get? pairs.reverse key <;> cases Fields.get? unroutedPairs.reverse key <;> rfl

theorem signed_signProjection (value : Fields) :
    Fields.get (signProjection P value) "projection_fingerprint" =
      .str (projectionFingerprint P (signProjection P value)) := by
  rw [projectionFingerprint, signProjection, Fields.erase_set, Fields.get_set_self,
    projectionFingerprint]

/-- An idle projection that the binding routes to the queue is rebound to it. -/
theorem bindProjectionToQueue_idle {site : QueueSite} {projection bound : Fields}
    {queue : FeatureQueue} {milestoneId : String}
    (hidle : projection.get "active_transaction" = .null)
    (hbound : bindProjectionToQueue site projection queue milestoneId = .ok bound)
    (hroute : bound.get "allowed_next_action" ∈
      [Json.str "feature_cycle", .str "queue_reconciliation"]) :
    ∃ selected, selectBound site queue milestoneId (projection.get "allowed_next_action")
        (nextFeature projection) = .ok selected ∧
      bound = signProjection site.platform
        ((Fields.update projection unroutedPairs).update (routedPairs queue selected)) := by
  rw [bindProjectionToQueue, if_neg (not_not.mpr hidle)] at hbound
  simp only [bind_eq_ok] at hbound
  obtain ⟨key, hkey, hbound⟩ := hbound
  split at hbound
  · rename_i hleft
    cases hbound
    refine absurd ?_ hleft.1
    have hsame : hashKey (projection.get "allowed_next_action") =
        .ok (projection.get "allowed_next_action") := by
      rcases List.mem_cons.mp hroute with h | h
      · rw [h]
        rfl
      · rw [List.mem_singleton.mp h]
        rfl
    rw [hsame] at hkey
    cases hkey
    exact hroute
  · simp only [bind_eq_ok, pure, Except.pure, Except.ok.injEq] at hbound
    obtain ⟨selected, hselected, rfl⟩ := hbound
    exact ⟨selected, hselected, rfl⟩

end Idle

end Conveyor
