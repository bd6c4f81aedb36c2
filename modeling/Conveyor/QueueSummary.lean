import Conveyor.PlanningReadiness

/-!
# The summary of a queue

What the controller derives from a queue for one milestone (`queue.py`): the features that are
active, ready or await their integration, and the classification of the milestone, which a
planning session has to report.
-/

namespace Conveyor

open Library

def ACTIVE_STATUSES : List String :=
  ["in_progress", "review", "accepted", "integration_pending", "integrating"]

/-- The classifications of a milestone. -/
inductive QueueClassification where
  | reconciledIntegrationPending | reconciledReadyWork | milestoneComplete
  | humanDecisionRequired | legitimatelyBlocked | reconciledNoReadyWork | invalidQueue
deriving DecidableEq, Repr

def QueueClassification.value : QueueClassification → String
  | reconciledIntegrationPending => "reconciled_integration_pending"
  | reconciledReadyWork => "reconciled_ready_work"
  | milestoneComplete => "milestone_complete"
  | humanDecisionRequired => "human_decision_required"
  | legitimatelyBlocked => "legitimately_blocked"
  | reconciledNoReadyWork => "reconciled_no_ready_work"
  | invalidQueue => "invalid_queue"

/-- The fields of `summary`. -/
structure QueueSummary where
  milestoneFound : Bool
  configuredMilestone : String
  resolvedMilestone : Json
  featureCount : Nat
  totalFeatureCount : Nat
  globalFeatureCount : Nat
  globalMilestoneCount : Nat
  statusCounts : Dict Nat
  activeFeatures : List Json
  completedFeatures : List Json
  readyFeatures : List Json
  selectedFeature : Json
  integrationCandidates : List Json
  selectedIntegrationFeature : Json
  milestoneComplete : Bool
  reconciliationClassification : QueueClassification

namespace FeatureQueue

variable (site : QueueSite) (P : Platform) (queue : FeatureQueue) (milestoneId : String)

/-- `active_features`. -/
def activeFeatures : List Fields :=
  (queue.featuresForMilestone P milestoneId).filter fun item => hasStatus item ACTIVE_STATUSES

/-- Accepted work that is not integrated yet. -/
def awaitsIntegration (item : Fields) : Bool :=
  hasStatus item ["accepted", "integration_pending"] &&
    decide (item.getD "integration_status" (.str "pending") = .str "pending")

/-- `integration_candidates`. -/
def integrationCandidates : List Fields :=
  let waiting := (queue.featuresForMilestone P milestoneId).filter awaitsIntegration
  ((waiting.mapIdx fun index feature => (index, feature)).insertionSort
    fun first second => before first second = true).map Prod.snd

/-- `select_integration`. -/
def selectIntegration : Result (Option Fields) :=
  match queue.integrationCandidates P milestoneId with
  | [] => .ok none
  | [feature] => .ok (some feature)
  | candidates =>
      let names := ", ".intercalate (candidates.map fun item => P.str (item.get "id"))
      .error (queueError ("multiple accepted features await integration; deterministic " ++
        s!"single-feature integration is required: {names}"))

/-- Whether one of the features waits for a human; the first that does ends the search. -/
def anyAwaitsHuman : List Fields → Result Bool
  | [] => .ok false
  | item :: rest => do
      if item.get "status" = .str "human_decision_required" then return true
      else if item.get "requires_human_decision" = .bool true then do
        if ← queue.dependenciesComplete P item then return true
        else anyAwaitsHuman rest
      else anyAwaitsHuman rest

/-- Every feature that is left to do is blocked. -/
def onlyBlocked (features : List Fields) : Bool :=
  let actionable := features.filter fun item =>
    !hasStatus item (COMPLETE_STATUSES ++ ["deferred", "rejected"])
  !actionable.isEmpty && actionable.all fun item => hasStatus item ["blocked"]

/-- `reconciliation_classification`. -/
def reconciliationClassification : Result QueueClassification := do
  let features := queue.featuresForMilestone site.platform milestoneId
  if queue.milestone site.platform milestoneId = none then return .invalidQueue
  else if queue.integrationCandidates site.platform milestoneId ≠ [] then
    return .reconciledIntegrationPending
  else do
    let ready ← queue.ready site milestoneId
    if ready ≠ [] then return .reconciledReadyWork
    else if queue.milestoneComplete site.platform milestoneId then return .milestoneComplete
    else do
      let human ← queue.anyAwaitsHuman site.platform features
      if human then return .humanDecisionRequired
      else if onlyBlocked features then return .legitimatelyBlocked
      else return .reconciledNoReadyWork

/-- `counts[status] = counts.get(status, 0) + 1`, for each feature. -/
def countStatuses (features : List Fields) : Dict Nat :=
  features.foldl (fun counts item =>
    let status := P.str (item.get "status")
    counts.insert status ((counts.get? status).getD 0 + 1)) []

def idsOf (features : List Fields) : List Json := features.map fun item => item.get "id"

/-- `summary`. -/
def summary : Result QueueSummary := do
  let P := site.platform
  let features := queue.featuresForMilestone P milestoneId
  let selection ← queue.selectNext site milestoneId
  let integration ← queue.selectIntegration P milestoneId
  let milestone := queue.milestone P milestoneId
  let ready ← if milestone.isSome then queue.ready site milestoneId else pure []
  let classification ← queue.reconciliationClassification site milestoneId
  return {
    milestoneFound := milestone.isSome
    configuredMilestone := milestoneId
    resolvedMilestone := (milestone.map fun found => found.get "id").getD .null
    featureCount := features.length
    totalFeatureCount := queue.features.length
    globalFeatureCount := queue.features.length
    globalMilestoneCount := queue.milestones.length
    statusCounts := countStatuses P features
    activeFeatures := idsOf (queue.activeFeatures P milestoneId)
    completedFeatures := idsOf (features.filter fun item => hasStatus item COMPLETE_STATUSES)
    readyFeatures := idsOf ready
    selectedFeature := (selection.map Selection.featureId).getD .null
    integrationCandidates := idsOf (queue.integrationCandidates P milestoneId)
    selectedIntegrationFeature := (integration.map fun found => found.get "id").getD .null
    milestoneComplete := queue.milestoneComplete P milestoneId
    reconciliationClassification := classification }

end FeatureQueue

end Conveyor
