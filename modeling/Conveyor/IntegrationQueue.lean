import Conveyor.FeatureQueue

/-!
# The queue in an integration

What the integration of a feature reads from the queue documents of its two refs and writes
into the one of the milestone (`integration_executor.py`): the dependency checks of
`inspect_two_refs`, the queue that `_mark_integrating` leaves, and the one that
`_record_final_metadata` leaves. Both work on the raw document, not on a `FeatureQueue`.
-/

namespace Conveyor

open Library

def integrationPlanError (message : String) : Failure := ⟨.integrationPlanError, message⟩

/-! ### Dependencies -/

/-- `for item in value`. -/
def iterated (value : Json) : Result (List Json) :=
  match value with
  | .arr items => .ok items
  | .obj fields => .ok (Fields.keys fields |>.map Json.str)
  | .str text => .ok (text.toList.map fun c => .str (String.singleton c))
  | _ => .error ⟨.typeError, "object is not iterable"⟩

/-- The texts of an array of identifiers. -/
def idArray (value : Json) (failure : Failure) : Result (List String) :=
  match value with
  | .arr items => items.mapM fun item => match item with
      | .str text => if text ≠ "" then .ok text else .error failure
      | _ => .error failure
  | _ => .error failure

/-- The last feature with this identifier. -/
def liveFeature (features : List Json) (featureId : String) : Option Fields :=
  features.reverse.findSome? fun item => match item with
    | .obj fields => if Fields.get fields "id" = .str featureId then some fields else none
    | _ => none

/-- The features that some milestone lists as integrated. -/
def integratedIds (milestones : List Json) : Result (List String) := do
  let arrays ← milestones.mapM fun milestone =>
    let values : Json := match milestone with
      | .obj fields => Fields.get fields "integrated_features"
      | _ => .null
    idArray values (integrationPlanError "live milestone integrated_features must be ID arrays")
  return arrays.flatten

/-- The check of one dependency against the live milestone ref. -/
def dependencyGate (isAncestor : String → String → Bool) (head : String)
    (features : List Json) (integrated : List String) (dependencyId : String) : Result Unit :=
  let absent := integrationPlanError
    s!"integrated dependency is absent from the live milestone ref: {dependencyId}"
  let unmerged := integrationPlanError
    s!"dependency commit is absent from the live milestone history: {dependencyId}"
  match liveFeature features dependencyId with
  | none => .error absent
  | some dependency => do
      let status ← hashKey (dependency.get "status")
      require (status ∈ COMPLETE_STATUSES.map Json.str ∧ dependencyId ∈ integrated) absent
      match dependency.get "integrated_commit" with
      | .str commit => require (isAncestor commit head = true) unmerged
      | _ => .error unmerged

/-- The dependency checks of `inspect_two_refs`. -/
def inspectDependencies (isAncestor : String → String → Bool) (head : String)
    (liveQueue acceptedFeature : Fields) : Result Unit := do
  let features ← iterated (liveQueue.getD "features" (.arr []))
  let milestones ← iterated (liveQueue.getD "milestones" (.arr []))
  let integrated ← integratedIds milestones
  let dependencies ← idArray (acceptedFeature.getD "dependencies" (.arr []))
    (integrationPlanError "accepted feature dependencies must be an ID array")
  requireAll (dependencyGate isAncestor head features integrated) dependencies

/-! ### Plans -/

/-- The fields of an integration plan that its queue edits read; each is a non-empty text. -/
structure IntegrationPlan where
  createdAt : String
  featureId : String
  featureBranch : String
  acceptedCommit : String
  acceptedMetadataRef : String
  milestoneId : String
  preIntegrationHead : String

/-- What the validation commands of an integration found. -/
structure IntegrationValidation where
  ok : Bool
  validatedCommit : String
  blockers : List String

/-! ### Entries -/

/-- The objects of a list with this identifier, with their places. -/
def withId (values : List Json) (itemId : String) : List (Nat × Fields) :=
  (values.mapIdx fun index item => (index, item)).filterMap fun (index, item) => match item with
    | .obj fields => if Fields.get fields "id" = .str itemId then some (index, fields) else none
    | _ => none

/-- `_one`, with the place of what it found. -/
def oneOf (document : Fields) (collection itemId : String) : Result (Nat × Fields) :=
  match document.get collection with
  | .arr values =>
      match withId values itemId with
      | [found] => .ok found
      | _ =>
          let item := String.ofList collection.toList.dropLast
          .error (integrationPlanError
            s!"accepted metadata must contain exactly one {item} {itemId}")
  | _ => .error (integrationPlanError s!"queue {collection} must be an array")

/-- The document with another object at a place of a list. -/
def replaceIn (document : Fields) (collection : String) (place : Nat) (item : Fields) : Fields :=
  match document.get collection with
  | .arr values => document.set collection (.arr (values.set place (.obj item)))
  | _ => document

/-- `value.setdefault(key, default)`. -/
def setDefault (fields : Fields) (key : String) (default : Json) : Fields :=
  if key ∈ fields.keys then fields else fields.set key default

/-! ### `_mark_integrating` -/

def ACCEPTANCE_TIERS : List Json := [.str "feature", .str "milestone", .str "release"]

/-- `_validate_ledger_transition_authority`, for the tree of the plan's accepted commit. -/
def validateLedgerTransitionAuthority (acceptedTree : String) (plan : IntegrationPlan)
    (feature authority : Fields) : Result Unit := do
  let tier ← hashKey (authority.get "acceptance_tier")
  let named := match authority.get "transaction_id", authority.get "metadata_fingerprint" with
    | .str transactionId, .str fingerprint =>
        decide (plan.acceptedMetadataRef = s!"ledger:{transactionId}:{fingerprint}")
    | _, _ => false
  let checks : List (String × Bool) :=
    [("completed_acceptance",
        authority.get "completed_acceptance_transaction" = .bool true),
     ("transaction", named),
     ("feature", authority.get "feature_id" = .str plan.featureId),
     ("milestone_base", authority.get "milestone_base" = .str plan.preIntegrationHead),
     ("implementation_commit", authority.get "implementation_commit" = .str plan.acceptedCommit),
     ("implementation_tree", authority.get "implementation_tree" = .str acceptedTree),
     ("feature_branch", authority.get "feature_branch" = .str plan.featureBranch),
     ("acceptance_tier", tier ∈ ACCEPTANCE_TIERS),
     ("tier_evidence", isText (authority.get "tier_evidence_fingerprint")),
     ("implementation_ref_unchanged",
        authority.get "implementation_ref_unchanged" = .bool true),
     ("integration_target",
        authority.get "integration_target_preflight_passed" = .bool true),
     ("queue_milestone", feature.get "milestone" = .str plan.milestoneId)]
  let failed := (checks.filter fun check => !check.2).map Prod.fst
  let names := ", ".intercalate failed
  require (failed = [])
    (integrationPlanError s!"ledger integration transition authority failed: {names}")

def MATERIALIZED_STATUSES : List Json :=
  [.str "accepted", .str "integration_pending", .str "integrating"]

def TERMINAL_INTEGRATION_STATUSES : List Json :=
  [.str "passed", .str "completed", .str "cancelled", .str "rejected"]

/-- The checks of `_mark_integrating` on a feature that the ledger accepted. -/
def checkLedgerFeature (acceptedTree : String) (plan : IntegrationPlan)
    (feature authority : Fields) : Result Unit := do
  validateLedgerTransitionAuthority acceptedTree plan feature authority
  let status ← hashKey (feature.get "status")
  require (status ∈ MATERIALIZED_STATUSES ++ [.str "review", .str "ready"])
    (integrationPlanError "ledger-accepted feature has a conflicting queue status")
  let queuedCommit ← hashKey (feature.get "accepted_commit")
  require (queuedCommit ∈ [.null, .str "SELF", .str plan.acceptedCommit])
    (integrationPlanError "ledger-accepted feature queue commit conflicts with authority")
  let queuedBranch ← hashKey (feature.get "branch")
  require (queuedBranch ∈ [.null, .str plan.featureBranch])
    (integrationPlanError "ledger-accepted feature queue branch conflicts with authority")
  let integration ← hashKey (feature.get "integration_status")
  require (integration ∉ TERMINAL_INTEGRATION_STATUSES)
    (integrationPlanError "ledger-accepted feature queue integration state is terminal")

/-- The checks of `_mark_integrating` on the feature. -/
def checkTransition (acceptedTree : String) (plan : IntegrationPlan) (authority : Option Fields)
    (feature : Fields) : Result Unit :=
  match authority with
  | none => do
      let status ← hashKey (feature.get "status")
      require (status ∈ MATERIALIZED_STATUSES)
        (integrationPlanError "accepted feature cannot transition to integrating")
  | some authority => checkLedgerFeature acceptedTree plan feature authority

def integratingFields (plan : IntegrationPlan) : Fields :=
  [("status", .str "integrating"),
   ("implementation_status", .str "Completed"),
   ("branch", .str plan.featureBranch),
   ("integration_base_commit", .str plan.preIntegrationHead),
   ("accepted_commit", .str plan.acceptedCommit),
   ("integration_status", .str "integrating"),
   ("integration_attempted_at", .str plan.createdAt)]

/-- The document that `_mark_integrating` leaves. -/
def markIntegrating (acceptedTree : String) (plan : IntegrationPlan)
    (authority : Option Fields) (document : Fields) : Result Fields := do
  let (place, feature) ← oneOf document "features" plan.featureId
  checkTransition acceptedTree plan authority feature
  return replaceIn document "features" place (feature.update (integratingFields plan))

/-! ### `_record_final_metadata` -/

/-- The fields that the end of an integration writes on its feature. -/
def finalFeature (plan : IntegrationPlan) (validation : IntegrationValidation)
    (resultingCommit : String) (feature : Fields) : Result Fields := do
  let feature := feature.update
    [("status", .str (if validation.ok then "integrated" else "failed")),
     ("implementation_status", .str "Completed"),
     ("branch", .str plan.featureBranch),
     ("integration_base_commit", .str plan.preIntegrationHead),
     ("accepted_commit", .str plan.acceptedCommit),
     ("integrated_commit", .str resultingCommit),
     ("integration_status", .str (if validation.ok then "passed" else "failed")),
     ("integration_attempted_at", .str plan.createdAt)]
  let feature := setDefault feature "integration_fix_commits" (.arr [])
  match feature.get "integration_fix_commits" with
  | .arr _ =>
      let failure : Json := .obj
        [("blockers", .arr (validation.blockers.map Json.str)),
         ("validated_commit", .str validation.validatedCommit)]
      if validation.ok then return feature.erase "integration_failure"
      else return feature.set "integration_failure" failure
  | _ => .error (integrationPlanError "integration_fix_commits must be an array")

/-- The fields that the end of an integration writes on its milestone, its status apart. -/
def finalMilestone (plan : IntegrationPlan) (validation : IntegrationValidation)
    (milestone : Fields) : Result Fields :=
  if validation.ok then
    let milestone := setDefault milestone "integrated_features" (.arr [])
    match milestone.get "integrated_features" with
    | .arr integrated =>
        let integrated := if .str plan.featureId ∈ integrated then integrated
          else integrated ++ [.str plan.featureId]
        .ok (((milestone.set "integrated_features" (.arr integrated)).set
          "last_validated_commit" (.str validation.validatedCommit)).set
          "last_validation_at" (.str plan.createdAt))
    | _ => .error (integrationPlanError "milestone integrated_features must be an array")
  else .ok milestone

/-- Every status of the list is complete as it is written. -/
def writtenComplete : List Fields → Result Bool
  | [] => .ok true
  | item :: rest => do
      let status ← hashKey (item.get "status")
      if status ∈ COMPLETE_STATUSES.map Json.str then writtenComplete rest else return false

/-- What `_record_final_metadata` leaves: the document and whether it says that the milestone is
    complete. -/
structure FinalMetadata where
  document : Fields
  milestoneComplete : Bool

def recordFinalMetadata (plan : IntegrationPlan) (validation : IntegrationValidation)
    (resultingCommit : String) (document : Fields) : Result FinalMetadata := do
  let (place, feature) ← oneOf document "features" plan.featureId
  let (spot, milestone) ← oneOf document "milestones" plan.milestoneId
  let feature ← finalFeature plan validation resultingCommit feature
  let milestone ← finalMilestone plan validation milestone
  let document := replaceIn document "features" place feature
  let own := (rawFeatures document).filter fun item =>
    item.get "milestone" = .str plan.milestoneId
  let allWritten ← writtenComplete own
  let complete := !own.isEmpty && allWritten
  let milestone := milestone.set "status"
    (.str (if complete then "integration_complete" else "active"))
  return ⟨replaceIn document "milestones" spot milestone, complete⟩

end Conveyor
