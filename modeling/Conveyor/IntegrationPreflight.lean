import Conveyor.FeatureScoping

/-!
# What an integration is built on

The accepted commit of a feature and the milestone branch it goes to, as the integration
executor reads them (`integration_executor.py`): `acceptanceMetadataFromLedger` finds the one
acceptance that the ledger completed, `inspectTwoRefs` compares the accepted ref with the live
one without writing.
-/

namespace Conveyor

open Library

/-! ### The repository -/

structure TreeEntry where
  mode : String
  object : String
deriving DecidableEq, Repr

structure GitCommit where
  parents : List String
  files : Dict TreeEntry

/-- What the integration executor reads of a repository, by Git and in the worktree. -/
structure IntegrationRepository where
  platform : Platform
  repositoryId : String
  pathFingerprint : String
  isClean : Bool
  gitOperation : Bool
  revParse : String → Option String
  treeId : String → Option String
  isAncestor : String → String → Bool
  mergesBetween : String → String → List String
  commits : String → Option GitCommit
  shown : String → String → Option (Option Json)
  shownDigest : String → String → String
  liveAdapter : Option Json
  diffNames : String → String → List String
  tipNames : String → List String
  adapterCommands : Fields → Result Json

/-- `path.as_posix() == value`, with no way out of the repository. -/
def isSafeRelative (value : String) : Bool :=
  value ≠ "" && !FeatureQueue.leaves value &&
    (value = "." || (value.toList.splitOn '/').all fun part => part ≠ [] && part ≠ ['.'])

def safeRelative (value label : String) : Result String := do
  require (isSafeRelative value = true)
    (integrationPlanError s!"{label} is not a safe repository-relative path")
  return value

namespace IntegrationRepository

variable (repository : IntegrationRepository)

/-- `_json_at`. -/
def jsonAt (commit relative : String) : Result Fields := do
  let _ ← safeRelative relative "queue path"
  match repository.shown commit relative with
  | none => .error (integrationPlanError s!"immutable metadata is missing {relative}")
  | some none =>
      .error (integrationPlanError
        s!"immutable metadata {relative} is not JSON-compatible YAML")
  | some (some (.obj fields)) => return fields
  | some (some _) =>
      .error (integrationPlanError s!"immutable metadata {relative} must be an object")

/-- The commit of a name that Git has to know. -/
def commitOf (commit : String) : Result GitCommit :=
  match repository.commits commit with
  | some found => .ok found
  | none => .error (integrationPlanError s!"fatal: bad object {commit}")

end IntegrationRepository

def adapterProjectId (adapter : Fields) (source : String) : Result String :=
  let value := match adapter.get "project" with
    | .obj project => Fields.get project "id"
    | _ => .null
  match value with
  | .str text =>
      if text ≠ "" then .ok text
      else .error (integrationPlanError s!"{source} adapter project.id is missing")
  | _ => .error (integrationPlanError s!"{source} adapter project.id is missing")

/-- `_metadata_paths`. -/
def metadataPaths (adapter : Fields) (queuePath : String) : Result (List String) := do
  let runLog := match adapter.get "factory" with
    | .obj factory => (Fields.get factory "run_log").asString?.getD ""
    | _ => ""
  let queuePath ← safeRelative queuePath "queue path"
  let runLog ← if runLog ≠ "" then safeRelative runLog "factory run-log path"
    else .ok "docs/RUN_LOG.md"
  return [queuePath, "docs/CURRENT_STATUS.md", runLog].dedup.insertionSort (· ≤ ·)

/-! ### The authority in the ledger -/

/-- An event that completed the acceptance of the feature at the commit. -/
def isAcceptance (featureId acceptedCommit : String) (event : Fields) : Result Bool := do
  if event.get "event_type" ≠ .str "TransactionCompleted" then return false
  else if event.get "workflow_type" ≠ .str "feature_acceptance" then return false
  else
    let feature ← snapshotField (event.get "payload") "feature_id"
    if feature ≠ .str featureId then return false
    else
      let commit ← snapshotField (event.get "payload") "accepted_feature_commit"
      if commit ≠ .str acceptedCommit then return false
      else
        let surface ← snapshotField (event.get "payload") "acceptance_metadata_surface"
        return surface = .str "controller_evidence_ledger"

def matchingEvents (featureId acceptedCommit : String) : List Fields → Result (List Fields)
  | [] => .ok []
  | event :: rest => do
      let takes ← isAcceptance featureId acceptedCommit event
      let found ← matchingEvents featureId acceptedCommit rest
      return if takes then event :: found else found

/-- What an acceptance signs, with the fingerprint of it. -/
def acceptanceValue (P : Platform) (featureId : String) (event payload : Fields)
    (sequence eventFingerprint commit surface : Json) : Fields :=
  let value := Fields.ofPairs
    [("surface", surface), ("transaction_id", event.get "transaction_id"),
     ("ledger_sequence", sequence), ("ledger_fingerprint", eventFingerprint),
     ("feature_id", .str featureId), ("implementation_commit", commit),
     ("implementation_tree", payload.get "accepted_implementation_tree"),
     ("feature_branch", payload.get "implementation_ref"),
     ("implementation_ref_unchanged", payload.get "implementation_ref_unchanged"),
     ("integration_status", payload.get "integration_status"),
     ("acceptance_tier", payload.get "acceptance_tier"),
     ("tier_evidence_fingerprint", payload.get "tier_evidence_fingerprint"),
     ("accepted_changed_paths", payload.get "accepted_changed_paths")]
  value.set "metadata_fingerprint" (.str (P.fingerprint (.obj value)))

/-- `acceptance_metadata_from_ledger`, of the events up to the sequence. -/
def acceptanceMetadataFromLedger (P : Platform) (events : List Fields)
    (featureId acceptedCommit : String) (ledgerSequence : Option Nat) : Result Fields := do
  let events := match ledgerSequence with
    | some sequence => events.take sequence
    | none => events
  match ← matchingEvents featureId acceptedCommit events with
  | [event] => do
      let payload := match event.get "payload" with
        | .obj payload => payload
        | _ => []
      let finalized := events.filter fun candidate =>
        candidate.get "transaction_id" = event.get "transaction_id" &&
          candidate.get "workflow_type" = .str "feature_acceptance" &&
          candidate.get "event_type" = .str "CommitFinalized"
      match finalized with
      | [finalization] => do
          let commit ← snapshotField (finalization.get "payload") "commit"
          let tree ← snapshotField (finalization.get "payload") "tree"
          let parent ← snapshotField (finalization.get "payload") "parent"
          require (commit = .str acceptedCommit ∧
              tree = payload.get "accepted_implementation_tree" ∧ isText parent = true)
            (integrationPlanError
              "completed ledger acceptance finalized identity is inconsistent")
          let sequence ← lookupKey event "sequence"
          let eventFingerprint ← lookupKey event "fingerprint"
          let value := acceptanceValue P featureId event payload sequence eventFingerprint
            (payload.get "accepted_feature_commit") (payload.get "acceptance_metadata_surface")
          return (value.set "completed_acceptance_transaction" (.bool true)).set "milestone_base"
            parent
      | _ =>
          .error (integrationPlanError
            "completed ledger acceptance must contain one finalized implementation")
  | _ =>
      .error (integrationPlanError
        "controller ledger must contain exactly one matching acceptance authority")

/-! ### Two refs -/

/-- The names of the feature, the refs and the queue that an integration compares. -/
structure TwoRefs where
  controllerProjectId : String
  featureId : String
  featureBranch : String
  acceptedCommit : String
  milestoneId : String
  milestoneBranch : String
  preIntegrationHead : String
  queuePath : String

/-- The project identities of the three adapters agree. -/
def inspectAdapters (repository : IntegrationRepository) (refs : TwoRefs) :
    Result (Fields × String) := do
  let accepted ← repository.jsonAt refs.acceptedCommit ".factory/project.yaml"
  let acceptedId ← adapterProjectId accepted "accepted-commit"
  let live ← match repository.liveAdapter with
    | none => .error (integrationPlanError "live adapter is unreadable or malformed")
    | some (.obj live) => .ok live
    | some _ => .error (integrationPlanError "live adapter must be an object")
  let liveId ← adapterProjectId live "live"
  let milestone ← repository.jsonAt refs.preIntegrationHead ".factory/project.yaml"
  let milestoneId ← adapterProjectId milestone "live milestone"
  require (liveId = milestoneId)
    (integrationPlanError
      "live worktree adapter project identity does not match the live milestone ref")
  require (acceptedId = liveId)
    (integrationPlanError
      "accepted-commit adapter project identity does not match the live milestone repository")
  return (accepted, liveId)

/-- The checks of an accepted commit that carries its own acceptance. -/
def legacyChecks (repository : IntegrationRepository) (refs : TwoRefs) (feature : Fields) :
    Result (List (String × Bool)) := do
  let accepted ← repository.commitOf refs.acceptedCommit
  require (accepted.parents = [refs.preIntegrationHead])
    (integrationPlanError ("legacy accepted commit is not the exact permitted single child " ++
      "of the milestone HEAD"))
  let implementation := repository.platform.lowerText
    (Platform.strip (repository.platform.str (feature.getD "implementation_status" (.str ""))))
  let commit ← hashKey (feature.get "accepted_commit")
  let flags := match feature.get "acceptance" with
    | .obj acceptance => ["tests_passed", "review_passed", "documentation_current"].all fun key =>
        Fields.get acceptance key = .bool true
    | _ => false
  return [("accepted_implementation_completed", implementation = "completed"),
    ("accepted_status", feature.get "status" = .str "integration_pending"),
    ("accepted_integration_pending", feature.get "integration_status" = .str "pending"),
    ("accepted_feature_branch", feature.get "branch" = .str refs.featureBranch),
    ("accepted_integration_base",
      feature.get "integration_base_commit" = .str refs.preIntegrationHead),
    ("accepted_commit_identity", commit ∈ [.str "SELF", .str refs.acceptedCommit]),
    ("acceptance_flags", flags)]

/-- What the fingerprint of an acceptance signs. -/
def signedMetadata (metadata : Fields) : Fields :=
  metadata.filter fun field => field.1 ∉
    ["metadata_fingerprint", "completed_acceptance_transaction", "milestone_base"]

def completionVerified (metadata : Fields) : Bool :=
  metadata.get "completed_acceptance_transaction" = .bool true

/-- The checks of an accepted commit whose acceptance is in the ledger. -/
def ledgerChecks (repository : IntegrationRepository) (refs : TwoRefs) (metadata : Fields) :
    Result (List (String × Bool)) := do
  require (repository.isAncestor refs.preIntegrationHead refs.acceptedCommit = true)
    (integrationPlanError "accepted implementation does not descend from the milestone HEAD")
  require (repository.mergesBetween refs.preIntegrationHead refs.acceptedCommit = [])
    (integrationPlanError "accepted implementation history must be linear")
  let tier ← hashKey (metadata.get "acceptance_tier")
  let signature := repository.platform.fingerprint (.obj (signedMetadata metadata))
  let checks : List (String × Bool) :=
    [("metadata_surface", metadata.get "surface" = .str "controller_evidence_ledger"),
     ("metadata_feature", metadata.get "feature_id" = .str refs.featureId),
     ("metadata_commit", metadata.get "implementation_commit" = .str refs.acceptedCommit),
     ("metadata_tree", metadata.get "implementation_tree" =
        Json.ofOption (repository.treeId refs.acceptedCommit)),
     ("metadata_ref", metadata.get "feature_branch" = .str refs.featureBranch),
     ("metadata_ref_unchanged", metadata.get "implementation_ref_unchanged" = .bool true),
     ("metadata_integration_pending", metadata.get "integration_status" = .str "pending"),
     ("metadata_tier", tier ∈ ACCEPTANCE_TIERS),
     ("metadata_evidence", isText (metadata.get "tier_evidence_fingerprint")),
     ("metadata_fingerprint", metadata.get "metadata_fingerprint" = .str signature)]
  let base : List (String × Bool) := if completionVerified metadata then
      [("metadata_milestone_base",
        metadata.get "milestone_base" = .str refs.preIntegrationHead)]
    else []
  return checks ++ base

/-- `str(value or "")`. -/
def textOrEmpty (P : Platform) (value : Json) : String :=
  if value.truthy then P.str value else ""

/-- The authority that an integration hands to its queue transition. -/
def transitionAuthority (metadata : Fields) : Option Fields :=
  if completionVerified metadata then
    some (Fields.ofPairs
      [("completed_acceptance_transaction", .bool true),
       ("transaction_id", metadata.get "transaction_id"),
       ("metadata_fingerprint", metadata.get "metadata_fingerprint"),
       ("feature_id", metadata.get "feature_id"),
       ("milestone_base", metadata.get "milestone_base"),
       ("implementation_commit", metadata.get "implementation_commit"),
       ("implementation_tree", metadata.get "implementation_tree"),
       ("feature_branch", metadata.get "feature_branch"),
       ("acceptance_tier", metadata.get "acceptance_tier"),
       ("tier_evidence_fingerprint", metadata.get "tier_evidence_fingerprint"),
       ("implementation_ref_unchanged", metadata.get "implementation_ref_unchanged"),
       ("integration_target_preflight_passed", .bool true)])
  else none

/-- The object of a list under an identifier. -/
def oneObject (document : Fields) (collection itemId : String) : Result Fields := do
  let found ← oneOf document collection itemId
  return found.2

/-- The paths that the accepted commit changes, as the acceptance has to list them. -/
def inspectChangedPaths (repository : IntegrationRepository) (refs : TwoRefs)
    (metadata : Option Fields) : Result (List String) := do
  let names := match metadata with
    | some _ => repository.diffNames refs.preIntegrationHead refs.acceptedCommit
    | none => repository.tipNames refs.acceptedCommit
  let changed := (names.filter (· ≠ "")).insertionSort (· ≤ ·)
  require (changed ≠ []) (integrationPlanError "accepted commit has no changed paths")
  match metadata with
  | some metadata =>
      require (metadata.get "accepted_changed_paths" = .arr (changed.map Json.str))
        (integrationPlanError "controller acceptance metadata changed paths disagree")
  | none => pure ()
  return changed

structure TwoRefEvidence where
  adapterProjectId : String
  acceptedQueueFingerprint : String
  acceptedChangedPaths : List String
  acceptedMetadataRef : String
  validationCommands : Json
  metadataPaths : List String
  ledgerTransitionAuthority : Option Fields

/-- The checks of the accepted metadata. -/
def inspectMetadata (repository : IntegrationRepository) (refs : TwoRefs)
    (acceptedQueue liveQueue : Fields) (metadata : Option Fields) : Result Fields := do
  let feature ← oneObject acceptedQueue "features" refs.featureId
  let acceptedMilestone ← oneObject acceptedQueue "milestones" refs.milestoneId
  let liveMilestone ← oneObject liveQueue "milestones" refs.milestoneId
  let own ← match metadata with
    | none => legacyChecks repository refs feature
    | some metadata => ledgerChecks repository refs metadata
  let checks : List (String × Bool) :=
    [("accepted_feature_milestone", feature.get "milestone" = .str refs.milestoneId),
     ("accepted_milestone_branch",
        acceptedMilestone.get "integration_branch" = .str refs.milestoneBranch),
     ("live_milestone_branch",
        liveMilestone.get "integration_branch" = .str refs.milestoneBranch)]
  let failed := ((checks ++ own).filter fun check => !check.2).map Prod.fst
  let names := ", ".intercalate failed
  require (failed = [])
    (integrationPlanError s!"immutable accepted metadata failed two-ref validation: {names}")
  return feature

def inspectTwoRefs (repository : IntegrationRepository) (refs : TwoRefs)
    (metadata : Option Fields) : Result TwoRefEvidence := do
  require (repository.isClean = true ∧ repository.gitOperation = false)
    (integrationPlanError "integration requires a clean repository and no Git operation")
  require (repository.revParse refs.milestoneBranch = some refs.preIntegrationHead)
    (integrationPlanError "live milestone ref does not match the planned starting HEAD")
  require (repository.revParse refs.featureBranch = some refs.acceptedCommit)
    (integrationPlanError "feature branch HEAD does not match the accepted commit")
  let acceptedQueue ← repository.jsonAt refs.acceptedCommit refs.queuePath
  let (adapter, adapterId) ← inspectAdapters repository refs
  let liveQueue ← repository.jsonAt refs.preIntegrationHead refs.queuePath
  let feature ← inspectMetadata repository refs acceptedQueue liveQueue metadata
  inspectDependencies repository.isAncestor refs.preIntegrationHead liveQueue feature
  let changed ← inspectChangedPaths repository refs metadata
  let commands ← repository.adapterCommands adapter
  let paths ← metadataPaths adapter refs.queuePath
  let metadataRef := match metadata with
    | none => refs.acceptedCommit
    | some metadata =>
        "ledger:" ++ textOrEmpty repository.platform (metadata.get "transaction_id") ++ ":" ++
          textOrEmpty repository.platform (metadata.get "metadata_fingerprint")
  return {
    adapterProjectId := adapterId
    acceptedQueueFingerprint := repository.shownDigest refs.acceptedCommit refs.queuePath
    acceptedChangedPaths := changed
    acceptedMetadataRef := metadataRef
    validationCommands := commands
    metadataPaths := paths
    ledgerTransitionAuthority := metadata.bind transitionAuthority }

end Conveyor
