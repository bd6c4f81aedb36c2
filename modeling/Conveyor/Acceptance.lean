import Conveyor.IntegrationPreflight
import Conveyor.KernelCompletion

/-!
# The acceptance of a candidate

`acceptance.py`: what `inspectAcceptanceCandidate` asks of a repository and of the tier evidence
before a candidate is accepted, and what `accept_feature` records of the candidate it found. The
steps of `accept_feature` itself are in `AcceptanceInterleaving`.
-/

namespace Conveyor

open Library

/-! ### What an acceptance reads -/

/-- The fields of a `Project` that an acceptance reads. -/
structure AcceptanceProject where
  projectId : String
  repository : String
  activeMilestone : Option String
  milestoneBranch : Option String
  queueLocation : String

/-- The same project as the kernel reads it. -/
def AcceptanceProject.toProject (project : AcceptanceProject) : Project where
  projectId := project.projectId
  repository := project.repository
  queueLocation := project.queueLocation

/-- The arguments of `accept_feature` that describe the candidate. -/
structure AcceptanceRequest where
  featureId : String
  featureBranch : String
  milestoneBase : String
  implementationCommit : String
  implementationTree : String
  tierEvidence : Fields
  requiredTier : String

/-- The repository with the branch that is checked out. -/
structure CandidateRepository extends IntegrationRepository where
  queueSite : QueueSite
  currentBranch : Option String
  head : String

/-- `PurePosixPath(path).as_posix()` of a relative path. -/
def asPosix (path : String) : String :=
  match (path.toList.splitOn '/').filter fun part => part ≠ [] && part ≠ ['.'] with
  | [] => "."
  | parts => String.ofList (['/'].intercalate parts)

/-- `file_at_commit`, and the document of the file it found. -/
def fileAtCommit (repository : IntegrationRepository) (commit path : String) :
    Result (Option (Option Json)) := do
  require (FeatureQueue.leaves path = false)
    (repositoryError s!"unsafe repository-relative path: {path}")
  return repository.shown commit (asPosix path)

/-! ### Tier evidence -/

def SUPPORTED_ACCEPTANCE_TIERS : List String := ["feature", "milestone", "release"]

/-- `_implementation_identity`: the tree of the commit. -/
def implementationIdentity (repository : IntegrationRepository) (commit : String) :
    Result String :=
  let invalid := transactionError "acceptance implementation commit or tree is invalid"
  match repository.revParse commit, repository.treeId commit with
  | some resolved, some tree => do
      require (resolved = commit ∧ tree ≠ "") invalid
      return tree
  | _, _ => .error invalid

/-- `all(...)`, which stops at the first item that fails. -/
def allHold {α : Type} (holds : α → Result Bool) : List α → Result Bool
  | [] => .ok true
  | item :: rest => do
      if ← holds item then allHold holds rest else return false

/-- `record.get(key)`. -/
def recordField (record : Json) (key : String) : Result Json :=
  match record with
  | .obj fields => .ok (Fields.get fields key)
  | _ => .error ⟨.attributeError, "object has no attribute 'get'"⟩

/-- `type(value) is int`. -/
def isInteger : Json → Bool
  | .int _ => true
  | _ => false

def isCommandRecord : Json → Bool
  | .obj record =>
      (firstTruthy [Fields.get record "argv", Fields.get record "command"]).isInstance .list &&
        isInteger (Fields.get record "exit_status")
  | _ => false

/-- `record.get(key) in values`. -/
def fieldIn (key : String) (values : List String) (record : Json) : Result Bool := do
  let value ← recordField record key
  let value ← hashKey value
  return value ∈ values.map Json.str

def AUTHORITATIVE_CLASSIFICATIONS : List String :=
  ["configured_required_validation", "kernel_required_finalization",
   "workflow_required_evidence"]

def configuredGroups (requiredTier : String) : List String :=
  [s!"{requiredTier}_tests", "compile", "validate_config", "diff_check"] ++
    if requiredTier = "release" then ["release_complete_suite_1"] else []

/-- The command records passed, where the tier asks it of them. -/
def commandsPassed (requiredTier : String) (commands : List Json) : Result Bool :=
  if requiredTier = "release" then .ok true
  else allHold (fun record => do
    let status ← recordField record "exit_status"
    return status.equalsInt 0) commands

/-- Every command record is authoritative, or every one is of a configured group. -/
def commandAuthority (requiredTier : String) (commands : List Json) : Result Bool := do
  if ← allHold (fieldIn "classification" AUTHORITATIVE_CLASSIFICATIONS) commands then return true
  else allHold (fieldIn "group" (configuredGroups requiredTier)) commands

/-- The checks of the command records. -/
def commandChecks (requiredTier : String) (commands : Json) : Result (List (String × Bool)) :=
  match commands with
  | .arr commands => do
      let passed ← commandsPassed requiredTier commands
      let authority ← commandAuthority requiredTier commands
      return [("command_records", commands.all isCommandRecord), ("commands_passed", passed),
        ("tier_command_authority", authority)]
  | _ => return []

/-- An ordinary tier runs neither the complete suite nor the release validation. -/
def ordinaryChecks (requiredTier : String) (evidence : Fields) : List (String × Bool) :=
  if requiredTier = "release" then []
  else
    [("ordinary_no_complete_suite",
        (evidence.get "complete_suite_invocations").equalsInt 0),
     ("ordinary_no_release_validation",
        (evidence.get "release_validation_invocations").equalsInt 0)]

/-- What an acceptance keeps of the tier evidence. -/
structure TierEvidence where
  tier : String
  fingerprint : String
  completeSuiteInvocations : Json
  releaseValidationInvocations : Json
  commandCount : Nat

def TierEvidence.toFields (evidence : TierEvidence) : Fields :=
  Fields.ofPairs
    [("tier", .str evidence.tier), ("fingerprint", .str evidence.fingerprint),
     ("complete_suite_invocations", evidence.completeSuiteInvocations),
     ("release_validation_invocations", evidence.releaseValidationInvocations),
     ("command_count", .int evidence.commandCount)]

def isNonemptyList : Json → Bool
  | .arr (_ :: _) => true
  | _ => false

/-- The checks of the identity that the evidence names. -/
def identityChecks (project : AcceptanceProject) (repository : IntegrationRepository)
    (request : AcceptanceRequest) (tree : String) : Result (List (String × Bool)) := do
  let evidence := request.tierEvidence
  let commit ← snapshotField (evidence.get "implementation") "commit"
  let evidenceTree ← snapshotField (evidence.get "implementation") "tree"
  return [("schema", (evidence.get "schema_version").equalsInt 1),
    ("tier", evidence.get "tier" = .str request.requiredTier),
    ("valid", evidence.get "valid" = .bool true),
    ("project", evidence.get "project_id" = .str project.projectId),
    ("repository", evidence.get "repository_identity" = .str repository.repositoryId),
    ("path", evidence.get "repository_path_fingerprint" = .str repository.pathFingerprint),
    ("commit", commit = .str request.implementationCommit),
    ("tree", decide (evidenceTree = .str request.implementationTree) &&
      decide (request.implementationTree = tree)),
    ("commands", isNonemptyList (evidence.get "commands")),
    ("complete_suite_count", isInteger (evidence.get "complete_suite_invocations")),
    ("release_validation_count", isInteger (evidence.get "release_validation_invocations"))]

/-- `validate_tier_evidence`. -/
def validateTierEvidence (project : AcceptanceProject) (repository : IntegrationRepository)
    (request : AcceptanceRequest) : Result TierEvidence := do
  require (request.requiredTier ∈ SUPPORTED_ACCEPTANCE_TIERS)
    (transactionError s!"unsupported acceptance transition tier: {request.requiredTier}")
  let tree ← implementationIdentity repository request.implementationCommit
  let evidence := request.tierEvidence
  let identity ← identityChecks project repository request tree
  let commands ← commandChecks request.requiredTier (evidence.get "commands")
  let checks := identity ++ ordinaryChecks request.requiredTier evidence ++ commands
  let failed := (checks.filter fun check => !check.2).map Prod.fst
  let names := ", ".intercalate failed
  require (failed = [])
    (transactionError s!"candidate-bound tier evidence failed authentication: {names}")
  return {
    tier := request.requiredTier
    fingerprint := repository.platform.fingerprint (.obj evidence)
    completeSuiteInvocations := evidence.get "complete_suite_invocations"
    releaseValidationInvocations := evidence.get "release_validation_invocations"
    commandCount := match evidence.get "commands" with
      | .arr commands => commands.length
      | _ => 0 }

/-! ### The candidate -/

/-- The value of `inspect_acceptance_candidate`. -/
structure AcceptanceCandidate where
  projectId : String
  repositoryIdentity : String
  repositoryPathFingerprint : String
  featureId : String
  featureBranch : String
  milestoneId : Option String
  milestoneBranch : Option String
  milestoneBase : String
  implementationCommit : String
  implementationTree : String
  changedPaths : List String
  tierEvidence : TierEvidence

namespace AcceptanceCandidate

variable (candidate : AcceptanceCandidate)

def implementation : Json :=
  .obj (Fields.ofPairs
    [("commit", .str candidate.implementationCommit),
     ("tree", .str candidate.implementationTree)])

def changed : Json := .arr (candidate.changedPaths.map Json.str)

def toFields : Fields :=
  Fields.ofPairs
    [("schema_version", .int 1), ("project_id", .str candidate.projectId),
     ("repository_identity", .str candidate.repositoryIdentity),
     ("repository_path_fingerprint", .str candidate.repositoryPathFingerprint),
     ("feature_id", .str candidate.featureId), ("feature_branch", .str candidate.featureBranch),
     ("milestone_id", .ofOption candidate.milestoneId),
     ("milestone_branch", .ofOption candidate.milestoneBranch),
     ("milestone_base", .str candidate.milestoneBase),
     ("implementation", candidate.implementation), ("changed_paths", candidate.changed),
     ("tier_evidence", .obj candidate.tierEvidence.toFields)]

end AcceptanceCandidate

/-- The documents of a candidate: its queue and the three adapters. -/
structure CandidateDocuments where
  queue : FeatureQueue
  adapters : List Json

def malformedCandidate : Failure := transactionError "candidate queue or adapter is malformed"

/-- `except (ValueError, TypeError)`. -/
def malformedAs {α : Type} (result : Result α) : Result α :=
  match result with
  | .error ⟨.valueError, _⟩ | .error ⟨.typeError, _⟩ => .error malformedCandidate
  | result => result

/-- `FeatureQueue(document)`. -/
def queueOf (site : QueueSite) (document : Json) : Result FeatureQueue :=
  match document with
  | .obj fields => malformedAs (FeatureQueue.ofFields site fields)
  | _ => .error ⟨.attributeError, "object has no attribute 'get'"⟩

def parsedAs (document : Option Json) : Result Json :=
  document.elim (.error malformedCandidate) .ok

/-- The documents that a candidate and its milestone base carry. -/
def candidateDocuments (project : AcceptanceProject) (repository : CandidateRepository)
    (request : AcceptanceRequest) : Result CandidateDocuments := do
  let queue ← fileAtCommit repository.toIntegrationRepository request.implementationCommit
    project.queueLocation
  let adapter ← fileAtCommit repository.toIntegrationRepository request.implementationCommit
    ".factory/project.yaml"
  let milestone ← fileAtCommit repository.toIntegrationRepository request.milestoneBase
    ".factory/project.yaml"
  match queue, adapter, milestone with
  | some queue, some adapter, some milestone => do
      let queue ← parsedAs queue
      let queue ← queueOf repository.queueSite queue
      let adapter ← parsedAs adapter
      let milestone ← parsedAs milestone
      let live ← parsedAs repository.liveAdapter
      return ⟨queue, [adapter, milestone, live]⟩
  | _, _, _ => .error (transactionError "candidate lacks queue or adapter identity")

/-- The project identity that an adapter names. -/
def adapterId (document : Json) : Result Json :=
  match document with
  | .obj fields => snapshotField (Fields.get fields "project") "id"
  | _ => .ok .null

/-- The refs of the candidate are what the caller says, and its history is linear. -/
def inspectRefs (project : AcceptanceProject) (repository : CandidateRepository)
    (request : AcceptanceRequest) : Result Unit := do
  require (repository.isClean = true ∧ repository.gitOperation = false ∧
      repository.currentBranch = some request.featureBranch ∧
      repository.head = request.implementationCommit ∧
      repository.revParse request.featureBranch = some request.implementationCommit ∧
      repository.revParse (project.milestoneBranch.getD "") = some request.milestoneBase)
    (transactionError "acceptance requires the exact clean candidate and milestone refs")
  require (repository.isAncestor request.milestoneBase request.implementationCommit = true)
    (transactionError "acceptance candidate does not descend from the milestone base")
  require (repository.mergesBetween request.milestoneBase request.implementationCommit = [])
    (transactionError "acceptance candidate history must be linear")
  let tree ← implementationIdentity repository.toIntegrationRepository
    request.implementationCommit
  require (tree = request.implementationTree)
    (transactionError "acceptance implementation tree changed")

/-- The adapters name one application, and the queue has the feature in the active milestone. -/
def inspectDocuments (project : AcceptanceProject) (request : AcceptanceRequest)
    (documents : CandidateDocuments) : Result Unit := do
  let ids ← documents.adapters.mapM adapterId
  require (ids.all isText = true ∧ ids.dedup.length = 1)
    (transactionError "candidate application identity disagrees")
  match documents.queue.feature request.featureId with
  | none => .error (transactionError "candidate queue lacks the accepted feature")
  | some feature =>
      require (feature.get "milestone" = .ofOption project.activeMilestone)
        (transactionError "candidate feature milestone disagrees")

/-- The paths that the candidate changes. -/
def candidatePaths (repository : IntegrationRepository) (request : AcceptanceRequest) :
    List String :=
  ((repository.diffNames request.milestoneBase request.implementationCommit).filter
    (· ≠ "")).insertionSort (· ≤ ·)

/-- `inspect_acceptance_candidate`. -/
def inspectAcceptanceCandidate (project : AcceptanceProject) (repository : CandidateRepository)
    (request : AcceptanceRequest) : Result AcceptanceCandidate := do
  inspectRefs project repository request
  let documents ← candidateDocuments project repository request
  inspectDocuments project request documents
  let changed := candidatePaths repository.toIntegrationRepository request
  require (request.tierEvidence.get "changed_paths" = .arr (changed.map Json.str))
    (transactionError "candidate changed paths disagree with authenticated tier evidence")
  let evidence ← validateTierEvidence project repository.toIntegrationRepository request
  return {
    projectId := project.projectId
    repositoryIdentity := repository.repositoryId
    repositoryPathFingerprint := repository.pathFingerprint
    featureId := request.featureId
    featureBranch := request.featureBranch
    milestoneId := project.activeMilestone
    milestoneBranch := project.milestoneBranch
    milestoneBase := request.milestoneBase
    implementationCommit := request.implementationCommit
    implementationTree := request.implementationTree
    changedPaths := changed
    tierEvidence := evidence }

/-! ### What an acceptance records -/

def executionStartedPayload (P : Platform) (candidate : AcceptanceCandidate) : Fields :=
  Fields.ofPairs
    [("execution_mode", .str "immutable_implementation_acceptance"),
     ("plan_fingerprint", .str (P.fingerprint (.obj candidate.toFields))),
     ("implementation", candidate.implementation),
     ("tier_evidence", .obj candidate.tierEvidence.toFields),
     ("model_session_launched", .bool false)]

def resultAcceptedPayload (P : Platform) (candidate : AcceptanceCandidate) : Fields :=
  Fields.ofPairs
    [("classification", .str "FEATURE_ACCEPTED"),
     ("plan_fingerprint", .str (P.fingerprint (.obj candidate.toFields))),
     ("implementation", candidate.implementation), ("changed_paths", candidate.changed),
     ("model_session_launched", .bool false)]

def tierStartedPayload (candidate : AcceptanceCandidate) (requiredTier : String) : Fields :=
  Fields.ofPairs [("implementation", candidate.implementation), ("tier", .str requiredTier)]

def tierPassedPayload (candidate : AcceptanceCandidate) (commands : Json) : Fields :=
  Fields.ofPairs
    [("implementation", candidate.implementation),
     ("tier_evidence", .obj candidate.tierEvidence.toFields), ("commands", commands),
     ("warnings", .arr [])]

def implementationPayload (request : AcceptanceRequest) : Fields :=
  Fields.ofPairs
    [("commit", .str request.implementationCommit), ("tree", .str request.implementationTree),
     ("parent", .str request.milestoneBase), ("changed_paths", .arr []),
     ("no_change", .bool true), ("implementation_ref_unchanged", .bool true)]

/-- The evidence that an acceptance completes its transaction with. -/
def acceptanceEvidence (project : AcceptanceProject) (request : AcceptanceRequest)
    (candidate : AcceptanceCandidate) : Fields :=
  Fields.ofPairs
    [("accepted_feature_commit", .str request.implementationCommit),
     ("candidate_implementation_commit", .str request.implementationCommit),
     ("accepted_implementation_tree", .str request.implementationTree),
     ("implementation_ref", .str request.featureBranch),
     ("implementation_ref_unchanged", .bool true),
     ("invoking_worktree", .str project.repository),
     ("invoking_worktree_fingerprint", .str candidate.repositoryPathFingerprint),
     ("acceptance_metadata_surface", .str "controller_evidence_ledger"),
     ("acceptance_tier", .str request.requiredTier),
     ("tier_evidence_fingerprint", .str candidate.tierEvidence.fingerprint),
     ("accepted_changed_paths", candidate.changed),
     ("integration_status", .str "pending")]

/-! ### The authority it leaves -/

/-- The event is an authority that `acceptance_metadata_from_ledger` takes. -/
def isAuthority (featureId acceptedCommit : String) (event : LedgerEvent) : Bool :=
  event.eventType = .transactionCompleted && event.workflowType = .featureAcceptance &&
    event.payload.get "feature_id" = .str featureId &&
    event.payload.get "accepted_feature_commit" = .str acceptedCommit &&
    event.payload.get "acceptance_metadata_surface" = .str "controller_evidence_ledger"

theorem isAcceptance_toFields (featureId acceptedCommit : String) (event : LedgerEvent) :
    isAcceptance featureId acceptedCommit event.toFields =
      .ok (isAuthority featureId acceptedCommit event) := by
  have hkind : event.toFields.get "event_type" = .str event.eventType.name := rfl
  have hworkflow : event.toFields.get "workflow_type" = .str event.workflowType.value := rfl
  have hpayload : event.toFields.get "payload" = .obj event.payload := rfl
  have hcompleted : event.eventType.name = "TransactionCompleted" ↔
      event.eventType = .transactionCompleted := by
    cases event.eventType <;> decide
  have haccepts : event.workflowType.value = "feature_acceptance" ↔
      event.workflowType = .featureAcceptance := by
    cases event.workflowType <;> decide
  simp only [isAcceptance, isAuthority, hkind, hworkflow, hpayload, snapshotField, ne_eq,
    Json.str.injEq, hcompleted, haccepts, ok_bind]
  split
  · rename_i h
    simp [h, pure, Except.pure]
  · rename_i hk
    split
    · rename_i h
      simp [h, pure, Except.pure]
    · rename_i hw
      split
      · rename_i h
        simp [h, pure, Except.pure]
      · rename_i hf
        split
        · rename_i h
          simp [h, pure, Except.pure]
        · rename_i hc
          simp only [not_not] at hk hw hf hc
          simp [hk, hw, hf, hc, pure, Except.pure]

/-- The authorities of a ledger. -/
theorem matchingEvents_toFields (featureId acceptedCommit : String) (events : List LedgerEvent) :
    matchingEvents featureId acceptedCommit (events.map LedgerEvent.toFields) =
      .ok ((events.filter (isAuthority featureId acceptedCommit)).map LedgerEvent.toFields) := by
  induction events with
  | nil => rfl
  | cons event rest ih =>
      rw [List.map_cons, matchingEvents, isAcceptance_toFields, ok_bind, ih, ok_bind,
        List.filter_cons]
      split <;> rfl

end Conveyor
