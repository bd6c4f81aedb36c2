import Conveyor.IntegrationPreflight
import Conveyor.Library.TextLines

/-!
# The audit of an accepted commit

`_audit_accepted_commit` and the steps of `execute_integration_plan` up to its cherry-pick
(`integration_executor.py`). The audit reads two outputs of Git: the entries that the accepted
commit changes, and the text of the difference between the two refs.
-/

namespace Conveyor

open Library

/-! ### What Git prints -/

/-- A line of `git diff`. -/
inductive DiffLine where
  | header (text : List Char)
  | removed (content : List Char)
  | added (content : List Char)

def DiffLine.render : DiffLine → List Char
  | .header text => text
  | .removed content => '-' :: content
  | .added content => '+' :: content

/-- A line of `git diff-tree --raw`. -/
structure RawEntry where
  oldMode : String
  newMode : String
  path : String

/-- `git diff-tree --raw -r` of two trees. -/
def diffTree (before after : Dict TreeEntry) : List RawEntry :=
  let mode := fun (files : Dict TreeEntry) path =>
    ((files.get? path).map TreeEntry.mode).getD "000000"
  ((before.keys ++ after.keys).dedup.filter fun path => before.get? path ≠ after.get? path).map
    fun path => ⟨mode before path, mode after path, path⟩

/-- The repository with the text that Git prints of the difference between two commits. -/
structure AuditRepository extends IntegrationRepository where
  diff : String → String → List DiffLine

namespace AuditRepository

variable (repository : AuditRepository)

/-- The entries that a commit changes; Git prints none of a merge or of a first commit. -/
def rawEntries (commit : String) : Result (List RawEntry) := do
  let tip ← repository.commitOf commit
  match tip.parents with
  | [parent] => do
      let before ← repository.commitOf parent
      return diffTree before.files tip.files
  | _ => return []

/-- The standard output of `git diff --unified=0`, as a text stream reads it. -/
def diffText (base commit : String) : List Char :=
  universalNewlines ((repository.diff base commit).flatMap fun line => line.render ++ ['\n'])

end AuditRepository

/-! ### The audit -/

def SUPPORTED_PROFILES : List Json :=
  [.str "personal_private", .str "team_internal", .str "commercial_private",
   .str "public_distribution", .str "open_source"]

def RISKY_MODES : List String := ["120000", "160000"]

/-- One of the first two fields of the line is a risky mode. -/
def RawEntry.isRisky (entry : RawEntry) : Bool :=
  [":" ++ entry.oldMode, entry.newMode].any fun mode => mode ∈ RISKY_MODES

def isAlnum (c : Char) : Bool := isAscii c && c.isAlphanum

def isUpperOrDigit (c : Char) : Bool :=
  (decide ('A' ≤ c) && decide (c ≤ 'Z')) || (decide ('0' ≤ c) && decide (c ≤ '9'))

/-- `r{n}`. -/
def exactly (n : Nat) (r : Regex) : Regex := .cat (List.replicate n r)

/-- The patterns of the secret categories. -/
def secretPatterns (P : Platform) : List (String × Regex) :=
  [("private_key", .cat [.text "BEGIN ",
      .opt (.oneOf [.text "RSA ", .text "EC ", .text "OPENSSH "]), .text "PRIVATE KEY"]),
   ("github_token", .cat [.wordBoundary P.isWord, .text "gh",
      .chr fun c => decide (c ∈ "pousr".toList), .text "_", .atLeast 20 (.chr isAlnum),
      .wordBoundary P.isWord]),
   ("aws_access_key", .cat [.wordBoundary P.isWord, .text "AKIA",
      exactly 16 (.chr isUpperOrDigit), .wordBoundary P.isWord])]

/-- `line.startswith("+") and not line.startswith("+++")`. -/
def isAddedLine (line : List Char) : Bool :=
  ['+'].isPrefixOf line && !(['+', '+', '+'].isPrefixOf line)

/-- The text that the audit searches. -/
def addedText (diff : List Char) : List Char :=
  ['\n'].intercalate (((splitlines diff).filter isAddedLine).map List.tail)

structure AuditReport where
  acceptedCommit : String
  changedPathCount : Nat
  profileUsage : Json

/-- The profile and the content policy of the accepted commit. -/
def auditProfile (repository : IntegrationRepository) (acceptedCommit : String) :
    Result Json := do
  let adapter ← repository.jsonAt acceptedCommit ".factory/project.yaml"
  let lacks := integrationPlanError
    "accepted commit lacks a supported project profile or content policy"
  let usage ← match adapter.get "project_profile" with
    | .obj profile => do
        let usage ← hashKey (Fields.get profile "usage")
        require (usage ∈ SUPPORTED_PROFILES) lacks
        .ok usage
    | _ => .error lacks
  require ((adapter.get "content_policy").isInstance .dict = true) lacks
  let approved ← repository.jsonAt acceptedCommit ".factory/approved-content.yaml"
  require ((approved.get "schema_version").equalsInt 1 = true ∧
      (approved.get "approved").isInstance .list = true)
    (integrationPlanError "accepted commit approved-content metadata is invalid")
  return usage

/-- `_audit_accepted_commit`. -/
def auditAcceptedCommit (repository : AuditRepository) (base acceptedCommit : String)
    (changedPaths : List String) : Result AuditReport := do
  let usage ← auditProfile repository.toIntegrationRepository acceptedCommit
  let raw ← repository.rawEntries acceptedCommit
  require (raw.filter RawEntry.isRisky).isEmpty
    (integrationPlanError
      "accepted commit contains a symlink or submodule path requiring a human gate")
  let added := addedText (repository.diffText base acceptedCommit)
  let found := ((secretPatterns repository.platform).filter fun pattern =>
    pattern.2.search none added).map Prod.fst
  let names := ", ".intercalate (found.insertionSort (· ≤ ·))
  require (found = [])
    (integrationPlanError
      s!"accepted commit content audit found suspected secret categories: {names}")
  return ⟨acceptedCommit, changedPaths.length, usage⟩

/-! ### Up to the cherry-pick -/

/-- What an integration plan binds, beside what its queue edits read. -/
structure BoundIntegrationPlan extends IntegrationPlan where
  controllerProjectId : String
  adapterProjectId : String
  milestoneBranch : String
  queuePath : String
  acceptedQueueFingerprint : String
  acceptedChangedPaths : List String
  validationCommands : Json
  metadataPaths : List String
  ledgerSequence : Nat

def BoundIntegrationPlan.refs (plan : BoundIntegrationPlan) : TwoRefs where
  controllerProjectId := plan.controllerProjectId
  featureId := plan.featureId
  featureBranch := plan.featureBranch
  acceptedCommit := plan.acceptedCommit
  milestoneId := plan.milestoneId
  milestoneBranch := plan.milestoneBranch
  preIntegrationHead := plan.preIntegrationHead
  queuePath := plan.queuePath

/-- `accepted_metadata_ref.startswith("ledger:")`. -/
def BoundIntegrationPlan.hasLedgerAuthority (plan : BoundIntegrationPlan) : Bool :=
  "ledger:".toList.isPrefixOf plan.acceptedMetadataRef.toList

/-- What the execution of a plan finds around the repository: whether the plan is still bound to
    it, its ledger and its lease, and whether the milestone branch is ready for the pick. -/
structure ExecutionSite where
  repository : AuditRepository
  bound : BoundIntegrationPlan → Result Unit
  events : List Fields
  prepared : BoundIntegrationPlan → Result Unit

/-- The arguments of `git cherry-pick`. -/
inductive PickArguments where
  | range (base commit : String)
  | single (commit : String)

/-- The evidence is what the plan was built on. -/
def checkEvidence (plan : BoundIntegrationPlan) (evidence : TwoRefEvidence) : Result Unit :=
  let checks : List (String × Bool) :=
    [("accepted_queue_fingerprint",
        evidence.acceptedQueueFingerprint = plan.acceptedQueueFingerprint),
     ("accepted_changed_paths", evidence.acceptedChangedPaths = plan.acceptedChangedPaths),
     ("accepted_metadata_ref", evidence.acceptedMetadataRef = plan.acceptedMetadataRef),
     ("adapter_project_id", evidence.adapterProjectId = plan.adapterProjectId),
     ("validation_commands", evidence.validationCommands = plan.validationCommands),
     ("metadata_paths", evidence.metadataPaths = plan.metadataPaths)]
  let failed := (checks.filter fun check => !check.2).map Prod.fst
  let names := ", ".intercalate failed
  require (failed = [])
    (integrationPlanError s!"immutable integration evidence changed before mutation: {names}")

/-- The acceptance that a plan with ledger authority rests on. -/
def planMetadata (site : ExecutionSite) (plan : BoundIntegrationPlan) : Result (Option Fields) :=
  if plan.hasLedgerAuthority then do
    let metadata ← acceptanceMetadataFromLedger site.repository.platform site.events plan.featureId
      plan.acceptedCommit (some plan.ledgerSequence)
    return some metadata
  else return none

/-- `execute_integration_plan`, up to the arguments of its cherry-pick. -/
def executeToPick (site : ExecutionSite) (plan : BoundIntegrationPlan) :
    Result PickArguments := do
  site.bound plan
  let metadata ← planMetadata site plan
  let evidence ← inspectTwoRefs site.repository.toIntegrationRepository plan.refs metadata
  checkEvidence plan evidence
  let _ ← auditAcceptedCommit site.repository plan.preIntegrationHead plan.acceptedCommit
    plan.acceptedChangedPaths
  site.prepared plan
  return if plan.hasLedgerAuthority then .range plan.preIntegrationHead plan.acceptedCommit
    else .single plan.acceptedCommit

end Conveyor
