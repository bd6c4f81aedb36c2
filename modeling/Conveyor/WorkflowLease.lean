import Conveyor.Contracts

/-!
# Writer leases

The record a writer lease file holds and the checks its readers make
(`workflow_lease.py`). A process is known by its number, its start evidence and its
host; `revalidate` asks that the record was written by the calling process,
`revalidateAdopted` that it is the lease a controller handed down and that the
controller still runs. The calls themselves, one file-system operation at a time,
are in `LeaseInterleaving`.
-/

namespace Conveyor

open Library

def lockError (message : String) : Failure := ⟨.lockError, message⟩

def ambiguousLockError (message : String) : Failure := ⟨.ambiguousLockError, message⟩

/-- A process: `os.getpid()`, its start evidence and its host name. -/
structure ProcessIdentity where
  pid : Nat
  start : String
  host : String
deriving DecidableEq, Repr

structure WorkflowLeaseRecord where
  leaseId : String
  leaseType : LeaseType
  repositoryIdentity : String
  repositoryPathFingerprint : String
  repositoryPath : String
  projectId : String
  controllerProjectId : Option String
  adapterProjectId : Option String
  transactionId : String
  workflowType : WorkflowType
  milestone : Option String
  featureId : Option String
  featureBranch : Option String
  acceptedCommit : Option String
  startingBranch : String
  startingHead : String
  runId : String
  sessionId : Option String
  ownerPid : Nat
  ownerProcessStart : String
  ownerHost : String
  createdAt : String
  lastHeartbeat : String
  allowedMutations : Fields
deriving DecidableEq

namespace WorkflowLeaseRecord

def owner (record : WorkflowLeaseRecord) : ProcessIdentity :=
  ⟨record.ownerPid, record.ownerProcessStart, record.ownerHost⟩

/-- The purpose a lease file states for other tools that read it. -/
def purposeOf : WorkflowType → String
  | .queueReconciliation => "development-conveyor-planning"
  | .featurePreparation => "development-conveyor-feature-preparation"
  | .featureExecution => "development-conveyor-feature"
  | .featureAcceptance => "development-conveyor-feature-acceptance"
  | .milestoneIntegration => "development-conveyor-integration"
  | .milestoneGate => "development-conveyor-milestone-gate"
  | .humanDecisionResolution => "development-conveyor-recovery"
  | .recovery => "development-conveyor-recovery"

/-- `to_dict`. -/
def toFields (record : WorkflowLeaseRecord) : Fields :=
  .ofPairs
    [("schema_version", .int 1), ("lease_id", .str record.leaseId),
     ("lease_type", .str record.leaseType.value),
     ("repository_identity", .str record.repositoryIdentity),
     ("repository_path_fingerprint", .str record.repositoryPathFingerprint),
     ("repository_path", .str record.repositoryPath), ("project_id", .str record.projectId),
     ("controller_project_id", .ofOption record.controllerProjectId),
     ("adapter_project_id", .ofOption record.adapterProjectId),
     ("transaction_id", .str record.transactionId),
     ("workflow_type", .str record.workflowType.value),
     ("milestone", .ofOption record.milestone), ("feature_id", .ofOption record.featureId),
     ("feature_branch", .ofOption record.featureBranch),
     ("accepted_commit", .ofOption record.acceptedCommit),
     ("starting_branch", .str record.startingBranch), ("starting_head", .str record.startingHead),
     ("run_id", .str record.runId), ("session_id", .ofOption record.sessionId),
     ("owner_pid", .int record.ownerPid),
     ("owner_process_start", .str record.ownerProcessStart),
     ("owner_host", .str record.ownerHost), ("created_at", .str record.createdAt),
     ("last_heartbeat", .str record.lastHeartbeat),
     ("allowed_mutations", .obj record.allowedMutations),
     ("repository", .str record.repositoryPath), ("worktree", .str record.repositoryPath),
     ("branch", .str record.startingBranch), ("agent_run", .str record.runId),
     ("phase", .str record.workflowType.value),
     ("purpose", .str (purposeOf record.workflowType))]

end WorkflowLeaseRecord

/-! ### The owner's check -/

/-- The keyword arguments of `revalidate`. An outer `none` is an argument not given. -/
structure LeaseExpectation where
  transactionId : String
  workflowType : WorkflowType
  repositoryIdentity : String
  projectId : String
  leaseType : Option LeaseType := none
  repositoryPathFingerprint : Option String := none
  repositoryPath : Option String := none
  leaseId : Option String := none
  milestone : Option (Option String) := none
  featureId : Option (Option String) := none
  startingBranch : Option String := none
  startingHead : Option String := none
  runId : Option String := none
  sessionId : Option (Option String) := none
  policy : Option Fields := none

/-- The argument is not given, or it is the record's value. -/
def givenIs {α : Type} [DecidableEq α] (given : Option α) (value : α) : Bool :=
  match given with
  | none => true
  | some expected => value = expected

/-- The checks of `revalidate` with their names; `resolve` is `Path.resolve`. -/
def revalidateChecks (resolve : String → String) (caller : ProcessIdentity)
    (expectation : LeaseExpectation) (record : WorkflowLeaseRecord) : List (String × Bool) :=
  [("transaction", record.transactionId = expectation.transactionId),
   ("workflow", record.workflowType = expectation.workflowType),
   ("lease_type", record.leaseType =
      expectation.leaseType.getD (WORKFLOW_LEASE expectation.workflowType)),
   ("repository", record.repositoryIdentity = expectation.repositoryIdentity),
   ("project", record.projectId = expectation.projectId),
   ("repository_path_fingerprint",
      givenIs expectation.repositoryPathFingerprint record.repositoryPathFingerprint),
   ("repository_path",
      givenIs (expectation.repositoryPath.map resolve) (resolve record.repositoryPath)),
   ("lease_id", givenIs expectation.leaseId record.leaseId),
   ("milestone", givenIs expectation.milestone record.milestone),
   ("feature", givenIs expectation.featureId record.featureId),
   ("starting_branch", givenIs expectation.startingBranch record.startingBranch),
   ("starting_head", givenIs expectation.startingHead record.startingHead),
   ("run_id", givenIs expectation.runId record.runId),
   ("session", givenIs expectation.sessionId record.sessionId),
   ("mutation_policy", givenIs expectation.policy record.allowedMutations),
   ("host", record.ownerHost = caller.host),
   ("pid", record.ownerPid = caller.pid),
   ("process_start", record.ownerProcessStart = caller.start)]

/-- `revalidate`, on the record that was read. -/
def revalidate (resolve : String → String) (caller : ProcessIdentity)
    (expectation : LeaseExpectation) (record : WorkflowLeaseRecord) : Result Unit :=
  let failed := ((revalidateChecks resolve caller expectation record).filter
    fun check => !check.2).map Prod.fst
  let names := ", ".intercalate failed
  require (failed = []) (lockError s!"writer lease identity mismatch: {names}")

/-- Only the process that wrote the record passes the owner's check. -/
theorem owner_of_revalidate {resolve : String → String} {caller : ProcessIdentity}
    {expectation : LeaseExpectation} {record : WorkflowLeaseRecord}
    (h : revalidate resolve caller expectation record = .ok ()) : record.owner = caller := by
  rw [revalidate, require_eq_ok, List.map_eq_nil_iff, List.filter_eq_nil_iff] at h
  have hhost := h ("host", record.ownerHost = caller.host) (by simp [revalidateChecks])
  have hpid := h ("pid", record.ownerPid = caller.pid) (by simp [revalidateChecks])
  have hstart := h ("process_start", record.ownerProcessStart = caller.start)
    (by simp [revalidateChecks])
  simp only [Bool.not_eq_true', decide_eq_false_iff_not, not_not] at hhost hpid hstart
  rw [WorkflowLeaseRecord.owner, hhost, hpid, hstart]

/-! ### The adopted check -/

def PROJECT_BINDING_FIELDS : List String := ["controller_project_id", "adapter_project_id"]

/-- `identity_fields`. -/
def IDENTITY_FIELDS : List String :=
  ["lease_id", "lease_type", "repository_identity", "repository_path_fingerprint",
   "repository_path", "project_id", "controller_project_id", "adapter_project_id",
   "transaction_id", "workflow_type", "milestone", "feature_id", "feature_branch",
   "accepted_commit", "starting_branch", "starting_head", "run_id", "session_id", "owner_pid",
   "owner_process_start", "owner_host", "allowed_mutations"]

/-- The identity fields a plan has to name: an unbound lease and a plan from before
    the project bindings leave these two out. -/
def adoptedFields (expected actual : Fields) : List String :=
  if PROJECT_BINDING_FIELDS.all fun name =>
      decide (name ∉ expected.keys) && decide (actual.get name = .null) then
    IDENTITY_FIELDS.filter (· ∉ PROJECT_BINDING_FIELDS)
  else IDENTITY_FIELDS

/-- What the adopted check observes of the owner: `process_alive` and the start
    evidence of its process number now. -/
structure OwnerObservation where
  alive : Bool
  start : String

/-- `revalidate_adopted`, on the record that was read. -/
def revalidateAdopted (caller : ProcessIdentity) (observed : OwnerObservation)
    (expected : Fields) (record : WorkflowLeaseRecord) : Result Unit := do
  let actual := record.toFields
  let fields := adoptedFields expected actual
  let missing := ", ".intercalate (fields.filter (· ∉ expected.keys))
  let mismatched := ", ".intercalate
    (fields.filter fun name => decide (actual.get name ≠ expected.get name))
  require (fields.filter (· ∉ expected.keys) = [])
    (lockError s!"controller integration plan has incomplete lease identity: {missing}")
  require ((fields.filter fun name => decide (actual.get name ≠ expected.get name)) = [])
    (lockError s!"controller integration lease identity mismatch: {mismatched}")
  require (record.sessionId = none)
    (lockError "deterministic integration lease must not be bound to a model session")
  require (record.ownerHost = caller.host)
    (lockError "controller integration lease owner host does not match")
  require (observed.alive = true)
    (lockError "controller integration lease owner process is not alive")
  require (observed.start = record.ownerProcessStart)
    (lockError "controller integration lease owner process-start evidence changed")

/-! ### The controller's plan -/

structure ControllerPlan where
  controllerProjectId : String
  adapterProjectId : String
  featureBranch : String
  acceptedCommit : String

/-- A binding that is absent or already this one. -/
def bindable (bound : Option String) (value : String) : Prop := bound = none ∨ bound = some value

instance (bound : Option String) (value : String) : Decidable (bindable bound value) :=
  inferInstanceAs (Decidable (_ ∨ _))

/-- The checks of `bind_controller_plan` after its revalidation, and the record it writes. -/
def bindPlan (plan : ControllerPlan) (now : String) (record : WorkflowLeaseRecord) :
    Result WorkflowLeaseRecord := do
  require (plan.controllerProjectId ≠ "" ∧ plan.adapterProjectId ≠ "")
    (lockError "controller integration project identity binding is incomplete")
  require (plan.featureBranch ≠ "" ∧ plan.acceptedCommit ≠ "")
    (lockError "controller integration ref binding is incomplete")
  require (bindable record.controllerProjectId plan.controllerProjectId)
    (lockError "controller integration controller-project binding changed")
  require (bindable record.adapterProjectId plan.adapterProjectId)
    (lockError "controller integration adapter-project binding changed")
  require (bindable record.featureBranch plan.featureBranch)
    (lockError "controller integration feature-branch binding changed")
  require (bindable record.acceptedCommit plan.acceptedCommit)
    (lockError "controller integration accepted-commit binding changed")
  return { record with
    controllerProjectId := some plan.controllerProjectId
    adapterProjectId := some plan.adapterProjectId
    featureBranch := some plan.featureBranch
    acceptedCommit := some plan.acceptedCommit
    lastHeartbeat := now }

/-! ### Acquiring and releasing -/

structure AcquireRequest where
  leaseType : LeaseType
  repositoryIdentity : String
  repositoryPathFingerprint : String
  repositoryPath : Option String
  projectId : String
  transactionId : String
  workflowType : WorkflowType
  milestone : Option String
  featureId : Option String
  startingBranch : String
  startingHead : String
  runId : String
  sessionId : Option String
  policy : Fields

/-- The part of the environment a lease path fixes: `Path.resolve` and the directory
    above `.factory`. -/
structure LeaseSite where
  resolve : String → String
  confinementRoot : String

/-- What `acquire` checks after it found the path free, and the record it then writes. -/
def acquireRecord (P : Platform) (site : LeaseSite) (caller : ProcessIdentity)
    (request : AcquireRequest) (leaseId stamp : String) : Result WorkflowLeaseRecord := do
  let worktree := site.resolve (request.repositoryPath.getD site.confinementRoot)
  require (request.repositoryPath = none ∨
      P.textDigest worktree = request.repositoryPathFingerprint)
    (lockError "writer lease worktree path fingerprint mismatch")
  return {
    leaseId := leaseId
    leaseType := request.leaseType
    repositoryIdentity := request.repositoryIdentity
    repositoryPathFingerprint := request.repositoryPathFingerprint
    repositoryPath := worktree
    projectId := request.projectId
    controllerProjectId := none
    adapterProjectId := none
    transactionId := request.transactionId
    workflowType := request.workflowType
    milestone := request.milestone
    featureId := request.featureId
    featureBranch := none
    acceptedCommit := none
    startingBranch := request.startingBranch
    startingHead := request.startingHead
    runId := request.runId
    sessionId := request.sessionId
    ownerPid := caller.pid
    ownerProcessStart := caller.start
    ownerHost := caller.host
    createdAt := stamp
    lastHeartbeat := stamp
    allowedMutations := request.policy }

/-- The first check of `release`: a lease for a linked worktree is released only with
    its exact worktree and run. -/
def releaseCheck (site : LeaseSite) (expectation : LeaseExpectation)
    (record : WorkflowLeaseRecord) : Result Unit :=
  require (site.resolve record.repositoryPath = site.resolve site.confinementRoot ∨
      (expectation.repositoryPathFingerprint ≠ none ∧ expectation.repositoryPath ≠ none ∧
        expectation.runId ≠ none))
    (lockError "linked-worktree lease release requires exact worktree and run identity")

end Conveyor
