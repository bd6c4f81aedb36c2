import Conveyor.KernelFrame
import Conveyor.StateMachine

/-!
# The legacy adapter

The second producer of ledger evidence (`legacy_adapter.py`): a move of the project state document
that no kernel owns is wrapped in a transaction of its own, whose workflow is read off the target
state and whose identifier is derived from the run, the move and the checkpoint. The adapter takes
its own writer lease and writes the document between `ValidationPassed` and
`TransactionCompleted`.
-/

namespace Conveyor

open Library EventType KernelCall

def workflowForState (state : String) : WorkflowType :=
  if state ∈ ["queue_reconciliation", "feature_ready", "next_feature_selection"] then
    .queueReconciliation
  else if state ∈ ["preflight", "feature_selected", "branch_preparing"] then .featurePreparation
  else if state ∈ ["feature_in_progress", "feature_review", "feature_repair"] then
    .featureExecution
  else if state ∈ ["feature_accepted", "integration_pending", "integration_ready"] then
    .featureAcceptance
  else if state ∈ ["integrating", "integration_validation", "feature_integrated"] then
    .milestoneIntegration
  else if state ∈ ["milestone_gate", "milestone_ready_for_merge", "milestone_complete"] then
    .milestoneGate
  else if state = "human_decision_required" then .humanDecisionResolution
  else .recovery

/-! ### The files of a project -/

/-- The kernel's world and the two files beside it: `legacy-transition-writer.json` and the
    project state document. -/
structure AdapterWorld where
  world : World
  writer : Option WorkflowLeaseRecord
  document : Option Json

namespace AdapterWorld

def withWorld (w : World) (s : AdapterWorld) : AdapterWorld := { s with world := w }

/-- The world with the adapter's lease file in the place of the kernel's. -/
def writerWorld (s : AdapterWorld) : World := { s.world with lease := s.writer }

def withWriterWorld (w : World) (s : AdapterWorld) : AdapterWorld :=
  { s with world := { w with lease := s.world.lease }, writer := w.lease }

variable (s : AdapterWorld) (w : World)

@[simp] theorem withWorld_world : (s.withWorld w).world = w := rfl
@[simp] theorem withWorld_writer : (s.withWorld w).writer = s.writer := rfl
@[simp] theorem withWorld_document : (s.withWorld w).document = s.document := rfl
@[simp] theorem writerWorld_events : s.writerWorld.events = s.world.events := rfl
@[simp] theorem writerWorld_lease : s.writerWorld.lease = s.writer := rfl
@[simp] theorem withWriterWorld_events : (s.withWriterWorld w).world.events = w.events := rfl
@[simp] theorem withWriterWorld_writer : (s.withWriterWorld w).writer = w.lease := rfl
@[simp] theorem withWriterWorld_document : (s.withWriterWorld w).document = s.document := rfl

end AdapterWorld

/-- What the adapter takes from outside: `uuid.uuid5` in its namespace, and `validate_schema`
    with the schema of the project state. -/
structure AdapterSite where
  uuid5 : String → String
  validateState : Json → Result Unit

abbrev AdapterCall (α : Type) := Call Environment AdapterWorld Failure α

namespace LegacyAdapter

variable {α : Type}

def onWorld (call : KernelCall α) : AdapterCall α :=
  call.zoom AdapterWorld.world AdapterWorld.withWorld

def onWriter (call : KernelCall α) : AdapterCall α :=
  call.zoom AdapterWorld.writerWorld AdapterWorld.withWriterWorld

/-- One attempt on the project state document. -/
def onDocument (f : Environment → Option Json → Result (α × Option Json)) : AdapterCall α :=
  Call.attempt (fun e s => e.fault s.world.clock)
    (fun s => s.withWorld s.world.tick)
    fun e s => (f e s.document).map fun found => (found.1, { s with document := found.2 })

/-! ### The project state document -/

/-- `load_project_state`. -/
def loadProjectState (site : AdapterSite) : AdapterCall (Option Json) :=
  onDocument fun _ document => do
    match document with
    | none => return (none, none)
    | some found => do
        site.validateState found
        return (some found, some found)

/-- `project_store.write`. -/
def storeProjectState (site : AdapterSite) (document : Fields) : AdapterCall Unit :=
  onDocument fun e _ => do
    site.validateState (.obj document)
    return ((), some (atomicWriteJson e.platform (.obj document)))

/-- The document with the pause of the latest one. -/
def preservePause (latest : Option Json) (document : Fields) : Fields :=
  match latest with
  | some (.obj fields) =>
      document.set "operator_paused" (.bool (Fields.get fields "operator_paused" = .bool true))
  | _ => document

/-- `_write_project_state_preserving_pause`. -/
def writePreservingPause (site : AdapterSite) (document : Fields) : AdapterCall Unit := do
  let latest ← loadProjectState site
  storeProjectState site (preservePause latest document)

/-! ### The transition -/

/-- The arguments of `transition`. -/
structure Request where
  runId : String
  featureId : Option String
  milestone : Option String
  previousState : String
  nextState : String
  checkpoint : String
  terminalEvidence : Option Fields := none
  projectionFacts : Option Fields := none

namespace Request

def workflow (request : Request) : WorkflowType := workflowForState request.nextState

def evidence (request : Request) : Fields := request.terminalEvidence.getD []

/-- The text the identifier of the transaction is drawn from. -/
def key (request : Request) (projectId : String) : String :=
  s!"{projectId}:{request.runId}:{request.previousState}:{request.nextState}:{request.checkpoint}"

end Request

variable (request : Request) (transactionId : String)

def record (kind : EventType) (payload : Fields) : AdapterCall Unit :=
  onWorld (appendLedger
    { eventType := kind, transactionId := transactionId
      workflowType := request.workflow, payload := payload })

/-- `MutationPolicy(tuple())`. -/
def emptyPolicy : MutationPolicy := { allowedPaths := [] }

def startedPayload (branch head : String) : Fields :=
  Fields.ofPairs
    [("run_id", .str request.runId), ("feature_id", .ofOption request.featureId),
     ("milestone", .ofOption request.milestone), ("starting_branch", .str branch),
     ("starting_head", .str head), ("allowed_mutation_policy", .obj emptyPolicy.toFields),
     ("legacy_adapter", .bool true)]

def acquireRequest (L : LedgerIdentity) (projectId branch head : String) : AcquireRequest where
  leaseType := WORKFLOW_LEASE request.workflow
  repositoryIdentity := L.repositoryIdentity
  repositoryPathFingerprint := L.repositoryPathFingerprint
  repositoryPath := none
  projectId := projectId
  transactionId := transactionId
  workflowType := request.workflow
  milestone := request.milestone
  featureId := request.featureId
  startingBranch := branch
  startingHead := head
  runId := request.runId
  sessionId := none
  policy := emptyPolicy.toFields

def leasePayload (lease : WorkflowLeaseRecord) : Fields :=
  Fields.ofPairs
    [("lease_id", .str lease.leaseId), ("lease_type", .str lease.leaseType.value),
     ("legacy_adapter", .bool true)]

def snapshotPayload (L : LedgerIdentity) (branch head diff : String) (untracked : Dict String)
    (operations : Dict Bool) : Fields :=
  Fields.ofPairs
    [("snapshot", .obj (Fields.ofPairs
      [("repository_identity", .str L.repositoryIdentity),
       ("repository_path_fingerprint", .str L.repositoryPathFingerprint),
       ("branch", .str branch), ("head", .str head), ("tracked_diff_fingerprint", .str diff),
       ("untracked_file_hashes", .obj (Fields.ofPairs (untracked.map fun item =>
         (item.1, .str item.2)))),
       ("git_operations", .obj (Fields.ofPairs (operations.map fun item =>
         (item.1, .bool item.2))))])),
     ("legacy_adapter", .bool true)]

def validationPayload : Fields :=
  Fields.ofPairs
    [("legacy_adapter", .bool true),
     ("cache_transition", .arr [.str request.previousState, .str request.nextState])]

def passedPayload : Fields :=
  Fields.ofPairs [("legacy_adapter", .bool true), ("application_source_written", .bool false)]

def CLASSIFICATION : String := "LEGACY_ADAPTER_TRANSITION"

/-- The payload of `TransactionCompleted`: the terminal evidence may override every field but
    the last. -/
def completedPayload (branch : Option String) (head : String) (clean : Bool) : Fields :=
  (Fields.update (Fields.ofPairs
    [("classification", .str CLASSIFICATION), ("feature_id", .ofOption request.featureId),
     ("next_state", .str request.nextState),
     ("terminal_snapshot", .obj (Fields.ofPairs
       [("branch", .ofOption branch), ("head", .str head), ("clean", .bool clean)]))])
    request.evidence).set "legacy_adapter" (.bool true)

def projectedPayload : Fields :=
  Fields.ofPairs
    [("current_state", .str request.nextState), ("current_feature", .ofOption request.featureId),
     ("selected_feature", request.evidence.get "selected_feature"),
     ("projection_facts", .obj (request.projectionFacts.getD [])),
     ("legacy_adapter", .bool true)]

/-- `transition` from the lease to `ValidationPassed`. -/
def prepare (branch head : String) : AdapterCall WorkflowLeaseRecord := do
  let L ← Call.reads fun e _ => .ok e.identity
  let projectId ← Call.reads fun e _ => .ok e.project.projectId
  record request transactionId transactionStarted (startedPayload request branch head)
  let lease ← onWriter (acquireLeaseFile
    (acquireRequest request transactionId L projectId branch head))
  record request transactionId leaseAcquired (leasePayload lease)
  let diff ← onWorld Inspector.planningDiffFingerprint
  let untracked ← onWorld Inspector.untrackedFileHashes
  let operations ← onWorld Inspector.gitOperationState
  record request transactionId snapshotCaptured
    (snapshotPayload L branch head diff untracked operations)
  record request transactionId validationStarted (validationPayload request)
  record request transactionId validationPassed passedPayload
  return lease

/-- The terminal event. -/
def finish : AdapterCall Unit := do
  let branch ← onWorld Inspector.currentBranch
  let head ← onWorld Inspector.head
  let clean ← onWorld Inspector.isClean
  record request transactionId transactionCompleted (completedPayload request branch head clean)

def releaseExpectation (L : LedgerIdentity) (projectId : String) : LeaseExpectation where
  transactionId := transactionId
  workflowType := request.workflow
  repositoryIdentity := L.repositoryIdentity
  projectId := projectId

/-- `transition` after the terminal event. -/
def release (lease : WorkflowLeaseRecord) : AdapterCall Unit := do
  let L ← Call.reads fun e _ => .ok e.identity
  let projectId ← Call.reads fun e _ => .ok e.project.projectId
  onWriter (releaseLease (releaseExpectation request transactionId L projectId))
  record request transactionId leaseReleased
    (Fields.ofPairs [("lease_id", .str lease.leaseId), ("legacy_adapter", .bool true)])
  record request transactionId projectionUpdated (projectedPayload request)
  let _ ← onWorld (rebuildProjection true)

/-- `transition` of a transaction that the ledger does not show as completed. -/
def perform (mutate : AdapterCall Unit) : AdapterCall Unit := do
  let branch ← onWorld Inspector.currentBranch
  let head ← onWorld Inspector.head
  let lease ← prepare request transactionId (givenOr branch "DETACHED") head
  mutate
  finish request transactionId
  release request transactionId lease

/-- The ledger shows the transaction as completed. -/
def HasCompleted (events : List LedgerEvent) (transactionId : String) : Prop :=
  ∃ event ∈ events, event.transactionId = transactionId ∧ event.eventType = transactionCompleted

instance (events : List LedgerEvent) (transactionId : String) :
    Decidable (HasCompleted events transactionId) :=
  inferInstanceAs (Decidable (∃ event ∈ events, _))

/-- `LegacyTransitionAdapter.transition`. -/
def transition (site : AdapterSite) (request : Request) (mutate : AdapterCall Unit) :
    AdapterCall Unit := do
  let projectId ← Call.reads fun e _ => .ok e.project.projectId
  let events ← onWorld readLedger
  if HasCompleted events (site.uuid5 (request.key projectId)) then return ()
  else perform request (site.uuid5 (request.key projectId)) mutate

end LegacyAdapter

end Conveyor
