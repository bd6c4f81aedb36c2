import Conveyor.KernelWorld

/-!
# The workflow kernel

The operations one writable phase is driven through (`kernel.py`): begin, lease, snapshot,
session, result, mutation boundary, validation, final commit, completion or block. Each is
a call on the kernel's world, made of the attempts and the checks of its method in their
order, so an environment may interrupt it between any two of them.
-/

namespace Conveyor

open Library EventType KernelCall

namespace WorkflowKernel

/-! ### Identity and lease -/

/-- `_require`. -/
def requireTransaction : KernelCall PhaseTransaction := Call.reads fun _ w =>
  match w.kernel.transaction with
  | some transaction => .ok transaction
  | none => .error (transactionError "workflow transaction has not begun")

/-- A check whose failure text needs the platform. -/
def checkWith (condition : Prop) [Decidable condition] (failure : Platform → Failure) :
    KernelCall Unit :=
  Call.reads fun e _ => require condition (failure e.platform)

def setTransaction (transaction : PhaseTransaction) : KernelCall Unit :=
  remember fun kernel => { kernel with transaction := some transaction }

/-- `transaction.transition(target)`. -/
def transition (target : TransactionState) : KernelCall Unit := do
  let transaction ← requireTransaction
  let moved ← lift (transaction.transition target)
  setTransaction moved

/-- The keyword arguments of `_revalidate_lease` and `_release_owned_lease`. -/
def leaseExpectation (project : Project) (transaction : PhaseTransaction) : LeaseExpectation where
  transactionId := transaction.transactionId
  workflowType := transaction.workflowType
  repositoryIdentity := transaction.repositoryIdentity
  projectId := transaction.projectId
  leaseType := some (WORKFLOW_LEASE transaction.workflowType)
  repositoryPathFingerprint := some transaction.repositoryPathFingerprint
  repositoryPath := some project.repository
  leaseId := transaction.leaseIdentity
  milestone := some transaction.milestone
  featureId := some transaction.featureId
  startingBranch := some transaction.startingBranch
  startingHead := some transaction.startingHead
  runId := some transaction.runId
  sessionId := some transaction.sessionIds.getLast?
  policy := some transaction.allowedMutationPolicy.toFields

/-- `_revalidate_lease`. -/
def revalidateLease : KernelCall WorkflowLeaseRecord := do
  let transaction ← requireTransaction
  look fun e w => revalidated e (leaseExpectation e.project transaction) w.lease

/-- `_release_owned_lease`. -/
def releaseOwnedLease : KernelCall Unit := do
  let transaction ← requireTransaction
  let project ← Call.reads fun e _ => .ok e.project
  releaseLease (leaseExpectation project transaction)

def leaseRequest (project : Project) (transaction : PhaseTransaction) : AcquireRequest where
  leaseType := WORKFLOW_LEASE transaction.workflowType
  repositoryIdentity := transaction.repositoryIdentity
  repositoryPathFingerprint := transaction.repositoryPathFingerprint
  repositoryPath := some project.repository
  projectId := transaction.projectId
  transactionId := transaction.transactionId
  workflowType := transaction.workflowType
  milestone := transaction.milestone
  featureId := transaction.featureId
  startingBranch := transaction.startingBranch
  startingHead := transaction.startingHead
  runId := transaction.runId
  sessionId := none
  policy := transaction.allowedMutationPolicy.toFields

def acquireOwnLease : KernelCall WorkflowLeaseRecord := do
  let transaction ← requireTransaction
  let project ← Call.reads fun e _ => .ok e.project
  acquireLeaseFile (leaseRequest project transaction)

/-- `transaction.lease_identity = record.lease_id`. -/
def setLeaseIdentity (record : WorkflowLeaseRecord) : KernelCall Unit := do
  let transaction ← requireTransaction
  setTransaction { transaction with leaseIdentity := some record.leaseId }

def setPreacquired (record : Option WorkflowLeaseRecord) : KernelCall Unit :=
  remember fun kernel => { kernel with preacquiredLeaseRecord := record }

/-- `_preacquire_lease`. -/
def preacquireLease : KernelCall Unit := do
  let kernel ← memory
  match kernel.preacquiredLeaseRecord with
  | some _ => do
      let record ← revalidateLease
      setLeaseIdentity record
  | none => do
      let record ← acquireOwnLease
      setLeaseIdentity record
      setPreacquired (some record)

/-- `_release_preacquired_lease`. -/
def releasePreacquiredLease : KernelCall Unit := do
  let kernel ← memory
  match kernel.preacquiredLeaseRecord with
  | none => return ()
  | some _ => do
      let _ ← revalidateLease
      releaseOwnedLease
      setPreacquired none

/-- `ledger.append` of an event of this transaction. -/
def record (kind : EventType) (payload : Fields) : KernelCall Unit := do
  let transaction ← requireTransaction
  appendLedger
    { eventType := kind, transactionId := transaction.transactionId
      workflowType := transaction.workflowType, payload := payload }

/-! ### Beginning -/

/-- The snapshot shows the repository the transaction starts from. -/
def SnapshotIsStart (transaction : PhaseTransaction) (snapshot : RepositorySnapshot) : Prop :=
  snapshot.repositoryIdentity = transaction.repositoryIdentity ∧
    snapshot.repositoryPathFingerprint = transaction.repositoryPathFingerprint ∧
    snapshot.branch = transaction.startingBranch ∧ snapshot.head = transaction.startingHead ∧
    snapshot.queueFingerprint = transaction.startingQueueFingerprint ∧
    snapshot.trackedDiffFingerprint = transaction.startingTrackedDiffFingerprint ∧
    snapshot.untrackedFingerprint = transaction.startingUntrackedFingerprint

instance (transaction : PhaseTransaction) (snapshot : RepositorySnapshot) :
    Decidable (SnapshotIsStart transaction snapshot) :=
  inferInstanceAs (Decidable (_ ∧ _))

def createTransaction (request : PhaseTransaction.Request) (snapshot : RepositorySnapshot) :
    KernelCall PhaseTransaction := look fun e w =>
  PhaseTransaction.create request e.project.projectId snapshot (e.drawn w.clock).uuid4

def CANONICAL_START_FIELDS : List String :=
  ["run_id", "milestone", "feature_id", "starting_branch", "starting_head",
   "starting_queue_fingerprint", "starting_tracked_diff_fingerprint",
   "starting_untracked_fingerprint", "allowed_mutation_policy"]

/-- The payload of `TransactionStarted`. -/
def startPayload (transaction : PhaseTransaction) : Fields :=
  Fields.ofPairs
    [("run_id", .str transaction.runId), ("milestone", .ofOption transaction.milestone),
     ("feature_id", .ofOption transaction.featureId),
     ("starting_branch", .str transaction.startingBranch),
     ("starting_head", .str transaction.startingHead),
     ("starting_queue_fingerprint", .ofOption transaction.startingQueueFingerprint),
     ("starting_tracked_diff_fingerprint", .str transaction.startingTrackedDiffFingerprint),
     ("starting_untracked_fingerprint", .str transaction.startingUntrackedFingerprint),
     ("allowed_mutation_policy", .obj transaction.allowedMutationPolicy.toFields)]

/-- The part of `begin` whose failure gives the lease back. -/
def beginLeased (startEvidence : Fields) : KernelCall Unit := do
  let transaction ← requireTransaction
  let leased ← captureRepositorySnapshot
  Call.check (SnapshotIsStart transaction leased ∧
      (transaction.allowedMutationPolicy.requireCleanStart = true → leased.clean = true) ∧
      leased.operating = false)
    (transactionError "repository changed before the planned writer lease was acquired")
  Call.check (∀ key ∈ startEvidence.keys, key ∉ CANONICAL_START_FIELDS)
    (transactionError "start evidence cannot override canonical transaction identity")
  record transactionStarted ((startPayload transaction).update startEvidence)

/-- `except Exception: release; self.transaction = None; raise`. -/
def abandonBegin (failure : Failure) : KernelCall Unit := do
  releasePreacquiredLease
  remember fun kernel => { kernel with transaction := none }
  Call.raise failure

def expectedStart (expected : Option String) (actual : String) : Prop :=
  ∀ value ∈ expected, actual = value

instance (expected : Option String) (actual : String) : Decidable (expectedStart expected actual) :=
  inferInstanceAs (Decidable (∀ value ∈ expected, actual = value))

/-- `begin`. -/
def begin (request : PhaseTransaction.Request) (startEvidence : Fields)
    (expectedBranch expectedHead : Option String) : KernelCall PhaseTransaction := do
  let kernel ← memory
  Call.check (kernel.transaction = none)
    (transactionError "kernel instance already owns a transaction")
  let provisional ← captureRepositorySnapshot
  let _ ← createTransaction request provisional
  interrupt "before_lease"
  let snapshot ← captureRepositorySnapshot
  Call.check (snapshot.operating = false)
    (transactionError "cannot begin a transaction during an active Git operation")
  Call.check (request.policy.requireCleanStart = true → snapshot.clean = true)
    (transactionError "new transaction requires a clean repository snapshot")
  Call.check (expectedStart expectedBranch snapshot.branch ∧
      expectedStart expectedHead snapshot.head)
    (transactionError "repository snapshot differs from the planned transaction start")
  let transaction ← createTransaction request snapshot
  setTransaction transaction
  preacquireLease
  Call.handle (beginLeased startEvidence) abandonBegin
  transition .leasePending
  requireTransaction

/-- The part of `begin_for_branch` whose failure gives the lease back. -/
def beginBranchLeased (live : RepositorySnapshot) (targetBranch : String) : KernelCall Unit := do
  let transaction ← requireTransaction
  let leased ← captureRepositorySnapshot
  let leasedHead ← Inspector.revParse targetBranch
  let leasedQueue ← Inspector.committedQueueFingerprint (leasedHead.getD "")
  Call.check (leased.repositoryIdentity = transaction.repositoryIdentity ∧
      leased.repositoryPathFingerprint = transaction.repositoryPathFingerprint ∧
      leasedHead = some transaction.startingHead ∧
      leasedQueue = transaction.startingQueueFingerprint ∧
      leased.trackedDiffFingerprint = transaction.startingTrackedDiffFingerprint ∧
      leased.untrackedFingerprint = transaction.startingUntrackedFingerprint ∧
      leased.clean = true ∧ leased.operating = false)
    (transactionError "repository changed before the planned branch writer lease was acquired")
  record transactionStarted ((startPayload transaction).update
    [("provisional_observed_branch", .str live.branch),
     ("provisional_observed_head", .str live.head)])

/-- `begin_for_branch`. -/
def beginForBranch (request : PhaseTransaction.Request) (targetBranch : String)
    (expectedBranch expectedHead : Option String) : KernelCall PhaseTransaction := do
  let kernel ← memory
  Call.check (kernel.transaction = none)
    (transactionError "kernel instance already owns a transaction")
  let live ← captureRepositorySnapshot
  let found ← Inspector.revParse targetBranch
  let targetHead ← lift (found.elim
    (.error (transactionError "target workflow branch does not exist")) .ok)
  Call.check (expectedStart expectedBranch targetBranch ∧ expectedStart expectedHead targetHead)
    (transactionError "target branch differs from the planned transaction start")
  Call.check (live.clean = true ∧ live.operating = false)
    (transactionError "target-branch workflow requires a clean repository")
  let targetQueue ← Inspector.committedQueueFingerprint targetHead
  let transaction ← createTransaction request
    { live with branch := targetBranch, head := targetHead, queueFingerprint := targetQueue }
  interrupt "before_lease"
  setTransaction transaction
  preacquireLease
  Call.handle (beginBranchLeased live targetBranch) abandonBegin
  transition .leasePending
  requireTransaction

/-- The switch of `prepare_starting_branch`, when the branch is another one. -/
def switchToStart (transaction : PhaseTransaction) (current : Option String) : KernelCall Unit :=
  if current = some transaction.startingBranch then pure ()
  else Inspector.gitSwitch transaction.startingBranch

/-- `prepare_starting_branch`. -/
def prepareStartingBranch : KernelCall Unit := do
  let transaction ← requireTransaction
  let _ ← revalidateLease
  let clean ← Inspector.isClean
  let operations ← Inspector.gitOperationState
  Call.check (clean = true ∧ (operations.any fun item => item.2) = false)
    (transactionError "cannot prepare workflow branch from a dirty repository")
  let current ← Inspector.currentBranch
  switchToStart transaction current
  let head ← Inspector.head
  Call.check (head = transaction.startingHead)
    (transactionError "prepared workflow branch HEAD differs from transaction start")

/-- `checkpoint(name, payload)`. -/
def checkpoint (name : String) (payload : Fields) : KernelCall Unit := do
  let _ ← revalidateLease
  record checkpointRecorded (Fields.update [("checkpoint", .str name)] payload)

/-- `acquire_lease`, when the lease was already taken at the start or not. -/
def leaseForTransaction : KernelCall WorkflowLeaseRecord := do
  let kernel ← memory
  match kernel.preacquiredLeaseRecord with
  | none => acquireOwnLease
  | some record => do
      let _ ← revalidateLease
      return record

def leasePayload (record : WorkflowLeaseRecord) : Fields :=
  Fields.ofPairs
    [("lease_id", .str record.leaseId), ("lease_type", .str record.leaseType.value),
     ("owner_pid", .int record.ownerPid),
     ("owner_process_start", .str record.ownerProcessStart),
     ("starting_branch", .str record.startingBranch),
     ("starting_head", .str record.startingHead)]

/-- `acquire_lease`. -/
def acquireLease : KernelCall WorkflowLeaseRecord := do
  let lease ← leaseForTransaction
  setPreacquired none
  setLeaseIdentity lease
  transition .active
  record leaseAcquired (leasePayload lease)
  interrupt "after_lease"
  return lease

/-- `str` of a Python boolean. -/
def boolText (value : Bool) : String := if value then "True" else "False"

def changedSinceStart (transaction : PhaseTransaction) (snapshot : RepositorySnapshot) :
    Failure :=
  let branch := boolText (decide (snapshot.branch = transaction.startingBranch))
  let head := boolText (decide (snapshot.head = transaction.startingHead))
  let queue := boolText (decide (snapshot.queueFingerprint = transaction.startingQueueFingerprint))
  let tracked := boolText
    (decide (snapshot.trackedDiffFingerprint = transaction.startingTrackedDiffFingerprint))
  let untracked := boolText
    (decide (snapshot.untrackedFingerprint = transaction.startingUntrackedFingerprint))
  transactionError ("repository changed between transaction start and snapshot capture: " ++
    s!"branch={branch} head={head} queue={queue} tracked={tracked} untracked={untracked}")

/-- `capture_snapshot`. -/
def captureSnapshot : KernelCall RepositorySnapshot := do
  let transaction ← requireTransaction
  let _ ← revalidateLease
  let snapshot ← captureRepositorySnapshot
  Call.check (SnapshotIsStart transaction snapshot) (changedSinceStart transaction snapshot)
  record snapshotCaptured [("snapshot", .obj snapshot.toFields)]
  interrupt "after_snapshot"
  return snapshot

/-! ### The paths a transaction changed -/

/-- `_observation_only_baseline_unchanged`. -/
def observationOnlyBaselineUnchanged : KernelCall Bool := do
  let transaction ← requireTransaction
  let snapshot ← captureRepositorySnapshot
  return decide (SnapshotIsStart transaction snapshot)

/-- `_changed_paths` from a start that may be dirty. -/
def changedFromBaseline (tracked untracked : List String) : KernelCall (List String) := do
  let unchanged ← observationOnlyBaselineUnchanged
  if unchanged then return []
  else do
    Call.check (tracked ≠ [] ∨ untracked ≠ [])
      (transactionError "observation-only dirty baseline changed after recovery start")
    return sortedSet (tracked ++ untracked)

/-- `_changed_paths`. -/
def changedPaths : KernelCall (List String) := do
  let tracked ← Inspector.trackedChangedPaths
  let untracked ← Inspector.untrackedFileHashes
  let transaction ← requireTransaction
  if transaction.allowedMutationPolicy.requireCleanStart then
    return sortedSet (tracked ++ Dict.keys untracked)
  else changedFromBaseline tracked (Dict.keys untracked)

/-- `_validate_mutation_paths`. -/
def validateMutationPaths (paths : List String) : KernelCall Unit := look fun e w =>
  match Inspector.firstProblem e w.clock paths with
  | some (path, problem) => .error (problem.mutationError path)
  | none => .ok ()

/-- `_validate_untracked_policy`. -/
def validateUntrackedPolicy : KernelCall Unit := do
  let transaction ← requireTransaction
  let untracked ← Inspector.untrackedFileHashes
  let names := ", ".intercalate (sortedSet (Dict.keys untracked))
  Call.check (Dict.keys untracked = [] ∨ transaction.allowedMutationPolicy.allowUntracked = true)
    (transactionError s!"transaction policy does not allow untracked mutations: {names}")

/-- `_diff_fingerprint` up to its reading of the contents. -/
def diffPaths : KernelCall (List String) := do
  let paths ← changedPaths
  validateMutationPaths paths
  return paths

/-- `_diff_fingerprint`. -/
def diffFingerprint : KernelCall String := do
  let paths ← diffPaths
  Inspector.contentDiffFingerprint paths

/-- `tuple(value or ())`, for a value that is an array or nothing. -/
def itemsOf : Json → List Json
  | .arr items => items
  | _ => []

/-- The texts of such a value. -/
def pathsIn (value : Json) : List String := (itemsOf value).filterMap Json.asString?

/-- The `ChangesDetected` payloads of a transaction. -/
def boundariesOf (events : List LedgerEvent) (transactionId : String) : List Fields :=
  (events.filter fun event => event.transactionId = transactionId ∧
    event.eventType = changesDetected).map fun event => event.payload

/-- What `_assert_durable_mutation_boundary` asks of the events it read. -/
def checkBoundary (events : List LedgerEvent) (transactionId : String) (paths : List String)
    (fingerprint : String) : Result Unit :=
  match boundariesOf events transactionId with
  | [] => .error (transactionError "validation requires a durable mutation boundary")
  | first :: rest => do
      require (∀ boundary ∈ rest,
          itemsOf (boundary.get "changed_paths") = itemsOf (first.get "changed_paths") ∧
          boundary.get "diff_fingerprint" = first.get "diff_fingerprint")
        (transactionError "durable mutation boundary is contradictory")
      require (paths.map .str = itemsOf (first.get "changed_paths") ∧
          .str fingerprint = first.get "diff_fingerprint")
        (transactionError "repository diff does not match durable mutation boundary")

/-- `_assert_durable_mutation_boundary`. -/
def assertDurableMutationBoundary (paths : List String) (fingerprint : String) :
    KernelCall Unit := do
  let transaction ← requireTransaction
  let events ← readLedger
  lift (checkBoundary events transaction.transactionId paths fingerprint)

/-- `policy.validate(paths)`. -/
def validatePolicy (paths : List String) : KernelCall Unit := do
  let transaction ← requireTransaction
  let _ ← lift (transaction.allowedMutationPolicy.validate paths)
  return ()

/-! ### The session and its result -/

/-- `session_launched`. -/
def sessionLaunched (sessionId : String) : KernelCall Unit := do
  let transaction ← requireTransaction
  let _ ← revalidateLease
  validateMutationPaths transaction.allowedMutationPolicy.allowedPaths
  Call.check (transaction.currentState = .active ∨ transaction.currentState = .resultPending)
    (transactionError "session launch requires an active or result-pending transaction")
  bindSession
    { transactionId := transaction.transactionId, workflowType := transaction.workflowType
      repositoryIdentity := transaction.repositoryIdentity, projectId := transaction.projectId }
    sessionId
  setTransaction { transaction with sessionIds :=
    if sessionId ∈ transaction.sessionIds then transaction.sessionIds
    else transaction.sessionIds ++ [sessionId] }
  transition .resultPending
  record EventType.sessionLaunched [("session_id", .str sessionId)]
  interrupt "after_session_launch"

/-- `envelope.current_commit == transaction.starting_head == self.inspector.head`. -/
def currentAtHead (transaction : PhaseTransaction) (envelope : SessionResultEnvelope) :
    KernelCall Bool :=
  if envelope.currentCommit = transaction.startingHead then do
    let head ← Inspector.head
    return decide (transaction.startingHead = head)
  else return false

/-- The identity checks of `accept_result` with their names. -/
def resultChecks (transaction : PhaseTransaction) (envelope : SessionResultEnvelope)
    (lease : WorkflowLeaseRecord) (atHead : Bool) : List (String × Bool) :=
  [("workflow_type", envelope.workflowType = transaction.workflowType),
   ("project_id", envelope.projectId = transaction.projectId),
   ("repository_identity", envelope.repositoryIdentity = transaction.repositoryIdentity),
   ("transaction_id", envelope.transactionId = transaction.transactionId),
   ("run_id", envelope.runId = transaction.runId),
   ("session_id", decide (transaction.sessionIds.getLast? = some envelope.sessionId ∧
      lease.sessionId = some envelope.sessionId)),
   ("starting_branch", envelope.startingBranch = transaction.startingBranch),
   ("starting_commit", envelope.startingCommit = transaction.startingHead),
   ("current_commit", atHead),
   ("feature_id", envelope.featureId = transaction.featureId)]

/-- What a controller normalization asks of the result accepted under it. -/
def normalizationAgrees (normalization : Option Fields) (transaction : PhaseTransaction)
    (envelope : SessionResultEnvelope) (observed : List String) : Prop :=
  ∀ evidence ∈ normalization,
    transaction.workflowType = .queueReconciliation ∧
      envelope.changedPaths = pathsIn (evidence.get "source_paths") ∧
      pathsIn (evidence.get "final_paths") = observed

instance (normalization : Option Fields) (transaction : PhaseTransaction)
    (envelope : SessionResultEnvelope) (observed : List String) :
    Decidable (normalizationAgrees normalization transaction envelope observed) :=
  inferInstanceAs (Decidable (∀ evidence ∈ normalization, _))

/-- The fingerprint `accept_result` records, when the session named exactly the changes. -/
def observedDiffFingerprint (envelope : SessionResultEnvelope) (observed : List String) :
    KernelCall (Option String) :=
  if observed = envelope.changedPaths then do
    let fingerprint ← Inspector.contentDiffFingerprint observed
    return some fingerprint
  else return none

def resultPayload (envelope : SessionResultEnvelope) (observed : Option String) : Fields :=
  Fields.ofPairs
    [("classification", .str envelope.classification), ("session_id", .str envelope.sessionId),
     ("current_commit", .str envelope.currentCommit),
     ("changed_paths", MutationPolicy.textArray envelope.changedPaths),
     ("next_state", .str envelope.nextState),
     ("observed_diff_fingerprint", .ofOption observed),
     ("envelope", .obj envelope.toFields)]

/-- `accept_result`. -/
def acceptResult (envelope : SessionResultEnvelope) : KernelCall Unit := do
  let transaction ← requireTransaction
  let lease ← revalidateLease
  let atHead ← currentAtHead transaction envelope
  let failed := ((resultChecks transaction envelope lease atHead).filter
    fun check => !check.2).map Prod.fst
  let names := ", ".intercalate failed
  Call.check (failed = []) (transactionError s!"session-result identity mismatch: {names}")
  let kernel ← memory
  Call.check (kernel.envelope = none)
    (transactionError "transaction already accepted a session result")
  validatePolicy envelope.changedPaths
  let observed ← changedPaths
  validateMutationPaths observed
  Call.check (normalizationAgrees kernel.controllerNormalization transaction envelope observed)
    (transactionError "session result disagrees with authenticated controller normalization")
  let fingerprint ← observedDiffFingerprint envelope observed
  remember fun kernel => { kernel with envelope := some envelope }
  transition .validating
  record sessionResultAccepted (resultPayload envelope fingerprint)
  interrupt "after_session_result"

/-- `authorize_controller_execution_policy_normalization`. -/
def authorizeNormalization (sourcePaths normalizationPaths : List String)
    (expectedDiffFingerprint : String) : KernelCall Unit := do
  let transaction ← requireTransaction
  let kernel ← memory
  Call.check (transaction.workflowType = .queueReconciliation ∧ kernel.envelope = none ∧
      kernel.controllerNormalization = none)
    (transactionError "controller execution-policy normalization is not available")
  let _ ← revalidateLease
  let observed ← changedPaths
  let planning ← Inspector.planningDiffFingerprint
  Call.check (sortedSet normalizationPaths ≠ [] ∧
      sortedSet (sourcePaths ++ normalizationPaths) = observed ∧
      planning = expectedDiffFingerprint)
    (transactionError ("controller execution-policy normalization does not match " ++
      "the authenticated final planning diff"))
  validatePolicy observed
  let evidence := Fields.ofPairs
    [("source_paths", MutationPolicy.textArray (sortedSet sourcePaths)),
     ("normalization_paths", MutationPolicy.textArray (sortedSet normalizationPaths)),
     ("final_paths", MutationPolicy.textArray observed),
     ("final_diff_fingerprint", .str expectedDiffFingerprint),
     ("model_session_launched", .bool false)]
  remember fun kernel => { kernel with controllerNormalization := some evidence }
  checkpoint "controller_execution_policy_normalization" evidence

/-- `record_file_mutation_boundary`. -/
def recordFileMutationBoundary : KernelCall Unit := do
  let transaction ← requireTransaction
  let events ← readLedger
  Call.check (boundariesOf events transaction.transactionId = [])
    (transactionError "transaction already has a durable mutation boundary")
  let paths ← changedPaths
  validateMutationPaths paths
  validateUntrackedPolicy
  validatePolicy paths
  let fingerprint ← diffFingerprint
  record changesDetected (Fields.ofPairs
    [("changed_paths", MutationPolicy.textArray paths), ("diff_fingerprint", .str fingerprint)])
  interrupt "after_file_mutation"

end WorkflowKernel

end Conveyor
