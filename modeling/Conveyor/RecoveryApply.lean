import Conveyor.RecoveryPlanner

/-!
# Applying a recovery

`RecoveryPlanner.apply` (`workflow_recovery.py`) takes the writer lease over from a process that is
gone, runs a kernel of its own on the recovery transaction, and records with the interrupted
transaction what the plan says of it. `_repair_projection` is the recovery that only rewrites the
cache.
-/

namespace Conveyor

open Library EventType KernelCall WorkflowKernel MutationReaders

namespace RecoveryPlanner

/-! ### The recovery's own transaction -/

/-- What `RecoveryAdapter` makes of a classification; `none` is its own next state. -/
def CLASSIFICATION_NEXT_STATES : List (String × Option String) :=
  [("RECOVERY_APPLIED", none), ("TRANSACTION_SUPERSEDED", none),
   ("HUMAN_DECISION_REQUIRED", some "human_decision_required"),
   ("RETRYABLE_RECOVERY_FAILURE", none),
   ("TERMINAL_RECOVERY_FAILURE", some "human_decision_required")]

def reprOf (P : Platform) (value : Json) : String := String.ofList (P.reprText (P.str value).toList)

/-- `RecoveryAdapter.semantic_validate`. -/
def semanticValidate (P : Platform) (nextState : Json) (envelope : SessionResultEnvelope)
    (_changedPaths : List String) : Result Unit :=
  match CLASSIFICATION_NEXT_STATES.lookup envelope.classification with
  | none => .error (transactionError ("recovery does not authorize classification " ++
      reprOf P (.str envelope.classification)))
  | some state =>
      let expected := (state.map Json.str).getD nextState
      require (Json.str envelope.nextState = expected)
        (transactionError ("phase result next_state " ++ reprOf P (.str envelope.nextState) ++
          " does not match " ++ reprOf P expected))

/-- The policy of a recovery: it may change no path. -/
def recoveryPolicy (commitSubject : String) (requireCleanStart : Bool) : MutationPolicy :=
  { allowedPaths := [], requireCleanStart := requireCleanStart
    commitSubject := some commitSubject }

def recoveryRequest (site : RecoverySite) (policy : MutationPolicy) (recovery : String) :
    PhaseTransaction.Request where
  workflowType := .recovery
  milestone := site.activeMilestone
  featureId := none
  runId := "recovery-" ++ recovery
  policy := policy
  transactionId := some recovery

def recoverySession (recovery : String) : String := "deterministic-recovery:" ++ recovery

/-- The session result of a recovery. -/
def recoveryEnvelope (project : Project) (identity : LedgerIdentity)
    (transaction : PhaseTransaction) (recovery : String) (evidence : Fields) (nextState : Json) :
    Fields :=
  Fields.ofPairs
    [("schema_version", .int 1), ("workflow_type", .str "recovery"),
     ("classification", .str "RECOVERY_APPLIED"), ("project_id", .str project.projectId),
     ("repository_identity", .str identity.repositoryIdentity),
     ("transaction_id", .str transaction.transactionId), ("run_id", .str transaction.runId),
     ("session_id", .str (recoverySession recovery)),
     ("starting_branch", .str transaction.startingBranch),
     ("starting_commit", .str transaction.startingHead),
     ("current_commit", .str transaction.startingHead), ("feature_id", .null),
     ("changed_paths", .arr []), ("evidence", .obj evidence), ("next_state", nextState)]

/-- A recovery from its session to its final commit; no queue validation is part of its result. -/
def runRecovery (transaction : PhaseTransaction) (recovery : String) (evidence : Fields)
    (nextState : Json) : KernelCall Unit := do
  WorkflowKernel.sessionLaunched (recoverySession recovery)
  let value ← Call.reads fun e _ =>
    .ok (recoveryEnvelope e.project e.identity transaction recovery evidence nextState)
  let envelope ← lift (SessionResultEnvelope.fromDict (fun _ => true) value)
  acceptResult envelope
  recordFileMutationBoundary
  let platform ← Call.reads fun e _ => .ok e.platform
  let _ ← WorkflowKernel.validate ⟨.ok ([], []), semanticValidate platform nextState⟩
  let _ ← finalize
  return ()

/-- `WorkflowKernel(...)`, with the lease that was taken over. -/
def newKernel (record : Option WorkflowLeaseRecord) : KernelCall Unit :=
  remember fun _ => { preacquiredLeaseRecord := record }

/-! ### The baseline -/

def baselineChanged (what : String) : Failure := recoveryError ("repository changed after " ++ what)

/-- `_revalidate_planned_recovery_baseline` of a feature branch. -/
def revalidateFeatureBranch (plan : Plan) (branch : String) : KernelCall Unit := do
  let commit ← Call.reads fun e _ => .ok (e.platform.str plan.commit)
  let fingerprint ← commitDiffFingerprint [] commit
  let clean ← Inspector.isClean
  let current ← Inspector.currentBranch
  let head ← Inspector.head
  let resolved ← Inspector.revParse branch
  Call.check (plan.observed = some ⟨current, head, true⟩ ∧ clean = true ∧ current = some branch ∧
      .str head = plan.commit ∧ Json.ofOption resolved = plan.commit ∧ plan.changedPaths = [] ∧
      .str fingerprint = plan.diffFingerprint)
    (baselineChanged "feature-branch recovery inspection")

/-- The diff of a commit that is about to be adopted. -/
def adoptedDiff (plan : Plan) (commit : String) (paths : List String) : KernelCall String :=
  if plan.workflowType = some .milestoneIntegration then Inspector.patchFingerprint commit
  else commitDiffFingerprint paths commit

/-- `_revalidate_planned_recovery_baseline` of any other commit. -/
def revalidateCommit (plan : Plan) : KernelCall Unit := do
  let commit ← Call.reads fun e _ => .ok (e.platform.str plan.commit)
  let paths ← look fun _ w => .ok (diffTree w.repository commit)
  let fingerprint ← adoptedDiff plan commit paths
  let clean ← Inspector.isClean
  let current ← Inspector.currentBranch
  let head ← Inspector.head
  Call.check (plan.observed = some ⟨current, head, true⟩ ∧ clean = true ∧
      .str head = plan.commit ∧ paths = plan.changedPaths ∧ .str fingerprint = plan.diffFingerprint)
    (baselineChanged "clean commit recovery inspection")

/-- `_revalidate_planned_recovery_baseline` of changes in the worktree. -/
def revalidateDirty (plan : Plan) : KernelCall Unit := do
  let tracked ← Inspector.trackedChangedPaths
  let hashes ← Inspector.untrackedFileHashes
  let paths := sortedSet (tracked ++ Dict.keys hashes)
  let branch ← Inspector.currentBranch
  let head ← Inspector.head
  Call.check (Json.ofOption branch = plan.startingBranch ∧ .str head = plan.startingHead ∧
      paths = plan.changedPaths ∧ plan.diffFingerprint.isInstance .str = true)
    (baselineChanged "exact dirty recovery inspection")
  let fingerprint ← Inspector.contentDiffFingerprint paths
  Call.check (.str fingerprint = plan.diffFingerprint)
    (baselineChanged "exact dirty recovery inspection")

/-- `_revalidate_planned_recovery_baseline`. -/
def revalidateBaseline (plan : Plan) : KernelCall Unit :=
  match plan.classification, plan.featureBranchCreated with
  | .commitSucceededBeforeEvidence, some branch =>
      if plan.workflowType = some .featurePreparation then revalidateFeatureBranch plan branch
      else revalidateCommit plan
  | .commitSucceededBeforeEvidence, none => revalidateCommit plan
  | .resume, _ => if plan.changedPaths = [] then return () else revalidateDirty plan
  | _, _ => return ()

section Site

variable (site : RecoverySite)

/-! ### The lease -/

/-- `_archive_stale_lease`. -/
def archiveStaleLease (record : WorkflowLeaseRecord) : KernelCall String := act fun e w => do
  require (isSafeIdentifier record.transactionId = true)
    (recoveryError "stale lease has an unsafe transaction identity")
  let name := site.archiveRoot ++ "/writer.recovered-" ++
    e.platform.textDigest record.transactionId ++ ".json"
  match site.archive w.clock record.transactionId with
  | .unfit failure => .error failure
  | .absent => do
      require (w.lease ≠ none) ⟨.osError, "No such file or directory"⟩
      return (name, { w with lease := none })
  | .holds prior => do
      require (prior = .obj record.toFields)
        (recoveryError "recovered lease evidence already exists with different content")
      return (name, { w with lease := none })

def takeOverRequest (identity : LedgerIdentity) (project : Project) (policy : MutationPolicy)
    (recovery : String) (branch : Option String) (head : String) : AcquireRequest where
  leaseType := .recoveryWriter
  repositoryIdentity := identity.repositoryIdentity
  repositoryPathFingerprint := identity.repositoryPathFingerprint
  repositoryPath := none
  projectId := project.projectId
  transactionId := recovery
  workflowType := .recovery
  milestone := site.activeMilestone
  featureId := none
  startingBranch := branch.getD "DETACHED"
  startingHead := head
  runId := "recovery-" ++ recovery
  sessionId := none
  policy := policy.toFields

/-- The archived lease and the recovery's own, where a lease was left. -/
structure TakenOver where
  archived : Option String := none
  record : Option WorkflowLeaseRecord := none

/-- The lease of a process that is gone becomes the recovery's. -/
def takeOverFrom (simulation : Bool) (policy : MutationPolicy) (recovery : String)
    (old : WorkflowLeaseRecord) : KernelCall TakenOver := do
  let stale ← leaseStale site
  let caller ← Call.reads fun e _ => .ok e.process.pid
  Call.check (stale = true ∨ (old.ownerPid = caller ∧ simulation = true))
    (recoveryError "old writer lease cannot be displaced without exact stale-process proof")
  let archived ← archiveStaleLease site old
  let branch ← Inspector.currentBranch
  let head ← Inspector.head
  let request ← Call.reads fun e _ =>
    .ok (takeOverRequest site e.identity e.project policy recovery branch head)
  let record ← acquireLeaseFile request
  return ⟨some archived, some record⟩

def takeOver (simulation : Bool) (policy : MutationPolicy) (recovery : String)
    (old : Option WorkflowLeaseRecord) : KernelCall TakenOver :=
  match old with
  | some record => takeOverFrom site simulation policy recovery record
  | none => return {}

/-- The release of the recovery's lease after a failed start. -/
def releaseRecoveryLease (recovery : String) (active : Option WorkflowLeaseRecord) :
    KernelCall Unit :=
  match active.filter fun record => record.transactionId = recovery with
  | some _ => do
      let expectation ← Call.reads fun e _ => .ok
        { transactionId := recovery, workflowType := .recovery
          repositoryIdentity := e.identity.repositoryIdentity
          projectId := e.project.projectId : LeaseExpectation }
      releaseLease expectation
  | none => return ()

/-- `except Exception`, around the start of the recovery. -/
def giveLeaseBack (recovery : String) (failure : Failure) : KernelCall PhaseTransaction := do
  let active ← readLease
  releaseRecoveryLease recovery active
  Call.raise failure

/-- The start of the recovery's transaction. -/
def beginRecovery (plan : Plan) (policy : MutationPolicy) (recovery : String) :
    KernelCall PhaseTransaction := do
  revalidateBaseline plan
  let transaction ← begin (recoveryRequest site policy recovery)
    (Fields.ofPairs
      [("recovered_transaction_id", .ofOption plan.transactionId),
       ("recovery_classification", .str plan.classification.value)]) none none
  let _ ← WorkflowKernel.acquireLease
  let _ ← WorkflowKernel.captureSnapshot
  return transaction

/-! ### The interrupted transaction -/

/-- The state a workflow goes on with where no evidence names one. -/
def defaultNextState : Option WorkflowType → String
  | some .queueReconciliation => "queue_reconciliation"
  | some .featurePreparation => "feature_preparing"
  | some .featureExecution => "feature_running"
  | some .featureAcceptance => "feature_review"
  | some .milestoneIntegration => "integrating"
  | some .milestoneGate => "milestone_gate"
  | some .humanDecisionResolution => "human_decision_required"
  | some .recovery => "queue_reconciliation"
  | none => "human_decision_required"

/-- The envelope of the result that the interrupted transaction accepted. -/
def recoveredEnvelope (events : List LedgerEvent) : Fields :=
  fieldsOf (((firstPayload events sessionResultAccepted).getD []).get "envelope")

def priorTerminal (events : List LedgerEvent) : Fields :=
  ((events.find? fun event => event.eventType ∈ TERMINAL_EVENT_TYPES).map
    fun event => event.payload).getD []

def resolvedNextState (plan : Plan) (events : List LedgerEvent) : Json :=
  firstTruthy
    [(priorTerminal events).get "next_state", (recoveredEnvelope events).get "next_state",
     .str (defaultNextState plan.workflowType)]

/-- `plan["workflow_type"]`. -/
def workflowOf (plan : Plan) : KernelCall WorkflowType :=
  lift (plan.workflowType.elim (.error ⟨.keyError, "'workflow_type'"⟩) .ok)

/-- An event of the interrupted transaction. -/
def recordRecovered (plan : Plan) (recovered : String) (kind : EventType) (payload : Fields) :
    KernelCall Unit := do
  let workflow ← workflowOf plan
  appendLedger { eventType := kind, transactionId := recovered
                 workflowType := workflow, payload := payload }

def adoptedPayload (plan : Plan) : Fields :=
  Fields.ofPairs
    [("commit", plan.commit), ("recovered", .bool true),
     ("changed_paths", MutationPolicy.textArray plan.changedPaths),
     ("diff_fingerprint", plan.diffFingerprint),
     ("branch_created", .ofOption plan.featureBranchCreated),
     ("accepted_commit", plan.acceptedCommit),
     ("integration_once", .bool (plan.workflowType = some .milestoneIntegration))]

/-- The commit that was created before its event. -/
def adoptCommit (plan : Plan) (recovered : String) : KernelCall Unit :=
  if plan.classification = .commitSucceededBeforeEvidence then
    recordRecovered plan recovered commitFinalized (adoptedPayload plan)
  else return ()

/-- `terminal_snapshot`. -/
def repositoryNow : KernelCall Fields := do
  let branch ← Inspector.currentBranch
  let head ← Inspector.head
  let clean ← Inspector.isClean
  return Fields.ofPairs
    [("branch", .ofOption branch), ("head", .str head), ("clean", .bool clean)]

def recoveredPayload (plan : Plan) (envelope snapshot : Fields) : Fields :=
  let classification := envelope.get "classification"
  let integrated := decide (classification = .str "INTEGRATED")
  Fields.ofPairs
    [("classification", envelope.getD "classification" (.str "RECOVERED_COMPLETION")),
     ("reference", plan.commit), ("feature_id", envelope.get "feature_id"),
     ("accepted_feature_commit",
        if classification = .str "FEATURE_ACCEPTED" then plan.commit
        else if integrated then plan.acceptedCommit else .null),
     ("integration_status", if integrated then .str "passed" else .null),
     ("integrated_commit", if integrated then plan.commit else .null),
     ("next_state", envelope.getD "next_state" (.str "human_decision_required")),
     ("terminal_snapshot", .obj snapshot)]

def recoveryReference (recovery classification : String) (archived : Option String) : Fields :=
  Fields.ofPairs
    [("recovery_transaction_id", .str recovery), ("classification", .str classification),
     ("archived_lease", .ofOption archived)]

/-- The terminal event of a transaction that is finished but for it. -/
def terminateRecovered (plan : Plan) (recovered : String) (envelope : Fields) :
    KernelCall Unit := do
  let events ← readLedger
  let terminal ← lift (terminalEvent events recovered)
  match terminal with
  | some _ => return ()
  | none => do
      let snapshot ← repositoryNow
      recordRecovered plan recovered transactionCompleted (recoveredPayload plan envelope snapshot)

def FINISHED : List Classification :=
  [.terminalBeforeLeaseRelease, .finalizationIncomplete, .commitSucceededBeforeEvidence]

def finishRecovered (plan : Plan) (recovered recovery : String) (archived : Option String)
    (envelope : Fields) : KernelCall Unit :=
  if plan.classification ∈ FINISHED then do
    terminateRecovered plan recovered envelope
    recordRecovered plan recovered recoveryApplied
      (recoveryReference recovery plan.classification.value archived)
  else return ()

def supersededPayload (recovery : String) (nextState : Json) (snapshot : Fields) : Fields :=
  Fields.ofPairs
    [("classification", .str "INTERRUPTED_RECOVERY_SUPERSEDED"),
     ("terminal_state", .str "superseded"), ("superseded_by", .str recovery),
     ("reference", .str recovery), ("next_state", nextState), ("terminal_snapshot", .obj snapshot)]

/-- An interrupted recovery is not resumed but superseded. -/
def supersedeRecovery (plan : Plan) (recovered recovery : String) (nextState : Json) :
    KernelCall Unit :=
  if plan.workflowType = some .recovery then do
    let snapshot ← repositoryNow
    recordRecovered plan recovered transactionSuperseded
      (supersededPayload recovery nextState snapshot)
  else return ()

def resumeRecovered (plan : Plan) (recovered recovery : String) (archived : Option String)
    (nextState : Json) : KernelCall Unit :=
  if plan.classification = .resume then do
    recordRecovered plan recovered recoveryApplied
      (recoveryReference recovery "stale_lease_takeover_for_resume" archived)
    supersedeRecovery plan recovered recovery nextState
  else return ()

/-! ### The continuation -/

/-- The start that the continued transaction recorded. -/
def recoveredStart (events : List LedgerEvent) : Result Fields :=
  (firstPayload events transactionStarted).elim (.error ⟨.stopIteration, ""⟩) .ok

def continuationRequest (P : Platform) (identity : LedgerIdentity) (project : Project)
    (workflow : WorkflowType) (recovered : String) (events : List LedgerEvent) (start : Fields) :
    Result AcquireRequest := do
  let policy ← restoredPolicy (recordOf start)
  let milestone ← optionalText (start.get "milestone")
  let featureId ← optionalText (start.get "feature_id")
  return {
    leaseType := WORKFLOW_LEASE workflow
    repositoryIdentity := identity.repositoryIdentity
    repositoryPathFingerprint := identity.repositoryPathFingerprint
    repositoryPath := none
    projectId := project.projectId
    transactionId := recovered
    workflowType := workflow
    milestone := milestone
    featureId := featureId
    startingBranch := P.str (start.get "starting_branch")
    startingHead := P.str (start.get "starting_head")
    runId := P.str (start.get "run_id")
    sessionId := (launchedSessions events).getLast?
    policy := policy.toFields }

/-- The transaction that goes on gets the lease back. -/
def continueRecovered (plan : Plan) (recovered recovery : String) (events : List LedgerEvent) :
    KernelCall WorkflowLeaseRecord := do
  let start ← lift (recoveredStart events)
  let workflow ← workflowOf plan
  let request ← Call.reads fun e _ =>
    continuationRequest e.platform e.identity e.project workflow recovered events start
  let record ← acquireLeaseFile request
  appendLedger
    { eventType := leaseAcquired, transactionId := recovered, workflowType := workflow
      payload := Fields.ofPairs
        [("lease_id", .str record.leaseId), ("lease_type", .str record.leaseType.value),
         ("recovery_transaction_id", .str recovery), ("continuation", .bool true)] }
  return record

/-- What `apply` returns. -/
structure Applied where
  plan : Plan
  recoveryTransactionId : String
  archivedLease : Option String := none
  resumes : Bool := false
  continuationLeaseId : Option String := none
  projection : Fields

def Continues (plan : Plan) : Prop :=
  plan.classification = .resume ∧ plan.workflowType ≠ some .recovery

instance (plan : Plan) : Decidable (Continues plan) := inferInstanceAs (Decidable (_ ∧ _))

/-- The end of `apply`. -/
def concludeRecovery (plan : Plan) (recovered recovery : String) (events : List LedgerEvent)
    (archived : Option String) (completed : Fields) : KernelCall Applied :=
  if Continues plan then do
    let record ← continueRecovered plan recovered recovery events
    let projection ← rebuildProjection true
    return { plan := plan, recoveryTransactionId := recovery, archivedLease := archived
             resumes := true, continuationLeaseId := some record.leaseId
             projection := projection }
  else return { plan := plan, recoveryTransactionId := recovery, archivedLease := archived
                projection := completed }

/-- `recovery_kernel.complete(...)`. -/
def recoveryCompletion (plan : Plan) : Completion where
  classification := some "RECOVERY_APPLIED"
  evidence := Fields.ofPairs [("recovered_transaction_id", .ofOption plan.transactionId)]

/-- `str(plan.get("transaction_id"))`. -/
def recoveredId (plan : Plan) : String := plan.transactionId.getD "None"

/-- What is recorded with the interrupted transaction. -/
def settleRecovered (plan : Plan) (recovery : String) (archived : Option String)
    (envelope : Fields) (nextState : Json) : KernelCall Unit := do
  adoptCommit plan (recoveredId plan)
  finishRecovered plan (recoveredId plan) recovery archived envelope
  resumeRecovered plan (recoveredId plan) recovery archived nextState

/-- `apply`, once the lease is the recovery's. -/
def applyTaken (plan : Plan) (policy : MutationPolicy) (recovery : String) (taken : TakenOver) :
    KernelCall Applied := do
  let ledger ← readLedger
  let events := transactionEvents ledger (recoveredId plan)
  let nextState := resolvedNextState plan events
  newKernel taken.record
  let transaction ← Call.handle (beginRecovery site plan policy recovery) (giveLeaseBack recovery)
  let evidence := Fields.ofPairs
    [("recovered_transaction_id", .ofOption plan.transactionId),
     ("classification", .str plan.classification.value)]
  runRecovery transaction recovery evidence nextState
  settleRecovered plan recovery taken.archived (recoveredEnvelope events) nextState
  let completed ← complete (recoveryCompletion plan)
  concludeRecovery plan (recoveredId plan) recovery events taken.archived completed

/-- `apply` of any other plan. -/
def applyPlan (simulation : Bool) (plan : Plan) (policy : MutationPolicy) :
    KernelCall Applied := do
  let old ← readLease
  interrupt "before_lease"
  let recovery ← Call.reads fun e w => .ok (e.drawn w.clock).uuid4
  let taken ← takeOver site simulation policy recovery old
  applyTaken site plan policy recovery taken

/-- `_repair_projection`. -/
def repairProjection (plan : Plan) : KernelCall Applied := do
  let recovery ← Call.reads fun e w => .ok (e.drawn w.clock).uuid4
  let current ← rebuildProjection false
  newKernel none
  let transaction ← begin (recoveryRequest site
    (recoveryPolicy "factory: repair projection" true) recovery) [] none none
  let _ ← WorkflowKernel.acquireLease
  let _ ← WorkflowKernel.captureSnapshot
  let evidence := Fields.ofPairs
    [("repair", .str "projection_cache"),
     ("prior_ledger_sequence", current.get "ledger_sequence")]
  runRecovery transaction recovery evidence (current.get "current_state")
  let projection ← complete { classification := some "RECOVERY_APPLIED" }
  return { plan := plan, recoveryTransactionId := recovery, projection := projection }

/-- `observation_only_dirty`. -/
def observationOnlyDirty (plan : Plan) : KernelCall Bool :=
  if plan.classification = .resume ∧ plan.changedPaths ≠ [] then do
    let clean ← Inspector.isClean
    return !clean
  else return false

/-- What a caller that simulates a dead process may have carried out. -/
def SIMULATED : List Classification :=
  [.terminalBeforeLeaseRelease, .commitSucceededBeforeEvidence]

def notAuthorized (plan : Plan) : Failure :=
  recoveryError ("recovery is not deterministically authorized: " ++ plan.classification.value)

/-- `apply`, once it has its plan. -/
def applyInspected (simulation : Bool) (plan : Plan) : KernelCall Applied := do
  Call.check (plan.recoverable = true ∨ (simulation = true ∧ plan.classification ∈ SIMULATED))
    (notAuthorized plan)
  let dirty ← observationOnlyDirty plan
  if plan.classification = .projectionUpdateIncomplete then repairProjection site plan
  else applyPlan site simulation plan (recoveryPolicy "factory: apply recovery" !dirty)

/-- `apply`; `simulation` is `allow_current_owner_for_simulation`. -/
def apply (simulation : Bool) : KernelCall Applied := do
  let plan ← inspect site
  applyInspected site simulation plan

end Site

end RecoveryPlanner

end Conveyor
