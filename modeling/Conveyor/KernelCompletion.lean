import Conveyor.Kernel

/-!
# Validation, the final commit and the outcome

The second half of the kernel's operations: `validate`, `finalize` and its variant for
feature branches, `complete` with its last look at the repository, and `block`. `finalize`
is cut where the worktree is read: `finalizeDiff` ends before the contents are
fingerprinted, `stageCommit` before Git reads them again for the commit.
-/

namespace Conveyor

open Library EventType KernelCall

namespace WorkflowKernel

/-! ### Preparing an integration -/

def integratedError : Failure :=
  transactionError "feature or accepted commit already has terminal integration evidence"

/-- The completed integrations of the feature or of the accepted commit. -/
def priorIntegrations (events : List LedgerEvent) (featureId : Option String)
    (acceptedCommit : String) : List LedgerEvent :=
  events.filter fun event => event.eventType = transactionCompleted ∧
    event.workflowType = .milestoneIntegration ∧
    (event.payload.get "feature_id" = .ofOption featureId ∨
      event.payload.get "accepted_feature_commit" = .str acceptedCommit)

def checkQueueIntegration (featureId : Option String) : KernelCall Unit :=
  match featureId with
  | none => return ()
  | some feature =>
      if feature = "" then return ()
      else do
        let integrated ← look fun e w => e.queueIntegrated w.clock feature
        Call.check (integrated = false)
          (transactionError "feature queue already records completed integration")

/-- One pass of the loop over the milestone history. -/
def checkHistoricalPatch (accepted : String) (commit : String) : KernelCall Unit := do
  let parent ← Inspector.parentOf commit
  match parent with
  | none => return ()
  | some _ => do
      let patch ← Inspector.patchFingerprint commit
      Call.check (patch ≠ accepted)
        (transactionError "accepted patch is already present in milestone history")

/-- `prepare_integration_changes`. -/
def prepareIntegrationChanges (acceptedCommit : String) : KernelCall (List String) := do
  let transaction ← requireTransaction
  Call.check (transaction.workflowType = .milestoneIntegration)
    (transactionError "integration preparation requires milestone_integration")
  Call.check (transaction.currentState = .validating)
    (transactionError "integration changes require an accepted typed result")
  let _ ← revalidateLease
  let head ← Inspector.head
  let branch ← Inspector.currentBranch
  Call.check (head = transaction.startingHead ∧ branch = some transaction.startingBranch)
    (transactionError "integration branch changed before applying accepted commit")
  let resolved ← Inspector.revParse acceptedCommit
  let accepted ← lift (resolved.elim
    (.error (repositoryError "fatal: Needed a single revision")) .ok)
  let ancestor ← Inspector.isAncestor accepted transaction.startingBranch
  Call.check (ancestor = false)
    (transactionError "accepted commit is already integrated by ancestry")
  let events ← readLedger
  Call.check (priorIntegrations events transaction.featureId accepted = []) integratedError
  checkQueueIntegration transaction.featureId
  let patch ← Inspector.patchFingerprint accepted
  let history ← Inspector.revList transaction.startingHead
  let _ ← Call.forEach history (checkHistoricalPatch patch)
  let paths ← Inspector.changedPaths accepted
  Call.check (paths ≠ [])
    (transactionError "accepted integration commit has no changed paths")
  validatePolicy paths
  checkpoint "integration_target" (Fields.ofPairs
    [("accepted_commit", .str accepted), ("accepted_patch_fingerprint", .str patch),
     ("expected_paths", MutationPolicy.textArray paths)])
  Inspector.gitCherryPick accepted
  let prepared ← WorkflowKernel.changedPaths
  Call.check (prepared ≠ [])
    (transactionError "integration preparation produced no repository diff")
  Call.check (prepared = paths)
    (transactionError "prepared integration diff does not exactly match accepted paths")
  remember fun kernel => { kernel with
    preparedIntegrationPaths := some paths
    preparedIntegrationAcceptedCommit := some accepted }
  return paths

/-! ### Validation -/

/-- What a caller hands to `validate`: the verdict of `authority.validate` on the command
    results, and the semantic validator. -/
structure Judgement where
  commands : Result (List Json × List Json)
  semantic : SessionResultEnvelope → List String → Result Unit

/-- The paths a session result may name for the observed ones. -/
def allowedEnvelopePaths (kernel : Kernel) (transaction : PhaseTransaction)
    (paths : List String) : List (List String) :=
  let normalized := match kernel.controllerNormalization with
    | some evidence =>
        if transaction.workflowType = .queueReconciliation ∧
            pathsIn (evidence.get "final_paths") = paths then
          [pathsIn (evidence.get "source_paths")] else []
    | none => []
  -- an integration session is read-only, but may report the paths it authorized
  let prepared := if transaction.workflowType = .milestoneIntegration ∧
      kernel.preparedIntegrationPaths = some paths then [[]] else []
  (paths :: (normalized ++ prepared)).dedup

/-- `repr` of a tuple of texts. -/
def reprTuple (P : Platform) (items : List String) : String :=
  let shown := ", ".intercalate (items.map fun item =>
    String.ofList (P.reprText item.toList))
  "(" ++ shown ++ (if items.length = 1 then ",)" else ")")

def pathsMismatch (kernel : Kernel) (transaction : PhaseTransaction)
    (envelope : SessionResultEnvelope) (paths : List String) (P : Platform) : Failure :=
  let session := reprTuple P envelope.changedPaths
  let allowed := ", ".intercalate (((allowedEnvelopePaths kernel transaction paths).insertionSort
    (· ≤ ·)).map (reprTuple P))
  let prepared := match kernel.preparedIntegrationPaths with
    | some found => reprTuple P found
    | none => "None"
  transactionError ("session-result changed paths do not match repository evidence: " ++
    s!"session={session} allowed=[{allowed}] observed={reprTuple P paths} prepared={prepared}")

/-- The `try` block of `validate`. -/
def judge (judgement : Judgement) (transaction : PhaseTransaction)
    (envelope : SessionResultEnvelope) (paths : List String) :
    Result (List Json × List Json) := do
  let verdict ← judgement.commands
  require (envelope.classification ∈ WORKFLOW_SUCCESS_CLASSIFICATIONS transaction.workflowType)
    (transactionError (envelope.classification ++
      " is a terminal non-success result and cannot finalize"))
  judgement.semantic envelope paths
  return verdict

/-- `except TransactionError: append ValidationFailed; raise`. -/
def validationRejected (failure : Failure) : KernelCall (List Json × List Json) :=
  if failure.kind = .transactionError then do
    record validationFailed [("diagnostic", .str failure.message)]
    Call.raise failure
  else Call.raise failure

/-- `validate` up to the event that starts it, with the paths and their fingerprint. -/
def startValidation (envelope : SessionResultEnvelope) : KernelCall (List String × String) := do
  let transaction ← requireTransaction
  interrupt "before_validation"
  let _ ← revalidateLease
  let paths ← WorkflowKernel.changedPaths
  validateMutationPaths paths
  let current ← captureRepositorySnapshot
  Call.check (current.branch = transaction.startingBranch)
    (transactionError "starting branch changed before finalization")
  Call.check (current.head = transaction.startingHead)
    (transactionError "starting HEAD changed before kernel finalization")
  validateUntrackedPolicy
  validatePolicy paths
  let kernel ← memory
  checkWith (envelope.changedPaths ∈ allowedEnvelopePaths kernel transaction paths)
    (pathsMismatch kernel transaction envelope paths)
  let fingerprint ← diffFingerprint
  assertDurableMutationBoundary paths fingerprint
  remember fun kernel => { kernel with validatedDiffFingerprint := some fingerprint }
  record validationStarted [("changed_paths", MutationPolicy.textArray paths)]
  return (paths, fingerprint)

def passedPayload (verdict : List Json × List Json) (fingerprint : String) : Fields :=
  Fields.ofPairs
    [("commands", .arr verdict.1), ("warnings", .arr verdict.2),
     ("diff_fingerprint", .str fingerprint)]

/-- `validate`. -/
def validate (judgement : Judgement) : KernelCall (List Json) := do
  let transaction ← requireTransaction
  let kernel ← memory
  let envelope ← lift (kernel.envelope.elim
    (.error (transactionError "validation requires one accepted session result")) .ok)
  Call.check (transaction.currentState = .validating)
    (transactionError "validation requires one accepted session result")
  let (paths, fingerprint) ← startValidation envelope
  let verdict ← Call.handle (lift (judge judgement transaction envelope paths))
    validationRejected
  remember fun kernel => { kernel with commandRecords := verdict.1 }
  record validationPassed (passedPayload verdict fingerprint)
  transition .finalizing
  interrupt "after_validation"
  return verdict.1

/-! ### The final commit -/

/-- `finalize` up to its reading of the contents: the paths to commit, and the paths whose
    contents are fingerprinted. -/
def finalizeDiff : KernelCall (List String × List String) := do
  let transaction ← requireTransaction
  Call.check (transaction.currentState = .finalizing)
    (transactionError "finalization requires passed validation")
  let _ ← revalidateLease
  interrupt "before_commit"
  let paths ← WorkflowKernel.changedPaths
  validateMutationPaths paths
  let current ← captureRepositorySnapshot
  Call.check (current.branch = transaction.startingBranch ∧
      current.head = transaction.startingHead)
    (transactionError "branch or HEAD changed after validation")
  validateUntrackedPolicy
  validatePolicy paths
  let diffed ← diffPaths
  return (paths, diffed)

/-- The checks of `finalize` on the fingerprint it computed. -/
def finalizeCheck (paths diffed : List String) : KernelCall Unit := do
  let fingerprint ← Inspector.contentDiffFingerprint diffed
  assertDurableMutationBoundary paths fingerprint
  let kernel ← memory
  Call.check (kernel.validatedDiffFingerprint = some fingerprint)
    (transactionError "repository diff changed after validation")

/-- Whether an acceptance without changes accepts the commit the transaction starts at. -/
def readOnlyAcceptance : KernelCall Bool := do
  let transaction ← requireTransaction
  let kernel ← memory
  match (kernel.envelope.map fun envelope =>
    envelope.evidence.get "accepted_feature_commit").getD .null with
  | .str reference =>
      if transaction.workflowType = .featureAcceptance then do
        let resolved ← Inspector.revParse reference
        return decide (resolved = some transaction.startingHead)
      else return false
  | _ => return false

def unchangedPayload (head : String) : Fields :=
  Fields.ofPairs
    [("commit", .str head), ("parent", .null), ("changed_paths", .arr []),
     ("diff_fingerprint", .null), ("commit_subject", .null), ("no_change", .bool true)]

/-- The branch of `finalize` for a transaction that changed nothing. -/
def finalizeUnchanged : KernelCall (Option String) := do
  let transaction ← requireTransaction
  let readOnly ← readOnlyAcceptance
  Call.check (transaction.workflowType ≠ .featureExecution ∧
      transaction.workflowType ≠ .milestoneIntegration ∧
      (transaction.workflowType = .featureAcceptance → readOnly = true))
    (transactionError (transaction.workflowType.value ++ " cannot finalize without a nonempty diff"))
  remember fun kernel => { kernel with finalCommit := some transaction.startingHead }
  record commitFinalized (unchangedPayload transaction.startingHead)
  interrupt "after_commit"
  return some transaction.startingHead

/-- `finalize` from its checks to the moment Git reads the worktree for the commit. -/
def stageCommit (paths : List String) : KernelCall String := do
  let transaction ← requireTransaction
  let subject := transaction.allowedMutationPolicy.commitSubject.getD ""
  Call.check (subject ≠ "")
    (transactionError "writable transaction has no kernel commit subject")
  validateMutationPaths paths
  Inspector.gitAdd paths
  let staged ← Inspector.stagedChangedPaths
  Call.check (staged = paths)
    (transactionError "staged paths do not match the authorized mutation set")
  return subject

/-- What `finalize` asks of an integration commit. -/
def checkIntegrationCommit (commit : String) : KernelCall Unit := do
  let transaction ← requireTransaction
  if transaction.workflowType = .milestoneIntegration then do
    let kernel ← memory
    let accepted := kernel.preparedIntegrationAcceptedCommit.getD ""
    Call.check (accepted ≠ "")
      (transactionError "integration finalization lacks accepted-commit identity")
    let parent ← Inspector.parentOf commit
    Call.check (parent = some transaction.startingHead)
      (transactionError "integration commit is not a direct child of the milestone start")
    let patch ← Inspector.patchFingerprint commit
    let acceptedPatch ← Inspector.patchFingerprint accepted
    Call.check (patch = acceptedPatch)
      (transactionError "integration commit patch differs from accepted commit")
  else return ()

def finalizedPayload (transaction : PhaseTransaction) (commit subject patch : String)
    (paths : List String) (accepted : Option String) : Fields :=
  Fields.ofPairs
    [("commit", .str commit), ("parent", .str transaction.startingHead),
     ("changed_paths", MutationPolicy.textArray paths), ("diff_fingerprint", .str patch),
     ("commit_subject", .str subject), ("accepted_commit", .ofOption accepted),
     ("integration_once", .bool (transaction.workflowType = .milestoneIntegration))]

/-- `finalize` after its commit. -/
def recordCommit (paths : List String) (subject : String) : KernelCall (Option String) := do
  let transaction ← requireTransaction
  let commit ← Inspector.head
  Call.check (commit ≠ transaction.startingHead)
    (transactionError "kernel finalization did not create a commit")
  remember fun kernel => { kernel with finalCommit := some commit }
  interrupt "after_commit"
  checkIntegrationCommit commit
  let kernel ← memory
  let patch ← Inspector.patchFingerprint commit
  record commitFinalized
    (finalizedPayload transaction commit subject patch paths kernel.preparedIntegrationAcceptedCommit)
  let clean ← Inspector.isClean
  Call.check (clean = true)
    (transactionError "repository is not clean after kernel finalization")
  return some commit

/-- The branch of `finalize` that creates a commit. -/
def finalizeChanged (paths : List String) : KernelCall (Option String) := do
  let subject ← stageCommit paths
  Inspector.gitCommit subject paths
  recordCommit paths subject

/-- `finalize`. -/
def finalize : KernelCall (Option String) := do
  let (paths, diffed) ← finalizeDiff
  finalizeCheck paths diffed
  if paths = [] then finalizeUnchanged else finalizeChanged paths

/-- The switch of `finalize_feature_branch`. -/
def switchToFeature (branch startingHead : String) : KernelCall Unit := do
  let found ← Inspector.refExists branch
  if found then do
    let resolved ← Inspector.revParse branch
    Call.check (resolved = some startingHead)
      (transactionError "existing feature branch does not match the transaction start")
    Inspector.gitSwitch branch
  else Inspector.gitSwitchCreate branch startingHead

def branchPayload (head branch : String) : Fields :=
  Fields.ofPairs
    [("commit", .str head), ("parent", .null), ("changed_paths", .arr []),
     ("branch_created", .str branch), ("no_change", .bool true)]

/-- `finalize_feature_branch`. -/
def finalizeFeatureBranch (branch : String) : KernelCall String := do
  let transaction ← requireTransaction
  Call.check (transaction.workflowType = .featurePreparation)
    (transactionError "feature-branch finalization requires feature_preparation")
  Call.check (transaction.currentState = .finalizing)
    (transactionError "feature-branch finalization requires passed validation")
  let _ ← revalidateLease
  interrupt "before_commit"
  let current ← Inspector.currentBranch
  let head ← Inspector.head
  Call.check (current = some transaction.startingBranch ∧ head = transaction.startingHead)
    (transactionError "feature branch preparation start changed")
  record checkpointRecorded
    [("checkpoint", .str "feature_branch_target"), ("branch", .str branch)]
  switchToFeature branch transaction.startingHead
  remember fun kernel => { kernel with finalCommit := some transaction.startingHead }
  interrupt "after_commit"
  record commitFinalized (branchPayload transaction.startingHead branch)
  return transaction.startingHead

/-! ### The last look at the repository -/

/-- The last `CommitFinalized` of a transaction. -/
def finalizedOf (events : List LedgerEvent) (transactionId : String) : Option Fields :=
  (events.reverse.find? fun event => event.transactionId = transactionId ∧
    event.eventType = commitFinalized).map fun event => event.payload

/-- A dirty repository is tolerated only as the baseline of a dirty start. -/
def checkClean : KernelCall Unit := do
  let transaction ← requireTransaction
  let clean ← Inspector.isClean
  if clean then return ()
  else if transaction.allowedMutationPolicy.requireCleanStart then
    Call.raise (transactionError "repository is not clean before transaction completion")
  else do
    let unchanged ← observationOnlyBaselineUnchanged
    Call.check (unchanged = true)
      (transactionError "repository is not clean before transaction completion")

/-- `tuple(sorted(...))` of the paths an event records. -/
def sortedPaths (value : Json) : Result (List String) :=
  match SessionResultEnvelope.textItems (itemsOf value) with
  | some paths => .ok (paths.insertionSort (· ≤ ·))
  | none => .error ⟨.typeError, "'<' not supported between instances"⟩

/-- The commit has the recorded paths and diff, as far as they are recorded. -/
def checkFinalCommit (payload : Fields) (head : String) : KernelCall Unit := do
  let recorded ← lift (sortedPaths (payload.get "changed_paths"))
  let changed ← Inspector.changedPaths head
  Call.check (recorded ≠ [] → changed = recorded)
    (transactionError "final commit paths differ from durable finalization evidence")
  if (payload.get "diff_fingerprint").truthy then do
    let patch ← Inspector.patchFingerprint head
    Call.check (.str patch = payload.get "diff_fingerprint")
      (transactionError "final commit diff differs from durable finalization evidence")
  else return ()

def textOf (value : Json) (failure : Failure) : Result String :=
  match value with
  | .str text => .ok text
  | _ => .error failure

/-- The parent the feature commit of a recovered controller plan must have. -/
def recoveredParent (transaction : PhaseTransaction) (payload : Fields)
    (head resulting : String) : KernelCall String := do
  let topology := transactionError
    "controller-plan recovery chain differs from the reserved topology"
  let expected ← lift (textOf (payload.get "recovered_pre_integration_head") topology)
  let integrating ← lift (textOf (payload.get "integrating_metadata_commit") topology)
  Call.check (transaction.startingHead = integrating) topology
  let metadataParent ← Inspector.parentOf integrating
  Call.check (metadataParent = some resulting) topology
  let headParent ← Inspector.parentOf head
  Call.check (headParent = some integrating) topology
  return expected

def expectedFeatureParent (transaction : PhaseTransaction) (payload : Fields)
    (head resulting : String) : KernelCall String :=
  if payload.get "integration_execution_mode" = .str "controller_plan_recovery" then
    recoveredParent transaction payload head resulting
  else return transaction.startingHead

/-- The terminal checks of an integration run from a controller plan. -/
def checkControllerPlan (transaction : PhaseTransaction) (payload : Fields)
    (head accepted : String) : KernelCall Unit := do
  let resulting ← lift (textOf (payload.get "resulting_feature_commit")
    (transactionError "controller-plan integration lacks its resulting feature commit"))
  let expected ← expectedFeatureParent transaction payload head resulting
  let parent ← Inspector.parentOf resulting
  Call.check (parent = some expected)
    (transactionError
      "controller-plan feature commit is not a direct child of the milestone start")
  let patch ← Inspector.patchFingerprint resulting
  let acceptedPatch ← Inspector.patchFingerprint accepted
  Call.check (patch = acceptedPatch)
    (transactionError "controller-plan feature commit differs from the accepted patch")
  let descends ← Inspector.isAncestor resulting head
  Call.check (descends = true)
    (transactionError "controller-plan final evidence does not descend from the feature commit")

/-- The terminal checks of an integration the kernel committed itself. -/
def checkKernelIntegration (transaction : PhaseTransaction) (head accepted : String) :
    KernelCall Unit := do
  let parent ← Inspector.parentOf head
  Call.check (parent = some transaction.startingHead)
    (transactionError "integration terminal commit is not a direct child")
  let patch ← Inspector.patchFingerprint head
  let acceptedPatch ← Inspector.patchFingerprint accepted
  Call.check (patch = acceptedPatch)
    (transactionError "integration terminal patch differs from accepted patch")

def checkIntegration (payload : Fields) (head : String) : KernelCall Unit := do
  let transaction ← requireTransaction
  if transaction.workflowType = .milestoneIntegration then do
    let accepted := payload.get "accepted_commit"
    Call.check (accepted.truthy = true ∧ itemsOf (payload.get "changed_paths") ≠ [])
      (transactionError "integration terminal evidence lacks nonempty accepted diff")
    let commit ← Call.reads fun e _ => .ok (e.platform.str accepted)
    if payload.get "integration_execution_mode" ∈
        [.str "controller_plan", .str "controller_plan_recovery"] then
      checkControllerPlan transaction payload head commit
    else checkKernelIntegration transaction head commit
  else return ()

/-- `_revalidate_terminal_repository`. -/
def revalidateTerminalRepository : KernelCall Unit := do
  let transaction ← requireTransaction
  let _ ← revalidateLease
  let operations ← Inspector.gitOperationState
  Call.check ((operations.any fun item => item.2) = false)
    (transactionError "Git operation appeared before transaction completion")
  checkClean
  let events ← readLedger
  let payload ← lift ((finalizedOf events transaction.transactionId).elim
    (.error (transactionError "completion requires durable commit-finalization evidence")) .ok)
  let expectedBranch := if transaction.workflowType = .featurePreparation then
      payload.get "branch_created"
    else .str transaction.startingBranch
  let branch ← Inspector.currentBranch
  let head ← Inspector.head
  Call.check (Json.ofOption branch = expectedBranch ∧ .str head = payload.get "commit")
    (transactionError "repository branch or HEAD changed before terminal evidence")
  checkFinalCommit payload head
  checkIntegration payload head

/-! ### Completion -/

/-- `ledger.terminal_event(transaction_id)` on the events read. -/
def terminalEvent (events : List LedgerEvent) (transactionId : String) :
    Result (Option LedgerEvent) :=
  match events.filter fun event => event.transactionId = transactionId ∧
      event.eventType ∈ TERMINAL_EVENT_TYPES with
  | [] => .ok none
  | [event] => .ok (some event)
  | _ :: _ :: _ => .error (corruptEvidenceError "transaction has multiple terminal events")

/-- The arguments of `complete`. -/
structure Completion where
  classification : Option String := none
  evidence : Fields := []
  callback : Bool := false
  materialization : Option Fields := none

def RESERVED_TERMINAL_FIELDS : List String :=
  ["classification", "feature_id", "next_state", "reference", "terminal_snapshot"]

/-- The first checkpoint of the given name among a transaction's events. -/
def checkpointOf (events : List LedgerEvent) (transactionId name : String) : Option Fields :=
  (events.find? fun event => event.transactionId = transactionId ∧
    event.eventType = checkpointRecorded ∧ event.payload.get "checkpoint" = .str name).map
    fun event => event.payload

/-- The materialization a completion has to carry out: its identifier and whether it is
    acknowledged already. -/
structure Materialization where
  identifier : Json
  pending : Bool
  acknowledged : Bool

/-- The part of `complete` that settles the materialization before the terminal event. -/
def settleMaterialization (completion : Completion) (terminal : Option LedgerEvent)
    (events : List LedgerEvent) : KernelCall Materialization := do
  let transaction ← requireTransaction
  let pending := checkpointOf events transaction.transactionId
    "compatibility_materialization_pending"
  let acknowledged := (checkpointOf events transaction.transactionId
    "compatibility_materialization_acknowledged").isSome
  let given ← Call.reads fun e _ => .ok (completion.materialization.map fun descriptor =>
    e.platform.fingerprint (.obj descriptor))
  Call.check (completion.callback = true → completion.materialization ≠ none)
    (transactionError "terminal callback requires a deterministic materialization descriptor")
  match pending with
  | some payload => do
      let expected := payload.get "materialization_id"
      Call.check (∀ identifier ∈ given, .str identifier = expected)
        (transactionError "terminal materialization descriptor changed during replay")
      return ⟨expected, true, acknowledged⟩
  | none =>
      if completion.callback then do
        Call.check (terminal = none)
          (transactionError "completed transaction lacks durable materialization intent")
        record checkpointRecorded (Fields.ofPairs
          [("checkpoint", .str "compatibility_materialization_pending"),
           ("materialization_id", .ofOption given),
           ("descriptor", .obj (completion.materialization.getD []))])
        return ⟨.ofOption given, true, acknowledged⟩
      else return ⟨.ofOption given, false, acknowledged⟩

/-- `terminal_snapshot`. -/
def terminalSnapshot (snapshot : RepositorySnapshot) : Fields :=
  snapshot.toFields.set "clean" (.bool snapshot.clean)

def withDefault (payload : Fields) (key : String) (value : Json) : Fields :=
  if (payload.get key).truthy then payload else payload.set key value

/-- The payload of `TransactionCompleted`. -/
def completedPayload (transaction : PhaseTransaction) (finalCommit : Option String)
    (classification nextState : String) (snapshot : RepositorySnapshot) (evidence : Fields) :
    Fields :=
  let payload := Fields.update (Fields.ofPairs
    [("classification", .str classification), ("reference", .ofOption finalCommit),
     ("feature_id", .ofOption transaction.featureId), ("next_state", .str nextState),
     ("terminal_snapshot", .obj (terminalSnapshot snapshot))]) evidence
  let candidateOnly := decide (transaction.workflowType = .featureExecution) &&
    (evidence.get "candidate_implementation_commit").truthy
  let payload := if transaction.workflowType ∈ [.featureExecution, .featureAcceptance] ∧
      candidateOnly = false then
    withDefault payload "accepted_feature_commit" (.ofOption finalCommit) else payload
  if transaction.workflowType = .milestoneIntegration then
    withDefault payload "integrated_commit" (.ofOption finalCommit) else payload

/-- The classification a completion records. -/
def terminalClassification (kernel : Kernel) (completion : Completion) : String :=
  givenOr completion.classification
    ((kernel.envelope.map fun envelope => envelope.classification).getD "COMPLETED")

/-- The next state a completion records. -/
def completedNextState (kernel : Kernel) (transaction : PhaseTransaction) : String :=
  givenOr (match kernel.envelope with
    | some envelope => some envelope.nextState
    | none => transaction.nextProjectState) "feature_ready"

/-- The terminal event of `complete`. -/
def appendCompleted (payload : Fields) (classification nextState : String) : KernelCall Unit := do
  revalidateTerminalRepository
  interrupt "before_terminal_event"
  record transactionCompleted payload
  let transaction ← requireTransaction
  let kernel ← memory
  let terminated ← lift (transaction.terminate .completed classification kernel.finalCommit)
  setTransaction { terminated with nextProjectState := some nextState }
  interrupt "after_terminal_event"

def completeTerminal (terminal : Option LedgerEvent) (payload : Fields)
    (classification nextState : String) : KernelCall Unit :=
  match terminal with
  | none => appendCompleted payload classification nextState
  | some event => Call.check (event.eventType = transactionCompleted)
      (transactionError "transaction already has a non-completed terminal outcome")

/-- `terminal_callback(...)` and its acknowledgement. -/
def materialize (completion : Completion) (materialization : Materialization) :
    KernelCall Unit :=
  if completion.callback = true ∧ materialization.acknowledged = false then do
    let _ ← rebuildProjection false
    interrupt "terminal_callback"
    record checkpointRecorded (Fields.ofPairs
      [("checkpoint", .str "compatibility_materialization_acknowledged"),
       ("materialization_id", materialization.identifier)])
  else return ()

/-- The release of the lease after a terminal event. -/
def releaseAfterTerminal : KernelCall Unit := do
  interrupt "before_lease_release"
  let lease ← readLease
  match lease with
  | none => return ()
  | some _ => do
      let _ ← revalidateLease
      releaseOwnedLease
      let transaction ← requireTransaction
      record leaseReleased [("lease_id", .ofOption transaction.leaseIdentity)]

def projectionPayload (currentState : String) (featureId : Option String) (selected : Json) :
    Fields :=
  Fields.ofPairs
    [("current_state", .str currentState), ("current_feature", .ofOption featureId),
     ("selected_feature", selected)]

/-- The `ProjectionUpdated` of a completion, unless the transaction has one. -/
def projectCompleted (nextState : String) (selected : Json) : KernelCall Unit := do
  let transaction ← requireTransaction
  let events ← readLedger
  if events.any fun event => event.transactionId = transaction.transactionId ∧
      event.eventType = projectionUpdated then return ()
  else record projectionUpdated (projectionPayload nextState transaction.featureId selected)

/-- `complete` up to its terminal event. -/
def completeThroughTerminal (completion : Completion) : KernelCall Materialization := do
  let transaction ← requireTransaction
  Call.check (transaction.currentState = .finalizing ∨ transaction.currentState = .completed)
    (transactionError "completion requires a finalized transaction")
  let read ← readLedger
  let terminal ← lift (terminalEvent read transaction.transactionId)
  let kernel ← memory
  let classification := terminalClassification kernel completion
  let nextState := completedNextState kernel transaction
  let snapshot ← captureRepositorySnapshot
  let forged := ", ".intercalate (RESERVED_TERMINAL_FIELDS.filter (· ∈ completion.evidence.keys))
  Call.check (RESERVED_TERMINAL_FIELDS.filter (· ∈ completion.evidence.keys) = [])
    (transactionError
      s!"completion evidence attempts to override reserved terminal fields: {forged}")
  let events ← readLedger
  let materialization ← settleMaterialization completion terminal events
  Call.check (materialization.pending = true → materialization.acknowledged = false →
      completion.callback = true)
    (transactionError "pending terminal materialization requires deterministic replay")
  completeTerminal terminal (completedPayload transaction kernel.finalCommit classification
    nextState snapshot completion.evidence) classification nextState
  return materialization

/-- `complete`. -/
def complete (completion : Completion) : KernelCall Fields := do
  let transaction ← requireTransaction
  let kernel ← memory
  let nextState := completedNextState kernel transaction
  let materialization ← completeThroughTerminal completion
  materialize completion materialization
  releaseAfterTerminal
  interrupt "after_lease_release"
  interrupt "before_projection_update"
  projectCompleted nextState (completion.evidence.get "selected_feature")
  rebuildProjection true

/-! ### Blocking -/

structure Blocking where
  state : TransactionState
  classification : String
  nextState : String
  reference : Option String := none
  humanGate : Option Json := none

def blockEventType : TransactionState → EventType
  | .humanDecisionRequired => humanGateRaised
  | .superseded => transactionSuperseded
  | _ => transactionBlocked

/-- Whether a gate with this identifier was raised before. -/
def gateRaised (events : List LedgerEvent) (gateId : Json) : Bool :=
  events.any fun event => decide (event.eventType = humanGateRaised ∧
    (gateOf event.toUnsignedEvent).get "gate_id" = gateId)

/-- The gate of a block that needs one, bound to the transaction. -/
def boundBlockGate (blocking : Blocking) : KernelCall (Option Fields) := do
  let transaction ← requireTransaction
  if blocking.state = .humanDecisionRequired ∨ blocking.classification = "SEMANTIC_CONFLICT" then do
    let source ← lift (match blocking.humanGate with
      | some (.obj fields) => .ok fields
      | _ => .error (transactionError "human-decision terminal requires an exact gate object"))
    let gate ← Call.reads fun e _ => bindHumanGate e.platform (.obj source)
      transaction.transactionId transaction.projectId transaction.repositoryIdentity
      transaction.repositoryPathFingerprint transaction.workflowType "queue_reconciliation"
      blocking.classification
    let events ← readLedger
    Call.check (gateRaised events (gate.get "gate_id") = false)
      (transactionError "human-decision gate_id already exists in durable evidence")
    return some gate
  else return none

def blockPayload (P : Platform) (blocking : Blocking) (gate : Option Fields)
    (snapshot : RepositorySnapshot) : Fields :=
  Fields.ofPairs
    [("classification", .str blocking.classification),
     ("terminal_state", .str blocking.state.value), ("reference", .ofOption blocking.reference),
     ("next_state", .str blocking.nextState), ("gate", (gate.map Json.obj).getD .null),
     ("gate_id", (gate.map fun fields => fields.get "gate_id").getD .null),
     ("gate_fingerprint", .ofOption (gate.map fun fields => P.fingerprint (.obj fields))),
     ("terminal_snapshot", .obj snapshot.toFields)]

/-- `block`. -/
def block (blocking : Blocking) : KernelCall Fields := do
  let transaction ← requireTransaction
  Call.check (blocking.state ∈ FAILURE_STATES)
    (transactionError "block requires a non-completed terminal state")
  let _ ← revalidateLease
  let gate ← boundBlockGate blocking
  let snapshot ← captureRepositorySnapshot
  let payload ← Call.reads fun e _ => .ok (blockPayload e.platform blocking gate snapshot)
  interrupt "before_terminal_event"
  record (blockEventType blocking.state) payload
  let terminated ← lift (transaction.terminate blocking.state blocking.classification
    blocking.reference)
  setTransaction { terminated with nextProjectState := some blocking.nextState }
  interrupt "after_terminal_event"
  releaseAfterTerminal
  interrupt "after_lease_release"
  interrupt "before_projection_update"
  record projectionUpdated (projectionPayload blocking.nextState transaction.featureId .null)
  rebuildProjection true

end WorkflowKernel

end Conveyor
