import Conveyor.KernelCompletion

/-!
# Restoring a transaction

`restore` builds the fields of a new kernel from the ledger alone (`kernel.py`). What it rebuilds
is what the events record of the transaction, so a field that no event carries, such as
`next_project_state` before the terminal event, is `None` again.
-/

namespace Conveyor

open Library EventType KernelCall

namespace WorkflowKernel

/-- The events of one transaction. -/
def transactionEvents (events : List LedgerEvent) (transactionId : String) : List LedgerEvent :=
  events.filter fun event => event.transactionId = transactionId

/-- The payload of the first event of a type. -/
def firstPayload (events : List LedgerEvent) (kind : EventType) : Option Fields :=
  (events.find? fun event => event.eventType = kind).map fun event => event.payload

/-- The payload of the first checkpoint of the given name. -/
def firstCheckpoint (events : List LedgerEvent) (name : String) : Option Fields :=
  (events.find? fun event => event.eventType = checkpointRecorded ∧
    event.payload.get "checkpoint" = .str name).map fun event => event.payload

def hasEvent (events : List LedgerEvent) (kinds : List EventType) : Bool :=
  events.any fun event => decide (event.eventType ∈ kinds)

/-! ### Recorded values

The kernel records a text or `null` in these fields. -/

def typeError : Failure := ⟨.typeError, "a recorded field is not a text"⟩

def recordedText : Json → Result String
  | .str text => .ok text
  | _ => .error typeError

def optionalText : Json → Result (Option String)
  | .null => .ok none
  | .str text => .ok (some text)
  | _ => .error typeError

/-- `tuple(value or ())`, for texts. -/
def recordedTexts (value : Json) : Result (List String) :=
  match SessionResultEnvelope.textItems (itemsOf value) with
  | some texts => .ok texts
  | none => .error typeError

/-- `value or {}`, for an object. -/
def fieldsOf : Json → Fields
  | .obj fields => fields
  | _ => []

/-- The policy of a recorded start. -/
def restoredPolicy (value : Fields) : Result MutationPolicy := do
  let allowedPaths ← recordedTexts (value.get "allowed_paths")
  let allowedPrefixes ← recordedTexts (value.get "allowed_prefixes")
  let deniedPaths ← recordedTexts (value.get "denied_paths")
  let deniedPrefixes ← recordedTexts (value.get "denied_prefixes")
  let commitSubject ← optionalText (value.get "commit_subject")
  MutationPolicy.checked
    { allowedPaths := allowedPaths, allowedPrefixes := allowedPrefixes
      deniedPaths := deniedPaths, deniedPrefixes := deniedPrefixes
      allowUntracked := (value.getD "allow_untracked" (.bool false)).truthy
      requireCleanStart := (value.getD "require_clean_start" (.bool true)).truthy
      commitSubject := commitSubject }

/-- The state in which the events leave a transaction that is not completed. -/
def unfinishedState (events : List LedgerEvent) : Result TransactionState :=
  if hasEvent events [transactionBlocked, humanGateRaised, transactionSuperseded] then
    .error (transactionError "terminal non-completed transaction cannot be resumed")
  else if hasEvent events [validationPassed, commitFinalized] then .ok .finalizing
  else if hasEvent events [sessionResultAccepted, validationStarted, validationFailed] then
    .ok .validating
  else if hasEvent events [EventType.sessionLaunched] then .ok .resultPending
  else if hasEvent events [leaseAcquired] then .ok .active
  else .ok .leasePending

/-- The state of the transaction with what its terminal event records. -/
def withRecordedState (events : List LedgerEvent) (transaction : PhaseTransaction) :
    Result PhaseTransaction :=
  match firstPayload events transactionCompleted with
  | some terminal => do
      let classification ← optionalText (terminal.get "classification")
      let reference ← optionalText (terminal.get "reference")
      let nextState ← optionalText (terminal.get "next_state")
      return { transaction with
        currentState := .completed, terminalClassification := classification
        terminalReference := reference, nextProjectState := nextState }
  | none => do
      let state ← unfinishedState events
      return { transaction with currentState := state }

/-- The last lease a transaction acquired. -/
def lastLease (events : List LedgerEvent) : Json :=
  ((firstPayload events.reverse leaseAcquired).map fun payload => payload.get "lease_id").getD .null

/-- The sessions a transaction launched, in order. -/
def launchedSessions (events : List LedgerEvent) : List String :=
  (events.filter fun event => event.eventType = EventType.sessionLaunched).filterMap fun event =>
    match event.payload.get "session_id" with
    | .str text => if text = "" then none else some text
    | _ => none

/-- The transaction of a start event and the events after it. -/
def restoredTransaction (P : Platform) (projectId : String) (L : LedgerIdentity)
    (start : LedgerEvent) (events : List LedgerEvent) : Result PhaseTransaction := do
  let payload := start.payload
  let snapshot := fieldsOf
    (((firstPayload events snapshotCaptured).map fun payload => payload.get "snapshot").getD .null)
  let policy ← restoredPolicy (fieldsOf (payload.get "allowed_mutation_policy"))
  let milestone ← optionalText (payload.get "milestone")
  let featureId ← optionalText (payload.get "feature_id")
  let runId ← recordedText (payload.get "run_id")
  let branch ← recordedText (payload.get "starting_branch")
  let head ← recordedText (payload.get "starting_head")
  let queue ← optionalText
    (snapshot.getD "queue_fingerprint" (payload.get "starting_queue_fingerprint"))
  let tracked ← recordedText (snapshot.getD "tracked_diff_fingerprint"
    (payload.getD "starting_tracked_diff_fingerprint" (.str (P.textDigest ""))))
  let untracked ← recordedText (snapshot.getD "untracked_fingerprint"
    (payload.getD "starting_untracked_fingerprint" (.str (P.textDigest "\x7b\x7d"))))
  let lease ← optionalText (lastLease events)
  withRecordedState events
    { transactionId := start.transactionId, workflowType := start.workflowType
      projectId := projectId, repositoryIdentity := L.repositoryIdentity
      repositoryPathFingerprint := L.repositoryPathFingerprint
      milestone := milestone, featureId := featureId, runId := runId
      sessionIds := launchedSessions events
      startingBranch := branch, startingHead := head
      startingQueueFingerprint := queue, startingTrackedDiffFingerprint := tracked
      startingUntrackedFingerprint := untracked, allowedMutationPolicy := policy
      leaseIdentity := lease }

/-- The envelope of the accepted session result; `accepts` stands for
    `normalize_warning_evidence` returning. -/
def restoredEnvelope (accepts : Json → Bool) (events : List LedgerEvent) :
    Result (Option SessionResultEnvelope) :=
  match firstPayload events sessionResultAccepted with
  | none => .ok none
  | some payload =>
      match payload.get "envelope" with
      | .obj value => (SessionResultEnvelope.fromDict accepts value).map some
      | _ => .ok none

def NORMALIZATION_FIELDS : List String :=
  ["source_paths", "normalization_paths", "final_paths", "final_diff_fingerprint",
   "model_session_launched"]

/-- The controller normalization a checkpoint records. -/
def restoredNormalization (payload : Fields) : Fields :=
  Fields.ofPairs (NORMALIZATION_FIELDS.filterMap fun key =>
    (payload.get? key).map fun value => (key, value))

/-- The fields `restore` gives a kernel. -/
def restoredKernel (accepts : Json → Bool) (P : Platform) (projectId : String)
    (L : LedgerIdentity) (kernel : Kernel) (events : List LedgerEvent) (transactionId : String) :
    Result Kernel := do
  let events := transactionEvents events transactionId
  match events with
  | [] => .error (transactionError "cannot restore a transaction without its start event")
  | start :: _ => do
      require (start.eventType = transactionStarted)
        (transactionError "cannot restore a transaction without its start event")
      let transaction ← restoredTransaction P projectId L start events
      let envelope ← restoredEnvelope accepts events
      let fingerprint ← optionalText
        (((firstPayload events validationPassed).map fun payload =>
          payload.get "diff_fingerprint").getD .null)
      let finalCommit ← optionalText
        (((firstPayload events commitFinalized).map fun payload => payload.get "commit").getD .null)
      let prepared ←
        match transaction.workflowType, firstPayload events changesDetected with
        | .milestoneIntegration, some payload =>
            (recordedTexts (payload.get "changed_paths")).map some
        | _, _ => .ok kernel.preparedIntegrationPaths
      let accepted ←
        match firstCheckpoint events "integration_target" with
        | some payload => optionalText (payload.get "accepted_commit")
        | none => .ok kernel.preparedIntegrationAcceptedCommit
      return { kernel with
        transaction := some transaction
        envelope := envelope
        validatedDiffFingerprint := fingerprint
        finalCommit := finalCommit
        preparedIntegrationPaths := prepared
        preparedIntegrationAcceptedCommit := accepted
        controllerNormalization :=
          match firstCheckpoint events "controller_execution_policy_normalization" with
          | some payload => some (restoredNormalization payload)
          | none => kernel.controllerNormalization }

/-- `restore`. -/
def restore (accepts : Json → Bool) (transactionId : String) : KernelCall PhaseTransaction := do
  let events ← readLedger
  let kernel ← memory
  let restored ← Call.reads fun e _ =>
    restoredKernel accepts e.platform e.project.projectId e.identity kernel events transactionId
  remember fun _ => restored
  requireTransaction

end WorkflowKernel

end Conveyor
