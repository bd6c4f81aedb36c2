import Conveyor.Acceptance
import Mathlib.Logic.Function.Basic

/-!
# Acceptances of one candidate, one access at a time

`accept_feature` looks for an earlier acceptance of its candidate before it begins a transaction,
takes the writer lease and records its own (`acceptance.py`, `kernel.py`). Any number of calls
share the ledger and the lease file; `step` makes one access of one call, which may raise or die
there, before or after its effect. What a call finds in the repository is its own: no call
changes it.

`Inv` is kept by every step that is `Current`: a call takes the lease when no acceptance of the
candidate is on record, as its own check found it.
-/

namespace Conveyor.AcceptanceInterleaving

open Library EventType WorkflowKernel

/-! ### The calls -/

/-- What all the calls share: the project with its ledger and lease, and the candidate that they
    accept. -/
structure Site where
  platform : Platform
  ledger : LedgerIdentity
  lease : LeaseSite
  project : AcceptanceProject
  uuid5 : String → String
  featureId : String
  implementationCommit : String

/-- The arguments of one call, with the process that makes it. -/
structure Arguments where
  process : ProcessIdentity
  runId : String
  featureBranch : String
  milestoneBase : String
  implementationTree : String
  tierEvidence : Fields
  requiredTier : String
  recoverIncompleteTransaction : Option String

/-- A call whose candidate was inspected. -/
structure Accepting where
  arguments : Arguments
  candidate : AcceptanceCandidate

/-- The sequences of accesses that follow a terminal event: the completed one, or the one of the
    handler that blocks. -/
inductive Ending where
  | completing | blocking

/-- The next access of a call that took the lease. -/
inductive Stage where
  | started | abandon | abandonRelease
  | revalidate | leaseAcquired
  | snapshotLease | snapshotCaptured
  | executionStarted | resultAccepted | validationStarted | validationPassed | commitFinalized
  | terminal
  | materialization (terminal : Option LedgerEvent) (payload : Fields)
  | terminalLease (payload : Fields)
  | finalized (payload : Fields)
  | completed (payload : Fields)
  | blockLease | blocked
  | readLease (ending : Ending) | checkLease (ending : Ending) | release (ending : Ending)
  | leaseReleased (ending : Ending)
  | projected
  | projectionUpdated (ending : Ending)
  | rebuild (ending : Ending)
  | verify | lookup
  | giveUp | giveUpRelease

/-- Where a call is: the next access it makes. -/
inductive Pc where
  | idle
  | supersede (call : Accepting)
  | supersedeLease (call : Accepting) (start : LedgerEvent)
  | recordSuperseded (call : Accepting) (start : LedgerEvent) (snapshot : RepositorySnapshot)
  | recordRecovery (call : Accepting) (transactionId : String)
  | check (call : Accepting)
  | begin (call : Accepting)
  | acquire (call : Accepting) (transaction : PhaseTransaction)
  | holding (call : Accepting) (lease : WorkflowLeaseRecord) (transaction : PhaseTransaction)
      (stage : Stage)
  | returned
  | raised
  | died

/-- What a step draws from outside: the call an idle caller begins, what it finds in the
    repository, what it draws and what happens to its access. -/
structure Input where
  begin : Option Arguments
  repository : CandidateRepository
  snapshot : RepositorySnapshot
  drawn : Drawn
  fault : Call.Fault Failure

/-- The ledger and the lease file. -/
structure Shared where
  events : List LedgerEvent
  lease : Option WorkflowLeaseRecord

/-- The shared files, the calls and the identifiers that were drawn. -/
structure State where
  shared : Shared
  pcs : Nat → Pc
  issued : List String

/-! ### Accesses -/

section Accesses

variable (site : Site)

def Arguments.request (arguments : Arguments) : AcceptanceRequest where
  featureId := site.featureId
  featureBranch := arguments.featureBranch
  milestoneBase := arguments.milestoneBase
  implementationCommit := site.implementationCommit
  implementationTree := arguments.implementationTree
  tierEvidence := arguments.tierEvidence
  requiredTier := arguments.requiredTier

/-- `retry_transaction_id`. -/
def Accepting.retryTransactionId (call : Accepting) : String :=
  site.uuid5 (call.candidate.repositoryIdentity ++ s!":{site.featureId}:" ++
    s!"{site.implementationCommit}:{call.arguments.runId}:feature-acceptance")

/-- The completed acceptances of the candidate. -/
def acceptances (events : List LedgerEvent) : List LedgerEvent :=
  events.filter fun event => event.eventType = transactionCompleted ∧
    event.workflowType = .featureAcceptance ∧
    event.payload.get "feature_id" = .str site.featureId ∧
    event.payload.get "accepted_feature_commit" = .str site.implementationCommit

/-- `ledger.append(...)` of an event of an acceptance. -/
def append (input : Input) (s : Shared) (kind : EventType) (transactionId : String)
    (payload : Fields) : Result Shared := do
  let event := newEvent site.platform site.ledger (integrityOf s.events)
    { eventType := kind, transactionId := transactionId
      workflowType := .featureAcceptance, payload := payload } input.drawn
  validateAppend s.events event
  return { s with events := s.events ++ [event] }

/-- `_revalidate_lease`. -/
def revalidateOwn (s : Shared) (call : Accepting) (transaction : PhaseTransaction) :
    Result Unit :=
  match s.lease with
  | none => .error (lockError "writer lease is absent")
  | some record =>
      revalidate site.lease.resolve call.arguments.process
        (leaseExpectation site.project.toProject transaction) record

/-- `_release_owned_lease`. -/
def releaseOwn (s : Shared) (call : Accepting) (transaction : PhaseTransaction) :
    Result Shared :=
  match s.lease with
  | none => .error (lockError "writer lease is absent")
  | some record => do
      let expectation := leaseExpectation site.project.toProject transaction
      releaseCheck site.lease expectation record
      revalidate site.lease.resolve call.arguments.process expectation record
      return { s with lease := none }

/-! ### Recovering an incomplete start -/

/-- The transactions without a terminal event. -/
def incompleteTransactions (events : List LedgerEvent) : List String :=
  ((events.map fun event => event.transactionId).filter fun transactionId =>
    !events.any fun event => event.transactionId = transactionId &&
      event.eventType ∈ TERMINAL_EVENT_TYPES).dedup

/-- The terminal event is the one that this call's retry left. -/
def supersededByRetry (call : Accepting) (terminal : LedgerEvent) : Bool :=
  terminal.eventType = transactionSuperseded &&
    terminal.payload.get "classification" = .str "ACCEPTANCE_PRELEASE_FAILURE_SUPERSEDED" &&
    terminal.payload.get "superseded_by" = .str (call.retryTransactionId site) &&
    terminal.payload.get "retry_run_id" = .str call.arguments.runId

/-- `supersede_incomplete_acceptance_start`, up to its look at the lease. -/
def supersede (s : Shared) (call : Accepting) (transactionId : String) : Result Pc :=
  let own := s.events.filter fun event => event.transactionId = transactionId
  match own.find? fun event => event.eventType ∈ TERMINAL_EVENT_TYPES with
  | some terminal => do
      require (supersededByRetry site call terminal = true)
        (transactionError
          "incomplete acceptance recovery target already has another terminal outcome")
      return .check call
  | none => do
      require (incompleteTransactions s.events = [transactionId])
        (transactionError "incomplete acceptance recovery requires one exact active transaction")
      match own with
      | [start] => do
          require (start.eventType = transactionStarted ∧
              start.workflowType = .featureAcceptance)
            (transactionError "incomplete acceptance recovery requires one start-only acceptance")
          return .supersedeLease call start
      | _ =>
          .error (transactionError
            "incomplete acceptance recovery requires one start-only acceptance")

/-- The candidate amends the one that the start was for. -/
def sameAmendedLineage (repository : CandidateRepository) (previous : Json) (commit : String) :
    Bool :=
  match previous with
  | .str previous =>
      previous = commit ||
        repository.revParse (previous ++ "^") = repository.revParse (commit ++ "^")
  | _ => false

/-- The identity checks of the recovery. -/
def supersedeChecks (input : Input) (call : Accepting) (start : LedgerEvent) :
    List (String × Bool) :=
  let snapshot := input.snapshot
  let payload := start.payload
  [("project", start.projectId = site.project.projectId),
   ("repository", start.repositoryIdentity = site.ledger.repositoryIdentity),
   ("worktree", decide (start.repositoryPathFingerprint = site.ledger.repositoryPathFingerprint) &&
      decide (site.ledger.repositoryPathFingerprint = snapshot.repositoryPathFingerprint)),
   ("feature", payload.get "feature_id" = .str site.featureId),
   ("branch", decide (payload.get "starting_branch" = .str call.arguments.featureBranch) &&
      decide (call.arguments.featureBranch = snapshot.branch)),
   ("candidate_lineage",
      sameAmendedLineage input.repository (payload.get "starting_head") site.implementationCommit),
   ("current_candidate", snapshot.head = site.implementationCommit),
   ("queue", payload.get "starting_queue_fingerprint" = .ofOption snapshot.queueFingerprint),
   ("tracked_diff",
      payload.get "starting_tracked_diff_fingerprint" = .str snapshot.trackedDiffFingerprint),
   ("untracked",
      payload.get "starting_untracked_fingerprint" = .str snapshot.untrackedFingerprint),
   ("clean", snapshot.clean), ("git_operation", !snapshot.operating)]

def supersededPayload (call : Accepting) (start : LedgerEvent) (snapshot : RepositorySnapshot) :
    Fields :=
  Fields.ofPairs
    [("classification", .str "ACCEPTANCE_PRELEASE_FAILURE_SUPERSEDED"),
     ("terminal_state", .str TransactionState.superseded.value),
     ("superseded_by", .str (call.retryTransactionId site)),
     ("reference", .str call.arguments.runId), ("retry_run_id", .str call.arguments.runId),
     ("next_state", .str "feature_review"),
     ("failure_stage", .str "lease_acquisition_revalidation"),
     ("failure_reason", .str "linked_worktree_lease_identity_validation"),
     ("acceptance_record_created", .bool false),
     ("previous_implementation_commit", start.payload.get "starting_head"),
     ("retry_implementation_commit", .str site.implementationCommit),
     ("terminal_snapshot", .obj snapshot.toFields)]

def recoveryPayload (call : Accepting) : Fields :=
  Fields.ofPairs
    [("recovery_transaction_id", .str (call.retryTransactionId site)),
     ("classification", .str "pre_acceptance_start_superseded"),
     ("retry_run_id", .str call.arguments.runId), ("mutation_performed", .bool false)]

/-! ### Beginning -/

def transactionRequest (call : Accepting) : PhaseTransaction.Request where
  workflowType := .featureAcceptance
  milestone := some (call.candidate.milestoneId.getD "None")
  featureId := some site.featureId
  runId := call.arguments.runId
  policy := { allowedPaths := [] }
  transactionId := some (call.retryTransactionId site)

/-- `begin` up to its acquisition of the lease. -/
def beginTransaction (input : Input) (call : Accepting) : Result PhaseTransaction := do
  let snapshot := input.snapshot
  require (snapshot.operating = false)
    (transactionError "cannot begin a transaction during an active Git operation")
  require (snapshot.clean = true)
    (transactionError "new transaction requires a clean repository snapshot")
  require (snapshot.branch = call.arguments.featureBranch ∧
      snapshot.head = site.implementationCommit)
    (transactionError "repository snapshot differs from the planned transaction start")
  PhaseTransaction.create (transactionRequest site call) site.project.projectId snapshot
    input.drawn.uuid4

/-- `begin` from its look at the leased repository to its start event. -/
def startTransaction (input : Input) (s : Shared) (transaction : PhaseTransaction) :
    Result Shared := do
  require (SnapshotIsStart transaction input.snapshot ∧ input.snapshot.clean = true ∧
      input.snapshot.operating = false)
    (transactionError "repository changed before the planned writer lease was acquired")
  append site input s transactionStarted transaction.transactionId (startPayload transaction)

/-! ### Completing and blocking -/

def terminalPayload (input : Input) (call : Accepting) (transaction : PhaseTransaction) :
    Result Fields := do
  let evidence := acceptanceEvidence site.project (call.arguments.request site) call.candidate
  let forged := ", ".intercalate (RESERVED_TERMINAL_FIELDS.filter (· ∈ evidence.keys))
  require (RESERVED_TERMINAL_FIELDS.filter (· ∈ evidence.keys) = [])
    (transactionError
      s!"completion evidence attempts to override reserved terminal fields: {forged}")
  return completedPayload transaction (some site.implementationCommit) "FEATURE_ACCEPTED"
    (transaction.nextProjectState.getD "feature_ready") input.snapshot evidence

/-- What `complete` does about a terminal event that it found, when nothing is to be
    materialized. -/
def settle (s : Shared) (transaction : PhaseTransaction) (terminal : Option LedgerEvent)
    (payload : Fields) : Result Stage := do
  let pending := checkpointOf s.events transaction.transactionId
    "compatibility_materialization_pending"
  let acknowledged := checkpointOf s.events transaction.transactionId
    "compatibility_materialization_acknowledged"
  require (pending = none ∨ acknowledged ≠ none)
    (transactionError "pending terminal materialization requires deterministic replay")
  match terminal with
  | none => return .terminalLease payload
  | some event => do
      require (event.eventType = transactionCompleted)
        (transactionError "transaction already has a non-completed terminal outcome")
      return .readLease .completing

/-- The repository is still at the commit that the transaction finalized. An acceptance finalizes
    no paths and no diff, so nothing else is compared. -/
def revalidateRepository (input : Input) (s : Shared) (transaction : PhaseTransaction) :
    Result Unit := do
  require (input.snapshot.operating = false)
    (transactionError "Git operation appeared before transaction completion")
  require (input.snapshot.clean = true)
    (transactionError "repository is not clean before transaction completion")
  match finalizedOf s.events transaction.transactionId with
  | none =>
      .error (transactionError "completion requires durable commit-finalization evidence")
  | some payload =>
      require (input.snapshot.branch = transaction.startingBranch ∧
          .str input.snapshot.head = payload.get "commit")
        (transactionError "repository branch or HEAD changed before terminal evidence")

/-- The block of the handler in `accept_feature`. -/
def blocking : Blocking where
  state := .terminalFailure
  classification := "FEATURE_VALIDATION_FAILED"
  nextState := "validation_failed"
  reference := some "deterministic_acceptance_failed"

/-- The routing state that a terminal event names. -/
def endingState : Ending → String
  | .completing => "integration_pending"
  | .blocking => "validation_failed"

/-! ### Steps -/

/-- The next access of a call whose transaction moved on. -/
def moved (call : Accepting) (lease : WorkflowLeaseRecord)
    (transaction : Result PhaseTransaction) (s : Shared) (stage : Stage) :
    Result (Pc × Shared) := do
  let transaction ← transaction
  return (.holding call lease transaction stage, s)

/-- One access of a call that took the lease. -/
def actHolding (input : Input) (s : Shared) (call : Accepting) (lease : WorkflowLeaseRecord)
    (transaction : PhaseTransaction) (stage : Stage) : Result (Pc × Shared) :=
  let onward (s : Shared) (stage : Stage) : Result (Pc × Shared) :=
    .ok (.holding call lease transaction stage, s)
  let record (kind : EventType) (payload : Fields) : Result Shared :=
    append site input s kind transaction.transactionId payload
  let commands := call.arguments.tierEvidence.get "commands"
  match stage with
  | .started => do
      let s ← startTransaction site input s transaction
      moved call lease (transaction.transition .leasePending) s .revalidate
  | .abandon => do
      revalidateOwn site s call transaction
      onward s .abandonRelease
  | .abandonRelease => do
      let s ← releaseOwn site s call transaction
      return (.raised, s)
  | .revalidate => do
      revalidateOwn site s call transaction
      moved call lease (transaction.transition .active) s .leaseAcquired
  | .leaseAcquired => do
      let s ← record leaseAcquired (leasePayload lease)
      onward s .snapshotLease
  | .snapshotLease => do
      revalidateOwn site s call transaction
      onward s .snapshotCaptured
  | .snapshotCaptured => do
      require (SnapshotIsStart transaction input.snapshot)
        (changedSinceStart transaction input.snapshot)
      let s ← record snapshotCaptured [("snapshot", .obj input.snapshot.toFields)]
      moved call lease (transaction.transition .resultPending) s .executionStarted
  | .executionStarted => do
      let s ← record deterministicExecutionStarted
        (executionStartedPayload site.platform call.candidate)
      moved call lease (transaction.transition .validating) s .resultAccepted
  | .resultAccepted => do
      let s ← record deterministicResultAccepted
        (resultAcceptedPayload site.platform call.candidate)
      onward s .validationStarted
  | .validationStarted => do
      let s ← record validationStarted
        (tierStartedPayload call.candidate call.arguments.requiredTier)
      onward s .validationPassed
  | .validationPassed => do
      let s ← record validationPassed (tierPassedPayload call.candidate commands)
      moved call lease (transaction.transition .finalizing) s .commitFinalized
  | .commitFinalized => do
      let s ← record commitFinalized (implementationPayload (call.arguments.request site))
      return (.holding call lease
        { transaction with nextProjectState := some "integration_pending" } .terminal, s)
  | .terminal => do
      let found ← terminalEvent s.events transaction.transactionId
      let payload ← terminalPayload site input call transaction
      onward s (.materialization found payload)
  | .materialization found payload => do
      let next ← settle s transaction found payload
      onward s next
  | .terminalLease payload => do
      revalidateOwn site s call transaction
      onward s (.finalized payload)
  | .finalized payload => do
      revalidateRepository input s transaction
      onward s (.completed payload)
  | .completed payload => do
      let s ← record transactionCompleted payload
      let transaction ← transaction.terminate .completed "FEATURE_ACCEPTED"
        (some site.implementationCommit)
      return (.holding call lease transaction (.readLease .completing), s)
  | .blockLease => do
      revalidateOwn site s call transaction
      onward s .blocked
  | .blocked => do
      let s ← record transactionBlocked
        (blockPayload site.platform blocking none input.snapshot)
      let transaction ← transaction.terminate blocking.state blocking.classification
        blocking.reference
      return (.holding call lease transaction (.readLease .blocking), s)
  | .readLease ending =>
      match s.lease, ending with
      | some _, ending => onward s (.checkLease ending)
      | none, .completing => onward s .projected
      | none, .blocking => onward s (.projectionUpdated .blocking)
  | .checkLease ending => do
      revalidateOwn site s call transaction
      onward s (.release ending)
  | .release ending => do
      let s ← releaseOwn site s call transaction
      onward s (.leaseReleased ending)
  | .leaseReleased ending => do
      let s ← record leaseReleased [("lease_id", .ofOption transaction.leaseIdentity)]
      match ending with
      | .completing => onward s .projected
      | .blocking => onward s (.projectionUpdated .blocking)
  | .projected =>
      if s.events.any fun event => event.transactionId = transaction.transactionId ∧
          event.eventType = projectionUpdated then onward s (.rebuild .completing)
      else onward s (.projectionUpdated .completing)
  | .projectionUpdated ending => do
      let s ← record projectionUpdated
        (projectionPayload (endingState ending) transaction.featureId .null)
      onward s (.rebuild ending)
  | .rebuild .completing => onward s .verify
  | .rebuild .blocking => .ok (.raised, s)
  | .verify => do
      require (input.repository.revParse call.arguments.featureBranch =
            some site.implementationCommit ∧
          input.repository.head = site.implementationCommit ∧ input.repository.isClean = true)
        (transactionError "implementation ref changed during acceptance")
      onward s .lookup
  | .lookup => do
      require (s.events.any fun event => event.transactionId = transaction.transactionId ∧
          event.eventType = transactionCompleted)
        ⟨.stopIteration, ""⟩
      return (.returned, s)
  | .giveUp =>
      match s.lease with
      | none => .ok (.raised, s)
      | some _ => onward s .giveUpRelease
  | .giveUpRelease => do
      let s ← releaseOwn site s call transaction
      return (.raised, s)

/-- The lease that a call asks for. -/
def acquireOwn (input : Input) (s : Shared) (call : Accepting) (transaction : PhaseTransaction) :
    Result (Pc × Shared) := do
  require (s.lease = none) (lockError "repository writer lease already exists")
  let record ← acquireRecord site.platform site.lease call.arguments.process
    (leaseRequest site.project.toProject transaction) input.drawn.uuid4 input.drawn.utcNow
  return (.holding call record { transaction with leaseIdentity := some record.leaseId } .started,
    { s with lease := some record })

/-- One access of a call. -/
def act (input : Input) (s : Shared) : Pc → Result (Pc × Shared)
  | .idle =>
      match input.begin with
      | none => .ok (.idle, s)
      | some arguments => do
          let candidate ← inspectAcceptanceCandidate site.project input.repository
            (arguments.request site)
          match arguments.recoverIncompleteTransaction with
          | none => return (.check ⟨arguments, candidate⟩, s)
          | some _ => return (.supersede ⟨arguments, candidate⟩, s)
  | .supersede call => do
      let next ← supersede site s call
        (call.arguments.recoverIncompleteTransaction.getD "")
      return (next, s)
  | .supersedeLease call start => do
      require (s.lease = none)
        (transactionError "incomplete acceptance recovery requires an absent writer lease")
      let failed := ((supersedeChecks site input call start).filter
        fun check => !check.2).map Prod.fst
      let names := ", ".intercalate failed
      require (failed = [])
        (transactionError s!"incomplete acceptance recovery identity failed: {names}")
      return (.recordSuperseded call start input.snapshot, s)
  | .recordSuperseded call start snapshot => do
      let s ← append site input s transactionSuperseded start.transactionId
        (supersededPayload site call start snapshot)
      return (.recordRecovery call start.transactionId, s)
  | .recordRecovery call transactionId => do
      let s ← append site input s recoveryApplied transactionId (recoveryPayload site call)
      return (.check call, s)
  | .check call => do
      require (acceptances site s.events = [])
        (transactionError "candidate already has immutable controller acceptance metadata")
      return (.begin call, s)
  | .begin call => do
      let transaction ← beginTransaction site input call
      return (.acquire call transaction, s)
  | .acquire call transaction => acquireOwn site input s call transaction
  | .holding call lease transaction stage =>
      actHolding site input s call lease transaction stage
  | .returned => .ok (.returned, s)
  | .raised => .ok (.raised, s)
  | .died => .ok (.died, s)

/-- Where an access that raises leaves its call: the handler of `begin`, the one of
    `accept_feature`, the one of that handler, or none. -/
def onRaise : Pc → Pc
  | .holding call lease transaction stage =>
      match stage with
      | .started => .holding call lease transaction .abandon
      | .snapshotLease | .snapshotCaptured | .executionStarted | .resultAccepted
      | .validationStarted | .validationPassed | .commitFinalized | .terminal
      | .materialization _ _ | .terminalLease _ | .finalized _ | .completed _
      | .readLease .completing | .checkLease .completing | .release .completing
      | .leaseReleased .completing | .projected | .projectionUpdated .completing
      | .rebuild .completing =>
          if transaction.currentState ∈ TERMINAL_STATES then .raised
          else .holding call lease transaction .blockLease
      | .blockLease | .blocked | .readLease .blocking | .checkLease .blocking
      | .release .blocking | .leaseReleased .blocking | .projectionUpdated .blocking
      | .rebuild .blocking => .holding call lease transaction .giveUp
      | _ => .raised
  | _ => .raised

/-- One access of one call. -/
def step (s : State) (caller : Nat) (input : Input) : State :=
  let access : Call Input Shared Failure Pc :=
    Call.attempt (fun input _ => input.fault) id fun input shared =>
      act site input shared (s.pcs caller)
  let issued := input.drawn.uuid4 :: s.issued
  match access input s.shared with
  | (.returned pc, shared) => ⟨shared, Function.update s.pcs caller pc, issued⟩
  | (.raised _, shared) =>
      ⟨shared, Function.update s.pcs caller (onRaise (s.pcs caller)), issued⟩
  | (.died, shared) => ⟨shared, Function.update s.pcs caller .died, issued⟩

end Accesses

/-! ### Runs -/

namespace Pc

/-- The identifier of the lease that a call took. -/
def leaseId : Pc → Option String
  | holding _ lease _ _ => some lease.leaseId
  | _ => none

/-- The call knows its lease by the identifier in its transaction. -/
def Identified : Pc → Prop
  | holding _ lease transaction _ => transaction.leaseIdentity = some lease.leaseId
  | _ => True

end Pc

/-- No call began yet, and an acceptance that is on record already is the only one. -/
structure Start (site : Site) (s : State) : Prop where
  pcs : ∀ caller, s.pcs caller = .idle
  acceptances : (acceptances site s.shared.events).length ≤ 1

/-- Runs of any calls in any order, as far as `allowed` lets them step. A drawn identifier was
    never drawn before. -/
inductive Run (site : Site) (allowed : State → Nat → Prop) : State → Prop where
  | start {s : State} (begins : Start site s) : Run site allowed s
  | step {s : State} {caller : Nat} {input : Input} (prior : Run site allowed s)
      (fresh : input.drawn.uuid4 ∉ s.issued)
      (admits : allowed s caller) : Run site allowed (step site s caller input)

/-- A call takes the lease while no acceptance of its candidate is on record. -/
def Current (site : Site) (s : State) (caller : Nat) : Prop :=
  ∀ call transaction, s.pcs caller = .acquire call transaction →
    acceptances site s.shared.events = []

/-! ### The invariant -/

/-- The call may still complete its transaction. -/
def Stage.opening : Stage → Bool
  | started | revalidate | leaseAcquired | snapshotLease | snapshotCaptured | executionStarted
  | resultAccepted | validationStarted | validationPassed | commitFinalized | terminal
  | materialization _ _ | terminalLease _ | finalized _ | completed _ => true
  | _ => false

def Pc.opening : Pc → Bool
  | holding _ _ _ stage => stage.opening
  | _ => false

structure Inv (site : Site) (s : State) : Prop where
  identified : ∀ caller, (s.pcs caller).Identified
  distinct : ∀ first second leaseId, (s.pcs first).leaseId = some leaseId →
    (s.pcs second).leaseId = some leaseId → first = second
  issued : ∀ caller leaseId, (s.pcs caller).leaseId = some leaseId → leaseId ∈ s.issued
  holds : ∀ caller, (s.pcs caller).opening = true →
    ∃ record, s.shared.lease = some record ∧ (s.pcs caller).leaseId = some record.leaseId
  unaccepted : ∀ caller, (s.pcs caller).opening = true → acceptances site s.shared.events = []
  once : (acceptances site s.shared.events).length ≤ 1

theorem Start.inv {site : Site} {s : State} (h : Start site s) : Inv site s where
  identified caller := by
    rw [h.pcs]
    trivial
  distinct first second leaseId hfirst _ := by
    rw [h.pcs] at hfirst
    cases hfirst
  issued caller leaseId hid := by
    rw [h.pcs] at hid
    cases hid
  holds caller hopening := by
    rw [h.pcs] at hopening
    cases hopening
  unaccepted caller hopening := by
    rw [h.pcs] at hopening
    cases hopening
  once := h.acceptances

/-! ### What one access does -/

/-- What an access may do to the ledger, the lease and its call. -/
structure Effect (site : Site) (pc next : Pc) (s t : Shared) : Prop where
  identified : next.Identified
  leaseId : next.leaseId = none ∨ next.leaseId = pc.leaseId
  opening : next.opening = true → pc.opening = true
  lease : t.lease = s.lease ∨ next.opening = false ∧ t.lease = none ∧
    ∃ record, s.lease = some record ∧ pc.leaseId = some record.leaseId
  events : acceptances site t.events = acceptances site s.events ∨
    pc.opening = true ∧ next.opening = false ∧
      (acceptances site t.events).length ≤ (acceptances site s.events).length + 1

section Effects

variable {site : Site} {input : Input} {s t : Shared} {call : Accepting}
  {lease : WorkflowLeaseRecord} {transaction after : PhaseTransaction} {stage later : Stage}
  {kind : EventType} {transactionId : String} {payload : Fields} {pc next : Pc}

/-- Neither the lease nor the acceptances differ. -/
structure Quiet (site : Site) (s t : Shared) : Prop where
  lease : t.lease = s.lease
  acceptances : acceptances site t.events = acceptances site s.events

theorem Quiet.refl (site : Site) (s : Shared) : Quiet site s s := ⟨rfl, rfl⟩

theorem append_eq_ok (h : append site input s kind transactionId payload = .ok t) :
    ∃ event, t = { s with events := s.events ++ [event] } ∧ event.eventType = kind := by
  simp only [append, bind_eq_ok, pure, Except.pure, Except.ok.injEq] at h
  obtain ⟨-, -, rfl⟩ := h
  exact ⟨_, rfl, rfl⟩

theorem quiet_append (hkind : kind ≠ transactionCompleted)
    (h : append site input s kind transactionId payload = .ok t) : Quiet site s t := by
  obtain ⟨event, rfl, hevent⟩ := append_eq_ok h
  refine ⟨rfl, ?_⟩
  rw [acceptances, List.filter_append, ← acceptances]
  simp [hevent, hkind]

/-- The owner releases only the lease that its transaction names. -/
theorem releaseOwn_eq_ok (hidentity : transaction.leaseIdentity = some lease.leaseId)
    (h : releaseOwn site s call transaction = .ok t) :
    t = { s with lease := none } ∧
      ∃ record, s.lease = some record ∧ record.leaseId = lease.leaseId := by
  unfold releaseOwn at h
  split at h
  · cases h
  · rename_i record hrecord
    simp only [bind_eq_ok, pure, Except.pure, Except.ok.injEq] at h
    obtain ⟨_, -, _, hrevalidated, rfl⟩ := h
    refine ⟨rfl, record, hrecord, ?_⟩
    unfold revalidate at hrevalidated
    rw [require_eq_ok, List.map_eq_nil_iff, List.filter_eq_nil_iff] at hrevalidated
    have hid := hrevalidated ("lease_id", givenIs transaction.leaseIdentity record.leaseId)
      (by simp [revalidateChecks, leaseExpectation])
    simpa [givenIs, hidentity] using hid

/-- A call goes on with its lease. -/
theorem effect_holding (hidentity : transaction.leaseIdentity = some lease.leaseId)
    (hafter : after.leaseIdentity = transaction.leaseIdentity)
    (hopening : later.opening = true → stage.opening = true) (hquiet : Quiet site s t) :
    Effect site (.holding call lease transaction stage) (.holding call lease after later) s t where
  identified := hafter.trans hidentity
  leaseId := Or.inr rfl
  opening := hopening
  lease := Or.inl hquiet.lease
  events := Or.inl hquiet.acceptances

/-- A call that took no lease yet, or is done with it. -/
theorem effect_without (hid : next.leaseId = none) (hidentified : next.Identified)
    (hopening : next.opening = false) (hquiet : Quiet site s t) : Effect site pc next s t where
  identified := hidentified
  leaseId := Or.inl hid
  opening h := by
    rw [hopening] at h
    cases h
  lease := Or.inl hquiet.lease
  events := Or.inl hquiet.acceptances

theorem effect_raised (hquiet : Quiet site s t) : Effect site pc .raised s t :=
  effect_without rfl trivial rfl hquiet

/-- A call releases the lease that it took, and completes nothing any more. -/
theorem effect_release (hidentity : transaction.leaseIdentity = some lease.leaseId)
    (hnext : next = .raised ∨ ∃ ending,
      next = .holding call lease transaction (.leaseReleased ending))
    (h : releaseOwn site s call transaction = .ok t) :
    Effect site (.holding call lease transaction stage) next s t := by
  obtain ⟨rfl, record, hrecord, hid⟩ := releaseOwn_eq_ok hidentity h
  constructor
  · rcases hnext with rfl | ⟨ending, rfl⟩
    · trivial
    · exact hidentity
  · rcases hnext with rfl | ⟨ending, rfl⟩
    · exact Or.inl rfl
    · exact Or.inr rfl
  · intro hopening
    rcases hnext with rfl | ⟨ending, rfl⟩ <;> cases hopening
  · right
    refine ⟨?_, rfl, record, hrecord, congrArg some hid.symm⟩
    rcases hnext with rfl | ⟨ending, rfl⟩ <;> rfl
  · exact Or.inl rfl

theorem length_acceptances_snoc (events : List LedgerEvent) (event : LedgerEvent) :
    (acceptances site (events ++ [event])).length ≤ (acceptances site events).length + 1 := by
  rw [acceptances, List.filter_append, List.length_append]
  have hlast := List.length_filter_le
    (fun event => decide (event.eventType = transactionCompleted ∧
      event.workflowType = .featureAcceptance ∧
      event.payload.get "feature_id" = .str site.featureId ∧
      event.payload.get "accepted_feature_commit" = .str site.implementationCommit)) [event]
  rw [List.length_singleton] at hlast
  exact Nat.add_le_add_left hlast _

/-- A call completes its transaction. -/
theorem effect_completed (hidentity : transaction.leaseIdentity = some lease.leaseId)
    (hafter : after.leaseIdentity = transaction.leaseIdentity)
    (h : append site input s transactionCompleted transactionId payload = .ok t) :
    Effect site (.holding call lease transaction (.completed payload))
      (.holding call lease after (.readLease .completing)) s t := by
  obtain ⟨event, rfl, -⟩ := append_eq_ok h
  exact {
    identified := hafter.trans hidentity
    leaseId := Or.inr rfl
    opening := fun hopening => by cases hopening
    lease := Or.inl rfl
    events := Or.inr ⟨rfl, rfl, length_acceptances_snoc s.events event⟩ }

/-- A call whose transaction moved on. -/
theorem effect_moved (hidentity : transaction.leaseIdentity = some lease.leaseId)
    {target : TransactionState} {s' : Shared} (hquiet : Quiet site s s')
    (hopening : later.opening = true → stage.opening = true)
    (h : moved call lease (transaction.transition target) s' later = .ok (next, t)) :
    Effect site (.holding call lease transaction stage) next s t := by
  simp only [moved, bind_eq_ok, pure, Except.pure, Except.ok.injEq, Prod.mk.injEq] at h
  obtain ⟨after, hafter, rfl, rfl⟩ := h
  exact effect_holding hidentity (by rw [PhaseTransaction.transition_eq_ok hafter]) hopening hquiet

theorem quiet_start (h : startTransaction site input s transaction = .ok t) : Quiet site s t := by
  simp only [startTransaction, require_bind_eq_ok] at h
  exact quiet_append (by decide) h.2

/-- The access of one stage. -/
theorem actHolding_effect (hidentity : transaction.leaseIdentity = some lease.leaseId)
    (h : actHolding site input s call lease transaction stage = .ok (next, t)) :
    Effect site (.holding call lease transaction stage) next s t := by
  have hrecord {kind : EventType} {payload : Fields} {s' : Shared}
      (hkind : kind ≠ transactionCompleted)
      (h : append site input s kind transaction.transactionId payload = .ok s') :
      Quiet site s s' := quiet_append hkind h
  have hstay := Quiet.refl site s
  cases stage with
  | started =>
      simp only [actHolding, bind_eq_ok] at h
      obtain ⟨s', hstart, hmoved⟩ := h
      exact effect_moved hidentity (quiet_start hstart) (fun _ => rfl) hmoved
  | abandon | blockLease =>
      simp only [actHolding, bind_eq_ok, Except.ok.injEq, Prod.mk.injEq] at h
      obtain ⟨-, -, rfl, rfl⟩ := h
      exact effect_holding hidentity rfl (fun hopening => by cases hopening) hstay
  | abandonRelease | giveUpRelease =>
      simp only [actHolding, bind_eq_ok, pure, Except.pure, Except.ok.injEq, Prod.mk.injEq] at h
      obtain ⟨s', hrelease, rfl, rfl⟩ := h
      exact effect_release hidentity (Or.inl rfl) hrelease
  | revalidate =>
      simp only [actHolding, bind_eq_ok] at h
      obtain ⟨-, -, hmoved⟩ := h
      exact effect_moved hidentity hstay (fun _ => rfl) hmoved
  | leaseAcquired | resultAccepted | validationStarted =>
      simp only [actHolding, bind_eq_ok, Except.ok.injEq, Prod.mk.injEq] at h
      obtain ⟨s', happend, rfl, rfl⟩ := h
      exact effect_holding hidentity rfl (fun _ => rfl) (hrecord (by decide) happend)
  | snapshotLease | terminalLease payload | finalized payload =>
      simp only [actHolding, bind_eq_ok, Except.ok.injEq, Prod.mk.injEq] at h
      obtain ⟨-, -, rfl, rfl⟩ := h
      exact effect_holding hidentity rfl (fun _ => rfl) hstay
  | snapshotCaptured =>
      simp only [actHolding, bind_eq_ok] at h
      obtain ⟨-, -, s', happend, hmoved⟩ := h
      exact effect_moved hidentity (hrecord (by decide) happend) (fun _ => rfl) hmoved
  | executionStarted | validationPassed =>
      simp only [actHolding, bind_eq_ok] at h
      obtain ⟨s', happend, hmoved⟩ := h
      exact effect_moved hidentity (hrecord (by decide) happend) (fun _ => rfl) hmoved
  | commitFinalized =>
      simp only [actHolding, bind_eq_ok, pure, Except.pure, Except.ok.injEq, Prod.mk.injEq] at h
      obtain ⟨s', happend, rfl, rfl⟩ := h
      exact effect_holding hidentity rfl (fun _ => rfl) (hrecord (by decide) happend)
  | terminal =>
      simp only [actHolding, bind_eq_ok, Except.ok.injEq, Prod.mk.injEq] at h
      obtain ⟨found, -, payload, -, rfl, rfl⟩ := h
      exact effect_holding hidentity rfl (fun _ => rfl) hstay
  | materialization found payload =>
      simp only [actHolding, bind_eq_ok, Except.ok.injEq, Prod.mk.injEq] at h
      obtain ⟨later, hsettle, rfl, rfl⟩ := h
      exact effect_holding hidentity rfl (fun _ => rfl) hstay
  | completed payload =>
      simp only [actHolding, bind_eq_ok, pure, Except.pure, Except.ok.injEq, Prod.mk.injEq] at h
      obtain ⟨s', happend, after, hterminate, rfl, rfl⟩ := h
      exact effect_completed hidentity (by rw [PhaseTransaction.terminate_eq_ok hterminate]) happend
  | blocked =>
      simp only [actHolding, bind_eq_ok, pure, Except.pure, Except.ok.injEq, Prod.mk.injEq] at h
      obtain ⟨s', happend, after, hterminate, rfl, rfl⟩ := h
      exact effect_holding hidentity (by rw [PhaseTransaction.terminate_eq_ok hterminate])
        (fun hopening => by cases hopening) (hrecord (by decide) happend)
  | readLease ending =>
      simp only [actHolding] at h
      split at h <;> cases h <;>
        exact effect_holding hidentity rfl (fun hopening => by cases hopening) hstay
  | checkLease ending =>
      simp only [actHolding, bind_eq_ok, Except.ok.injEq, Prod.mk.injEq] at h
      obtain ⟨-, -, rfl, rfl⟩ := h
      exact effect_holding hidentity rfl (fun hopening => by cases hopening) hstay
  | release ending =>
      simp only [actHolding, bind_eq_ok, Except.ok.injEq, Prod.mk.injEq] at h
      obtain ⟨s', hrelease, rfl, rfl⟩ := h
      exact effect_release hidentity (Or.inr ⟨ending, rfl⟩) hrelease
  | leaseReleased ending =>
      simp only [actHolding, bind_eq_ok] at h
      obtain ⟨s', happend, hnext⟩ := h
      have hquiet := hrecord (by decide) happend
      cases ending <;> cases hnext <;>
        exact effect_holding hidentity rfl (fun hopening => by cases hopening) hquiet
  | projected =>
      simp only [actHolding] at h
      split at h <;> cases h <;>
        exact effect_holding hidentity rfl (fun hopening => by cases hopening) hstay
  | projectionUpdated ending =>
      simp only [actHolding, bind_eq_ok, Except.ok.injEq, Prod.mk.injEq] at h
      obtain ⟨s', happend, rfl, rfl⟩ := h
      exact effect_holding hidentity rfl (fun hopening => by cases hopening)
        (hrecord (by decide) happend)
  | rebuild ending =>
      cases ending with
      | completing =>
          cases h
          exact effect_holding hidentity rfl (fun hopening => by cases hopening) hstay
      | blocking =>
          cases h
          exact effect_raised hstay
  | verify =>
      simp only [actHolding, require_bind_eq_ok, Except.ok.injEq, Prod.mk.injEq] at h
      obtain ⟨-, rfl, rfl⟩ := h
      exact effect_holding hidentity rfl (fun hopening => by cases hopening) hstay
  | lookup =>
      simp only [actHolding, require_bind_eq_ok, pure, Except.pure, Except.ok.injEq,
        Prod.mk.injEq] at h
      obtain ⟨-, rfl, rfl⟩ := h
      exact effect_without rfl trivial rfl hstay
  | giveUp =>
      simp only [actHolding] at h
      split at h
      · cases h
        exact effect_raised hstay
      · cases h
        exact effect_holding hidentity rfl (fun hopening => by cases hopening) hstay

/-- Every access but the one that takes the lease. -/
theorem act_effect (hidentified : pc.Identified)
    (hacquire : ∀ call transaction, pc ≠ .acquire call transaction)
    (h : act site input s pc = .ok (next, t)) : Effect site pc next s t := by
  have hstay := Quiet.refl site s
  cases pc with
  | idle =>
      simp only [act] at h
      split at h
      · cases h
        exact effect_without rfl trivial rfl hstay
      · simp only [bind_eq_ok] at h
        obtain ⟨candidate, -, hbegun⟩ := h
        split at hbegun <;> cases hbegun <;> exact effect_without rfl trivial rfl hstay
  | supersede call =>
      simp only [act, bind_eq_ok, pure, Except.pure, Except.ok.injEq, Prod.mk.injEq] at h
      obtain ⟨later, hsupersede, rfl, rfl⟩ := h
      simp only [supersede] at hsupersede
      split at hsupersede
      · simp only [require_bind_eq_ok, pure, Except.pure, Except.ok.injEq] at hsupersede
        obtain ⟨-, rfl⟩ := hsupersede
        exact effect_without rfl trivial rfl hstay
      · rw [require_bind_eq_ok] at hsupersede
        obtain ⟨-, hown⟩ := hsupersede
        split at hown
        · simp only [require_bind_eq_ok, pure, Except.pure, Except.ok.injEq] at hown
          obtain ⟨-, rfl⟩ := hown
          exact effect_without rfl trivial rfl hstay
        · cases hown
  | supersedeLease call start =>
      simp only [act, require_bind_eq_ok, pure, Except.pure, Except.ok.injEq, Prod.mk.injEq] at h
      obtain ⟨-, -, rfl, rfl⟩ := h
      exact effect_without rfl trivial rfl hstay
  | recordSuperseded call start snapshot =>
      simp only [act, bind_eq_ok, pure, Except.pure, Except.ok.injEq, Prod.mk.injEq] at h
      obtain ⟨s', happend, rfl, rfl⟩ := h
      exact effect_without rfl trivial rfl (quiet_append (by decide) happend)
  | recordRecovery call transactionId =>
      simp only [act, bind_eq_ok, pure, Except.pure, Except.ok.injEq, Prod.mk.injEq] at h
      obtain ⟨s', happend, rfl, rfl⟩ := h
      exact effect_without rfl trivial rfl (quiet_append (by decide) happend)
  | check call =>
      simp only [act, require_bind_eq_ok, pure, Except.pure, Except.ok.injEq, Prod.mk.injEq] at h
      obtain ⟨-, rfl, rfl⟩ := h
      exact effect_without rfl trivial rfl hstay
  | begin call =>
      simp only [act, bind_eq_ok, pure, Except.pure, Except.ok.injEq, Prod.mk.injEq] at h
      obtain ⟨transaction, -, rfl, rfl⟩ := h
      exact effect_without rfl trivial rfl hstay
  | acquire call transaction => exact absurd rfl (hacquire call transaction)
  | holding call lease transaction stage => exact actHolding_effect hidentified h
  | returned | raised | died =>
      cases h
      exact effect_without rfl trivial rfl hstay

/-- The handlers complete nothing. -/
theorem onRaise_opening (pc : Pc) : (onRaise pc).opening = false := by
  unfold onRaise
  split
  · split <;> first | rfl | (split <;> rfl)
  · rfl

theorem onRaise_leaseId (pc : Pc) :
    (onRaise pc).leaseId = none ∨ (onRaise pc).leaseId = pc.leaseId := by
  unfold onRaise
  split
  · split <;> first | exact Or.inr rfl | exact Or.inl rfl | (split <;> simp [Pc.leaseId])
  · exact Or.inl rfl

theorem onRaise_identified (h : pc.Identified) : (onRaise pc).Identified := by
  unfold onRaise
  split
  · split <;> first | exact h | trivial | (split <;> first | exact h | trivial)
  · trivial

/-- Where else a call may be after the same effect, when it completes nothing there. -/
theorem Effect.leaves {other : Pc} (h : Effect site pc next s t) (hidentified : other.Identified)
    (hid : other.leaseId = none ∨ other.leaseId = pc.leaseId)
    (hopening : other.opening = false) : Effect site pc other s t where
  identified := hidentified
  leaseId := hid
  opening hother := by
    rw [hopening] at hother
    cases hother
  lease := h.lease.imp_right fun ⟨_, hreleased⟩ => ⟨hopening, hreleased⟩
  events := h.events.imp_right fun ⟨hpc, _, hlength⟩ => ⟨hpc, hopening, hlength⟩

end Effects

/-! ### The invariant is kept -/

section Steps

variable {site : Site} {input : Input} {s : State} {t : Shared} {caller : Nat} {next : Pc}

/-- An access of another call leaves a call its lease. -/
theorem holds_of_other (h : Inv site s) (heffect : Effect site (s.pcs caller) next s.shared t)
    {other : Nat} (hne : other ≠ caller) (hopening : (s.pcs other).opening = true) :
    ∃ record, t.lease = some record ∧ (s.pcs other).leaseId = some record.leaseId := by
  obtain ⟨record, hrecord, hid⟩ := h.holds other hopening
  rcases heffect.lease with hsame | ⟨-, -, released, hreleased, hcaller⟩
  · exact ⟨record, hsame.trans hrecord, hid⟩
  · rw [hrecord, Option.some.injEq] at hreleased
    rw [← hreleased] at hcaller
    exact absurd (h.distinct other caller record.leaseId hid hcaller) hne

/-- A call that completes is the only one that may. -/
theorem unaccepted_of_other (h : Inv site s)
    (heffect : Effect site (s.pcs caller) next s.shared t) {other : Nat} (hne : other ≠ caller)
    (hopening : (s.pcs other).opening = true) : acceptances site t.events = [] := by
  rcases heffect.events with hsame | ⟨hcaller, -, -⟩
  · rw [hsame]
    exact h.unaccepted other hopening
  · obtain ⟨record, hrecord, hid⟩ := h.holds other hopening
    obtain ⟨own, hown, hcallerId⟩ := h.holds caller hcaller
    rw [hrecord, Option.some.injEq] at hown
    rw [← hown] at hcallerId
    exact absurd (h.distinct other caller record.leaseId hid hcallerId) hne

theorem inv_of_effect (h : Inv site s) (heffect : Effect site (s.pcs caller) next s.shared t) :
    Inv site ⟨t, Function.update s.pcs caller next, input.drawn.uuid4 :: s.issued⟩ := by
  have hid {other : Nat} {leaseId : String}
      (hother : (Function.update s.pcs caller next other).leaseId = some leaseId) :
      (s.pcs other).leaseId = some leaseId := by
    by_cases heq : other = caller
    · subst heq
      rw [Function.update_self] at hother
      rcases heffect.leaseId with hnone | hsame
      · rw [hnone] at hother
        cases hother
      · rwa [← hsame]
    · rwa [Function.update_of_ne heq] at hother
  constructor
  · intro other
    dsimp only
    by_cases heq : other = caller
    · subst heq
      rw [Function.update_self]
      exact heffect.identified
    · rw [Function.update_of_ne heq]
      exact h.identified other
  · intro first second leaseId hfirst hsecond
    exact h.distinct first second leaseId (hid hfirst) (hid hsecond)
  · intro other leaseId hother
    exact List.mem_cons_of_mem _ (h.issued other leaseId (hid hother))
  · intro other hother
    dsimp only at hother ⊢
    by_cases heq : other = caller
    · subst heq
      rw [Function.update_self] at hother ⊢
      obtain ⟨record, hrecord, hown⟩ := h.holds other (heffect.opening hother)
      refine ⟨record, ?_, ?_⟩
      · rcases heffect.lease with hsame | ⟨hclosed, -⟩
        · exact hsame.trans hrecord
        · rw [hclosed] at hother
          cases hother
      · rcases heffect.leaseId with hnone | hsame
        · cases next <;> first | cases hother | cases hnone
        · exact hsame.trans hown
    · rw [Function.update_of_ne heq] at hother ⊢
      exact holds_of_other h heffect heq hother
  · intro other hother
    dsimp only at hother ⊢
    by_cases heq : other = caller
    · subst heq
      rw [Function.update_self] at hother
      rcases heffect.events with hsame | ⟨-, hclosed, -⟩
      · rw [hsame]
        exact h.unaccepted other (heffect.opening hother)
      · rw [hclosed] at hother
        cases hother
    · rw [Function.update_of_ne heq] at hother
      exact unaccepted_of_other h heffect heq hother
  · dsimp only
    rcases heffect.events with hsame | ⟨hcaller, -, hlength⟩
    · rw [hsame]
      exact h.once
    · rw [h.unaccepted caller hcaller] at hlength
      exact hlength

/-- What a call that asks for the lease does to it. -/
theorem acquireOwn_eq_ok {shared : Shared} {call : Accepting} {transaction : PhaseTransaction}
    (h : acquireOwn site input shared call transaction = .ok (next, t)) :
    shared.lease = none ∧ t.events = shared.events ∧ ∃ record,
      t.lease = some record ∧ record.leaseId = input.drawn.uuid4 ∧ next = .holding call record
        { transaction with leaseIdentity := some record.leaseId } .started := by
  simp only [acquireOwn, require_bind_eq_ok] at h
  obtain ⟨hfree, hrest⟩ := h
  simp only [bind_eq_ok, pure, Except.pure, Except.ok.injEq, Prod.mk.injEq] at hrest
  obtain ⟨record, hrecord, rfl, rfl⟩ := hrest
  simp only [acquireRecord, require_bind_eq_ok, pure, Except.pure, Except.ok.injEq] at hrecord
  obtain ⟨-, rfl⟩ := hrecord
  exact ⟨hfree, rfl, _, rfl, rfl, rfl⟩

/-- A call takes a free lease: no other call is opening, and none has its identifier. -/
theorem inv_acquired (h : Inv site s) {call : Accepting} {transaction : PhaseTransaction}
    (hfresh : input.drawn.uuid4 ∉ s.issued)
    (hcurrent : acceptances site s.shared.events = []) {pc : Pc}
    (hacquired : acquireOwn site input s.shared call transaction = .ok (next, t))
    (hpc : pc = next ∨ pc = .raised ∨ pc = .died) :
    Inv site ⟨t, Function.update s.pcs caller pc, input.drawn.uuid4 :: s.issued⟩ := by
  obtain ⟨hfree, hevents, record, hlease, hid, rfl⟩ := acquireOwn_eq_ok hacquired
  have hclosed (other : Nat) : (s.pcs other).opening = false := by
    by_contra hopening
    rw [Bool.not_eq_false] at hopening
    obtain ⟨held, hheld, -⟩ := h.holds other hopening
    rw [hfree] at hheld
    cases hheld
  have hown : pc.leaseId = none ∨ pc.leaseId = some input.drawn.uuid4 := by
    rcases hpc with rfl | rfl | rfl
    · exact Or.inr (congrArg some hid)
    · exact Or.inl rfl
    · exact Or.inl rfl
  constructor
  · intro other
    dsimp only
    by_cases heq : other = caller
    · subst heq
      rw [Function.update_self]
      rcases hpc with rfl | rfl | rfl <;> trivial
    · rw [Function.update_of_ne heq]
      exact h.identified other
  · intro first second leaseId hfirst hsecond
    dsimp only at hfirst hsecond
    by_cases hf : first = caller <;> by_cases hs : second = caller
    · rw [hf, hs]
    · rw [hf, Function.update_self] at hfirst
      rw [Function.update_of_ne hs] at hsecond
      rcases hown with hnone | hsome
      · rw [hnone] at hfirst
        cases hfirst
      · rw [hsome] at hfirst
        exact absurd (h.issued second _ (hsecond.trans hfirst.symm)) hfresh
    · rw [hs, Function.update_self] at hsecond
      rw [Function.update_of_ne hf] at hfirst
      rcases hown with hnone | hsome
      · rw [hnone] at hsecond
        cases hsecond
      · rw [hsome] at hsecond
        exact absurd (h.issued first _ (hfirst.trans hsecond.symm)) hfresh
    · rw [Function.update_of_ne hf] at hfirst
      rw [Function.update_of_ne hs] at hsecond
      exact h.distinct first second leaseId hfirst hsecond
  · intro other leaseId hother
    dsimp only at hother ⊢
    by_cases heq : other = caller
    · subst heq
      rw [Function.update_self] at hother
      rcases hown with hnone | hsome
      · rw [hnone] at hother
        cases hother
      · rw [hsome, Option.some.injEq] at hother
        exact hother ▸ List.mem_cons_self
    · rw [Function.update_of_ne heq] at hother
      exact List.mem_cons_of_mem _ (h.issued other leaseId hother)
  · intro other hother
    dsimp only at hother ⊢
    by_cases heq : other = caller
    · subst heq
      rw [Function.update_self] at hother ⊢
      rcases hpc with rfl | rfl | rfl
      · exact ⟨record, hlease, rfl⟩
      · cases hother
      · cases hother
    · rw [Function.update_of_ne heq, hclosed] at hother
      cases hother
  · intro other _
    dsimp only
    rw [hevents]
    exact hcurrent
  · dsimp only
    rw [hevents]
    exact h.once

/-- An access that came to nothing leaves its call at a handler. -/
theorem inv_raised (h : Inv site s) {pc : Pc} (hpc : pc = onRaise (s.pcs caller) ∨ pc = .died) :
    Inv site ⟨s.shared, Function.update s.pcs caller pc, input.drawn.uuid4 :: s.issued⟩ := by
  have hstay : Effect site (s.pcs caller) .died s.shared s.shared :=
    effect_without rfl trivial rfl (Quiet.refl site _)
  rcases hpc with rfl | rfl
  · exact inv_of_effect h (hstay.leaves (onRaise_identified (h.identified caller))
      (onRaise_leaseId _) (onRaise_opening _))
  · exact inv_of_effect h hstay

/-- An access that was made leaves its call at its next one, at a handler, or dead. -/
theorem inv_act (h : Inv site s)
    (hfresh : input.drawn.uuid4 ∉ s.issued)
    (hcurrent : Current site s caller) {pc : Pc}
    (hact : act site input s.shared (s.pcs caller) = .ok (next, t))
    (hpc : pc = next ∨ pc = onRaise (s.pcs caller) ∨ pc = .died) :
    Inv site ⟨t, Function.update s.pcs caller pc, input.drawn.uuid4 :: s.issued⟩ := by
  by_cases hacquire : ∃ call transaction, s.pcs caller = .acquire call transaction
  · obtain ⟨call, transaction, heq⟩ := hacquire
    rw [heq] at hact hpc
    exact inv_acquired h hfresh (hcurrent call transaction heq) hact hpc
  · have heffect := act_effect (h.identified caller)
      (fun call transaction heq => hacquire ⟨call, transaction, heq⟩) hact
    rcases hpc with rfl | rfl | rfl
    · exact inv_of_effect h heffect
    · exact inv_of_effect h (heffect.leaves (onRaise_identified (h.identified caller))
        (onRaise_leaseId _) (onRaise_opening _))
    · exact inv_of_effect h (heffect.leaves trivial (Or.inl rfl) rfl)

theorem inv_step (h : Inv site s)
    (hfresh : input.drawn.uuid4 ∉ s.issued)
    (hcurrent : Current site s caller) : Inv site (step site s caller input) := by
  unfold step Call.attempt
  dsimp only [id]
  cases hact : act site input s.shared (s.pcs caller) with
  | error failure =>
      cases input.fault with
      | none | raises failure | raisesAfter failure => exact inv_raised h (Or.inl rfl)
      | dies | diesAfter => exact inv_raised h (Or.inr rfl)
  | ok result =>
      obtain ⟨next, t⟩ := result
      cases input.fault with
      | none => exact inv_act h hfresh hcurrent hact (Or.inl rfl)
      | raises failure => exact inv_raised h (Or.inl rfl)
      | raisesAfter failure => exact inv_act h hfresh hcurrent hact (Or.inr (Or.inl rfl))
      | dies => exact inv_raised h (Or.inr rfl)
      | diesAfter => exact inv_act h hfresh hcurrent hact (Or.inr (Or.inr rfl))

theorem Run.inv (h : Run site (Current site) s) : Inv site s := by
  induction h with
  | start begins => exact begins.inv
  | step prior fresh admits ih => exact inv_step ih fresh admits

end Steps

/-! ### One acceptance -/

theorem length_authorities_le (site : Site) (events : List LedgerEvent) :
    (events.filter (isAuthority site.featureId site.implementationCommit)).length ≤
      (acceptances site events).length := by
  rw [acceptances]
  refine (List.monotone_filter_right _ fun event hevent => ?_).length_le
  simp only [isAuthority, Bool.and_eq_true, decide_eq_true_eq] at hevent
  obtain ⟨⟨⟨⟨hkind, hworkflow⟩, hfeature⟩, hcommit⟩, -⟩ := hevent
  exact decide_eq_true ⟨hkind, hworkflow, hfeature, hcommit⟩

instance (site : Site) (s : State) (caller : Nat) : Decidable (Current site s caller) :=
  match h : s.pcs caller with
  | .acquire _ _ =>
      decidable_of_iff (acceptances site s.shared.events = [])
        ⟨fun hnone _ _ _ => hnone, fun hcurrent => hcurrent _ _ h⟩
  | .idle | .supersede _ | .supersedeLease _ _ | .recordSuperseded _ _ _ | .recordRecovery _ _
  | .check _ | .begin _ | .holding _ _ _ _ | .returned | .raised | .died =>
      .isTrue fun _ _ hacquire => by rw [h] at hacquire; cases hacquire

/-- Calls that take the lease while their check still holds accept the candidate once, and leave
    one authority at most. -/
theorem single_acceptance {site : Site} {s : State} (h : Run site (Current site) s) :
    (acceptances site s.shared.events).length ≤ 1 ∧
      ∀ found, matchingEvents site.featureId site.implementationCommit
        (s.shared.events.map LedgerEvent.toFields) = .ok found → found.length ≤ 1 := by
  have honce := h.inv.once
  refine ⟨honce, fun found hfound => ?_⟩
  rw [matchingEvents_toFields, Except.ok.injEq] at hfound
  rw [← hfound, List.length_map]
  exact (length_authorities_le site s.shared.events).trans honce

/-! ### Two calls -/

def sampleCommit : String := "3f786850e387550fdab836ed7e6dc881de23001b"

def sampleBase : String := "89e6c98d92887913cadf06b2adb97f26cde4849b"

def sampleTree : String := "2b66fd261ee5c6cfc8de7fa466bab600bcfe4f69"

/-- The digest of the path of the worktree. -/
def samplePath : String := "816fc349d3faebf805d1bed70fce7e14754cad5251c77dda31c414ee961a0bdd"

def sampleSite : Site where
  platform := Platform.reference
  ledger := ⟨"project-1", "repository-1", samplePath⟩
  lease := ⟨id, "/repo"⟩
  project := ⟨"project-1", "/repo", some "milestone-1", some "milestone/1", "queue.yaml"⟩
  uuid5 text :=
    if text = s!"repository-1:F001:{sampleCommit}:run-1:feature-acceptance" then
      "cc487b3a-8dc7-5693-8a8e-6d1a3d24c8bf"
    else "cb0d07a8-6959-5652-b0d2-077948636cda"
  featureId := "F001"
  implementationCommit := sampleCommit

def sampleEvidence : Fields :=
  [("schema_version", .int 1), ("tier", .str "feature"), ("valid", .bool true),
   ("project_id", .str "project-1"), ("repository_identity", .str "repository-1"),
   ("repository_path_fingerprint", .str samplePath),
   ("implementation", .obj [("commit", .str sampleCommit), ("tree", .str sampleTree)]),
   ("changed_paths", .arr [.str "src/app.py"]),
   ("commands", .arr [.obj [("argv", .arr [.str "pytest"]), ("exit_status", .int 0),
     ("group", .str "feature_tests")]]),
   ("complete_suite_invocations", .int 0), ("release_validation_invocations", .int 0)]

/-- The first call and the second one, each in its own process. -/
def sampleArguments (caller : Nat) : Arguments where
  process := ⟨if caller = 0 then 101 else 102, "start", "host"⟩
  runId := if caller = 0 then "run-1" else "run-2"
  featureBranch := "feature/F001"
  milestoneBase := sampleBase
  implementationTree := sampleTree
  tierEvidence := sampleEvidence
  requiredTier := "feature"
  recoverIncompleteTransaction := none

def sampleDocument (path : String) : Json :=
  if path = "queue.yaml" then
    .obj [("features", .arr [.obj [("id", .str "F001"), ("milestone", .str "milestone-1"),
        ("status", .str "review")]]),
      ("milestones", .arr [.obj [("id", .str "milestone-1")]])]
  else .obj [("project", .obj [("id", .str "app")])]

def sampleRepository : CandidateRepository where
  platform := Platform.reference
  repositoryId := "repository-1"
  pathFingerprint := samplePath
  isClean := true
  gitOperation := false
  revParse name := if name = "milestone/1" then some sampleBase else some sampleCommit
  treeId _ := some sampleTree
  isAncestor _ _ := true
  mergesBetween _ _ := []
  commits _ := none
  shown _ path := some (some (sampleDocument path))
  shownDigest _ _ := ""
  liveAdapter := some (sampleDocument ".factory/project.yaml")
  diffNames _ _ := ["src/app.py"]
  tipNames _ := ["src/app.py"]
  adapterCommands _ := .ok (.arr [])
  queueSite := ⟨Platform.reference, fun _ => false, fun _ => true, fun _ _ => .ok ()⟩
  currentBranch := some "feature/F001"
  head := sampleCommit

def sampleSnapshot : RepositorySnapshot where
  repositoryIdentity := "repository-1"
  repositoryPathFingerprint := samplePath
  branch := "feature/F001"
  head := sampleCommit
  queueFingerprint := none
  trackedDiffFingerprint := ""
  untrackedFingerprint := ""
  trackedChangedPaths := []
  untrackedPaths := []
  gitOperations := []

def sampleId (number : Nat) : String := String.ofList ('u' :: List.replicate number 'a')

theorem sampleId_inj {first second : Nat} (h : sampleId first = sampleId second) :
    first = second := by
  have hchars := congrArg (fun text => text.toList.length) h
  simpa [sampleId] using hchars

/-- What the access of that number finds, when nothing fails. -/
def sampleInput (caller number : Nat) : Input where
  begin := some (sampleArguments caller)
  repository := sampleRepository
  snapshot := sampleSnapshot
  drawn :=
    { uuid4 := sampleId number
      uuid4_ne := fun h => by simpa [sampleId] using congrArg String.toList h
      utcNow := "2026-01-01T00:00:00Z"
      utcNow_ne := by decide
      stamp := number }
  fault := .none

def sampleStart : State := ⟨⟨[], none⟩, fun _ => .idle, []⟩

theorem start_sampleStart : Start sampleSite sampleStart := ⟨fun _ => rfl, Nat.zero_le 1⟩

def sampleStep (s : State) (caller : Nat) : State :=
  step sampleSite s caller (sampleInput caller s.issued.length)

/-- Every access of the schedule is allowed. -/
def follows (allowed : State → Nat → Prop) [∀ s caller, Decidable (allowed s caller)]
    (s : State) : List Nat → Bool
  | [] => true
  | caller :: rest => decide (allowed s caller) && follows allowed (sampleStep s caller) rest

theorem follows_of_forall {allowed : State → Nat → Prop} [∀ s caller, Decidable (allowed s caller)]
    (h : ∀ s caller, allowed s caller) (schedule : List Nat) (s : State) :
    follows allowed s schedule = true := by
  induction schedule generalizing s with
  | nil => rfl
  | cons caller rest ih => rw [follows, decide_eq_true (h s caller), ih, Bool.and_self]

theorem issued_step (site : Site) (s : State) (caller : Nat) (input : Input) :
    (step site s caller input).issued = input.drawn.uuid4 :: s.issued := by
  unfold step
  dsimp only
  split <;> rfl

theorem run_follows {allowed : State → Nat → Prop} [∀ s caller, Decidable (allowed s caller)]
    {schedule : List Nat} {s : State} (hrun : Run sampleSite allowed s)
    (hissued : ∀ id ∈ s.issued, ∃ number < s.issued.length, id = sampleId number)
    (h : follows allowed s schedule = true) :
    Run sampleSite allowed (schedule.foldl sampleStep s) := by
  induction schedule generalizing s with
  | nil => exact hrun
  | cons caller rest ih =>
      rw [follows, Bool.and_eq_true, decide_eq_true_eq] at h
      refine ih (hrun.step ?_ h.1) ?_ h.2
      · intro hmem
        obtain ⟨number, hlt, hid⟩ := hissued _ hmem
        have heq : s.issued.length = number := sampleId_inj hid
        omega
      · rw [sampleStep, issued_step]
        intro id hid
        rw [List.length_cons]
        rcases List.mem_cons.mp hid with rfl | hid
        · exact ⟨s.issued.length, by omega, rfl⟩
        · obtain ⟨number, hlt, heq⟩ := hissued id hid
          exact ⟨number, by omega, heq⟩

theorem run_schedule {allowed : State → Nat → Prop} [∀ s caller, Decidable (allowed s caller)]
    {schedule : List Nat} (h : follows allowed sampleStart schedule = true) :
    Run sampleSite allowed (schedule.foldl sampleStep sampleStart) :=
  run_follows (.start start_sampleStart) (fun id hid => by cases hid) h

/-- One call, up to its terminal event. -/
def oneCall : List Nat := List.replicate 19 0

theorem oneCall_accepts_once :
    (acceptances sampleSite (oneCall.foldl sampleStep sampleStart).shared.events).length ≤ 1 :=
  (single_acceptance (run_schedule (by decide +kernel))).1

/-- Both calls look for an earlier acceptance before either begins. -/
def twoCalls : List Nat := [0, 0, 1, 1] ++ List.replicate 20 0 ++ List.replicate 17 1

theorem twoCalls_accept_twice :
    Run sampleSite (fun _ _ => True) (twoCalls.foldl sampleStep sampleStart) ∧
      (acceptances sampleSite (twoCalls.foldl sampleStep sampleStart).shared.events).length = 2 :=
  ⟨run_schedule (follows_of_forall (fun _ _ => trivial) _ _), by decide +kernel⟩

end Conveyor.AcceptanceInterleaving
