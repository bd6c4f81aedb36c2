import Conveyor.MutationReaders

/-!
# The recovery planner

`RecoveryPlanner` (`workflow_recovery.py`): `inspect` says from the ledger, the lease file, the
cache and the repository what an interrupted transaction left behind, and `apply` carries out what
it planned in a recovery transaction of its own. The process list and the archive of stale leases
are a `RecoverySite`; each finding is a call of its own, in the order of the source.
-/

namespace Conveyor

open Library EventType KernelCall WorkflowKernel MutationReaders

namespace RecoveryPlanner

def recoveryError (message : String) : Failure := ⟨.recoveryError, message⟩

/-! ### Plans -/

inductive Classification where
  | corruptEvidence | orphanedPrestartLease | noTransaction | humanDecisionRequired
  | terminalBeforeLeaseRelease | projectionUpdateIncomplete | projectionCacheRequiresDecision
  | nothingToRecover | finalizationIncomplete | commitSucceededBeforeEvidence | resume
deriving DecidableEq, Repr

def Classification.value : Classification → String
  | corruptEvidence => "CORRUPT_EVIDENCE"
  | orphanedPrestartLease => "orphaned_prestart_lease"
  | noTransaction => "no_transaction"
  | humanDecisionRequired => "HUMAN_DECISION_REQUIRED"
  | terminalBeforeLeaseRelease => "terminal_before_lease_release"
  | projectionUpdateIncomplete => "projection_update_incomplete"
  | projectionCacheRequiresDecision => "projection_cache_requires_decision"
  | nothingToRecover => "nothing_to_recover"
  | finalizationIncomplete => "finalization_incomplete"
  | commitSucceededBeforeEvidence => "commit_succeeded_before_evidence"
  | resume => "resume"

/-- The repository as a plan saw it. -/
structure Observed where
  branch : Option String
  head : String
  clean : Bool
deriving DecidableEq

/-- What `inspect` returns. -/
structure Plan where
  classification : Classification
  recoverable : Bool := false
  diagnostic : Option String := none
  transactionId : Option String := none
  workflowType : Option WorkflowType := none
  incompleteTransactionIds : List String := []
  leaseTransactionId : Option String := none
  commit : Json := .null
  acceptedCommit : Json := .null
  changedPaths : List String := []
  diffFingerprint : Json := .null
  featureBranchCreated : Option String := none
  observed : Option Observed := none
  startingBranch : Json := .null
  startingHead : Json := .null
  sessionResultRecorded : Bool := false
  provisionalTargetBranchPending : Bool := false

/-- What is at the name under which a lease would be archived. -/
inductive Archive where
  | unfit (failure : Failure)
  | absent
  | holds (prior : Json)

/-- What a planner finds besides the kernel's world. -/
structure RecoverySite where
  /-- `process_alive`, for a process of this host. -/
  alive : Nat → Nat → Bool
  /-- The directory of the archived leases, and what it holds for a transaction. -/
  archiveRoot : String
  archive : Nat → String → Archive
  activeMilestone : Option String

/-! ### The ledger -/

/-- The transactions of a ledger. At most one of them is looked at further, so that their order is
    of no account. -/
def transactionIds (events : List LedgerEvent) : List String :=
  (events.map fun event => event.transactionId).dedup

def terminated (events : List LedgerEvent) (transactionId : String) : Bool :=
  hasEvent (transactionEvents events transactionId) TERMINAL_EVENT_TYPES

def incompleteIds (events : List LedgerEvent) : List String :=
  (transactionIds events).filter fun transactionId => !terminated events transactionId

/-- An incomplete recovery of another incomplete transaction. -/
def isCandidate (events : List LedgerEvent) (incomplete : List String) (transactionId : String) :
    Result Bool :=
  match transactionEvents events transactionId with
  | [] => .ok false
  | first :: _ =>
      if first.workflowType = .recovery then do
        let recovered := first.payload.get "recovered_transaction_id"
        let _ ← hashKey recovered
        return decide (∃ other ∈ incomplete, other ≠ transactionId ∧ recovered = .str other)
      else .ok false

def candidatesAmong (events : List LedgerEvent) (incomplete : List String) :
    List String → Result (List String)
  | [] => .ok []
  | transactionId :: rest => do
      let candidate ← isCandidate events incomplete transactionId
      let others ← candidatesAmong events incomplete rest
      return if candidate then transactionId :: others else others

/-- The incomplete transaction to recover, if any; `none` where there are several. -/
def admitted (events : List LedgerEvent) : Result (Option (List String)) :=
  let incomplete := incompleteIds events
  if incomplete.length ≤ 1 then .ok (some incomplete)
  else do
    let candidates ← candidatesAmong events incomplete incomplete
    return if incomplete.length = 2 ∧ candidates.length = 1 then some candidates else none

/-- `ledger.read()` and `ledger.verify()`, with the text of the evidence error. -/
def readEvidence : KernelCall (Except String (List LedgerEvent)) :=
  Call.handle (do
      let events ← readLedger
      let _ ← readLedger
      return .ok events)
    fun failure =>
      if failure.kind = .corruptEvidenceError then return .error failure.message
      else Call.raise failure

/-! ### The lease and the cache -/

section Site

variable (site : RecoverySite)

/-- `lease.stale_evidence()`: its owner ran on this host, and runs no longer. -/
def leaseStale : KernelCall Bool := look fun e w =>
  .ok (match w.lease with
    | some record =>
        decide (record.ownerHost = e.process.host) && !site.alive w.clock record.ownerPid
    | none => false)

/-- The plan for a lease that no incomplete transaction holds. -/
def leaseLeft (classification : Classification) (record : WorkflowLeaseRecord) :
    KernelCall Plan := do
  let stale ← leaseStale site
  return { classification := classification, recoverable := stale
           transactionId := some record.transactionId, workflowType := some record.workflowType }

/-- An empty ledger. -/
def inspectUnstarted : KernelCall Plan := do
  let orphan ← readLease
  match orphan with
  | some record => leaseLeft site .orphanedPrestartLease record
  | none => return { classification := .noTransaction }

/-- A lease whose transaction has its terminal event. -/
def inspectActiveLease (events : List LedgerEvent) (incomplete : List String) :
    KernelCall (Option Plan) := do
  let active ← readLease
  match active with
  | some record =>
      if record.transactionId ∉ incomplete ∧ terminated events record.transactionId = true then do
        let plan ← leaseLeft site .terminalBeforeLeaseRelease record
        return some plan
      else return none
  | none => return none

/-- `projection.load_cache()`. -/
def loadProjection : KernelCall (Option Fields) := look fun e w => do
  let storage : Storage :=
    { records := w.events.map LedgerEvent.toObject, head := anchorOf e.platform w.events
      stamp := w.clock }
  let (cache, _) ← loadCache e.platform e.identity ⟨storage, w.cache⟩
  return cache

/-- The cache against a rebuild. -/
def compareCache (cache : Option Fields) : KernelCall Plan := do
  let current ← rebuildProjection false
  match cache with
  | some value =>
      if asInt? (value.get "ledger_sequence") = asInt? (current.get "ledger_sequence") then
        return { classification := .nothingToRecover }
      else return { classification := .projectionUpdateIncomplete, recoverable := true }
  | none => return { classification := .projectionUpdateIncomplete, recoverable := true }

def unfitCache (failure : Failure) : KernelCall (Except Plan (Option Fields)) :=
  if failure.kind = .staleProjectionCache then
    return .error { classification := .projectionUpdateIncomplete, recoverable := true }
  else return .error { classification := .projectionCacheRequiresDecision
                       diagnostic := some failure.message }

def inspectCache : KernelCall Plan := do
  let loaded ← Call.handle (do
      let cache ← loadProjection
      return .ok cache) unfitCache
  match loaded with
  | .error plan => return plan
  | .ok cache => compareCache cache

/-- A ledger without an incomplete transaction. -/
def inspectSettled (events : List LedgerEvent) : KernelCall Plan := do
  let lease ← readLease
  match lease with
  | some record =>
      if terminated events record.transactionId then
        leaseLeft site .terminalBeforeLeaseRelease record
      else do
        let plan ← leaseLeft site .orphanedPrestartLease record
        let _ ← leaseStale site
        return plan
  | none => inspectCache

end Site

/-! ### The interrupted transaction -/

/-- An incomplete transaction with its events. -/
structure Interrupted where
  transactionId : String
  start : LedgerEvent
  events : List LedgerEvent

namespace Interrupted

variable (transaction : Interrupted)

def payload : Fields := transaction.start.payload

def startingBranch : Json := transaction.payload.get "starting_branch"

def startingHead : Json := transaction.payload.get "starting_head"

def accepted : Option Fields := firstPayload transaction.events sessionResultAccepted

def envelope : Fields := fieldsOf ((transaction.accepted.getD []).get "envelope")

def integrationEvidence : Fields := fieldsOf (Fields.get transaction.envelope "evidence")

def integrationTarget : Fields :=
  (firstCheckpoint transaction.events "integration_target").getD []

def integrationBranch : Json :=
  firstTruthy [Fields.get transaction.integrationEvidence "milestone_branch",
    transaction.startingBranch]

def integrates : Bool := decide (transaction.start.workflowType = .milestoneIntegration)

def branchMatches (branch : Option String) : Bool :=
  decide (Json.ofOption branch = transaction.startingBranch)

def integrationBranchMatches (branch : Option String) : Bool :=
  transaction.integrates && decide (Json.ofOption branch = transaction.integrationBranch)

def validationPassed : Bool := hasEvent transaction.events [EventType.validationPassed]

def resultAccepted : Bool := hasEvent transaction.events [sessionResultAccepted]

end Interrupted

/-- `policy_authorizes`. -/
def authorizes (policy : MutationPolicy) (paths : List String) : Bool :=
  match policy.validate paths with
  | .ok observed => decide (observed = paths.insertionSort (· ≤ ·))
  | .error _ => false

/-- `git diff-tree --no-commit-id --name-only -r commit`, which lists nothing for a first commit. -/
def diffTree (repository : Repository) (commit : String) : List String :=
  if (repository.parentOf commit).isSome then repository.changedPaths commit else []

/-- `git rev-list --count start..stop`. -/
def commitCount (repository : Repository) (start stop : String) : Result Nat :=
  match repository.revParse start, repository.revParse stop with
  | some start, some stop =>
      .ok ((repository.history stop).filter (· ∉ repository.history start)).length
  | _, _ => .error (repositoryError "fatal: bad revision")

/-- `first and second`. -/
def both (first : Bool) (second : KernelCall Bool) : KernelCall Bool :=
  if first then second else return false

/-- `content_diff_fingerprint(paths, commit=commit)`. -/
def commitDiffFingerprint (paths : List String) (commit : String) : KernelCall String :=
  look fun e w => .ok (w.repository.commitFingerprint e.platform commit paths)

def needsDecision (transactionId diagnostic : String) : Plan where
  classification := .humanDecisionRequired
  diagnostic := some diagnostic
  transactionId := some transactionId

/-- The final commit is recorded. -/
def inspectFinalized (transaction : Interrupted) (commitPayload : Fields)
    (branch : Option String) (head : String) : Plan :=
  let commit := commitPayload.get "commit"
  let finalizedBranch := firstTruthy
    [commitPayload.get "branch_created", commitPayload.get "milestone_branch"]
  let exact := decide (commit = .str head) &&
    (transaction.branchMatches branch || decide (Json.ofOption branch = finalizedBranch))
  { classification := if exact then .finalizationIncomplete else .humanDecisionRequired
    recoverable := exact
    transactionId := some transaction.transactionId
    workflowType := some transaction.start.workflowType
    commit := commit
    acceptedCommit := if transaction.integrates then
        firstTruthy [commitPayload.get "accepted_commit",
          Fields.get transaction.integrationTarget "accepted_commit",
          Fields.get transaction.integrationEvidence "accepted_commit"]
      else .null }

/-- The fingerprint the validation recorded. -/
def validatedDiff (transaction : Interrupted) : Json :=
  ((firstPayload transaction.events EventType.validationPassed).getD []).get "diff_fingerprint"

/-- A commit of the integration: the patch of the accepted commit on the milestone's start. -/
def exactIntegration (transaction : Interrupted) (policy : MutationPolicy)
    (startingHead head : String) (changed : List String) : KernelCall Bool :=
  match firstTruthy [Fields.get transaction.integrationTarget "accepted_commit",
      Fields.get transaction.integrationEvidence "accepted_commit"] with
  | .str accepted => do
      let parent ← Inspector.parentOf head
      let parent ← lift (parent.elim
        (.error (repositoryError "fatal: Needed a single revision")) .ok)
      both (decide (parent = startingHead)) do
        let patch ← Inspector.patchFingerprint head
        let acceptedPatch ← Inspector.patchFingerprint accepted
        both (decide (patch = acceptedPatch)) do
          let clean ← Inspector.isClean
          return clean && authorizes policy changed
  | _ => return false

/-- Any other commit: the one child of the start, with the diff that was validated. -/
def exactChild (transaction : Interrupted) (policy : MutationPolicy) (startingHead head : String)
    (changed : List String) (actual : Json) : KernelCall Bool := do
  let descends ← Inspector.isAncestor startingHead head
  both descends do
    let count ← look fun _ w => commitCount w.repository startingHead head
    both (decide (count = 1)) do
      let clean ← Inspector.isClean
      return clean && authorizes policy changed && decide (validatedDiff transaction = actual)

/-- `diff.returncode` is zero where Git knows the two commits. -/
def diffedContent (startingHead head : String) (changed : List String) : KernelCall Json := do
  let found ← Inspector.revParse startingHead
  match found with
  | some _ => do
      let fingerprint ← commitDiffFingerprint changed head
      return .str fingerprint
  | none => return .null

/-- The verdict on a commit beyond the start, with the diff the plan reports. -/
def judgeCommit (transaction : Interrupted) (policy : MutationPolicy) (startingHead : String)
    (branch : Option String) (head : String) (changed : List String) :
    KernelCall (Bool × Json) := do
  let actual ← diffedContent startingHead head changed
  if transaction.integrationBranchMatches branch then do
    let exact ← exactIntegration transaction policy startingHead head changed
    let patch ← Inspector.patchFingerprint head
    return (exact, .str patch)
  else do
    let exact ← exactChild transaction policy startingHead head changed actual
    return (exact, actual)

/-- A validated transaction whose repository is beyond its start. -/
def inspectCommitted (transaction : Interrupted) (policy : MutationPolicy) (startingHead : String)
    (branch : Option String) (head : String) : KernelCall Plan := do
  let changed ← look fun _ w => .ok (diffTree w.repository head)
  let (exact, diff) ← judgeCommit transaction policy startingHead branch head changed
  let clean ← Inspector.isClean
  return {
    classification := if exact then .commitSucceededBeforeEvidence else .humanDecisionRequired
    recoverable := exact
    transactionId := some transaction.transactionId
    workflowType := some transaction.start.workflowType
    commit := if exact then .str head else .null
    observed := some ⟨branch, head, clean⟩
    changedPaths := changed
    diffFingerprint := diff
    acceptedCommit := if transaction.integrates then
        Fields.get transaction.integrationTarget "accepted_commit"
      else .null }

/-- A feature branch that was created at the start, and nothing else. -/
def inspectFeatureBranch (transaction : Interrupted) (branch : Option String) (head : String) :
    KernelCall (Option Plan) :=
  match ((firstCheckpoint transaction.events "feature_branch_target").getD []).get "branch" with
  | .str target =>
      if transaction.start.workflowType = .featurePreparation ∧
          transaction.validationPassed = true ∧ branch = some target ∧
          Json.str head = transaction.startingHead then do
        let clean ← Inspector.isClean
        if clean then do
          let observedClean ← Inspector.isClean
          let fingerprint ← commitDiffFingerprint [] head
          return some {
            classification := .commitSucceededBeforeEvidence, recoverable := true
            transactionId := some transaction.transactionId
            workflowType := some transaction.start.workflowType
            commit := transaction.startingHead
            featureBranchCreated := some target
            observed := some ⟨branch, head, observedClean⟩
            diffFingerprint := .str fingerprint }
        else return none
      else return none
  | _ => return none

/-- The evidence of the changes that the session left in the worktree. -/
def changeEvidence (transaction : Interrupted) : Option Fields :=
  (firstPayload transaction.events changesDetected).or transaction.accepted

def recordedDiff (evidence : Fields) : Json :=
  firstTruthy [evidence.get "diff_fingerprint", evidence.get "observed_diff_fingerprint"]

/-- The worktree holds exactly the recorded changes. -/
def exactDirty (policy : MutationPolicy) (evidence : Fields) (changed untracked : List String) :
    KernelCall Bool :=
  both (authorizes policy changed && (policy.allowUntracked || untracked.isEmpty) &&
      decide (changed.map Json.str = WorkflowKernel.itemsOf (evidence.get "changed_paths"))) do
    let fingerprint ← Inspector.contentDiffFingerprint changed
    return decide (Json.str fingerprint = recordedDiff evidence)

def dirtyVerdict (transaction : Interrupted) (policy : MutationPolicy)
    (changed untracked : List String) : KernelCall Bool :=
  match changeEvidence transaction with
  | some evidence =>
      if changed = [] then return false else exactDirty policy evidence changed untracked
  | none => return false

/-- The repository is where the transaction started. -/
def inspectUnmoved (transaction : Interrupted) (policy : MutationPolicy) : KernelCall Plan := do
  let tracked ← Inspector.trackedChangedPaths
  let hashes ← Inspector.untrackedFileHashes
  let changed := sortedSet (tracked ++ Dict.keys hashes)
  let untracked ← Inspector.untrackedFileHashes
  let exact ← dirtyVerdict transaction policy changed (Dict.keys untracked)
  let resumes := changed.isEmpty || exact
  return {
    classification := if resumes then .resume else .humanDecisionRequired
    recoverable := resumes
    transactionId := some transaction.transactionId
    workflowType := some transaction.start.workflowType
    changedPaths := changed
    diffFingerprint := if exact then recordedDiff ((changeEvidence transaction).getD []) else .null
    startingBranch := transaction.startingBranch
    startingHead := transaction.startingHead
    sessionResultRecorded := transaction.resultAccepted }

/-- An integration that is still on the branch it was begun from. -/
def inspectProvisional (transaction : Interrupted) (branch : Option String) (head : String) :
    KernelCall Plan := do
  let clean ← both (!hasEvent transaction.events [snapshotCaptured] && transaction.integrates &&
      decide (Json.ofOption branch = transaction.payload.get "provisional_observed_branch") &&
      decide (Json.str head = transaction.payload.get "provisional_observed_head"))
    Inspector.isClean
  if clean then
    return {
      classification := .resume, recoverable := true
      transactionId := some transaction.transactionId
      workflowType := some transaction.start.workflowType
      sessionResultRecorded := transaction.resultAccepted
      provisionalTargetBranchPending := true }
  else
    return needsDecision transaction.transactionId
      "repository identity, branch, or HEAD contradicts incomplete transaction"

/-- The transaction has no recorded commit, and the repository shows no commit of it. -/
def inspectUncommitted (transaction : Interrupted) (policy : MutationPolicy)
    (branch : Option String) (head : String) : KernelCall Plan := do
  let created ← inspectFeatureBranch transaction branch head
  match created with
  | some plan => return plan
  | none =>
      if transaction.branchMatches branch = true ∧ Json.str head = transaction.startingHead then
        inspectUnmoved transaction policy
      else inspectProvisional transaction branch head

/-- The transaction has no recorded commit. -/
def inspectUnrecorded (transaction : Interrupted) (policy : MutationPolicy)
    (branch : Option String) (head : String) : KernelCall Plan :=
  match transaction.startingHead with
  | .str startingHead =>
      if transaction.validationPassed = true ∧ (transaction.branchMatches branch = true ∨
          transaction.integrationBranchMatches branch = true) ∧ head ≠ startingHead then
        inspectCommitted transaction policy startingHead branch head
      else inspectUncommitted transaction policy branch head
  | _ => inspectUncommitted transaction policy branch head

/-- `inspect`, from the start event of the incomplete transaction on. -/
def inspectStarted (transaction : Interrupted) : KernelCall Plan := do
  let policy ← lift (restoredPolicy (recordOf transaction.payload))
  let branch ← Inspector.currentBranch
  let operations ← Inspector.gitOperationState
  if operations.any fun item => item.2 then
    return needsDecision transaction.transactionId
      "active Git operation prevents deterministic recovery"
  else do
    let head ← Inspector.head
    match firstPayload transaction.events commitFinalized with
    | some commitPayload => return inspectFinalized transaction commitPayload branch head
    | none => inspectUnrecorded transaction policy branch head

/-- `inspect`, from the incomplete transaction on. -/
def inspectIncomplete (events : List LedgerEvent) (transactionId : String) : KernelCall Plan := do
  let physical ← readLease
  match physical.filter fun record => record.transactionId ≠ transactionId with
  | some record =>
      return { needsDecision transactionId
          "physical writer lease does not match the only incomplete transaction" with
        leaseTransactionId := some record.transactionId }
  | none =>
      let items := transactionEvents events transactionId
      match items.find? fun event => event.eventType = transactionStarted with
      | some start => inspectStarted ⟨transactionId, start, items⟩
      | none => return needsDecision transactionId "incomplete transaction has no start event"

/-- Several incomplete transactions. -/
def severalWriters (events : List LedgerEvent) : Plan where
  classification := .humanDecisionRequired
  diagnostic := some "multiple incomplete transactions violate single-writer admission"
  incompleteTransactionIds := (incompleteIds events).insertionSort (· ≤ ·)

section Site

variable (site : RecoverySite)

/-- `inspect`, on the transactions that may be looked at. -/
def inspectAdmitted (events : List LedgerEvent) (incomplete : List String) : KernelCall Plan := do
  let left ← inspectActiveLease site events incomplete
  match left, incomplete.getLast? with
  | some plan, _ => return plan
  | none, none => inspectSettled site events
  | none, some transactionId => inspectIncomplete events transactionId

/-- `inspect`, on a ledger that was read. -/
def inspectEvents (events : List LedgerEvent) : KernelCall Plan :=
  if events = [] then inspectUnstarted site
  else do
    let found ← lift (admitted events)
    match found with
    | none => return severalWriters events
    | some incomplete => inspectAdmitted site events incomplete

/-- `inspect`. -/
def inspect : KernelCall Plan := do
  let evidence ← readEvidence
  match evidence with
  | .error diagnostic =>
      return { classification := .corruptEvidence, diagnostic := some diagnostic }
  | .ok events => inspectEvents site events

end Site

end RecoveryPlanner

end Conveyor
