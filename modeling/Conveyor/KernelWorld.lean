import Conveyor.Library.Call
import Conveyor.LedgerRun
import Conveyor.Projection
import Conveyor.Transaction
import Conveyor.WorkflowLease

/-!
# The kernel's world

What a workflow kernel reads and changes: its own fields, the ledger, the lease file, the
projection cache and the repository. Every call that leaves the process is one attempt,
and each attempt advances the clock. The environment says what an attempt finds at its
time: the worktree, which other processes write to whenever they like, the identifiers it
draws, and whether it is carried out at all.

The ledger is the list of its events. `append_refines` connects this view to the files of
`Ledger`.
-/

namespace Conveyor

open Library EventType

/-! ### The state -/

structure Project where
  projectId : String
  repository : String
  queueLocation : String

/-- What makes a path unfit to be read or committed. -/
inductive PathProblem where
  | escapes | symbolicLink | notRegular | hardLinked
deriving DecidableEq, Repr

namespace PathProblem

/-- `_validate_mutation_paths`. -/
def mutationError (path : String) : PathProblem → Failure
  | escapes => transactionError s!"mutation path escapes repository: {path}"
  | symbolicLink => transactionError s!"mutation path is a symbolic link: {path}"
  | notRegular => transactionError s!"mutation path is not a regular file: {path}"
  | hardLinked => transactionError s!"mutation path has an unsafe hard-link count: {path}"

/-- `safe_worktree_file_bytes`. -/
def readError (path : String) : PathProblem → Failure
  | escapes => repositoryError s!"worktree path escapes the registered repository: {path}"
  | symbolicLink => repositoryError s!"cannot securely open worktree path: {path}"
  | notRegular => repositoryError s!"worktree path is not a regular file: {path}"
  | hardLinked => repositoryError s!"worktree path has an unsafe hard-link count: {path}"

end PathProblem

/-- The process a kernel runs in and what happens around it. The functions of a number
    tell what the attempt at that time meets. `worktree` is what it finds in the worktree:
    while it reads, others may write, so it need not be the content of any one moment. -/
structure Environment where
  platform : Platform
  project : Project
  identity : LedgerIdentity
  site : LeaseSite
  process : ProcessIdentity
  git : Git
  worktree : Nat → Tree
  ignored : Nat → String → Bool
  pathProblem : Nat → String → Option PathProblem
  gitOperations : Nat → Dict Bool
  /-- Whether the queue file found at that time records the feature as integrated. -/
  queueIntegrated : Nat → String → Result Bool
  drawn : Nat → Drawn
  cached : Nat → Bool
  fault : Nat → Call.Fault Failure

/-- The fields of a `WorkflowKernel` object. -/
structure Kernel where
  transaction : Option PhaseTransaction := none
  envelope : Option SessionResultEnvelope := none
  commandRecords : List Json := []
  finalCommit : Option String := none
  validatedDiffFingerprint : Option String := none
  preparedIntegrationPaths : Option (List String) := none
  preparedIntegrationAcceptedCommit : Option String := none
  controllerNormalization : Option Fields := none
  preacquiredLeaseRecord : Option WorkflowLeaseRecord := none

structure World where
  clock : Nat
  repository : Repository
  events : List LedgerEvent
  lease : Option WorkflowLeaseRecord
  cache : Option CacheFile
  kernel : Kernel

namespace World

def tick (w : World) : World := { w with clock := w.clock + 1 }

def push (w : World) (event : LedgerEvent) : World := { w with events := w.events ++ [event] }

@[simp] theorem tick_clock (w : World) : w.tick.clock = w.clock + 1 := rfl
@[simp] theorem tick_repository (w : World) : w.tick.repository = w.repository := rfl
@[simp] theorem tick_events (w : World) : w.tick.events = w.events := rfl
@[simp] theorem tick_lease (w : World) : w.tick.lease = w.lease := rfl
@[simp] theorem tick_cache (w : World) : w.tick.cache = w.cache := rfl
@[simp] theorem tick_kernel (w : World) : w.tick.kernel = w.kernel := rfl
@[simp] theorem push_clock (w : World) (event : LedgerEvent) :
    (w.push event).clock = w.clock := rfl
@[simp] theorem push_repository (w : World) (event : LedgerEvent) :
    (w.push event).repository = w.repository := rfl
@[simp] theorem push_events (w : World) (event : LedgerEvent) :
    (w.push event).events = w.events ++ [event] := rfl
@[simp] theorem push_lease (w : World) (event : LedgerEvent) :
    (w.push event).lease = w.lease := rfl
@[simp] theorem push_kernel (w : World) (event : LedgerEvent) :
    (w.push event).kernel = w.kernel := rfl

end World

/-! ### Calls -/

abbrev KernelCall (α : Type) := Call Environment World Failure α

namespace KernelCall

variable {α : Type}

/-- One attempt to change something outside the process. -/
def act (f : Environment → World → Result (α × World)) : KernelCall α :=
  Call.attempt (fun e w => e.fault w.clock) World.tick f

/-- One attempt to read something outside the process. -/
def look (f : Environment → World → Result α) : KernelCall α :=
  act fun e w => (f e w).map fun value => (value, w)

/-- A computation inside the process. -/
def lift (result : Result α) : KernelCall α := Call.reads fun _ _ => result

/-- The kernel's own fields. -/
def memory : KernelCall Kernel := Call.reads fun _ w => .ok w.kernel

def remember (change : Kernel → Kernel) : KernelCall Unit :=
  Call.update fun _ w => .ok ((), { w with kernel := change w.kernel })

/-- The interruption hook. -/
def interrupt (_boundary : String) : KernelCall Unit := look fun _ _ => .ok ()

variable {e : Environment} {w t : World} {value : α}

theorem returns_act {f : Environment → World → Result (α × World)} :
    (act f).Returns e w value t ↔
      e.fault w.clock = .none ∧ ∃ u, f e w = .ok (value, u) ∧ t = u.tick :=
  Call.returns_attempt

theorem returns_look {f : Environment → World → Result α} :
    (look f).Returns e w value t ↔
      e.fault w.clock = .none ∧ f e w = .ok value ∧ t = w.tick := by
  rw [look, returns_act]
  cases f e w with
  | error failure => simp [Except.map]
  | ok found => simp [Except.map, eq_comm, and_assoc]

theorem returns_lift {result : Result α} :
    (lift result).Returns e w value t ↔ result = .ok value ∧ t = w :=
  Call.returns_reads

theorem returns_memory {kernel : Kernel} :
    memory.Returns e w kernel t ↔ kernel = w.kernel ∧ t = w := by
  rw [memory, Call.returns_reads, Except.ok.injEq, eq_comm]

theorem returns_remember {change : Kernel → Kernel} {u : Unit} :
    (remember change).Returns e w u t ↔ t = { w with kernel := change w.kernel } := by
  rw [remember, Call.returns_update, Except.ok.injEq, Prod.mk.injEq, eq_comm (a := ())]
  simp [eq_comm]

theorem returns_interrupt {boundary : String} {u : Unit} :
    (interrupt boundary).Returns e w u t ↔ e.fault w.clock = .none ∧ t = w.tick := by
  simp [interrupt, returns_look]

end KernelCall

open KernelCall

/-! ### The ledger -/

/-- What `_validate` reports of the ledger it accepts. -/
def integrityOf (events : List LedgerEvent) : LedgerIntegrity where
  sequence := events.length
  fingerprint := tailFingerprint events
  eventCount := events.length
  transactions := (events.filter fun event => event.eventType = transactionStarted).length

/-- `ledger.read()`. -/
def readLedger : KernelCall (List LedgerEvent) := look fun e w => do
  let (_, events) ← validate e.platform e.identity (w.events.map LedgerEvent.toObject)
  return events

/-- The full check an append makes unless its cache is of the present file. -/
def checkUncached (e : Environment) (w : World) : Result Unit :=
  if e.cached w.clock then .ok ()
  else do
    let _ ← validate e.platform e.identity (w.events.map LedgerEvent.toObject)
    return ()

/-- The event an append at this time builds. -/
def builtEvent (e : Environment) (w : World) (request : AppendRequest) : LedgerEvent :=
  newEvent e.platform e.identity (integrityOf w.events) request (e.drawn w.clock)

section Built

variable (e : Environment) (w : World) (request : AppendRequest)

@[simp] theorem builtEvent_eventType : (builtEvent e w request).eventType = request.eventType := rfl
@[simp] theorem builtEvent_transactionId :
    (builtEvent e w request).transactionId = request.transactionId := rfl
@[simp] theorem builtEvent_workflowType :
    (builtEvent e w request).workflowType = request.workflowType := rfl
@[simp] theorem builtEvent_payload :
    (builtEvent e w request).payload = redactFields e.platform request.payload := rfl

end Built

/-- `ledger.append(...)`. -/
def appendLedger (request : AppendRequest) : KernelCall Unit := act fun e w => do
  checkUncached e w
  let event := builtEvent e w request
  validateAppend w.events event
  return ((), w.push event)

section Files

variable {P : Platform} {L : LedgerIdentity} {events : List LedgerEvent} {event : LedgerEvent}
  {storage after : Storage} {caches : Nat → Option AppendCache} {handle : Nat}
  {cache : AppendCache} {request : AppendRequest} {drawn : Drawn}

/-- An append on the files of a ledger is an append on its events, and leaves the files of
    the longer ledger. -/
theorem append_refines (hcoherent : Coherent P events storage caches)
    (h : append P L (caches handle) storage request drawn = .ok (event, after, cache)) :
    event = newEvent P L (integrityOf events) request drawn ∧
      validateAppend events event = .ok () ∧
      after.records = (events ++ [event]).map LedgerEvent.toObject ∧
      after.head = anchorOf P (events ++ [event]) := by
  obtain ⟨-, -, hrecords, hhead, -⟩ := append_eq_ok hcoherent h
  simp only [append, prepareAppend, bind_eq_ok, Prod.exists, pure, Except.pure, Except.ok.injEq,
    Prod.mk.injEq] at h
  obtain ⟨existing, integrity, read, built,
    ⟨existing', integrity', read', hread, ⟨⟩, hadmitted, rfl, rfl, rfl, rfl⟩, rfl, rfl, rfl⟩ := h
  obtain ⟨rfl, hsequence, hfingerprint, -⟩ := readForAppend_coherent hcoherent hread
  refine ⟨?_, hadmitted, hrecords, hhead⟩
  simp only [newEvent, integrityOf, hsequence, hfingerprint]

end Files

/-! ### The lease file -/

/-- `lease.acquire(...)`. -/
def acquireLeaseFile (request : AcquireRequest) : KernelCall WorkflowLeaseRecord :=
  act fun e w => do
    require (w.lease = none) (lockError "repository writer lease already exists")
    let record ← acquireRecord e.platform e.site e.process request (e.drawn w.clock).uuid4
      (e.drawn w.clock).utcNow
    return (record, { w with lease := some record })

def readLease : KernelCall (Option WorkflowLeaseRecord) := look fun _ w => .ok w.lease

/-- `lease.revalidate(...)` on what was read. -/
def revalidated (e : Environment) (expectation : LeaseExpectation)
    (lease : Option WorkflowLeaseRecord) : Result WorkflowLeaseRecord := do
  match lease with
  | none => .error (lockError "writer lease is absent")
  | some record =>
      revalidate e.site.resolve e.process expectation record
      return record

/-- `lease.bind_session(...)`. -/
def bindSession (expectation : LeaseExpectation) (sessionId : String) : KernelCall Unit :=
  act fun e w => do
    let record ← revalidated e expectation w.lease
    return ((), { w with lease := some { record with
      sessionId := some sessionId, lastHeartbeat := (e.drawn w.clock).utcNow } })

/-- `lease.release(...)`. -/
def releaseLease (expectation : LeaseExpectation) : KernelCall Unit :=
  act fun e w => do
    match w.lease with
    | none => .error (lockError "writer lease is absent")
    | some record =>
        releaseCheck e.site expectation record
        revalidate e.site.resolve e.process expectation record
        return ((), { w with lease := none })

/-! ### The repository inspector -/

namespace Inspector

def currentBranch : KernelCall (Option String) := look fun _ w => .ok w.repository.branch

def head : KernelCall String := look fun _ w => .ok w.repository.head

def revParse (value : String) : KernelCall (Option String) :=
  look fun _ w => .ok (w.repository.revParse value)

/-- `rev_parse(f"{commit}^", check=False)`. -/
def parentOf (commit : String) : KernelCall (Option String) :=
  look fun _ w => .ok (w.repository.parentOf commit)

def refExists (branch : String) : KernelCall Bool :=
  look fun _ w => .ok (w.repository.branches.get? branch).isSome

def isAncestor (ancestor descendant : String) : KernelCall Bool :=
  look fun _ w => .ok (w.repository.isAncestor ancestor descendant)

def changedPaths (commit : String) : KernelCall (List String) :=
  look fun _ w => .ok (w.repository.changedPaths commit)

def patchFingerprint (commit : String) : KernelCall String :=
  look fun e w => w.repository.patchFingerprint e.platform e.git commit

def commitSubject (commit : String) : KernelCall String :=
  look fun _ w => .ok (w.repository.commitSubject commit)

def gitOperationState : KernelCall (Dict Bool) := look fun e w => .ok (e.gitOperations w.clock)

def isClean : KernelCall Bool :=
  look fun e w => .ok (w.repository.isClean (e.ignored w.clock) (e.worktree w.clock))

def trackedChangedPaths : KernelCall (List String) :=
  look fun e w => .ok (w.repository.trackedChangedPaths (e.worktree w.clock))

def stagedChangedPaths : KernelCall (List String) :=
  look fun _ w => .ok w.repository.stagedChangedPaths

/-- The contents found at the given paths at a time, in path order. -/
def contentsAt (e : Environment) (time : Nat) (paths : List String) : List Entry :=
  (sortedSet paths).map fun path => (path, (e.worktree time).get? path)

/-- The first unfit path among the given ones. -/
def firstProblem (e : Environment) (time : Nat) (paths : List String) :
    Option (String × PathProblem) :=
  paths.findSome? fun path => (e.pathProblem time path).map fun problem => (path, problem)

/-- `safe_worktree_file_bytes` for each path. -/
def readContents (e : Environment) (time : Nat) (paths : List String) : Result (List Entry) :=
  match firstProblem e time (sortedSet paths) with
  | some (path, problem) => .error (problem.readError path)
  | none => .ok (contentsAt e time paths)

/-- `untracked_file_hashes`. -/
def untrackedFileHashes : KernelCall (Dict String) := look fun e w => do
  let listed := (w.repository.untrackedPaths (e.ignored w.clock) (e.worktree w.clock)).filter
    fun path => !Repository.isRuntimePath path
  let entries ← readContents e w.clock listed
  return entries.map fun entry => (entry.1, e.platform.hexdigest (entry.2.getD []))

/-- `planning_diff_fingerprint`. -/
def planningDiffFingerprint : KernelCall String := look fun e w =>
  .ok (e.platform.hexdigest (e.git.diff w.repository.headTree
    (w.repository.trackedWorktree (e.worktree w.clock))))

/-- `content_diff_fingerprint` of the worktree. -/
def contentDiffFingerprint (paths : List String) : KernelCall String := look fun e w => do
  let entries ← readContents e w.clock paths
  return contentFingerprint e.platform entries

/-- The digest of the queue file, if there is one. -/
def queueFingerprint : KernelCall (Option String) := look fun e w =>
  .ok (((e.worktree w.clock).get? e.project.queueLocation).map e.platform.hexdigest)

/-- The digest of the queue file of a commit: `git show commit:queue`. -/
def committedQueueFingerprint (commit : String) : KernelCall (Option String) := look fun e w =>
  .ok (((w.repository.treeOf commit).get? e.project.queueLocation).map e.platform.hexdigest)

/-- `git add -- paths`. -/
def gitAdd (paths : List String) : KernelCall Unit := act fun e w =>
  .ok ((), { w with repository := w.repository.add (contentsAt e w.clock paths) })

/-- `git commit -m subject -- paths`. -/
def gitCommit (subject : String) (paths : List String) : KernelCall Unit := act fun e w => do
  let (_, repository) ← w.repository.commit e.git subject (contentsAt e w.clock paths)
  return ((), { w with repository := repository })

/-- `git rev-list commit`. -/
def revList (commit : String) : KernelCall (List String) :=
  look fun _ w => .ok (w.repository.history commit)

/-- `git cherry-pick --no-commit commit`. -/
def gitCherryPick (commit : String) : KernelCall Unit := act fun e w => do
  let repository ← w.repository.cherryPick e.git commit
  return ((), { w with repository := repository })

/-- `git switch branch`. -/
def gitSwitch (branch : String) : KernelCall Unit := act fun _ w => do
  let repository ← w.repository.switch branch
  return ((), { w with repository := repository })

/-- `git switch -c branch start`. -/
def gitSwitchCreate (branch start : String) : KernelCall Unit := act fun _ w => do
  let repository ← w.repository.switchCreate branch start
  return ((), { w with repository := repository })

end Inspector

/-- `capture_repository_snapshot(project)`. -/
def captureRepositorySnapshot : KernelCall RepositorySnapshot := do
  let identity ← look fun _ w => .ok w.repository.identity
  let pathFingerprint ← look fun _ w => .ok w.repository.pathFingerprint
  let queue ← Inspector.queueFingerprint
  let tracked ← Inspector.trackedChangedPaths
  let untracked ← Inspector.untrackedFileHashes
  let branch ← Inspector.currentBranch
  let head ← Inspector.head
  let diff ← Inspector.planningDiffFingerprint
  let untrackedFingerprint ← look fun e _ =>
    .ok (e.platform.fingerprint (.obj (Fields.ofPairs (untracked.map fun item =>
      (item.1, .str item.2)))))
  let operations ← Inspector.gitOperationState
  return {
    repositoryIdentity := identity
    repositoryPathFingerprint := pathFingerprint
    branch := branch.getD "DETACHED"
    head := head
    queueFingerprint := queue
    trackedDiffFingerprint := diff
    untrackedFingerprint := untrackedFingerprint
    trackedChangedPaths := tracked
    untrackedPaths := sortedSet (Dict.keys untracked)
    gitOperations := operations }

/-! ### The projection -/

/-- `projection.rebuild(persist_cache=...)`. -/
def rebuildProjection (persistCache : Bool) : KernelCall Fields := act fun e w => do
  let (integrity, events) ← validate e.platform e.identity (w.events.map LedgerEvent.toObject)
  let value ← project e.platform e.identity integrity.sequence integrity.fingerprint events none
  let projection := signProjection e.platform value
  let document := CacheFile.document (atomicWriteJson e.platform (.obj projection))
  return (projection, { w with cache :=
    if persistCache then w.cache.map (fun _ => document) else w.cache })

end Conveyor
