import Conveyor.Library.Cleanup
import Conveyor.FeatureDecisions
import Conveyor.FeatureQueue
import Conveyor.KernelWorld

/-!
# Launch reservations

The engine operations that reserve a project before they launch or recover anything
(`locks.py`, and the operations of `cycle_engine.py`, `feature_result_recovery.py` and
`retained_feature_repair.py` from their reservation on). Each acquires the reservation file,
makes its preparations, and releases the file in the `finally` of the block that follows. What
an operation does in that block is any call that leaves the file alone.
-/

namespace Conveyor

open Library

namespace LaunchReservation

/-! ### The reservation file -/

inductive LockFile where
  | absent
  | unreadable
  | notObject
  | record (fields : Fields)
deriving DecidableEq

/-- The reservation file, and everything else. -/
structure World (σ : Type) where
  reservation : LockFile
  rest : σ

abbrev EngineCall (ρ σ α : Type) := Call ρ (World σ) Failure α

variable {ρ σ α : Type}

/-- A call that does not name the reservation file. -/
def aside (call : Call ρ σ Failure α) : EngineCall ρ σ α :=
  Call.zoom World.rest (fun rest w => { w with rest := rest }) call

/-- `read_lock`. -/
def readLock (path : String) : LockFile → Result (Option Fields)
  | .absent => .ok none
  | .unreadable => .error (ambiguousLockError s!"lock is unreadable: {path}")
  | .notObject => .error (ambiguousLockError s!"lock is not an object: {path}")
  | .record fields => .ok (some fields)

/-- `DurableLock`: its path, and what the steps of `acquire` around the exclusive creation do. -/
structure DurableLock (ρ σ : Type) where
  path : String
  makeDirectory : Call ρ σ Failure Unit
  write : Call ρ σ Failure Unit

namespace DurableLock

variable (lock : DurableLock ρ σ)

/-- `os.open(..., O_CREAT | O_EXCL)`: the new file is empty. -/
def create : EngineCall ρ σ Unit := Call.update fun _ w =>
  match w.reservation with
  | .absent => .ok ((), { w with reservation := .unreadable })
  | _ => .error (lockError s!"launch reservation already exists: {lock.path}")

def fill (record : Fields) : EngineCall ρ σ Unit := Call.update fun _ w =>
  .ok ((), { w with reservation := .record record })

/-- `acquire`. -/
def acquire (record : Fields) : EngineCall ρ σ Unit := do
  aside lock.makeDirectory
  lock.create
  aside lock.write
  fill record

/-- `release`. -/
def release (runId : String) : EngineCall ρ σ Unit := Call.update fun _ w => do
  match ← readLock lock.path w.reservation with
  | none => return ((), w)
  | some record =>
      require (record.get "run_id" = .str runId)
        (lockError "refusing to release another run's launch reservation")
      return ((), { w with reservation := .absent })

/-- What `status` reads: the record, if there is one. -/
def status : EngineCall ρ σ (Option Fields) := Call.reads fun _ w =>
  readLock lock.path w.reservation

end DurableLock

structure LockRequest where
  projectId : String
  repositoryIdentity : String
  runId : String
  currentFeature : Option String
  currentPhase : String

/-- `make_lock_record`. -/
def makeLockRecord (process : ProcessIdentity) (stamp : String) (request : LockRequest) : Fields :=
  Fields.ofPairs
    [("project_id", .str request.projectId),
     ("repository_identity", .str request.repositoryIdentity), ("run_id", .str request.runId),
     ("process_id", .int process.pid), ("host_identity", .str process.host),
     ("start_time", .str stamp), ("last_confirmed_time", .str stamp),
     ("current_feature", .ofOption request.currentFeature),
     ("current_phase", .str request.currentPhase)]

theorem makeLockRecord_runId (process : ProcessIdentity) (stamp : String) (request : LockRequest) :
    (makeLockRecord process stamp request).get "run_id" = .str request.runId := by
  simp [makeLockRecord, Fields.get, Fields.get?_ofPairs, Fields.get?_cons]

/-! ### What the operations prepare -/

/-- The fields of `build_run_plan` that a queue reconciliation reads. -/
structure RunPlan where
  modelsPlanned : Int
  parentSessionBudget : Int
  selectedModel : Option String
  selectedReasoningEffort : Option String
deriving DecidableEq

/-- What the operations find around the reservation. -/
structure EngineSite (ρ σ : Type) where
  queueSite : QueueSite
  project : Project
  activeMilestone : Option String
  process : ProcessIdentity
  stamp : String
  lock : DurableLock ρ σ
  /-- `inspector.identity()["repository_id"]`. -/
  identity : Call ρ σ Failure String
  /-- `inspector.primary_worktree`. -/
  primaryWorktree : Call ρ σ Failure String
  /-- The `writer_lock_relative_path` of the configuration. -/
  writerLockRelative : Result String
  /-- `git ls-files -z`, at the NUL characters. -/
  trackedFiles : Call ρ σ Failure (List String)
  /-- The queue document, if the file holds JSON. -/
  queueFile : Call ρ σ Failure (Option Json)
  buildRunPlan : Option Json → Call ρ σ Failure RunPlan
  /-- `RepositoryInspector(project.repository)`. -/
  inspector : Call ρ σ Failure Unit
  /-- `Path(...).expanduser().resolve()`. -/
  resolve : String → Call ρ σ Failure String
  /-- `configuration.owned_path(report_directory)`. -/
  reportRoot : Call ρ σ Failure String
  /-- `_report_path`. -/
  reportPath : String → String → String → Call ρ σ Failure String

/-- What an operation hands from its preparations to the block that uses them. -/
structure Prepared where
  repositoryIdentity : Option String := none
  writerLease : Option String := none
  policy : Option MutationPolicy := none
  runPlan : Option RunPlan := none
  preflightPath : Option String := none

def ALLOWED_PLANNING_FILES : List String :=
  [".factory/project.yaml", "docs/CURRENT_STATUS.md", "docs/FEATURE_CATALOG.md",
   "docs/FEATURE_QUEUE.yaml", "docs/README.md", "docs/ROADMAP.md", "docs/RUN_LOG.md",
   "docs/architecture.md", "docs/data-flow.md"]

def ALLOWED_PLANNING_PREFIXES : List String :=
  ["docs/roadmap/", "docs/features/", "docs/product/", "docs/architecture/", "docs/testing/"]

/-- `allowed_planning_path`. -/
def allowedPlanningPath (path : String) : Bool :=
  decide (path ∈ ALLOWED_PLANNING_FILES) ||
    ALLOWED_PLANNING_PREFIXES.any fun root => root.toList.isPrefixOf path.toList

/-- `planning_commit_subject`. -/
def planningCommitSubject (P : Platform) (activeMilestone : Option String)
    (selectedFeature : Option Json) : String :=
  let milestone := match activeMilestone with
    | some milestone => if milestone = "" then "queue" else milestone
    | none => "queue"
  match selectedFeature with
  | some feature =>
      if feature.truthy then
        s!"factory: reconcile {milestone} queue and ready {P.str feature}"
      else s!"factory: reconcile {milestone} queue"
  | none => s!"factory: reconcile {milestone} queue"

/-- `PhaseAdapter(...).policy`. -/
def phasePolicy (allowedPaths allowedPrefixes : List String) (allowUntracked : Bool)
    (commitSubject : Option String) (requireCleanStart : Bool) : Result MutationPolicy :=
  MutationPolicy.checked
    { allowedPaths := sortedSet allowedPaths, allowedPrefixes := sortedSet allowedPrefixes
      allowUntracked := allowUntracked, commitSubject := commitSubject
      requireCleanStart := requireCleanStart }

namespace EngineSite

variable (site : EngineSite ρ σ)

/-- `inspector.writer_lock_path(...)`: the key of the configuration is read first. -/
def writerLockPath : Call ρ σ Failure String := do
  let relative ← Call.reads fun _ _ => site.writerLockRelative
  let root ← site.primaryWorktree
  return root ++ "/" ++ relative

/-- What `_execute_queue_reconciliation` asks of the run plan. -/
def Launchable (plan : RunPlan) : Prop :=
  ¬(plan.modelsPlanned < 1 ∨ plan.modelsPlanned ≠ plan.parentSessionBudget ∨
    plan.selectedModel.getD "" = "" ∨ plan.selectedReasoningEffort.getD "" = "")

instance (plan : RunPlan) : Decidable (Launchable plan) := inferInstanceAs (Decidable (¬_))

/-- `_execute_queue_reconciliation`, between its reservation and its `try`. -/
def prepareQueueReconciliation : Call ρ σ Failure Prepared := do
  let identity ← site.identity
  let lease ← site.writerLockPath
  let tracked ← site.trackedFiles
  let allowed := tracked.filter fun path => path ≠ "" && allowedPlanningPath path
  let file ← site.queueFile
  let preselected ← Call.reads fun _ _ => do
    let queue ← FeatureQueue.fromLocation site.queueSite file
    queue.selectNext site.queueSite (site.activeMilestone.getD "")
  let selected := preselected.map FeatureQueue.Selection.featureId
  let plan ← site.buildRunPlan selected
  Call.check (Launchable plan) ⟨.recoveryError,
    "queue reconciliation cannot launch without one authoritative model execution plan"⟩
  let policy ← Call.reads fun _ _ => phasePolicy allowed
    (ALLOWED_PLANNING_PREFIXES.map stripSlashes) true
    (some (planningCommitSubject site.queueSite.platform site.activeMilestone selected)) true
  site.inspector
  return { repositoryIdentity := some identity, writerLease := some lease
           policy := some policy, runPlan := some plan }

/-- `_deterministic_queue_selection`, between its reservation and its `try`. -/
def prepareQueueSelection : Call ρ σ Failure Prepared := do
  let identity ← site.identity
  let lease ← site.writerLockPath
  let policy ← Call.reads fun _ _ => phasePolicy [] [] false none true
  site.inspector
  return { repositoryIdentity := some identity, writerLease := some lease, policy := some policy }

/-- `tuple(value)` of a value whose items have to be texts. -/
def tupleOfTexts : Json → Result (List String)
  | .arr items => (items.mapM Json.asString?).elim
      (.error ⟨.typeError, "a path is not a text"⟩) .ok
  | .str text => .ok (text.toList.map String.singleton)
  | .obj fields => .ok (Fields.keys fields)
  | _ => .error ⟨.typeError, "object is not iterable"⟩

/-- `value[key]`. -/
def item (value : Json) (key : String) : Result Json :=
  match value with
  | .obj fields => (Fields.get? fields key).elim (.error ⟨.keyError, key⟩) .ok
  | _ => .error ⟨.typeError, "indices must be integers or slices"⟩

/-- The selected feature of a recovery plan is a nonempty text or nothing. -/
def SelectedFeatureWellFormed : Json → Prop
  | .null => True
  | .str text => text ≠ ""
  | _ => False

instance (value : Json) : Decidable (SelectedFeatureWellFormed value) :=
  match value with
  | .null => isTrue trivial
  | .str text => inferInstanceAs (Decidable (text ≠ ""))
  | .bool _ | .int _ | .float _ | .arr _ | .obj _ => isFalse id

/-- `_recover_terminal_planning_finalization`, between its reservation and its `try`. -/
def preparePlanningFinalization (expectedPlan : Fields) : Call ρ σ Failure Prepared := do
  let lease ← site.writerLockPath
  Call.check (SelectedFeatureWellFormed (expectedPlan.get "selected_feature"))
    (recoveryError "planning recovery selected-feature evidence is malformed")
  let policy ← Call.reads fun _ _ => do
    let changes ← item (.obj expectedPlan) "existing_planning_changes"
    let paths ← tupleOfTexts (← item changes "paths")
    let subject ← item (.obj expectedPlan) "commit_subject"
    phasePolicy paths [] false (some (site.queueSite.platform.str subject))
      ((expectedPlan.get "existing_commit").isInstance .str)
  site.inspector
  return { writerLease := some lease, policy := some policy }

/-- `recover_planning_transaction`, between its reservation and its `try`. -/
def preparePlanningRecovery : Call ρ σ Failure Prepared := do
  let lease ← site.writerLockPath
  let _ ← site.resolve site.project.repository
  return { writerLease := some lease }

/-- `recover_feature_branch`, between its reservation and its `try`. -/
def prepareBranchRecovery (runId : String) : Call ρ σ Failure Prepared := do
  let root ← site.reportRoot
  let path ← site.reportPath root runId "feature-branch-recovery-preflight.json"
  return { preflightPath := some path }

end EngineSite

/-! ### The operations -/

/-- An operation that reserves the project, with its run and what it prepares for. -/
inductive EngineOperation where
  | queueReconciliation (runId : String)
  | queueSelection (runId : String) (featureId : String)
  | planningFinalization (runId : String) (expectedPlan : Fields)
  | planningRecovery (runId : String) (selectedFeature : Option String)
  | branchRecovery (runId : String) (currentFeature : String)
  /-- The repair of what an applied resolution left. -/
  | artifactRepair (resolutionId : String)
  | humanResolution (resolutionId : String)
  | resultRecovery (runId : String) (featureId : String)
  | validationRepair (runId : String) (featureId : String)

namespace EngineOperation

def runId : EngineOperation → String
  | queueReconciliation runId | queueSelection runId _ | planningFinalization runId _
  | planningRecovery runId _ | branchRecovery runId _ | artifactRepair runId
  | humanResolution runId | resultRecovery runId _ | validationRepair runId _ => runId

def currentFeature : EngineOperation → Option String
  | queueReconciliation _ | artifactRepair _ | humanResolution _ => none
  | queueSelection _ feature | branchRecovery _ feature | resultRecovery _ feature
  | validationRepair _ feature => some feature
  | planningFinalization _ plan => (plan.get "selected_feature").asString?
  | planningRecovery _ feature => feature

def currentPhase : EngineOperation → String
  | queueReconciliation _ => "queue_reconciliation"
  | queueSelection _ _ => "deterministic_queue_selection"
  | planningFinalization _ _ => "planning_finalization_recovery"
  | planningRecovery _ _ => "queue_reconciliation_recovery"
  | branchRecovery _ _ => "feature_branch_recovery"
  | artifactRepair _ => "human_decision_artifact_repair"
  | humanResolution _ => "human_decision_resolution"
  | resultRecovery _ _ => "feature_result_recovery"
  | validationRepair _ _ => "retained_feature_validation_repair"

def record (op : EngineOperation) (site : EngineSite ρ σ) (repositoryIdentity : String) : Fields :=
  makeLockRecord site.process site.stamp
    { projectId := site.project.projectId, repositoryIdentity := repositoryIdentity
      runId := op.runId, currentFeature := op.currentFeature, currentPhase := op.currentPhase }

/-- What the operation does between its reservation and its `try`. The last four have nothing
    there that can raise. -/
def prepare (op : EngineOperation) (site : EngineSite ρ σ) : Call ρ σ Failure Prepared :=
  match op with
  | queueReconciliation _ => site.prepareQueueReconciliation
  | queueSelection _ _ => site.prepareQueueSelection
  | planningFinalization _ plan => site.preparePlanningFinalization plan
  | planningRecovery _ _ => site.preparePlanningRecovery
  | branchRecovery runId _ => site.prepareBranchRecovery runId
  | artifactRepair _ | humanResolution _ | resultRecovery _ _ | validationRepair _ _ =>
      pure {}

end EngineOperation

/-- The reservation file is as it was. -/
def SameReservation (before after : World σ) : Prop := after.reservation = before.reservation

instance : IsPreorder (World σ) SameReservation where
  refl _ := rfl
  trans _ _ _ h h' := Eq.trans h' h

/-- The block of an operation under its `finally`, with its handlers. -/
structure TryBlock (ρ σ α : Type) where
  call : EngineCall ρ σ α
  keeps : Call.Respects SameReservation call

/-- An operation from its reservation on. -/
def EngineOperation.run (op : EngineOperation) (site : EngineSite ρ σ)
    (repositoryIdentity : String) (block : Prepared → TryBlock ρ σ α) : EngineCall ρ σ α :=
  Call.bracket (site.lock.acquire (op.record site repositoryIdentity)) (aside (op.prepare site))
    (fun prepared => (block prepared).call) (site.lock.release op.runId)

/-! ### Who holds the reservation -/

instance same_aside (call : Call ρ σ Failure α) : Call.Respects SameReservation (aside call) :=
  ⟨fun _ _ => rfl⟩

instance (lock : DurableLock ρ σ) : Call.Respects SameReservation lock.status :=
  Call.respects_reads _

/-- The reservation is of the run. -/
def Held (runId : String) (w : World σ) : Prop :=
  ∃ record : Fields, w.reservation = .record record ∧ record.get "run_id" = .str runId

def Free (w : World σ) : Prop := w.reservation = .absent

variable {runId : String} {w t : World σ} {lock : DurableLock ρ σ} {r : ρ}

theorem Held.of_same {relation : EngineCall ρ σ α} [h : Call.Respects SameReservation relation]
    (hheld : Held runId w) : relation.Ends r w (Held runId) := by
  obtain ⟨record, hrecord, hrun⟩ := hheld
  exact ⟨record, (h.related r w).trans hrecord, hrun⟩

theorem not_free_of_held (h : Held runId w) : ¬Free w := by
  obtain ⟨record, hrecord, -⟩ := h
  rw [Free, hrecord]
  exact LockFile.noConfusion

theorem held_of_acquire {record : Fields} {u : Unit} (hrun : record.get "run_id" = .str runId)
    (h : (lock.acquire record).Returns r w u t) : Held runId t := by
  simp only [DurableLock.acquire, Call.returns_bind, DurableLock.fill, Call.returns_update] at h
  obtain ⟨_, _, -, _, _, -, _, _, -, hfill⟩ := h
  obtain ⟨-, rfl⟩ := Prod.mk.inj (Except.ok.inj hfill)
  exact ⟨record, rfl, hrun⟩

theorem release_of_held (h : Held runId w) :
    ∃ t, (lock.release runId).Returns r w () t ∧ Free t := by
  obtain ⟨record, hrecord, hrun⟩ := h
  refine ⟨{ w with reservation := .absent }, ?_, rfl⟩
  rw [DurableLock.release, Call.returns_update, hrecord]
  simp only [readLock, ok_bind]
  rw [require_of hrun]
  rfl

variable {op : EngineOperation} {site : EngineSite ρ σ} {repositoryIdentity : String}
  {block : Prepared → TryBlock ρ σ α}

theorem holds_reservation : Call.Holds (aside (op.prepare site))
    (fun prepared => (block prepared).call) (site.lock.release op.runId) r (Held op.runId) Free where
  prepare _ hheld := hheld.of_same
  use prepared _ hheld :=
    have := (block prepared).keeps
    hheld.of_same
  release _ hheld := release_of_held hheld
  disjoint _ hheld := not_free_of_held hheld

/-! ### When a failed operation gives its reservation back -/

variable {s s' u : World σ} {failure : Failure}

/-- An operation that raised after it had reserved the project has released it exactly when no
    step between the reservation and the `try` raised. -/
theorem reservation_released_iff (op : EngineOperation) (site : EngineSite ρ σ)
    (repositoryIdentity : String) (block : Prepared → TryBlock ρ σ α)
    (hacquired : (site.lock.acquire (op.record site repositoryIdentity)).Returns r s () s')
    (hraised : op.run site repositoryIdentity block r s = (.raised failure, t)) :
    t.reservation = .absent ↔
      ∃ prepared u, (aside (op.prepare site)).Returns r s' prepared u :=
  Call.bracket_raised_iff holds_reservation hacquired
    (held_of_acquire (makeLockRecord_runId _ _ _) hacquired) hraised

/-- A project with a queue file that holds no JSON. -/
def plainSite (queueFile : Option Json) : EngineSite Unit Unit where
  queueSite := ⟨Platform.reference, fun _ => false, fun _ => true, fun _ _ => .ok ()⟩
  project := ⟨"project", "/repository", "docs/FEATURE_QUEUE.yaml"⟩
  activeMilestone := some "milestone-1"
  process := ⟨100, "start", "host"⟩
  stamp := "2026-01-01T00:00:00+00:00"
  lock := ⟨"/locks/path.json", pure (), pure ()⟩
  identity := pure "repository"
  primaryWorktree := pure "/repository"
  writerLockRelative := .ok ".factory/locks/writer.json"
  trackedFiles := pure ["docs/FEATURE_QUEUE.yaml"]
  queueFile := pure queueFile
  buildRunPlan _ := pure ⟨1, 1, some "model", some "high"⟩
  inspector := pure ()
  resolve := pure
  reportRoot := pure "/reports"
  reportPath root runId name := pure (root ++ "/" ++ runId ++ "/" ++ name)

/-- A block that fails at once. -/
def failingBlock : TryBlock Unit Unit Unit where
  call := Call.raise (recoveryError "evidence changed")
  keeps := inferInstance

def reserved (op : EngineOperation) : World Unit :=
  ⟨.record (op.record (plainSite none) "repository"), ()⟩

theorem plainSite_acquires (op : EngineOperation) (queueFile : Option Json) :
    ((plainSite queueFile).lock.acquire
      (op.record (plainSite queueFile) "repository")).Returns () ⟨.absent, ()⟩ () (reserved op) :=
  rfl

/-- A result recovery that fails in its block has released its reservation. -/
theorem failing_recovery_released :
    (⟨.absent, ()⟩ : World Unit).reservation = .absent ↔
      ∃ prepared u, (aside ((EngineOperation.resultRecovery "run" "F001").prepare
        (plainSite none))).Returns () (reserved (.resultRecovery "run" "F001")) prepared u :=
  reservation_released_iff (.resultRecovery "run" "F001") (plainSite none) "repository"
    (fun _ => failingBlock) (plainSite_acquires _ none) rfl

/-- The reservation of a queue reconciliation stays when the queue file holds no JSON. -/
theorem unreadable_queue_leaks :
    ¬∀ (op : EngineOperation) (site : EngineSite Unit Unit)
      (block : Prepared → TryBlock Unit Unit Unit) (s s' t : World Unit) (failure : Failure),
      (site.lock.acquire (op.record site "repository")).Returns () s () s' →
      op.run site "repository" block () s = (.raised failure, t) → t.reservation = .absent := by
  intro h
  have hleak := h (.queueReconciliation "run") (plainSite none) (fun _ => failingBlock)
    ⟨.absent, ()⟩ (reserved (.queueReconciliation "run")) (reserved (.queueReconciliation "run"))
    (queueError "$: unsupported queue format; expected JSON-compatible YAML")
    (plainSite_acquires _ none) rfl
  cases hleak

end LaunchReservation

end Conveyor
