import Conveyor.WorkflowLease

/-!
# Autopilot ownership records

The record by which one process owns the continuous loop of a project, and the checks of
the calls that read it (`autopilot.py`). A process that finds the record of a dead owner may
take the ownership over once `authenticateDeadOwner` lets it. The calls themselves, one
file-system operation at a time, are in `OwnershipInterleaving`.
-/

namespace Conveyor

open Library

def AUTOPILOT_EVENTS : List String :=
  ["AUTOPILOT_STARTED", "FEATURE_SELECTED", "FEATURE_CONTEXT_STARTED", "FEATURE_CONTEXT_READY",
   "FEATURE_SESSION_STARTED", "FEATURE_RESULT_RETAINED", "FEATURE_ACCEPTED",
   "FEATURE_INTEGRATED", "FEATURE_BLOCKED", "RECOVERY_STARTED", "RECOVERY_APPLIED",
   "FEATURE_REPAIR_STARTED", "FEATURE_REPAIR_VALIDATION_STARTED", "STOP_REQUESTED",
   "AUTOPILOT_STOPPED", "AUTOPILOT_COMPLETED", "AUTOPILOT_FAILED"]

/-- What the project fixes for every process: its name, the resolved path of its repository
    and the identity of that repository. -/
structure AutopilotProject where
  projectId : String
  repository : String
  repositoryId : String
  pathFingerprint : String

/-- What a call observes around its file-system operations: the time, the repository, which
    process numbers are alive on its host, and the writer lease as `read_lock` returns it. -/
structure OwnerSurvey where
  now : String
  branch : Option String
  head : String
  isClean : Bool
  gitOperation : Bool
  alive : Int → Option Bool
  writer : Result (Option Fields)

/-- `_record`. -/
def ownershipRecord (project : AutopilotProject) (caller : ProcessIdentity)
    (survey : OwnerSurvey) (runId : String) (lastEvent : Json) : Fields :=
  .ofPairs
    [("schema_version", .int 1), ("run_id", .str runId), ("project_id", .str project.projectId),
     ("repository", .str project.repository),
     ("repository_identity", .str project.repositoryId),
     ("repository_path_fingerprint", .str project.pathFingerprint),
     ("repository_branch", .ofOption survey.branch), ("repository_head", .str survey.head),
     ("process_id", .int caller.pid), ("process_start_identity", .str caller.start),
     ("host", .str caller.host), ("created_at", .str survey.now),
     ("last_heartbeat", .str survey.now), ("last_completed_event", lastEvent),
     ("ledger_sequence", .null), ("ledger_fingerprint", .null),
     ("projection_fingerprint", .null)]

/-- `value is None or value in AUTOPILOT_EVENTS`. -/
def isAutopilotEvent (value : Json) : Result Bool := do
  let key ← hashKey value
  return value = .null ∨ ∃ event ∈ AUTOPILOT_EVENTS, key = .str event

/-- `isinstance(pid, int) and not isinstance(pid, bool)` with the number. -/
def processNumber : Json → Option Int
  | .int pid => some pid
  | _ => none

/-- The checks of `_authenticate_dead_owner` with their names. -/
def deadOwnerChecks (project : AutopilotProject) (host : String) (survey : OwnerSurvey)
    (knownEvent : Bool) (record : Fields) : List (String × Bool) :=
  [("project", record.get "project_id" = .str project.projectId),
   ("repository", record.get "repository" = .str project.repository),
   ("repository_identity", record.get "repository_identity" = .str project.repositoryId),
   ("path_fingerprint",
      record.get "repository_path_fingerprint" = .str project.pathFingerprint),
   ("host", record.get "host" = .str host),
   ("run_id", isText (record.get "run_id")),
   ("process_start", isText (record.get "process_start_identity")),
   ("last_event", knownEvent),
   ("repository_branch", isText (record.get "repository_branch")),
   ("repository_head", isText (record.get "repository_head")),
   ("repository_clean", survey.isClean),
   ("git_operation_absent", !survey.gitOperation),
   ("pid", (processNumber (record.get "process_id")).isSome),
   ("process_dead", (processNumber (record.get "process_id")).bind survey.alive = some false)]

/-- The writer lease belongs to the dead owner of the record. -/
def writerOfDeadOwner (project : AutopilotProject) (host : String) (survey : OwnerSurvey)
    (record writer : Fields) : Bool :=
  let pid := firstTruthy [writer.get "owner_pid", writer.get "pid"]
  let start := firstTruthy [writer.get "owner_process_start", writer.get "start_time"]
  firstTruthy [writer.get "owner_host", writer.get "host"] = .str host &&
    writer.get "project_id" = .str project.projectId &&
    firstTruthy [writer.get "repository_path", writer.get "repository"] =
      .str project.repository &&
    (asInt? pid).isSome && asInt? pid = asInt? (record.get "process_id") &&
    (asInt? pid).bind survey.alive = some false && isText start &&
    start = record.get "process_start_identity"

/-- `_authenticate_dead_owner`. -/
def authenticateDeadOwner (project : AutopilotProject) (host : String) (survey : OwnerSurvey)
    (record : Fields) : Result Unit := do
  let knownEvent ← isAutopilotEvent (record.get "last_completed_event")
  let failed := ((deadOwnerChecks project host survey knownEvent record).filter
    fun check => !check.2).map Prod.fst
  let names := ", ".intercalate failed
  require (failed = []) (ambiguousLockError
    s!"existing autopilot ownership cannot be authenticated as recoverable: {names}")
  let writer ← survey.writer
  match writer with
  | none => return
  | some writer =>
      require (writerOfDeadOwner project host survey record writer = true)
        (ambiguousLockError
          "dead autopilot ownership has an unauthenticated application writer lease")

/-- What `acquire` checks on the record that it found, up to the path of the archive, which
    it names by the run of the dead owner. -/
def takeover (project : AutopilotProject) (caller : ProcessIdentity) (survey : OwnerSurvey)
    (existing : Fields) : Result String := do
  let alive := if existing.get "host" = .str caller.host then
      (asInt? (existing.get "process_id")).bind survey.alive
    else none
  require (alive ≠ some true)
    (lockError s!"autopilot is already active for project {project.projectId}")
  authenticateDeadOwner project caller.host survey existing
  match existing.get "run_id" with
  | .str runId => do
      require ('/' ∉ runId.toList) ⟨.valueError, "Invalid name"⟩
      return runId
  | _ => .error ⟨.valueError, "Invalid name"⟩

/-- What `heartbeat` checks on the record that it read. -/
def ownsRecord (caller : ProcessIdentity) (runId : Option String) (record : Fields) :
    Result Unit :=
  require (runId.map Json.str = some (record.get "run_id") ∧
      (record.get "process_id").equalsInt caller.pid = true ∧
      record.get "process_start_identity" = .str caller.start)
    (lockError "autopilot ownership changed during execution")

def PROJECTION_BINDINGS : List String :=
  ["ledger_sequence", "ledger_fingerprint", "projection_fingerprint"]

/-- The record that `heartbeat` writes. -/
def heartbeatRecord (survey : OwnerSurvey) (event : String) (projection record : Fields) :
    Fields :=
  let record := (((record.set "last_heartbeat" (.str survey.now)).set
    "last_completed_event" (.str event)).set
    "repository_branch" (.ofOption survey.branch)).set "repository_head" (.str survey.head)
  (PROJECTION_BINDINGS.filter fun field => projection.get field ≠ .null).foldl
    (fun record field => record.set field (projection.get field)) record

/-- What `release` checks on the record that it read. -/
def releasable (runId : Option String) (record : Fields) : Result Unit :=
  require (runId.map Json.str = some (record.get "run_id"))
    (lockError "refusing to release another autopilot owner's record")

/-! ### What the checks let through -/

variable {project : AutopilotProject} {caller other : ProcessIdentity} {survey : OwnerSurvey}
  {record existing : Fields} {runId : String}

/-- The record names this process as its owner. -/
structure NamesOwner (owner : ProcessIdentity) (record : Fields) : Prop where
  processId : record.get "process_id" = .int owner.pid
  host : record.get "host" = .str owner.host

theorem namesOwner_ownershipRecord (lastEvent : Json) :
    NamesOwner caller (ownershipRecord project caller survey runId lastEvent) := by
  constructor <;> rw [ownershipRecord, Fields.get, Fields.get?_ofPairs] <;> rfl

theorem get_runId_ownershipRecord (lastEvent : Json) :
    (ownershipRecord project caller survey runId lastEvent).get "run_id" = .str runId := by
  rw [ownershipRecord, Fields.get, Fields.get?_ofPairs]
  rfl

/-- The keys that a heartbeat leaves as they are. -/
theorem get_heartbeatRecord (event : String) (projection : Fields) {key : String}
    (hkey : key ∉ ["last_heartbeat", "last_completed_event", "repository_branch",
      "repository_head"] ++ PROJECTION_BINDINGS) :
    (heartbeatRecord survey event projection record).get key = record.get key := by
  have hfold (fields : List String) (start : Fields) (h : key ∉ fields) :
      (fields.foldl (fun record field => record.set field (projection.get field)) start).get key =
        start.get key := by
    induction fields generalizing start with
    | nil => rfl
    | cons field rest ih =>
        rw [List.foldl_cons, ih _ fun hmem => h (List.mem_cons_of_mem _ hmem),
          Fields.get_set_of_ne (List.ne_of_not_mem_cons h)]
  simp only [List.mem_append, List.mem_cons, List.not_mem_nil, or_false, not_or] at hkey
  obtain ⟨⟨h1, h2, h3, h4⟩, hbindings⟩ := hkey
  rw [heartbeatRecord, hfold _ _ fun hmem => hbindings (List.mem_of_mem_filter hmem),
    Fields.get_set_of_ne h4, Fields.get_set_of_ne h3, Fields.get_set_of_ne h2,
    Fields.get_set_of_ne h1]

/-- An authenticated owner runs on this host and is observed to be dead. -/
theorem dead_of_authenticate {host : String} {u : Unit}
    (h : authenticateDeadOwner project host survey record = .ok u) :
    record.get "host" = .str host ∧
      (processNumber (record.get "process_id")).bind survey.alive = some false := by
  rw [authenticateDeadOwner, bind_eq_ok] at h
  obtain ⟨knownEvent, -, h⟩ := h
  simp only [require_bind_eq_ok, List.map_eq_nil_iff, List.filter_eq_nil_iff] at h
  have hhost := h.1 ("host", record.get "host" = .str host) (by simp [deadOwnerChecks])
  have hdead := h.1 ("process_dead",
    (processNumber (record.get "process_id")).bind survey.alive = some false)
    (by simp [deadOwnerChecks])
  simp only [Bool.not_eq_true', decide_eq_false_iff_not, not_not] at hhost hdead
  exact ⟨hhost, hdead⟩

/-- Nobody takes over from an owner that is observed not to be dead. -/
theorem not_takeover_of_namesOwner (h : NamesOwner other existing)
    (halive : other.host = caller.host → survey.alive other.pid ≠ some false) :
    takeover project caller survey existing ≠ .ok runId := by
  intro htakeover
  simp only [takeover, bind_eq_ok] at htakeover
  obtain ⟨-, -, ⟨⟩, hauthentic, -⟩ := htakeover
  obtain ⟨hhost, hdead⟩ := dead_of_authenticate hauthentic
  rw [h.host, Json.str.injEq] at hhost
  rw [h.processId, processNumber, Option.bind_some] at hdead
  exact halive hhost hdead

end Conveyor
