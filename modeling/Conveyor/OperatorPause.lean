import Conveyor.LegacyAdapter
import Mathlib.Logic.Function.Basic

/-!
# The operator pause

The flag `operator_paused` lives in the project state document. `set_operator_paused` and the
controller's own writes read the document and write it again under the project's authority lock
and take the flag over (`queue_control.py`, `cycle_engine.py`). The repair of a malformed document
takes a reservation of its own and not that lock: it writes a document without the flag, and on a
failure it writes back the bytes that it began with (`cycle_cache_repair.py`).

Any number of processes make these calls in any order. `pause_kept` says when the flag is that of
the last `set_operator_paused`.
-/

namespace Conveyor.OperatorPause

open Library

/-! ### Documents -/

/-- What the operations take from outside: the redaction of written files, the check of the schema,
    the names of its properties, and the digest of the bytes of a document. -/
structure PauseSite where
  platform : Platform
  validateState : Json → Result Unit
  schemaProperties : List String
  sha256 : Json → String

structure PauseProject where
  projectId : String
  currentState : String
  activeMilestone : Option String
  humanDecisionGate : Json

/-- `document.get("operator_paused") is True`. -/
def pausedIn (document : Json) : Bool :=
  match document with
  | .obj fields => decide (Fields.get fields "operator_paused" = .bool true)
  | _ => false

variable (site : PauseSite)

/-- `store.read(path)`; the schema admits only objects. -/
def readState (file : Option Json) : Result (Option Fields) := do
  match file with
  | none => return none
  | some (.obj fields) => do
      site.validateState (.obj fields)
      return some fields
  | some _ => .error ⟨.schemaValidationError, "project state is not an object"⟩

/-- `store.write(path, document)`: what the file holds afterwards. -/
def writeState (document : Fields) : Result Json := do
  site.validateState (.obj document)
  return atomicWriteJson site.platform (.obj document)

/-- The state that `set_operator_paused` begins a project with. -/
def initialState (project : PauseProject) (repositoryFingerprint stamp : String) : Fields :=
  .ofPairs
    [("schema_version", .int 1), ("project_id", .str project.projectId),
     ("repository_fingerprint", .str repositoryFingerprint), ("run_id", .null),
     ("current_state", .str project.currentState),
     ("active_milestone", .ofOption project.activeMilestone), ("current_feature", .null),
     ("last_checkpoint", .null), ("stop_reason", .null),
     ("human_decision_required",
       if project.currentState = "human_decision_required" then project.humanDecisionGate
       else .null),
     ("human_decision_history", .arr []), ("state_evidence", .null), ("created_at", .str stamp),
     ("updated_at", .str stamp)]

/-- `set_operator_paused` between its read and its write. -/
def pausedState (project : PauseProject) (repositoryFingerprint stamp : String) (paused : Bool)
    (found : Option Fields) : Fields :=
  ((found.getD (initialState project repositoryFingerprint stamp)).set "operator_paused"
    (.bool paused)).set "updated_at" (.str stamp)

/-- `_write_project_state_preserving_pause` between its read and its write. -/
def preservedState (document : Fields) (latest : Option Fields) : Fields :=
  LegacyAdapter.preservePause (latest.map Json.obj) document

/-! ### The reconciled document -/

/-- What `_reconcile_projection_compatibility_cache` is called with. -/
structure Reconciliation where
  project : PauseProject
  projection : Fields
  featureId : Option String
  executionPlan : Fields
  stamp : String

namespace Reconciliation

variable (P : Platform) (r : Reconciliation)

/-- `_project_document` with the state that it read. -/
def projectDocument (runId : Json) (existing : Option Fields) : Result Fields :=
  match existing with
  | some (entry :: rest) => do
      let fields : Fields := entry :: rest
      require (Fields.get fields "project_id" = .str r.project.projectId)
        ⟨.recoveryError, "portfolio project state belongs to a different project"⟩
      require (Fields.get fields "repository_fingerprint" =
          r.projection.get "repository_path_fingerprint")
        ⟨.recoveryError,
          "portfolio project state belongs to a different repository fingerprint"⟩
      return (Fields.set fields "run_id" runId).set "updated_at" (.str r.stamp)
  | _ => .ok (.ofPairs
      [("schema_version", .int 1), ("project_id", .str r.project.projectId),
       ("repository_fingerprint", r.projection.get "repository_path_fingerprint"),
       ("run_id", runId), ("current_state", r.projection.get "current_state"),
       ("active_milestone", .ofOption r.project.activeMilestone), ("current_feature", .null),
       ("last_checkpoint", .null), ("stop_reason", .null),
       ("human_decision_required",
         match r.project.humanDecisionGate with
         | .obj gate =>
             if r.projection.get "current_state" = .str "human_decision_required" then
               .obj (Fields.set gate "gate_fingerprint" (.str (P.fingerprint (.obj gate))))
             else .null
         | _ => .null),
       ("human_decision_history", .arr []), ("state_evidence", .null),
       ("operator_paused", .bool false), ("created_at", .str r.stamp),
       ("updated_at", .str r.stamp)])

def desired : Fields :=
  [("current_state", r.projection.get "current_state"),
   ("current_feature", .ofOption r.featureId),
   ("last_checkpoint", .str "kernel_projection_reconciled"), ("stop_reason", .null),
   ("human_decision_required", r.projection.get "human_gate"),
   ("state_evidence", .obj (Fields.ofPairs
     [("source", .str "evidence_ledger_projection"),
      ("ledger_sequence", r.projection.get "ledger_sequence"),
      ("ledger_fingerprint", r.projection.get "ledger_fingerprint"),
      ("projection_fingerprint", r.projection.get "projection_fingerprint"),
      ("execution_plan", .obj r.executionPlan)]))]

/-- What is to be written, unless the existing document is as desired already. -/
def changed (existing : Option Fields) (document : Fields) : Option Fields :=
  if existing.any fun fields => r.desired.all fun item => fields.get item.1 = item.2 then none
  else some ((document.update r.desired).set "updated_at" (.str r.stamp))

end Reconciliation

/-! ### The repair -/

/-- What a repair expects, with the projection and the plan that it found. -/
structure RepairPlan where
  projectId : String
  repositoryFingerprint : String
  activeMilestone : Option String
  recoveryTransactionId : String
  recoveryRunId : String
  malformedCacheSha256 : String
  unsupportedKeys : List String
  projection : Fields
  executionPlan : Fields

/-- `build_controller_compatibility_cache` before its check. -/
def controllerCompatibilityCache (plan : RepairPlan) (existing : Fields) (updatedAt : String) :
    Fields :=
  .ofPairs
    [("schema_version", .int 1), ("project_id", .str plan.projectId),
     ("repository_fingerprint", .str plan.repositoryFingerprint),
     ("run_id", .str plan.recoveryRunId),
     ("current_state", plan.projection.get "current_state"),
     ("active_milestone", .ofOption plan.activeMilestone),
     ("current_feature", plan.executionPlan.get "feature_id"),
     ("last_checkpoint", .str "kernel_projection_reconciled"), ("stop_reason", .null),
     ("human_decision_required", plan.projection.get "human_gate"),
     ("human_decision_history",
       match existing.get "human_decision_history" with
       | .arr history => .arr history
       | _ => .arr []),
     ("state_evidence", .obj (Fields.ofPairs
       [("source", .str "evidence_ledger_projection"),
        ("ledger_sequence", plan.projection.get "ledger_sequence"),
        ("ledger_fingerprint", plan.projection.get "ledger_fingerprint"),
        ("projection_fingerprint", plan.projection.get "projection_fingerprint"),
        ("execution_plan", .obj plan.executionPlan)])),
     ("created_at", .str (textOr (existing.get "created_at") updatedAt)),
     ("updated_at", .str updatedAt)]

def buildControllerCompatibilityCache (plan : RepairPlan) (existing : Fields)
    (updatedAt : String) : Result Fields := do
  let document := controllerCompatibilityCache plan existing updatedAt
  site.validateState (.obj document)
  return document

/-- The replacement that `inspect` finds for the document that it read: only a malformed document
    is replaced, and only the expected one. -/
def inspectReplacement (plan : RepairPlan) (file : Option Json) : Result Fields := do
  match file with
  | some (.obj raw) => do
      require (site.validateState (.obj raw)).isOk.not
        ⟨.recoveryError, "cycle-cache repair evidence changed under reservation"⟩
      require (site.sha256 (.obj raw) = plan.malformedCacheSha256)
        ⟨.recoveryError, "malformed cache SHA-256 changed"⟩
      require (sortedSet ((Fields.keys raw).filter fun key => key ∉ site.schemaProperties) =
          plan.unsupportedKeys)
        ⟨.recoveryError, "malformed cache unsupported-key set changed"⟩
      site.validateState (.obj (raw.filter fun entry => entry.1 ∉ plan.unsupportedKeys))
      require (Fields.get raw "kernel_transaction_id" = .str plan.recoveryTransactionId ∧
          Fields.get raw "current_run_id" = .str plan.recoveryRunId)
        ⟨.recoveryError, "malformed cache recovery provenance changed"⟩
      buildControllerCompatibilityCache site plan raw
        (site.platform.str (Fields.get raw "updated_at"))
  | _ => .error ⟨.recoveryError, "controller compatibility cache is not an object"⟩

/-! ### Steps -/

/-- A call that holds the authority lock. Every append to the ledger takes the same lock. -/
inductive Job where
  | set (project : PauseProject) (repositoryFingerprint stamp : String) (paused : Bool)
  | preserve (document : Fields)
  | append

/-- Where a process is: the next call it makes. `_transition_project` with kernel ownership is
    one `preserve`; without it, and in a run of the controller, it is appends, a `preserve` and
    more appends. `original` is the document that a repair read first. -/
inductive Phase where
  | idle
  | entering (job : Job)
  | holding (job : Job)
  | writing (job : Job) (document : Fields)
  | leaving
  | reconciling (r : Reconciliation)
  | drafting (r : Reconciliation) (existing : Option Fields)
  | reserving (plan : RepairPlan)
  | copying (plan : RepairPlan)
  | inspecting (plan : RepairPlan) (original : Json)
  | replacing (original : Json) (replacement : Fields)
  | checking (original : Json) (replacement : Fields)
  | auditing (original : Json)
  | comparing (original : Json)
  | restoring (original : Json)
  | finishing

def Phase.isIdle : Phase → Bool
  | idle => true
  | _ => false

/-- An operation that a process begins. -/
inductive Operation where
  | locked (job : Job)
  | reconcile (r : Reconciliation)
  | repair (plan : RepairPlan)

def Operation.phase : Operation → Phase
  | locked job => .entering job
  | reconcile r => .reconciling r
  | repair plan => .reserving plan

/-- What a process does next: begin an operation, make its next call, have that call raise for an
    outside reason, or die. -/
inductive Move where
  | begin (operation : Operation)
  | proceed
  | raise
  | die

/-- The state document of a project, the holders of its authority lock and of the reservation, and
    the processes. `last` records the value of the last `set_operator_paused` that wrote. -/
structure State (ι : Type) where
  file : Option Json
  authority : Option ι
  reservation : Option ι
  last : Option Bool
  phases : ι → Phase

namespace State

variable {ι : Type} [DecidableEq ι] (s : State ι) (i : ι)

def start (file : Option Json) : State ι := ⟨file, none, none, none, fun _ => .idle⟩

def goto (phase : Phase) : State ι := { s with phases := Function.update s.phases i phase }

/-- The end of the `with` block. -/
def leave : State ι := { s.goto i .idle with authority := none }

/-- `reservation.release(run_id)`. -/
def finish : State ι := { s.goto i .idle with reservation := none }

end State

variable {ι : Type} [DecidableEq ι]

/-- What a job writes. -/
def prepare (job : Job) (found : Option Fields) : Option Fields :=
  match job with
  | .set project repositoryFingerprint stamp paused =>
      some (pausedState project repositoryFingerprint stamp paused found)
  | .preserve document => some (preservedState document found)
  | .append => none

/-- The value that a job sets. -/
def Job.sets : Job → Option Bool
  | set _ _ _ paused => some paused
  | _ => none

/-- The next call of a process. -/
def proceed (s : State ι) (i : ι) : State ι :=
  match s.phases i with
  | .idle => s
  | .entering job =>
      if s.authority = none then { s.goto i (.holding job) with authority := some i } else s
  | .holding job =>
      match readState site s.file with
      | .error _ => s.goto i .leaving
      | .ok found =>
          match prepare job found with
          | none => s.goto i .leaving
          | some document => s.goto i (.writing job document)
  | .writing job document =>
      match writeState site document with
      | .error _ => s.goto i .leaving
      | .ok written =>
          { s.goto i .leaving with file := some written, last := job.sets.or s.last }
  | .leaving => s.leave i
  | .reconciling r =>
      match readState site s.file with
      | .error _ => s.goto i .idle
      | .ok existing => s.goto i (.drafting r existing)
  | .drafting r existing =>
      match readState site s.file with
      | .error _ => s.goto i .idle
      | .ok found =>
          match r.projectDocument site.platform
              ((existing.map fun fields => fields.get "run_id").getD .null) found with
          | .error _ => s.goto i .idle
          | .ok document =>
              match r.changed existing document with
              | none => s.goto i .idle
              | some document => s.goto i (.entering (.preserve document))
  | .reserving plan =>
      if s.reservation = none then { s.goto i (.copying plan) with reservation := some i }
      else s.goto i .idle
  | .copying plan =>
      match s.file with
      | none => s.goto i .idle
      | some original => s.goto i (.inspecting plan original)
  | .inspecting plan original =>
      match inspectReplacement site plan s.file with
      | .error _ => s.goto i .finishing
      | .ok replacement => s.goto i (.replacing original replacement)
  | .replacing original replacement =>
      match writeState site replacement with
      | .error _ => s.goto i (.comparing original)
      | .ok written => { s.goto i (.checking original replacement) with file := some written }
  | .checking original replacement =>
      match readState site s.file with
      | .error _ => s.goto i (.comparing original)
      | .ok found =>
          if found = some replacement then s.goto i (.auditing original)
          else s.goto i (.comparing original)
  | .auditing _ => s.goto i .finishing
  | .comparing original =>
      if s.file = some original then s.goto i .finishing else s.goto i (.restoring original)
  | .restoring original => { s.goto i .finishing with file := some original }
  | .finishing => s.finish i

/-- The next call of a process raises. -/
def raised (s : State ι) (i : ι) : State ι :=
  match s.phases i with
  | .holding _ | .writing _ _ => s.goto i .leaving
  | .leaving => s.leave i
  | .inspecting _ _ | .restoring _ => s.goto i .finishing
  | .replacing original _ | .checking original _ | .auditing original =>
      s.goto i (.comparing original)
  | .comparing _ => s.goto i .finishing
  | .idle | .entering _ | .reconciling _ | .drafting _ _ | .reserving _ | .copying _
  | .finishing => s.goto i .idle

/-- One step of one process. A process that dies loses the lock, but not the reservation. -/
def step (s : State ι) (i : ι) : Move → State ι
  | .begin operation =>
      match s.phases i with
      | .idle => s.goto i operation.phase
      | _ => s
  | .proceed => proceed site s i
  | .raise => raised s i
  | .die =>
      { s.goto i .idle with authority := if s.authority = some i then none else s.authority }

/-- Runs of any number of processes in any order, as far as `allowed` lets them step. -/
inductive Run (allowed : State ι → ι → Move → Prop) : State ι → Prop where
  | start (file : Option Json) : Run allowed (.start file)
  | step {s : State ι} {i : ι} {move : Move} (prior : Run allowed s)
      (admits : allowed s i move) : Run allowed (step site s i move)

/-- The document has the flag of the last `set_operator_paused`. -/
def Keeps (s : State ι) : Prop :=
  ∀ paused, s.last = some paused → ∃ document, s.file = some document ∧ pausedIn document = paused

/-- A repair does not replace a document that was last paused, and writes back only a document
    with the flag that was last set. -/
def spares (s : State ι) (i : ι) : Move → Bool
  | .proceed =>
      match s.phases i with
      | .replacing _ _ => decide (s.last ≠ some true)
      | .restoring original => s.last.all fun paused => decide (pausedIn original = paused)
      | _ => true
  | _ => true

def Spares (s : State ι) (i : ι) (move : Move) : Prop := spares s i move = true

instance (s : State ι) (i : ι) (move : Move) : Decidable (Spares s i move) :=
  inferInstanceAs (Decidable (_ = true))

/-! ### What is written -/

section Written

variable {site}

theorem redactValue_eq_true {P : Platform} {value : Json} :
    redactValue P value = .bool true ↔ value = .bool true := by
  cases value <;> simp [redactValue]

theorem isSensitiveKey_operatorPaused (P : Platform) :
    isSensitiveKey P "operator_paused" = false :=
  isSensitiveKey_of_ascii P (by decide) (by decide)

/-- The file keeps the flag of the document that is written to it. -/
theorem pausedIn_written {document : Fields} {written : Json}
    (h : writeState site document = .ok written) : pausedIn written = pausedIn (.obj document) := by
  simp only [writeState, bind_eq_ok, pure, Except.pure, Except.ok.injEq] at h
  obtain ⟨-, -, rfl⟩ := h
  simp only [atomicWriteJson, redactValue, pausedIn]
  rw [get_redactFields _ (isSensitiveKey_operatorPaused _)]
  exact decide_eq_decide.mpr redactValue_eq_true

theorem pausedIn_set (fields : Fields) (paused : Bool) :
    pausedIn (.obj (fields.set "operator_paused" (.bool paused))) = paused := by
  simp only [pausedIn, Fields.get_set_self, Json.bool.injEq]
  cases paused <;> rfl

theorem pausedIn_pausedState {project : PauseProject} {repositoryFingerprint stamp : String}
    {paused : Bool} {found : Option Fields} :
    pausedIn (.obj (pausedState project repositoryFingerprint stamp paused found)) = paused := by
  rw [pausedState, pausedIn, Fields.get_set_of_ne (by decide)]
  exact pausedIn_set _ _

theorem pausedIn_preservedState {document latest : Fields} :
    pausedIn (.obj (preservedState document (some latest))) = pausedIn (.obj latest) := by
  rw [preservedState, Option.map_some, LegacyAdapter.preservePause, pausedIn_set]
  rfl

/-- The document of a repair has no flag. -/
theorem pausedIn_controllerCompatibilityCache {plan : RepairPlan} {existing : Fields}
    {updatedAt : String} :
    pausedIn (.obj (controllerCompatibilityCache plan existing updatedAt)) = false := by
  simp [pausedIn, controllerCompatibilityCache, Fields.get, Fields.get?_ofPairs, Fields.get?_cons]

theorem pausedIn_replacement {plan : RepairPlan} {file : Option Json} {replacement : Fields}
    (h : inspectReplacement site plan file = .ok replacement) :
    pausedIn (.obj replacement) = false := by
  unfold inspectReplacement at h
  split at h
  · simp only [bind_eq_ok] at h
    obtain ⟨-, -, -, -, -, -, -, -, -, -, h⟩ := h
    simp only [buildControllerCompatibilityCache, bind_eq_ok, pure, Except.pure,
      Except.ok.injEq] at h
    obtain ⟨-, -, rfl⟩ := h
    exact pausedIn_controllerCompatibilityCache
  · cases h

theorem readState_eq_ok {file : Option Json} {found : Option Fields}
    (h : readState site file = .ok found) : file = found.map Json.obj := by
  unfold readState at h
  split at h
  · cases h
    rfl
  · simp only [bind_eq_ok, pure, Except.pure, Except.ok.injEq] at h
    obtain ⟨-, -, rfl⟩ := h
    rfl
  · cases h

end Written

/-! ### What every step keeps -/

section Invariant

variable {site} {s t : State ι} {i j : ι}

/-- Where a process stands: what it holds and what it is about to write. -/
def Stands (s : State ι) (i : ι) : Phase → Prop
  | .holding _ | .leaving => s.authority = some i
  | .writing job document => s.authority = some i ∧
      match job with
      | .set _ _ _ paused => pausedIn (.obj document) = paused
      | .preserve _ => ∀ paused, s.last = some paused → pausedIn (.obj document) = paused
      | .append => False
  | .replacing _ replacement => pausedIn (.obj replacement) = false
  | _ => True

/-- What holds in every reachable state. -/
structure Inv (s : State ι) : Prop where
  kept : Keeps s
  stands : ∀ i, Stands s i (s.phases i)

@[simp] theorem goto_file (phase : Phase) : (s.goto i phase).file = s.file := rfl
@[simp] theorem goto_last (phase : Phase) : (s.goto i phase).last = s.last := rfl
@[simp] theorem goto_authority (phase : Phase) : (s.goto i phase).authority = s.authority := rfl

theorem goto_phases_self (phase : Phase) : (s.goto i phase).phases i = phase :=
  Function.update_self _ _ _

theorem goto_phases_of_ne (h : j ≠ i) (phase : Phase) :
    (s.goto i phase).phases j = s.phases j :=
  Function.update_of_ne h _ _

omit [DecidableEq ι] in
/-- The other processes stand as before when the lock and the last value stay. -/
theorem Stands.of_same {phase : Phase} (h : Stands s j phase)
    (hauthority : s.authority = some j → t.authority = some j)
    (hlast : s.authority = some j → t.last = s.last) : Stands t j phase := by
  cases phase with
  | holding job => exact hauthority h
  | leaving => exact hauthority h
  | writing job document =>
      refine ⟨hauthority h.1, ?_⟩
      cases job with
      | set project repositoryFingerprint stamp paused => exact h.2
      | preserve document =>
          intro paused hpaused
          rw [hlast h.1] at hpaused
          exact h.2 paused hpaused
      | append => exact h.2
  | _ => exact h

/-- A process goes on, and neither the document nor the last value changes. -/
theorem Inv.goto (h : Inv s) {phase : Phase} (hphase : Stands s i phase) :
    Inv (s.goto i phase) := by
  refine ⟨h.kept, fun j => ?_⟩
  by_cases hj : j = i
  · subst hj
    rw [goto_phases_self]
    exact hphase.of_same id fun _ => rfl
  · rw [goto_phases_of_ne hj]
    exact (h.stands j).of_same id fun _ => rfl

/-- The holder of the lock gives it up. -/
theorem Inv.leave (h : Inv s) (hi : s.authority = some i) : Inv (s.leave i) := by
  refine ⟨h.kept, fun j => ?_⟩
  by_cases hj : j = i
  · subst hj
    change Stands (s.leave j) j ((s.goto j .idle).phases j)
    rw [goto_phases_self]
    trivial
  · change Stands (s.leave i) j ((s.goto i .idle).phases j)
    rw [goto_phases_of_ne hj]
    have hother : s.authority ≠ some j := fun hj' => hj (Option.some.inj (hj'.symm.trans hi))
    exact (h.stands j).of_same (fun hj' => absurd hj' hother) fun hj' => absurd hj' hother

/-- A process without the lock replaces the document. -/
theorem Inv.replace (h : Inv s) (phase : Phase) (hphase : Stands s i phase) {document : Json}
    (hdocument : ∀ paused, s.last = some paused → pausedIn document = paused) :
    Inv { s.goto i phase with file := some document } := by
  refine ⟨fun paused hpaused => ⟨document, rfl, hdocument paused hpaused⟩, fun j => ?_⟩
  exact ((h.goto hphase).stands j).of_same id fun _ => rfl

theorem inv_proceed (h : Inv s) (hspares : Spares s i .proceed) : Inv (proceed site s i) := by
  have hi := h.stands i
  unfold Spares spares at hspares
  unfold proceed
  cases hphase : s.phases i with
  | idle => exact h
  | entering job =>
      simp only
      split
      · rename_i hfree
        refine ⟨h.kept, fun j => ?_⟩
        by_cases hj : j = i
        · subst hj
          change Stands _ j ((s.goto j (.holding job)).phases j)
          rw [goto_phases_self]
          rfl
        · change Stands _ j ((s.goto i (.holding job)).phases j)
          rw [goto_phases_of_ne hj]
          have hother : s.authority ≠ some j := by
            rw [hfree]
            exact Option.some_ne_none j |>.symm
          exact (h.stands j).of_same (fun hj' => absurd hj' hother) fun hj' => absurd hj' hother
      · exact h
  | holding job =>
      rw [hphase] at hi
      simp only
      cases hread : readState site s.file with
      | error failure => exact h.goto hi
      | ok found =>
          have hfile := readState_eq_ok hread
          cases job with
          | set project repositoryFingerprint stamp paused =>
              exact h.goto ⟨hi, pausedIn_pausedState⟩
          | preserve document =>
              refine h.goto ⟨hi, fun paused hpaused => ?_⟩
              obtain ⟨latest, hlatest, hflag⟩ := h.kept paused hpaused
              rw [hfile] at hlatest
              cases found with
              | none => cases hlatest
              | some fields =>
                  cases hlatest
                  exact pausedIn_preservedState.trans hflag
          | append => exact h.goto hi
  | writing job document =>
      rw [hphase] at hi
      obtain ⟨hholds, hflag⟩ := hi
      simp only
      cases hwrite : writeState site document with
      | error failure => exact h.goto hholds
      | ok written =>
          have hwritten := pausedIn_written hwrite
          refine ⟨fun paused hpaused => ⟨written, rfl, ?_⟩, fun j => ?_⟩
          · rw [hwritten]
            cases job with
            | set project repositoryFingerprint stamp value =>
                cases hpaused
                exact hflag
            | preserve document => exact hflag paused hpaused
            | append => exact hflag.elim
          · by_cases hj : j = i
            · subst hj
              change Stands _ j ((s.goto j .leaving).phases j)
              rw [goto_phases_self]
              exact hholds
            · change Stands _ j ((s.goto i .leaving).phases j)
              rw [goto_phases_of_ne hj]
              have hother : s.authority ≠ some j := fun hj' =>
                hj (Option.some.inj (hj'.symm.trans hholds))
              exact (h.stands j).of_same id fun hj' => absurd hj' hother
  | leaving =>
      rw [hphase] at hi
      exact h.leave hi
  | reconciling r =>
      simp only
      split <;> exact h.goto trivial
  | drafting r existing =>
      simp only
      split
      · exact h.goto trivial
      · split
        · exact h.goto trivial
        · split <;> exact h.goto trivial
  | reserving plan =>
      simp only
      split
      · have hnext : Inv (s.goto i (.copying plan)) := h.goto trivial
        exact ⟨hnext.kept, fun j => (hnext.stands j).of_same id fun _ => rfl⟩
      · exact h.goto trivial
  | copying plan =>
      simp only
      split <;> exact h.goto trivial
  | inspecting plan original =>
      simp only
      split
      · exact h.goto trivial
      · rename_i replacement hreplacement
        exact h.goto (pausedIn_replacement hreplacement)
  | replacing original replacement =>
      rw [hphase] at hi hspares
      simp only
      cases hwrite : writeState site replacement with
      | error failure => exact h.goto trivial
      | ok written =>
          refine h.replace (.checking original replacement) trivial fun paused hpaused => ?_
          rw [pausedIn_written hwrite, hi]
          cases paused with
          | false => rfl
          | true => exact absurd hpaused (of_decide_eq_true hspares)
  | checking original replacement =>
      simp only
      split
      · exact h.goto trivial
      · split <;> exact h.goto trivial
  | auditing original => exact h.goto trivial
  | comparing original =>
      simp only
      split <;> exact h.goto trivial
  | restoring original =>
      rw [hphase] at hspares
      refine h.replace .finishing trivial fun paused hpaused => ?_
      simp only [hpaused, Option.all_some, decide_eq_true_eq] at hspares
      exact hspares
  | finishing =>
      have hnext : Inv (s.goto i .idle) := h.goto trivial
      exact ⟨hnext.kept, fun j => (hnext.stands j).of_same id fun _ => rfl⟩

theorem inv_raised (h : Inv s) : Inv (raised s i) := by
  have hi := h.stands i
  unfold raised
  cases hphase : s.phases i with
  | holding job =>
      rw [hphase] at hi
      exact h.goto hi
  | writing job document =>
      rw [hphase] at hi
      exact h.goto hi.1
  | leaving =>
      rw [hphase] at hi
      exact h.leave hi
  | _ => exact h.goto trivial

theorem inv_die (h : Inv s) :
    Inv { s.goto i .idle with
      authority := if s.authority = some i then none else s.authority } := by
  have hnext : Inv (s.goto i .idle) := h.goto trivial
  refine ⟨hnext.kept, fun j => ?_⟩
  by_cases hj : j = i
  · subst hj
    change Stands _ j ((s.goto j .idle).phases j)
    rw [goto_phases_self]
    trivial
  · refine (hnext.stands j).of_same (fun hholds => ?_) fun _ => rfl
    have hother : s.authority ≠ some i := fun hi' =>
      hj (Option.some.inj (Eq.trans hholds.symm hi'))
    change (if s.authority = some i then none else s.authority) = some j
    rw [if_neg hother]
    exact hholds

/-- One step of one process. -/
theorem inv_step (h : Inv s) {move : Move} (hspares : Spares s i move) :
    Inv (step site s i move) := by
  cases move with
  | begin operation =>
      unfold step
      cases hphase : s.phases i with
      | idle =>
          cases operation <;> exact h.goto trivial
      | _ => exact h
  | proceed => exact inv_proceed h hspares
  | raise => exact inv_raised h
  | die => exact inv_die h

omit [DecidableEq ι] in
theorem inv_start (file : Option Json) : Inv (State.start (ι := ι) file) :=
  ⟨fun _ hpaused => absurd hpaused.symm (Option.some_ne_none _), fun _ => trivial⟩

/-- In every run in which no repair replaces a document that was last paused, and none writes back
    a document with another flag than the one last set, the document keeps the flag of the last
    `set_operator_paused`. -/
theorem pause_kept (site : PauseSite) {s : State ι} (h : Run site Spares s) : Keeps s := by
  have hinv : Inv s := by
    induction h with
    | start file => exact inv_start file
    | step _ hspares ih => exact inv_step ih hspares
  exact hinv.kept

end Invariant

/-! ### A pause that a repair takes back -/

theorem run_foldl {s : State ι} (h : Run site (fun _ _ _ => True) s) (moves : List (ι × Move)) :
    Run site (fun _ _ _ => True) (moves.foldl (fun s item => step site s item.1 item.2) s) := by
  induction moves generalizing s with
  | nil => exact h
  | cons item rest ih => exact ih (h.step trivial)

/-- The names of the schema's properties, and those it requires. -/
def STATE_PROPERTIES : List String :=
  ["schema_version", "project_id", "repository_fingerprint", "run_id", "current_state",
   "active_milestone", "current_feature", "operator_paused", "last_checkpoint", "stop_reason",
   "human_decision_required", "human_decision_history", "state_evidence", "created_at",
   "updated_at"]

def REQUIRED_PROPERTIES : List String :=
  ["schema_version", "project_id", "repository_fingerprint", "run_id", "current_state",
   "active_milestone", "current_feature", "last_checkpoint", "stop_reason",
   "human_decision_required", "created_at", "updated_at"]

def sampleSite : PauseSite where
  platform := Platform.reference
  validateState
    | .obj fields => do
        require (∀ key ∈ Fields.keys fields, key ∈ STATE_PROPERTIES)
          ⟨.schemaValidationError, "additional properties"⟩
        require (∀ key ∈ REQUIRED_PROPERTIES, key ∈ Fields.keys fields)
          ⟨.schemaValidationError, "missing property"⟩
    | _ => .error ⟨.schemaValidationError, "not an object"⟩
  schemaProperties := STATE_PROPERTIES
  sha256 _ := "36b3e9131baa8ff971dfaee6efb493f6ccd8e589315495201ea0bd5e392903be"

def sampleProject : PauseProject := ⟨"project", "integration_pending", some "M001", .null⟩

def malformedState : Fields :=
  .ofPairs
    [("schema_version", .int 1), ("project_id", .str "project"),
     ("repository_fingerprint", .str "ffffffff"), ("run_id", .str "feature-recovery-1"),
     ("current_state", .str "integration_pending"), ("active_milestone", .str "M001"),
     ("current_feature", .str "F001"), ("last_checkpoint", .str "feature_accepted"),
     ("stop_reason", .null), ("human_decision_required", .null),
     ("created_at", .str "2026-01-01T00:00:00+00:00"),
     ("updated_at", .str "2026-01-01T00:00:00+00:00"),
     ("kernel_transaction_id", .str "recovery-1"),
     ("current_run_id", .str "feature-recovery-1")]

def samplePlan : RepairPlan where
  projectId := "project"
  repositoryFingerprint := "ffffffff"
  activeMilestone := some "M001"
  recoveryTransactionId := "recovery-1"
  recoveryRunId := "feature-recovery-1"
  malformedCacheSha256 := "36b3e9131baa8ff971dfaee6efb493f6ccd8e589315495201ea0bd5e392903be"
  unsupportedKeys := ["current_run_id", "kernel_transaction_id"]
  projection := .ofPairs
    [("current_state", .str "integration_pending"), ("human_gate", .null),
     ("ledger_sequence", .int 497), ("ledger_fingerprint", .str "0a9638c7"),
     ("projection_fingerprint", .str "922f90cf")]
  executionPlan := .ofPairs [("feature_id", .str "F001")]

def samplePause : Job := .set sampleProject "ffffffff" "2026-01-02T00:00:00+00:00" true

/-- A process pauses the project, without another one in its way. -/
theorem pause_kept_set : ∃ s : State Bool, s.last = some true ∧ Keeps s := by
  let start : State Bool := State.start none
  have hrun : Run sampleSite Spares (step sampleSite (step sampleSite (step sampleSite
      (step sampleSite (step sampleSite start true (.begin (.locked samplePause))) true .proceed)
        true .proceed) true .proceed) true .proceed) :=
    (((((Run.start none).step rfl).step (by decide +kernel)).step (by decide +kernel)).step
      (by decide +kernel)).step (by decide +kernel)
  exact ⟨_, by decide +kernel, pause_kept sampleSite hrun⟩

/-- The pause falls between the write of a repair and its reading back: the repair takes the other
    document for a failed write and puts the malformed one back. -/
def lostMoves : List (Bool × Move) :=
  [(false, .begin (.repair samplePlan)), (false, .proceed), (false, .proceed), (false, .proceed),
   (false, .proceed),
   (true, .begin (.locked samplePause)), (true, .proceed), (true, .proceed), (true, .proceed),
   (true, .proceed),
   (false, .proceed), (false, .proceed), (false, .proceed), (false, .proceed)]

def lostState : State Bool :=
  lostMoves.foldl (fun s item => step sampleSite s item.1 item.2)
    (State.start (some (.obj malformedState)))

/-- All operations have finished, and the document lacks the flag. -/
theorem lostState_finished :
    (lostState.last, lostState.file.map pausedIn, (lostState.phases false).isIdle,
      (lostState.phases true).isIdle) = (some true, some false, true, true) := by
  decide +kernel

theorem pause_lost :
    ∃ s : State Bool, Run sampleSite (fun _ _ _ => True) s ∧ (∀ i, (s.phases i).isIdle) ∧
      ¬Keeps s := by
  have hfinished := lostState_finished
  simp only [Prod.mk.injEq] at hfinished
  obtain ⟨hlast, hfile, hrepair, hset⟩ := hfinished
  refine ⟨lostState, run_foldl sampleSite (.start _) lostMoves, fun i => ?_, fun hkeeps => ?_⟩
  · cases i with
    | false => exact hrepair
    | true => exact hset
  · obtain ⟨document, hdocument, hpaused⟩ := hkeeps true hlast
    rw [hdocument, Option.map_some, hpaused] at hfile
    cases hfile

end Conveyor.OperatorPause
