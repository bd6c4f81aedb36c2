import Conveyor.Library.Call
import Conveyor.Library.Dict
import Conveyor.AutopilotOwnership
import Conveyor.Redaction

/-!
# The autopilot loop

The unattended loop of `Autopilot.apply` (`autopilot.py`). A pass takes a plan, stops at a
gate, or invokes the route of the plan's action and judges the result; it either finishes the
run or the loop goes on to the next pass. Retry budgets, repeated failure signatures and
recovery attempts are counted over the whole run.

The engine, the consistency checker, the routes and the stop file are what the environment
says they are at the time of the call, and every call on them may fail. The accounting of
sessions and of time in the feature records is left out.
-/

namespace Conveyor

open Library

def CANONICAL_ACTION_ALIASES : Dict String :=
  [("feature_execution", "feature_cycle"), ("integration_ready", "milestone_integration"),
   ("planning_recovery", "planning_finalization")]

def DETERMINISTIC_RECOVERY_ROUTES : List String :=
  ["cache_binding_recovery", "cycle_cache_repair", "planning_finalization",
   "feature_result_recovery", "retained_feature_repair_recovery", "accepted_commit_recovery",
   "feature_prelaunch_recovery", "integration_finalization_recovery", "kernel_recovery",
   "authenticated_writer_lease_recovery", "trusted_host_validation"]

def MODEL_BACKED_REPAIR_ROUTES : List String := ["retained_feature_repair"]

/-- The actions whose failure to recover is a result and not an error. -/
def RECOVERY_ACTIONS : List String :=
  ["cache_binding_recovery", "cycle_cache_repair", "planning_finalization",
   "integration_finalization_recovery", "kernel_recovery", "verify_consistency",
   "feature_result_recovery", "retained_feature_repair_recovery", "retained_feature_repair",
   "accepted_commit_recovery", "feature_prelaunch_recovery"]

/-- The outcomes that count against the budgets. -/
def FAILED_OUTCOMES : List String :=
  ["validation_failed", "planning_validation_failed", "invalid_queue", "retry_exhausted",
   "TERMINAL_FEATURE_FAILURE", "TERMINAL_PLANNING_FAILURE", "VALIDATION_FAILED",
   "deterministic_recovery_failed", "repair_exhausted"]

def FEATURE_RESULT_RECOVERY_CAPABILITY_VERSION : String :=
  "prepared-checkpoint-and-prelaunch-lineage-v3"

/-! ### Retry budgets -/

inductive RetryBudget where
  | implementation | validation | deterministicRecovery | planning | integrationFinalization
deriving DecidableEq, Repr

namespace RetryBudget

def key : RetryBudget → String
  | implementation => "implementation_retries_per_feature"
  | validation => "validation_retries"
  | deterministicRecovery => "deterministic_recovery_attempts"
  | planning => "planning_retries"
  | integrationFinalization => "integration_finalization_retries"

def all : List RetryBudget :=
  [implementation, validation, deterministicRecovery, planning, integrationFinalization]

theorem mem_all (budget : RetryBudget) : budget ∈ all := by
  cases budget <;> decide

end RetryBudget

def DEFAULT_RETRY_BUDGETS : RetryBudget → Int
  | .implementation => 3
  | .validation => 2
  | .deterministicRecovery => 3
  | .planning => 2
  | .integrationFinalization => 2

/-- `_retry_budget_key`. -/
def retryBudgetKey (P : Platform) (action outcome : String) : RetryBudget :=
  if containsText "validation".toList (P.lower outcome.toList) then .validation
  else if action = "feature_cycle" then .implementation
  else if action = "queue_reconciliation" then .planning
  else if action ∈ ["milestone_integration", "integration_finalization_recovery"] then
    .integrationFinalization
  else .deterministicRecovery

/-! ### Plans -/

/-- `_projection`. -/
def planProjection (plan : Fields) : Fields :=
  match plan.get "kernel_projection" with
  | .obj projection => projection
  | _ => []

/-- `_action`. -/
def planAction (P : Platform) (plan : Fields) : String :=
  let raw := P.str (firstTruthy
    [plan.get "proposed_next_action", plan.get "next_action",
     (planProjection plan).get "allowed_next_action", .str "verify_consistency"])
  (CANONICAL_ACTION_ALIASES.get? raw).getD raw

/-- `_feature`: a later source is only asked when the ones before it say nothing. -/
def planFeature (plan : Fields) : Result (Option String) := do
  let selected := plan.get "selected_feature"
  let executable ← if selected.truthy then pure selected
    else snapshotField (plan.get "executable_plan") "feature_id"
  match firstTruthy [selected, executable, (planProjection plan).get "selected_next_feature",
      (planProjection plan).get "current_feature"] with
  | .str feature => return if feature = "" then none else some feature
  | _ => return none

/-- `_state`. -/
def planState (P : Platform) (plan : Fields) : String :=
  P.str (firstTruthy [plan.get "current_state", (planProjection plan).get "current_state",
    .str "unknown"])

/-- Which recognition lets an action pass the consistency check and the gates. -/
def recognition : Dict String :=
  [("feature_result_recovery", "recognized_technical_recovery"),
   ("feature_prelaunch_recovery", "recognized_technical_recovery"),
   ("retained_feature_repair", "recognized_technical_repair"),
   ("retained_feature_repair_recovery", "recognized_technical_recovery")]

/-- `recognized_recovery`. -/
def recognizedRecovery (P : Platform) (plan : Fields) : Bool :=
  match recognition.get? (planAction P plan) with
  | some field => plan.get field = .bool true
  | none => false

/-- What the plan after a gated result must be for the loop to go on. -/
def resumesAfterGate (P : Platform) (plan : Fields) : Bool :=
  planAction P plan ≠ "feature_prelaunch_recovery" && recognizedRecovery P plan

/-! ### Results -/

/-- `str(result.get("outcome") or result.get("classification") or "")`. -/
def resultOutcome (P : Platform) (result : Fields) : String :=
  P.str (firstTruthy [result.get "outcome", result.get "classification", .str ""])

inductive ResultTerminal where
  | humanGate | completed
deriving DecidableEq, Repr

/-- `_terminal_result`. -/
def terminalResult (P : Platform) (result : Fields) : Option ResultTerminal :=
  let outcome := resultOutcome P result
  if outcome ∈ ["human_decision_required", "human_merge_approval", "HUMAN_DECISION_REQUIRED",
      "SEMANTIC_CONFLICT"] ∨ (result.get "human_gate").truthy = true then some .humanGate
  else if outcome ∈ ["milestone_complete", "portfolio_complete", "already_completed",
      "AUTOPILOT_COMPLETED"] then some .completed
  else none

/-- `recovery_failed`. -/
def recoveryFailed (P : Platform) (result : Fields) : Bool :=
  result.get "recoverable_technical_failure" = .bool true ||
    decide (resultOutcome P result ∈
      ["deterministic_recovery_failed", "validation_failed", "VALIDATION_FAILED",
       "repair_exhausted"])

/-- The result of a recovery whose route raised a `RecoveryError`. -/
def failedRecovery (P : Platform) (failure : Failure) : Fields :=
  Fields.ofPairs
    [("outcome", .str "deterministic_recovery_failed"),
     ("reason", .str (redactText P failure.message)),
     ("recoverable_technical_failure", .bool true), ("human_gate_created", .bool false),
     ("model_sessions_launched", .int 0), ("child_sessions_launched", .int 0)]

/-- `_failure_signature`. -/
def failureSignature (P : Platform) (action : String) (plan result : Fields) : Result String := do
  let feature ← planFeature plan
  return P.textDigest (Platform.dumpsSpaced (.obj (Fields.ofPairs
    [("action", .str action), ("feature", .ofOption feature), ("state", .str (planState P plan)),
     ("outcome", result.get "outcome"), ("classification", result.get "classification"),
     ("reason", firstTruthy [result.get "reason", result.get "diagnostic"])])))

/-- What is kept of the evidence of a deterministic recovery. -/
structure RecoveryEvidence where
  fingerprint : String
  capabilityVersion : String
  preflightDiagnostic : String

/-- `_deterministic_recovery_evidence`, for the snapshot that it captured. -/
def deterministicRecoveryEvidence (P : Platform) (projectId action : String)
    (plan result : Fields) (snapshot : Json) : Result RecoveryEvidence := do
  let routeEvidence : Fields := match plan.get action with | .obj fields => fields | _ => []
  let capabilityVersion := P.str (firstTruthy
    [routeEvidence.get "recovery_capability_version",
     .str (if action = "feature_result_recovery" then FEATURE_RESULT_RECOVERY_CAPABILITY_VERSION
       else "deterministic-recovery-v1")])
  let diagnostic := P.str (firstTruthy
    [result.get "reason", result.get "diagnostic", routeEvidence.get "preflight_error",
     .str "deterministic recovery preflight failed"])
  let feature ← planFeature plan
  let projection := ["ledger_sequence", "ledger_fingerprint", "projection_fingerprint",
    "current_state", "current_feature", "selected_next_feature", "active_transaction",
    "human_gate"].map fun key => (key, (planProjection plan).get key)
  let evidence := Fields.ofPairs
    [("action", .str action), ("capability_version", .str capabilityVersion),
     ("project_id", .str projectId), ("feature", .ofOption feature),
     ("state", .str (planState P plan)),
     ("recognized_technical_recovery", plan.get "recognized_technical_recovery"),
     ("route_evidence", .obj routeEvidence),
     ("technical_gate_to_supersede", plan.get "technical_gate_to_supersede"),
     ("projection", .obj (Fields.ofPairs projection)), ("repository_snapshot", snapshot),
     ("preflight_diagnostic", .str diagnostic)]
  return ⟨P.textDigest (Platform.dumpsAscii (.obj evidence)), capabilityVersion, diagnostic⟩

/-! ### Routes -/

/-- The evidence fields that a recovery route needs. -/
def RECOVERY_FIELDS : Dict (List String) :=
  [("feature_prelaunch_recovery",
    ["feature_id", "autopilot_run_id", "expected_branch", "expected_head"]),
   ("feature_result_recovery",
    ["feature_id", "original_transaction_id", "original_run_id", "original_session_id",
     "expected_branch", "expected_head"]),
   ("retained_feature_repair",
    ["feature_id", "original_transaction_id", "failed_recovery_transaction_id",
     "expected_branch", "expected_head"]),
   ("retained_feature_repair_recovery", ["feature_id", "repair_transaction_id"]),
   ("accepted_commit_recovery",
    ["feature_id", "candidate_commit", "milestone_base", "feature_branch",
     "feature_transaction_id", "acceptance_transaction_id"])]

/-- The mode in which the engine runs the project for an action. -/
def RUN_MODES : Dict String :=
  [("cache_binding_recovery", "resume"), ("planning_finalization", "resume"),
   ("integration_finalization_recovery", "resume"), ("kernel_recovery", "resume"),
   ("verify_consistency", "resume"), ("feature_cycle", "one_feature"),
   ("queue_reconciliation", "milestone"), ("milestone_integration", "milestone"),
   ("milestone_gate", "milestone")]

/-- What a route runs: a recovery on the named evidence, the repair of the cycle cache, or
    the engine. -/
inductive Route where
  | recovery (evidence : Fields)
  | cycleCacheRepair
  | engine (mode : String)
deriving DecidableEq

/-- `_recovery_fields`, with the fields that the caller takes from it. -/
def recoveryFields (plan : Fields) (key : String) (required : List String) : Result Fields :=
  match plan.get key with
  | .obj value => do
      let missing := required.filter fun field => !isText (Fields.get value field)
      let names := ", ".intercalate missing
      require (missing = []) (conveyorError s!"{key} route lacks exact fields: {names}")
      return Fields.ofPairs (required.map fun field => (field, Fields.get value field))
  | _ => .error (conveyorError s!"{key} route lacks exact recovery evidence")

/-- `_route`, up to the call. -/
def routeOf (action : String) (plan : Fields) : Result Route :=
  match RECOVERY_FIELDS.get? action with
  | some required => (recoveryFields plan action required).map .recovery
  | none =>
      if action = "cycle_cache_repair" then .ok .cycleCacheRepair
      else match RUN_MODES.get? action with
        | some mode => .ok (.engine mode)
        | none => .error (conveyorError s!"autopilot has no registered route for {action}")

end Conveyor
