import Conveyor.StateMachine

/-!
# Startup reconciliation

What the controller makes of the persisted state of a project when it starts
(`assess_startup_reconciliation` in `recovery.py`): the state that the evidence supports, and
the path of moves that would bring the persisted state there.
-/

namespace Conveyor

open Library

/-- The fields of a registered project that the assessment reads. -/
structure StartupProject where
  projectId : String
  milestoneBranch : Option String
  lastAcceptedCommit : Option String
  currentState : String

/-- What the assessment reads outside its arguments: the queue file, the repository with its
    adapter, and the reading of a time. -/
structure StartupSite where
  platform : Platform
  readBytes : String → Result (List UInt8)
  adapter : Result (Option Json)
  inspector : Result Unit
  refExists : String → Result Bool
  isAncestor : String → String → Result Bool
  instant : String → Result (Option Int)

structure StartupReconciliation where
  classification : String
  persistedState : String
  derivedState : String
  transitionPath : List String
  wouldPersist : Bool
  reason : String
  evidence : Fields
  humanDecision : Option Fields

/-! ### Reading the evidence -/

/-- `value or {}` where only its fields are read afterwards. -/
def objectOrEmpty (value : Json) : Result Fields :=
  match value with
  | .obj fields => .ok fields
  | value =>
      if value.truthy then .error ⟨.attributeError, "object has no attribute 'get'"⟩ else .ok []

/-- `any((value or {}).values())`. -/
def anyValue (value : Json) : Result Bool := do
  let fields ← objectOrEmpty value
  return fields.any fun field => field.2.truthy

/-- `set(value or [])`. -/
def pySet (value : Json) : Result (List Json) :=
  match value with
  | .arr items => items.mapM hashKey
  | .obj fields => .ok (Fields.keys fields |>.map Json.str)
  | .str text => .ok (text.toList.map fun c => .str (String.singleton c))
  | value =>
      if value.truthy then .error ⟨.typeError, "object is not iterable"⟩ else .ok []

/-- `_queue_fingerprint`. -/
def queueFingerprint (site : StartupSite) (path : Json) : Result Json :=
  match path with
  | .str path =>
      if path = "" then .ok .null
      else
        match site.readBytes path with
        | .ok bytes => .ok (.str (site.platform.hexdigest bytes))
        | .error failure => if failure.kind = .osError then .ok .null else .error failure
  | path =>
      if path.truthy then .error ⟨.typeError, "argument should be a str or an os.PathLike object"⟩
      else .ok .null

/-- `_gate_reopen_policy`. -/
def gateReopenPolicy (site : StartupSite) : Result (Bool × String) := do
  let integration := fun adapter : Json => match adapter with
    | .obj fields => Fields.get fields "integration"
    | _ => Json.null
  match ← site.adapter with
  | none => return (false, "repository adapter could not be read as JSON-compatible YAML")
  | some adapter =>
      match integration adapter with
      | .obj fields =>
          if Fields.get fields "rerun_milestone_gates" = .bool true then
            return (true, "integration.rerun_milestone_gates is true")
          else return (false, "repository policy does not explicitly permit rerunning milestone gates")
      | _ => return (false, "repository policy does not explicitly permit rerunning milestone gates")

/-- `_timestamp_after`. -/
def timestampAfter (site : StartupSite) (value baseline : Json) : Result Bool :=
  match value, baseline with
  | .str value, .str baseline =>
      if value = "" ∨ baseline = "" then .ok false
      else do
        match ← site.instant value, ← site.instant baseline with
        | some first, some second => return decide (second < first)
        | _, _ => return false
  | _, _ => .ok false

/-- `str((persisted or {}).get("current_state") or project.current_state)`. -/
def persistedStateOf (P : Platform) (project : StartupProject) (persisted : Option Fields) :
    String :=
  P.str (firstTruthy [(persisted.getD []).get "current_state", .str project.currentState])

/-- The values that the assessment starts with. -/
structure StartupInputs where
  persisted : Option Fields
  persistedState : String
  queue : Fields
  repository : Fields
  locks : Json
  activeCycle : Json
  queueClassification : Json
  selectedFeature : Json
  milestoneComplete : Bool
  currentHead : Json
  stateEvidence : Json
  queueFingerprint : Json
  evidence : Fields
  /-- The plan's evidence of a deterministic failure. -/
  deterministicFailure : Option Fields
  authoritativeIntegrationFailure : Bool

/-- The evidence of a session that failed deterministically. -/
def deterministicFailureOf (plan : Fields) : Option Fields :=
  match plan.get "stale_cycle_evidence" with
  | .obj failure =>
      if Fields.get failure "classification" = .str "deterministic_failed_cycle" then some failure
      else none
  | _ => none

/-- The terminal integrated the feature, but the evidence of it is not complete. -/
def authoritativeFailureOf (plan : Fields) : Result Bool :=
  match plan.get "durable_integration_success" with
  | .obj durable => do
      let terminal ← snapshotField (Fields.get durable "checks") "terminal_integrated"
      return decide (terminal = .bool true ∧ Fields.get durable "success" ≠ .bool true)
  | _ => .ok false

def startupInputs (site : StartupSite) (project : StartupProject) (persisted : Option Fields)
    (plan : Fields) : Result StartupInputs := do
  let state := persistedStateOf site.platform project persisted
  let queue ← objectOrEmpty (plan.get "queue_status")
  let repository ← objectOrEmpty (plan.get "repository_state")
  let locks := firstTruthy [plan.get "lock_status", .obj []]
  let queueClassification := queue.getD "reconciliation_classification" (.str "invalid_queue")
  let selectedFeature := plan.get "selected_feature"
  let milestoneComplete := decide (queue.get "milestone_complete" = .bool true)
  let currentHead := repository.get "head"
  let stateEvidence := (persisted.getD []).get "state_evidence"
  let fingerprint ← Conveyor.queueFingerprint site (queue.get "resolved_queue_path")
  let evidence : Fields :=
    [("queue_classification", queueClassification),
     ("queue_valid", .bool (decide (queue.get "valid" = .bool true))),
     ("milestone_complete", .bool milestoneComplete),
     ("selected_feature", selectedFeature),
     ("milestone_head", currentHead),
     ("queue_fingerprint", fingerprint),
     ("prior_state_decision_commit", match stateEvidence with
        | .obj prior => Fields.get prior "milestone_head"
        | _ => .ofOption project.lastAcceptedCommit),
     ("prior_state_decision_checkpoint", (persisted.getD []).get "last_checkpoint"),
     ("prior_state_decision_timestamp", (persisted.getD []).get "updated_at"),
     ("prior_gate_evidence", match stateEvidence with
        | .obj prior => .obj prior
        | _ => .null),
     ("git_operations", repository.get "git_operations"),
     ("repository_clean", repository.get "clean"),
     ("repository_branch", repository.get "branch"),
     ("repository_cycle_state_exists", repository.get "cycle_state_exists"),
     ("repository_worktrees", repository.get "worktrees"),
     ("repository_local_branches", repository.get "local_branches"),
     ("locks", locks),
     ("stale_cycle_evidence", plan.get "stale_cycle_evidence"),
     ("durable_integration_success", plan.get "durable_integration_success")]
  let authoritative ← authoritativeFailureOf plan
  return {
    persisted := persisted
    persistedState := state
    queue := queue
    repository := repository
    locks := locks
    activeCycle := plan.get "existing_active_cycle"
    queueClassification := queueClassification
    selectedFeature := selectedFeature
    milestoneComplete := milestoneComplete
    currentHead := currentHead
    stateEvidence := stateEvidence
    queueFingerprint := fingerprint
    evidence := evidence
    deterministicFailure := deterministicFailureOf plan
    authoritativeIntegrationFailure := authoritative }

/-! ### The exits -/

namespace StartupInputs

/-- An exit that leaves the persisted state and names no path. -/
def stop (inputs : StartupInputs) (classification derived reason : String)
    (decision : Option Fields) : StartupReconciliation :=
  ⟨classification, inputs.persistedState, derived, [], false, reason, inputs.evidence, decision⟩

/-- An exit that keeps the persisted state. -/
def keep (inputs : StartupInputs) (classification reason : String) : StartupReconciliation :=
  ⟨classification, inputs.persistedState, inputs.persistedState, [inputs.persistedState], false,
   reason, inputs.evidence, none⟩

/-- An exit that moves straight to a state, whatever the persisted one is. -/
def moveTo (inputs : StartupInputs) (classification target reason : String)
    (decision : Option Fields) : StartupReconciliation :=
  ⟨classification, inputs.persistedState, target,
   if inputs.persistedState = target then [inputs.persistedState]
   else [inputs.persistedState, target],
   inputs.persistedState ≠ target, reason, inputs.evidence, decision⟩

end StartupInputs

def reasonField (reason : String) : Fields := [("reason", .str reason)]

/-- The exit for a cycle that is still open. -/
def activeCycleExit (inputs : StartupInputs) : Result StartupReconciliation :=
  match inputs.activeCycle with
  | .obj cycle =>
      if Fields.get cycle "phase" = .str "invalid" then
        .ok (inputs.stop "invalid_state_evidence" "human_decision_required"
          "repository cycle state is unreadable or invalid"
          (some [("reason", .str "invalid repository cycle state"),
            ("safe_action", .str "inspect and preserve the cycle file")]))
      else
        .ok (inputs.stop "active_cycle_resume" inputs.persistedState
          "a corroborated repository-local cycle must resume before new work" none)
  | _ => .error ⟨.attributeError, "object has no attribute 'get'"⟩

/-- A deterministic failure whose remediation is verified. -/
def remediated (failure : Fields) : Bool := (failure.get "environment_remediation_verified").truthy

def deterministicFailureExit (project : StartupProject) (inputs : StartupInputs)
    (failure : Fields) : StartupReconciliation :=
  inputs.moveTo "deterministic_failure_human_gate" "human_decision_required"
    "the failed session is non-retryable until Codex compatibility remediation is verified"
    (some
      [("reason", .str "local Codex compatibility remediation is required"),
       ("classification", failure.get "failure_classification"),
       ("attempts_consumed", failure.get "attempts_consumed"),
       ("environment_remediation_verified", .bool false),
       ("safe_action", .str s!"scripts/conveyor doctor --project {project.projectId}"),
       ("safe_continuation_command",
         .str s!"scripts/conveyor resume --project {project.projectId}"),
       ("old_session_will_resume", .bool false)])

def PENDING_PLANNING_STATUSES : List Json :=
  [.str "planning_changes_pending_validation", .str "planning_changes_validated",
   .str "planning_changes_committing"]

/-- The planning transaction that is still to be finalized. -/
def pendingPlanning (project : StartupProject) (plan repository : Fields) :
    Result (Option Fields) :=
  match plan.get "current_planning_transaction" with
  | .obj planning => do
      let status ← hashKey (Fields.get planning "status")
      if status ∈ PENDING_PLANNING_STATUSES ∧
          repository.get "branch" = .ofOption project.milestoneBranch ∧
          repository.get "head" = repository.get "milestone_branch_head" then
        if ← anyValue (repository.get "git_operations") then return none
        else return some planning
      else return none
  | _ => .ok none

/-- A writer or a controller holds a lock. -/
def lockHeld (locks : Json) : Result Bool := do
  let locks ← objectOrEmpty locks
  let writer ← snapshotField (locks.get "repository_writer") "exists"
  if writer.truthy then return true
  else
    let launch ← snapshotField (locks.get "controller_launch") "exists"
    return launch.truthy

/-- The repository is not what a repair may start from. -/
def repositoryUnfit (project : StartupProject) (repository : Fields) : Result Bool := do
  if repository.get "clean" ≠ .bool true then return true
  else if ← anyValue (repository.get "git_operations") then return true
  else
    return decide (repository.get "branch" ≠ .ofOption project.milestoneBranch ∨
      repository.get "head" ≠ repository.get "milestone_branch_head" ∨
      repository.get "baseline_exists" ≠ .bool true ∨
      repository.get "milestone_branch_exists" ≠ .bool true ∨
      repository.get "baseline_is_ancestor_of_milestone" ≠ .bool true)

/-- What keeps the assessment from deriving a state. -/
inductive StartupBlock where
  | planning (transaction : Fields)
  | locked
  | unfit
  | invalidQueue

def startupBlock (project : StartupProject) (plan : Fields) (inputs : StartupInputs) :
    Result (Option StartupBlock) := do
  match ← pendingPlanning project plan inputs.repository with
  | some transaction => return some (.planning transaction)
  | none =>
      if ← lockHeld inputs.locks then return some .locked
      else if ← repositoryUnfit project inputs.repository then return some .unfit
      else if inputs.queue.get "valid" ≠ .bool true ∨
          inputs.queueClassification = .str "invalid_queue" then
        return some .invalidQueue
      else return none

def StartupBlock.exit (inputs : StartupInputs) : StartupBlock → StartupReconciliation
  | planning transaction =>
      { inputs with
        evidence := inputs.evidence.set "current_planning_transaction" (.obj transaction) }.keep
          "planning_transaction_pending"
          "authorized planning changes are pending phase-scoped finalization"
  | locked =>
      inputs.stop "human_decision_required" "human_decision_required"
        "state repair is blocked by an existing writer or controller reservation"
        (some (reasonField "lock ownership must be reconciled before state repair"))
  | unfit =>
      inputs.stop "human_decision_required" "human_decision_required"
        ("startup state repair requires a clean repository at the configured milestone HEAD with " ++
          "verified ancestry and no active Git operation")
        (some (reasonField "preserve repository work and reconcile milestone-branch Git evidence"))
  | invalidQueue =>
      inputs.stop "invalid_state_evidence" "validation_failed"
        "queue parsing did not produce valid deterministic evidence" none

/-! ### The derived state -/

/-- `targets.get(classification, "validation_failed")`. -/
def targetOf : String → String
  | "reconciled_ready_work" => "feature_ready"
  | "reconciled_no_ready_work" => "paused"
  | "milestone_complete" => "milestone_gate"
  | "legitimately_blocked" => "paused"
  | "human_decision_required" => "human_decision_required"
  | _ => "validation_failed"

def derivedStateOf (P : Platform) (inputs : StartupInputs) : Result String := do
  let derived := targetOf (P.str inputs.queueClassification)
  if inputs.queueClassification = .str "reconciled_no_ready_work" then
    let proposed ← snapshotField (inputs.queue.get "status_counts") "proposed"
    if proposed.truthy ∧ inputs.persistedState ≠ "paused" then return "queue_reconciliation"
    else return derived
  else return derived

/-- What the derived state contradicts. -/
def contradiction (inputs : StartupInputs) (derived : String) : Option StartupReconciliation :=
  if derived = "feature_ready" ∧ inputs.selectedFeature.truthy = false then
    some (inputs.stop "invalid_state_evidence" "human_decision_required"
      "ready-work classification has no deterministic selected feature"
      (some (reasonField "queue classification and feature selection contradict each other")))
  else if inputs.milestoneComplete = true ∧ derived ≠ "milestone_gate" then
    some (inputs.stop "invalid_state_evidence" "human_decision_required"
      "milestone completion contradicts the queue reconciliation classification"
      (some (reasonField "contradictory milestone evidence")))
  else none

/-- The head moved on after the gate passed on an ancestor of it. -/
def headAdvanced (site : StartupSite) (priorHead currentHead headTimestamp gateTimestamp : Json) :
    Result Bool :=
  match priorHead, currentHead with
  | .str first, .str second =>
      if first = second then .ok false
      else do
        if ← site.refExists first then
          if ← site.isAncestor first second then
            timestampAfter site headTimestamp gateTimestamp
          else return false
        else return false
  | _, _ => .ok false

/-- The evidence of a passed milestone gate, and whether the gate may be reopened. -/
def reopenGate (site : StartupSite) (project : StartupProject) (inputs : StartupInputs) :
    Result (Fields × Option Fields) := do
  let prior : Fields := match inputs.stateEvidence with
    | .obj prior => prior
    | _ => []
  let persisted := inputs.persisted.getD []
  let priorHead := firstTruthy [prior.get "milestone_head", prior.get "gate_evidence_commit"]
  let priorQueue := prior.get "queue_fingerprint"
  let gateTimestamp := prior.get "gate_evidence_timestamp"
  site.inspector
  let advanced ← headAdvanced site priorHead inputs.currentHead
    (inputs.repository.get "head_commit_timestamp") gateTimestamp
  let queueChanged := priorQueue.asString?.isSome && decide (priorQueue ≠ inputs.queueFingerprint)
  let (policyAllows, policyReason) ← gateReopenPolicy site
  let provenance := decide (persisted.get "last_checkpoint" = .str "milestone_gate_passed") &&
    (match persisted.get "human_decision_required" with
      | .obj gate =>
          decide (Fields.get gate "milestone_branch" = .ofOption project.milestoneBranch ∧
            Fields.get gate "default_branch_merge_performed" = .bool false)
      | _ => false) &&
    decide (prior.get "gate_evidence_commit" = prior.get "milestone_head") &&
    gateTimestamp.truthy
  let evidence := inputs.evidence.update
    [("milestone_inputs_changed_after_gate", .bool advanced),
     ("milestone_head_advanced_after_gate", .bool advanced),
     ("queue_changed_after_gate", .bool queueChanged),
     ("gate_reopen_policy", .str policyReason),
     ("gate_evidence_provenance_valid", .bool provenance)]
  if !advanced || !policyAllows || !gateTimestamp.truthy || !provenance then
    return (evidence, some
      [("reason", .str "milestone-ready state requires explicit gate-evidence validation"),
       ("inputs_changed", .bool advanced),
       ("policy_allows_reopen", .bool policyAllows)])
  else return (evidence, none)

/-- The states that a repair may start from. -/
def REPAIRABLE : List String :=
  ["milestone_gate", "milestone_ready_for_merge", "feature_ready", "feature_running",
   "feature_accepted", "queue_reconciliation", "validation_failed", "human_decision_required",
   "repository_dirty", "architecture_decision_required", "conveyor_error", "paused"]

/-- The current feature of a running project is complete in the queue. -/
def featureCompleted (inputs : StartupInputs) : Result Bool := do
  let feature := (inputs.persisted.getD []).get "current_feature"
  let completed ← pySet (inputs.queue.get "completed_features")
  if inputs.persistedState = "feature_running" ∧ feature.truthy = true then
    let key ← hashKey feature
    return decide (key ∈ completed)
  else return false

open StateMachine in
def repairPath (persistedState derived : String) (accepted failed : Bool) : List String :=
  let path := [persistedState]
  let path := if accepted then path ++ ["feature_accepted"] else path
  let path := if failed then extend path "human_decision_required" else path
  let path := extend path "queue_reconciliation"
  if derived ≠ "queue_reconciliation" then path ++ [derived] else path

/-- The exits of a project whose persisted state is not the derived one. -/
def repair (P : Platform) (inputs : StartupInputs) (derived : String) :
    Result StartupReconciliation := do
  if inputs.persistedState = "human_decision_required" ∧
      (inputs.deterministicFailure.any remediated) = false then
    return inputs.stop "human_decision_required" "human_decision_required"
      "the recorded human decision has not been explicitly resolved"
      (some (reasonField "explicit resolution evidence is required"))
  else if inputs.persistedState ∉ REPAIRABLE then
    return inputs.stop "human_decision_required" "human_decision_required"
      s!"no safe startup-reconciliation route is defined from {inputs.persistedState}"
      (some (reasonField "unsupported persisted state for automatic repair"))
  else
    let accepted ← featureCompleted inputs
    let path := repairPath inputs.persistedState derived accepted
      inputs.deterministicFailure.isSome
    let shown := P.str inputs.queueClassification
    return ⟨"stale_state_repaired", inputs.persistedState, derived, path, true,
      s!"persisted {inputs.persistedState} no longer matches verified {shown} evidence; " ++
        "the obsolete execution intent must be invalidated before scheduling",
      inputs.evidence, none⟩

/-- The assessment once nothing blocks it. -/
def assessDerived (site : StartupSite) (project : StartupProject) (inputs : StartupInputs) :
    Result StartupReconciliation := do
  if inputs.persisted.isNone ∧ inputs.persistedState = "queue_reconciliation" then
    return inputs.keep "state_consistent"
      ("no durable project state exists; the configured queue-reconciliation entry state remains " ++
        "authoritative")
  else
    let derived ← derivedStateOf site.platform inputs
    match contradiction inputs derived with
    | some exit => return exit
    | none =>
        if inputs.persistedState = derived then
          return inputs.keep "state_consistent"
            "persisted state agrees with verified repository and queue evidence"
        else if inputs.persistedState = "milestone_ready_for_merge" then
          match ← reopenGate site project inputs with
          | (evidence, some decision) =>
              return { inputs with evidence := evidence }.stop "human_decision_required"
                "human_decision_required"
                ("a passed milestone gate cannot be reopened without changed recorded inputs, " ++
                  "timestamped gate evidence, and policy authority")
                (some decision)
          | (evidence, none) =>
              repair site.platform { inputs with evidence := evidence } derived
        else repair site.platform inputs derived

def assessStartupReconciliation (site : StartupSite) (project : StartupProject)
    (persisted : Option Fields) (plan : Fields) : Result StartupReconciliation := do
  let inputs ← startupInputs site project persisted plan
  if inputs.activeCycle.truthy then activeCycleExit inputs
  else if inputs.authoritativeIntegrationFailure then
    return inputs.moveTo "required_integration_validation_failed" "validation_failed"
      "required post-integration validation or evidence finalization has not passed" none
  else
    match inputs.deterministicFailure.filter fun failure => !remediated failure with
    | some failure => return deterministicFailureExit project inputs failure
    | none =>
        match ← startupBlock project plan inputs with
        | some block => return block.exit inputs
        | none => assessDerived site project inputs

end Conveyor
