import Conveyor.Autopilot
import Mathlib.Logic.Function.Basic

/-!
# Runs of the autopilot loop

`apply` of `Autopilot`, one call on the outside at a time. A pass either finishes the run or
continues, with the plan that it hands to the next pass if it has one. The loop has no bound
of its own, so `loop` takes the number of passes it may make and tells when it was cut off.

`trace` is what a run leaves behind for its properties: the routes that were invoked and the
features that were quarantined, in their order.
-/

namespace Conveyor

open Library

/-- `quarantined none` stands for the exhausted retries of a plan without a feature. -/
inductive AutopilotMark where
  | routed (feature : Option String)
  | quarantined (feature : Option String)
deriving DecidableEq

structure AutopilotState where
  events : List Fields
  featureRecords : Dict Fields
  failureSignatures : Dict Nat
  retryCounts : Option String → RetryBudget → Nat
  stopObservedAt : Option String
  trace : List AutopilotMark
  clock : Nat

/-- The configuration of a run and what its calls meet, by the time of the call. -/
structure AutopilotEnvironment where
  platform : Platform
  projectId : String
  runId : String
  retryBudgets : RetryBudget → Int
  maxIdenticalFailures : Int
  now : Nat → String
  stopRequest : Nat → Option Fields
  projectPlan : Nat → Fields
  consistency : Nat → Json
  repositorySnapshot : Nat → Json
  route : Nat → Route → Result Fields
  fault : Nat → Call.Fault Failure

abbrev AutopilotCall (α : Type) := Call AutopilotEnvironment AutopilotState Failure α

/-- How a run ends: its classification with the diagnostic. -/
structure Ending where
  classification : String
  diagnostic : String
deriving DecidableEq

/-- How a pass ends. `pending` is the plan for the next pass. -/
inductive PassEnd where
  | finished (ending : Ending)
  | continues (pending : Option Fields)
deriving DecidableEq

namespace Autopilot

def start : AutopilotState := ⟨[], [], [], fun _ _ => 0, none, [], 0⟩

def tick (s : AutopilotState) : AutopilotState := { s with clock := s.clock + 1 }

/-! ### The calls -/

variable {α : Type}

def act (f : AutopilotEnvironment → AutopilotState → Result (α × AutopilotState)) :
    AutopilotCall α :=
  Call.attempt (fun e s => e.fault s.clock) tick f

def look (f : AutopilotEnvironment → AutopilotState → Result α) : AutopilotCall α :=
  act fun e s => (f e s).map fun value => (value, s)

/-- An assignment to the fields of the object. -/
def assign (change : AutopilotEnvironment → AutopilotState → AutopilotState) :
    AutopilotCall Unit :=
  Call.update fun e s => .ok ((), change e s)

def lift (result : AutopilotEnvironment → Result α) : AutopilotCall α :=
  Call.reads fun e _ => result e

def mark (step : AutopilotMark) : AutopilotCall Unit :=
  assign fun _ s => { s with trace := s.trace ++ [step] }

def projectPlan : AutopilotCall Fields := look fun e s => .ok (e.projectPlan s.clock)

/-- `_stop_requested`. -/
def stopRequested : AutopilotCall (Option Fields) := look fun e s =>
  match e.stopRequest s.clock with
  | none => .ok none
  | some value => do
      require (value.get "project_id" = .str e.projectId ∧
          (value.get "requested_at").isInstance .str = true)
        (ambiguousLockError "autopilot stop request has invalid project identity")
      return some value

/-- `_acknowledge_stop`. -/
def acknowledgeStop : AutopilotCall Unit := look fun _ _ => .ok ()

/-- `_observe_lifecycle` at a boundary without an event of its own. -/
def observeLifecycle (boundary : String) : AutopilotCall Unit := do
  let stop ← stopRequested
  if stop.isSome then assign fun _ s => { s with stopObservedAt := some boundary }
  else pure ()

/-- `_consistency`. -/
def consistency : AutopilotCall Fields := look fun e s =>
  match e.consistency s.clock with
  | .obj value => .ok value
  | _ => .error (conveyorError "consistency checker returned invalid evidence")

/-- The transaction of an event whose caller names none. -/
def activeTransaction (plan : Fields) : Json :=
  match (planProjection plan).get "active_transaction" with
  | .obj transaction => Fields.get transaction "transaction_id"
  | _ => .null

/-- The event that `_emit` appends. -/
def eventItem (e : AutopilotEnvironment) (clock : Nat) (event : String) (plan : Fields)
    (diagnostic : String) (transaction : Option String) : Result Fields := do
  require (event ∈ AUTOPILOT_EVENTS) (conveyorError s!"unsupported autopilot event: {event}")
  let feature ← planFeature plan
  return Fields.ofPairs
    [("event", .str event), ("project", .str e.projectId), ("feature", .ofOption feature),
     ("state", .str (planState e.platform plan)),
     ("transaction", firstTruthy [.ofOption transaction, activeTransaction plan]),
     ("timestamp", .str (e.now clock)),
     ("diagnostic", .str (redactText e.platform diagnostic))]

/-- `_emit`. -/
def emit (event : String) (plan : Fields) (diagnostic : String)
    (transaction : Option String := none) : AutopilotCall Unit := act fun e s => do
  let item ← eventItem e s.clock event plan diagnostic transaction
  return ((), { s with events := s.events ++ [item] })

/-- `_write_status`. -/
def writeStatus : AutopilotCall Unit := look fun _ _ => .ok ()

/-! ### Stopping -/

/-- The diagnostic of a stop that was requested. -/
def stopDiagnostic (P : Platform) (stop : Fields) (observedAt : Option String) : String :=
  P.str (firstTruthy [stop.get "reason", .str "durable stop requested"]) ++
    match observedAt with
    | some boundary => s!"; first observed at {boundary}"
    | none => ""

/-- A stop that a pass found: announced, acknowledged, and the end of the run. -/
def stopAt (stop plan : Fields) (diagnostic : String) : AutopilotCall Ending := do
  let announced ← Call.reads fun e s => .ok (stopDiagnostic e.platform stop s.stopObservedAt)
  emit "STOP_REQUESTED" plan announced
  acknowledgeStop
  return ⟨"AUTOPILOT_STOPPED", diagnostic⟩

/-! ### Choosing -/

/-- What a pass does with the plan that it takes, which may name a feature. -/
inductive Choice where
  | finished (ending : Ending)
  | invoke (feature : Option String) (plan : Fields)

/-- The checks on a plan before its route is invoked. -/
def gate (P : Platform) (consistency plan : Fields) : Result Choice := do
  let action := planAction P plan
  let classification ← hashKey (consistency.get "classification")
  if classification ≠ .str "CONSISTENT" ∧ classification ≠ .str "RECOVERABLE_INCONSISTENCY" ∧
      recognizedRecovery P plan = false then
    let shown := P.str (firstTruthy [consistency.get "classification", .str "unknown"])
    return .finished ⟨"AUTOPILOT_FAILED", s!"consistency requires a genuine gate: {shown}"⟩
  else
    let feature ← planFeature plan
    if action ∈ ["human_decision_resolution", "human_merge_approval"] ∨
        ((plan.get "human_gate").truthy = true ∧ recognizedRecovery P plan = false) then
      return .finished ⟨"AUTOPILOT_STOPPED",
        "authoritative projection contains a genuine human gate"⟩
    else if action ∈ ["disabled", "paused", "portfolio_complete", "completed"] then
      return .finished ⟨"AUTOPILOT_COMPLETED", s!"authoritative projection reached {action}"⟩
    else return .invoke feature plan

/-- `pending_plan if pending_plan is not None else self.engine.project_plan(...)`. -/
def takePlan : Option Fields → AutopilotCall Fields
  | some plan => pure plan
  | none => projectPlan

/-- The plan, taken and checked. -/
def examine (pending : Option Fields) : AutopilotCall Choice := do
  let plan ← takePlan pending
  let consistency ← consistency
  lift fun e => gate e.platform consistency plan

def choose (pending : Option Fields) : AutopilotCall Choice := do
  let stop ← stopRequested
  match stop with
  | some stop => do
      let ending ← stopAt stop [] "stopped at a safe transition checkpoint"
      return .finished ending
  | none => examine pending

/-! ### Invoking a route -/

/-- `_route`. -/
def callRoute (action : String) (plan : Fields) : AutopilotCall Fields := look fun e s => do
  let target ← routeOf action plan
  e.route s.clock target

/-- The call of the route, with the `RecoveryError` of a recovery caught. -/
def route (feature : Option String) (action : String) (plan : Fields) : AutopilotCall Fields := do
  mark (.routed feature)
  (callRoute action plan).handle fun failure =>
    if failure.kind = .recoveryError ∧ action ∈ RECOVERY_ACTIONS then
      lift fun e => .ok (failedRecovery e.platform failure)
    else Call.raise failure

/-- `self._feature_records.setdefault(feature, initial)` with the changes made to it; there is
    no record without a feature. -/
def changeRecord (feature : Option String) (initial changes : Fields) : AutopilotCall Unit :=
  match feature with
  | none => pure ()
  | some feature => assign fun _ s =>
      let record := (s.featureRecords.get? feature).getD (initial.set "feature" (.str feature))
      { s with featureRecords := s.featureRecords.insert feature (record.update changes) }

/-- `_record_result`. -/
def recordResult (feature : Option String) (result : Fields) : AutopilotCall Unit := do
  let outcome := firstTruthy [result.get "outcome", result.get "classification"]
  changeRecord feature [("terminal_classification", .null), ("integration_result", .null)]
    (if outcome.truthy then [("terminal_classification", outcome)] else [])
  if feature = none then pure ()
  else
    let key ← lift fun _ => hashKey outcome
    if key ∈ [.str "feature_integrated", .str "one_feature_integrated", .str "INTEGRATED"] then
      changeRecord feature [] [("integration_result", outcome)]
    else pure ()

/-- The event for a structured result that was retained behind a gate. -/
def emitRetained (plan result : Fields) : AutopilotCall Unit :=
  match result.get "retained_result", result.get "human_gate" with
  | .obj retained, .obj retainedGate => do
      if Fields.get retained "result_classification" = .str "structured_output_invalid" then
        let gateId ← lift fun e =>
          .ok (e.platform.str (firstTruthy [Fields.get retainedGate "gate_id", .str "unavailable"]))
        emit "FEATURE_RESULT_RETAINED" (plan.set "current_state" (.str "human_decision_required"))
          ("authenticated terminal feature result retained; structured output invalid; gate=" ++
            gateId)
          (Fields.get retained "transaction_id").asString?
      else pure ()
  | _, _ => pure ()

/-- The events before the route is invoked. -/
def announce (feature : Option String) (action : String) (plan : Fields) :
    AutopilotCall Unit := do
  match feature with
  | some feature => emit "FEATURE_SELECTED" plan s!"{feature} selected through {action}"
  | none => pure ()
  if action ∈ RECOVERY_ACTIONS then
    let kind := if action ∈ MODEL_BACKED_REPAIR_ROUTES then "model-backed repair"
      else "deterministic recovery"
    emit "RECOVERY_STARTED" plan s!"invoking registered {kind} route {action}"
    if action = "retained_feature_repair" then
      emit "FEATURE_REPAIR_STARTED" plan
        "launching bounded Terra/high retained-feature repair with zero children"
      emit "FEATURE_REPAIR_VALIDATION_STARTED" plan
        "repair will run the authenticated trusted-host validation plan before any commit"
    else pure ()
  else pure ()

/-- The events for what the route came to. -/
def announceResult (action : String) (plan result : Fields) (outcome : String) (failed : Bool) :
    AutopilotCall Unit := do
  if action ∈ RECOVERY_ACTIONS ∧ failed = false then
    emit "RECOVERY_APPLIED" plan
      (if outcome = "" then "deterministic recovery route completed" else outcome)
    if action ∈ ["retained_feature_repair", "retained_feature_repair_recovery"] ∧
        (result.get "accepted_feature_commit").truthy = true then
      emit "FEATURE_ACCEPTED" plan "retained feature repaired and accepted"
    else pure ()
  else pure ()
  if outcome ∈ ["feature_accepted", "one_feature_accepted", "FEATURE_ACCEPTED"] then
    emit "FEATURE_ACCEPTED" plan outcome
  else pure ()
  if outcome ∈ ["feature_integrated", "one_feature_integrated", "INTEGRATED"] then
    emit "FEATURE_INTEGRATED" plan outcome
  else pure ()

/-- From the chosen plan to the result of its route, recorded and announced. -/
def invoke (feature : Option String) (plan : Fields) : AutopilotCall Fields := do
  let action ← lift fun e => .ok (planAction e.platform plan)
  announce feature action plan
  let result ← route feature action plan
  recordResult feature result
  emitRetained plan result
  let failed ← lift fun e => .ok (recoveryFailed e.platform result)
  let outcome ← lift fun e => .ok (resultOutcome e.platform result)
  announceResult action plan result outcome failed
  return result

/-! ### Judging the result -/

/-- The quarantine of a feature, or of the plans without one. -/
def quarantine (feature : Option String) : AutopilotCall Unit := do
  changeRecord feature [] [("quarantined", .bool true),
    ("terminal_classification", .str "bounded_recovery_exhausted")]
  mark (.quarantined feature)

def counted (counts : Option String → RetryBudget → Nat) (feature : Option String)
    (budget : RetryBudget) : Option String → RetryBudget → Nat :=
  Function.update counts feature
    (Function.update (counts feature) budget (counts feature budget + 1))

/-- One more attempt against a budget, and how many there were. -/
def countAttempt (feature : Option String) (budget : RetryBudget) : AutopilotCall Nat :=
  Call.update fun _ s => .ok (s.retryCounts feature budget + 1,
    { s with retryCounts := counted s.retryCounts feature budget })

/-- One more failure with this signature, and how many there were. -/
def countFailure (signature : String) : AutopilotCall Nat := Call.update fun _ s =>
  let count := (s.failureSignatures.get? signature).getD 0 + 1
  .ok (count, { s with failureSignatures := s.failureSignatures.insert signature count })

/-- `_deterministic_recovery_evidence`. -/
def gatherEvidence (action : String) (plan result : Fields) : AutopilotCall RecoveryEvidence := do
  let snapshot ← look fun e s => .ok (e.repositorySnapshot s.clock)
  lift fun e => deterministicRecoveryEvidence e.platform e.projectId action plan result snapshot

/-- The evidence of the next plan, if it asks for the same action. -/
def nextEvidence (action : String) (nextPlan result : Fields) :
    AutopilotCall (Option RecoveryEvidence) := do
  let nextAction ← lift fun e => .ok (planAction e.platform nextPlan)
  if nextAction = action then
    let evidence ← gatherEvidence nextAction nextPlan result
    return some evidence
  else return none

/-- The branch of a deterministic recovery that failed. -/
def judgeRecovery (feature : Option String) (action : String) (plan result : Fields) :
    AutopilotCall PassEnd := do
  let current ← gatherEvidence action plan result
  let attempts ← countAttempt feature .deterministicRecovery
  let nextPlan ← projectPlan
  let next ← nextEvidence action nextPlan result
  changeRecord feature []
    [("recovery_evidence_fingerprint", .str current.fingerprint),
     ("recovery_capability_version", .str current.capabilityVersion),
     ("preflight_diagnostic", .str current.preflightDiagnostic),
     ("deterministic_recovery_attempts", .int attempts), ("quarantined", .bool false)]
  if next.map RecoveryEvidence.fingerprint = some current.fingerprint then
    changeRecord feature [] [("terminal_classification", .str "technical_recovery_required")]
    return .finished ⟨"AUTOPILOT_STOPPED", "technical_recovery_required: " ++
      current.preflightDiagnostic ++ "; unchanged recovery evidence " ++ current.fingerprint ++
      "; deterministic recovery was not repeated"⟩
  else
    let budget ← lift fun e => .ok (e.retryBudgets .deterministicRecovery)
    if budget < attempts then
      emit "FEATURE_BLOCKED" plan (RetryBudget.deterministicRecovery.key ++
        " exhausted across changed recovery evidence; feature quarantined in autopilot " ++
        "evidence without being marked complete")
      quarantine feature
      return .finished ⟨"AUTOPILOT_STOPPED", "recoverable technical failure: bounded " ++
        "recovery exhausted across distinct evidence"⟩
    else return .continues (some nextPlan)

/-- What is left to do with a feature whose retries are exhausted. -/
def judgeExhausted (feature : Option String) (plan : Fields) (budget : RetryBudget)
    (repeated : Prop) [Decidable repeated] : AutopilotCall PassEnd := do
  emit "FEATURE_BLOCKED" plan
    ((if repeated then "identical evidence repeated" else s!"{budget.key} exhausted") ++
      "; feature quarantined in autopilot evidence without being marked complete")
  quarantine feature
  let nextPlan ← projectPlan
  let nextFeature ← lift fun _ => planFeature nextPlan
  let nextAction ← lift fun e => .ok (planAction e.platform nextPlan)
  if nextFeature ≠ none ∧ nextFeature ≠ feature ∧ nextAction = "feature_cycle" then
    return .continues none
  else
    return .finished ⟨"AUTOPILOT_STOPPED", "recoverable technical failure: bounded recovery " ++
      "exhausted and no newly projected dependency-independent feature is safe"⟩

/-- The end of a pass that found nothing to finish: a stop is looked for once more. -/
def boundary (plan : Fields) : AutopilotCall PassEnd := do
  observeLifecycle "before_next_feature"
  let stop ← stopRequested
  match stop with
  | some stop => do
      let ending ← stopAt stop plan "stopped before beginning the next transition"
      return .finished ending
  | none => return .continues none

/-- The branch of any other failed route. -/
def judgeFailure (feature : Option String) (action outcome : String) (plan result : Fields) :
    AutopilotCall PassEnd := do
  let signature ← lift fun e => failureSignature e.platform action plan result
  let count ← countFailure signature
  let budget ← lift fun e => .ok (retryBudgetKey e.platform action outcome)
  let attempts ← countAttempt feature budget
  let allowed ← lift fun e => .ok (e.retryBudgets budget)
  let identical ← lift fun e => .ok e.maxIdenticalFailures
  if allowed < attempts ∨ result.get "outcome" = .str "repair_exhausted" ∨ identical < count then
    judgeExhausted feature plan budget (identical < count)
  else boundary plan

/-- The branch of a result behind a human gate. -/
def judgeGate : AutopilotCall PassEnd := do
  let nextPlan ← projectPlan
  let resumes ← lift fun e => .ok (resumesAfterGate e.platform nextPlan)
  if resumes = true then return .continues none
  else return .finished ⟨"AUTOPILOT_STOPPED", "normal route produced a genuine human gate"⟩

/-- From the result of a route to the end of the pass. -/
def judge (feature : Option String) (plan result : Fields) : AutopilotCall PassEnd := do
  let action ← lift fun e => .ok (planAction e.platform plan)
  let outcome ← lift fun e => .ok (resultOutcome e.platform result)
  let terminal ← lift fun e => .ok (terminalResult e.platform result)
  match terminal with
  | some .humanGate => judgeGate
  | some .completed =>
      return .finished ⟨"AUTOPILOT_COMPLETED", "portfolio or milestone work is complete"⟩
  | none =>
      if outcome ∈ FAILED_OUTCOMES then
        if action ∈ RECOVERY_ACTIONS ∧ action ∈ DETERMINISTIC_RECOVERY_ROUTES ∧
            outcome = "deterministic_recovery_failed" then
          judgeRecovery feature action plan result
        else judgeFailure feature action outcome plan result
      else boundary plan

/-! ### The loop -/

/-- One iteration of `while True`. -/
def pass (pending : Option Fields) : AutopilotCall PassEnd := do
  let choice ← choose pending
  match choice with
  | .finished ending => return .finished ending
  | .invoke feature plan => do
      let result ← invoke feature plan
      judge feature plan result

/-- At most so many passes: none if the loop is still running after them. -/
def loop : Nat → Option Fields → AutopilotCall (Option Ending)
  | 0, _ => pure none
  | passes + 1, pending => do
      let ended ← pass pending
      match ended with
      | .finished ending => return some ending
      | .continues pending => loop passes pending

/-- What `apply` does before the loop, with the ownership acquired. -/
def begin : AutopilotCall Unit := do
  let initial ← projectPlan
  emit "AUTOPILOT_STARTED" initial
    "continuous controller loop acquired exclusive project ownership"

/-- The handler of `apply` for what the loop raised. -/
def rescue (failure : Failure) : AutopilotCall (Option Ending) := do
  let stop ← stopRequested
  if failure.kind = .autopilotStopRequested ∧ stop.isSome then
    acknowledgeStop
    let observed ← Call.reads fun _ s => .ok (s.stopObservedAt.getD "unknown")
    return some ⟨"AUTOPILOT_STOPPED", s!"stopped at safe inner lifecycle boundary {observed}"⟩
  else return some ⟨"AUTOPILOT_FAILED", s!"{failure.kind.name}: {failure.message}"⟩

/-- `AutopilotOwnership.acquire`. -/
def acquire : AutopilotCall Unit := look fun _ _ => .ok ()

/-- `AutopilotOwnership.release`. -/
def release : AutopilotCall Unit := look fun _ _ => .ok ()

/-- The last event of a run and its status, and the release whatever became of these. -/
def conclude (ending : Ending) : AutopilotCall Unit := do
  let eventPlan ← projectPlan.handle fun _ => pure []
  (do emit ending.classification eventPlan ending.diagnostic
      writeStatus).handle fun failure => do
        release
        Call.raise failure
  release

/-- `apply` with at most so many passes: none if it is still in its loop after them. -/
def apply (passes : Nat) : AutopilotCall (Option Ending) := do
  acquire
  let ended ← ((do begin; loop passes none).handle rescue).handle fun failure => do
    conclude ⟨"AUTOPILOT_FAILED", "autopilot ended unexpectedly"⟩
    Call.raise failure
  match ended with
  | none => return none
  | some ending => do
      conclude ending
      return some ending

end Autopilot

end Conveyor
