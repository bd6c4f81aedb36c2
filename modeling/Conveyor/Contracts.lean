import Conveyor.Library.Checked
import Conveyor.Library.Platform

/-!
# Typed contracts

The vocabulary every writable workflow shares (`contracts.py`, `errors.py`): the
failures, the workflow types with their writer leases and classifications, the
transaction states with their transitions, and the identity of a human gate.
-/

namespace Conveyor

open Library

/-! ### Failures -/

inductive ErrorKind where
  | conveyorError | schemaValidationError | repositoryError | lockError | ambiguousLockError
  | recoveryError | sessionError | transactionError | evidenceError | corruptEvidenceError
  | projectionError | staleProjectionCache | queueError | osError | valueError | typeError
  | attributeError | keyError | stopIteration | autopilotStopRequested | invalidTransition
  | integrationPlanError | safetyViolation | configurationError | assertionError
  | syntaxError | memoryError | recursionError | unicodeDecodeError | unicodeEncodeError
  | indexError
deriving DecidableEq, Repr

/-- `type(exc).__name__`. -/
def ErrorKind.name : ErrorKind → String
  | conveyorError => "ConveyorError"
  | schemaValidationError => "SchemaValidationError"
  | repositoryError => "RepositoryError"
  | lockError => "LockError"
  | ambiguousLockError => "AmbiguousLockError"
  | recoveryError => "RecoveryError"
  | sessionError => "SessionError"
  | transactionError => "TransactionError"
  | evidenceError => "EvidenceError"
  | corruptEvidenceError => "CorruptEvidenceError"
  | projectionError => "ProjectionError"
  | staleProjectionCache => "StaleProjectionCache"
  | queueError => "QueueError"
  | osError => "OSError"
  | valueError => "ValueError"
  | typeError => "TypeError"
  | attributeError => "AttributeError"
  | keyError => "KeyError"
  | stopIteration => "StopIteration"
  | autopilotStopRequested => "AutopilotStopRequested"
  | invalidTransition => "InvalidTransition"
  | integrationPlanError => "IntegrationPlanError"
  | safetyViolation => "SafetyViolation"
  | configurationError => "ConfigurationError"
  | assertionError => "AssertionError"
  | syntaxError => "SyntaxError"
  | memoryError => "MemoryError"
  | recursionError => "RecursionError"
  | unicodeDecodeError => "UnicodeDecodeError"
  | unicodeEncodeError => "UnicodeEncodeError"
  | indexError => "IndexError"

structure Failure where
  kind : ErrorKind
  message : String
deriving DecidableEq, Repr

abbrev Result (α : Type) := Except Failure α

def conveyorError (message : String) : Failure := ⟨.conveyorError, message⟩

def transactionError (message : String) : Failure := ⟨.transactionError, message⟩

def evidenceError (message : String) : Failure := ⟨.evidenceError, message⟩

def corruptEvidenceError (message : String) : Failure := ⟨.corruptEvidenceError, message⟩

/-! ### Workflows -/

inductive WorkflowType where
  | queueReconciliation | featurePreparation | featureExecution | featureAcceptance
  | milestoneIntegration | milestoneGate | humanDecisionResolution | recovery
deriving DecidableEq, Repr, Inhabited

namespace WorkflowType

def value : WorkflowType → String
  | queueReconciliation => "queue_reconciliation"
  | featurePreparation => "feature_preparation"
  | featureExecution => "feature_execution"
  | featureAcceptance => "feature_acceptance"
  | milestoneIntegration => "milestone_integration"
  | milestoneGate => "milestone_gate"
  | humanDecisionResolution => "human_decision_resolution"
  | recovery => "recovery"

def all : List WorkflowType :=
  [queueReconciliation, featurePreparation, featureExecution, featureAcceptance,
   milestoneIntegration, milestoneGate, humanDecisionResolution, recovery]

/-- `WorkflowType(value)`. -/
def ofValue? (text : String) : Option WorkflowType := all.find? fun w => w.value = text

theorem ofValue?_eq_some {text : String} {w : WorkflowType} :
    ofValue? text = some w ↔ w.value = text := by
  constructor
  · intro h
    simpa using List.find?_some h
  · rintro rfl
    cases w <;> rfl

end WorkflowType

inductive LeaseType where
  | planningWriter | featureWriter | integrationWriter | milestoneGateWriter | recoveryWriter
deriving DecidableEq, Repr

def LeaseType.value : LeaseType → String
  | planningWriter => "planning_writer"
  | featureWriter => "feature_writer"
  | integrationWriter => "integration_writer"
  | milestoneGateWriter => "milestone_gate_writer"
  | recoveryWriter => "recovery_writer"

def WORKFLOW_LEASE : WorkflowType → LeaseType
  | .queueReconciliation => .planningWriter
  | .featurePreparation => .featureWriter
  | .featureExecution => .featureWriter
  | .featureAcceptance => .featureWriter
  | .milestoneIntegration => .integrationWriter
  | .milestoneGate => .milestoneGateWriter
  | .humanDecisionResolution => .recoveryWriter
  | .recovery => .recoveryWriter

def WORKFLOW_SUCCESS_CLASSIFICATIONS : WorkflowType → List String
  | .queueReconciliation =>
      ["RECONCILED_READY_WORK", "RECONCILED_NO_READY_WORK", "MILESTONE_COMPLETE"]
  | .featurePreparation => ["FEATURE_PREPARED"]
  | .featureExecution => ["FEATURE_ACCEPTED"]
  | .featureAcceptance => ["FEATURE_ACCEPTED"]
  | .milestoneIntegration => ["INTEGRATED"]
  | .milestoneGate => ["MILESTONE_GATE_PASSED"]
  | .humanDecisionResolution => ["HUMAN_GATE_RESOLVED"]
  | .recovery => ["RECOVERY_APPLIED"]

/-! ### Transaction states -/

inductive TransactionState where
  | created | leasePending | active | resultPending | validating | finalizing | completed
  | blocked | humanDecisionRequired | retryableFailure | terminalFailure | superseded
deriving DecidableEq, Repr

namespace TransactionState

def value : TransactionState → String
  | created => "created"
  | leasePending => "lease_pending"
  | active => "active"
  | resultPending => "result_pending"
  | validating => "validating"
  | finalizing => "finalizing"
  | completed => "completed"
  | blocked => "blocked"
  | humanDecisionRequired => "human_decision_required"
  | retryableFailure => "retryable_failure"
  | terminalFailure => "terminal_failure"
  | superseded => "superseded"

end TransactionState

def TERMINAL_STATES : List TransactionState :=
  [.completed, .blocked, .humanDecisionRequired, .retryableFailure, .terminalFailure, .superseded]

/-- `TERMINAL_STATES - {COMPLETED}`: the outcomes any running state may take. -/
def FAILURE_STATES : List TransactionState := TERMINAL_STATES.filter (· ≠ .completed)

def ALLOWED_TRANSITIONS : TransactionState → List TransactionState
  | .created => .leasePending :: FAILURE_STATES
  | .leasePending => .active :: FAILURE_STATES
  | .active => .resultPending :: FAILURE_STATES
  | .resultPending => .validating :: FAILURE_STATES
  | .validating => .finalizing :: FAILURE_STATES
  | .finalizing => .completed :: FAILURE_STATES
  | _ => []

/-! ### Identifiers and gates -/

/-- `SAFE_IDENTIFIER.fullmatch(value)`. -/
def isSafeIdentifier (text : String) : Bool :=
  let plain := fun c : Char => isAscii c && c.isAlphanum
  match text.toList with
  | [] => false
  | first :: rest =>
      plain first && decide (rest.length ≤ 255) &&
        rest.all fun c => plain c || c = '.' || c = '_' || c = ':' || c = '-'

/-- A field that holds a text with the given property. -/
def textField (fields : Fields) (name : String) (accepts : String → Bool) : Bool :=
  match fields.get name with
  | .str text => accepts text
  | _ => false

def nonempty (text : String) : Bool := text ≠ ""

/-- The fields that bind a gate to its transaction. -/
def GATE_BINDING_FIELDS : List String :=
  ["transaction_id", "project_id", "repository_identity", "repository_path_fingerprint",
   "workflow_type"]

def isWorkflowValue (text : String) : Bool := (WorkflowType.ofValue? text).isSome

/-- The minimum durable identity of a resolvable human gate. -/
def validateHumanGate (value : Json) : Result Fields := do
  match value with
  | .obj gate =>
      require (textField gate "gate_id" isSafeIdentifier)
        (transactionError "human-decision gate requires a safe unique gate_id")
      requireAll (fun name => require (textField gate name Platform.hasText)
        (transactionError s!"human-decision gate requires nonempty {name}"))
        ["classification", "reason"]
      require (textField gate "approved_next_state" nonempty)
        (transactionError "human-decision gate requires approved_next_state")
      requireAll (fun name => require (textField gate name nonempty)
        (transactionError s!"human-decision gate requires transaction-bound {name}"))
        GATE_BINDING_FIELDS
      require (textField gate "workflow_type" isWorkflowValue)
        (transactionError "human-decision gate has invalid workflow_type")
      return gate
  | _ => .error (transactionError "human-decision terminal requires an exact gate object")

/-- What `validateHumanGate` asks of a gate. -/
structure GateValid (gate : Fields) : Prop where
  gateId : textField gate "gate_id" isSafeIdentifier = true
  texts : ∀ name ∈ ["classification", "reason"], textField gate name Platform.hasText = true
  approved : textField gate "approved_next_state" nonempty = true
  bound : ∀ name ∈ GATE_BINDING_FIELDS, textField gate name nonempty = true
  workflow : textField gate "workflow_type" isWorkflowValue = true

theorem validateHumanGate_eq_ok {value : Json} {gate : Fields} :
    validateHumanGate value = .ok gate ↔ value = .obj gate ∧ GateValid gate := by
  cases value with
  | obj fields =>
      simp only [validateHumanGate, bind_eq_ok, require_eq_ok, requireAll_eq_ok, Json.obj.injEq]
      constructor
      · rintro ⟨-, hid, -, htexts, -, happroved, -, hbound, -, hworkflow, hgate⟩
        cases hgate
        exact ⟨rfl, hid, fun n hn => htexts n hn, happroved, fun n hn => hbound n hn, hworkflow⟩
      · rintro ⟨rfl, hid, htexts, happroved, hbound, hworkflow⟩
        exact ⟨(), hid, (), htexts, (), happroved, (), hbound, (), hworkflow, rfl⟩
  | _ => simp [validateHumanGate]

/-- `isinstance(value, int)` with its value; a boolean is an integer. -/
def asInt? : Json → Option Int
  | .int n => some n
  | .bool b => some (if b then 1 else 0)
  | _ => none

/-- A value as a dictionary key: a boolean and an integral float are the key of their
    integer, and a list or an object is no key. -/
def hashKey (value : Json) : Result Json :=
  match value with
  | .arr _ => .error ⟨.typeError, "unhashable type: 'list'"⟩
  | .obj _ => .error ⟨.typeError, "unhashable type: 'dict'"⟩
  | .bool b => .ok (.int (if b then 1 else 0))
  | .float lexeme =>
      match lexeme.toList.reverse with
      | '0' :: '.' :: digits =>
          .ok (((String.ofList digits.reverse).toInt?.map Json.int).getD (.float lexeme))
      | _ => .ok (.float lexeme)
  | value => .ok value

/-- `(value or {}).get(key)`. -/
def snapshotField (value : Json) (key : String) : Result Json :=
  match value with
  | .obj fields => .ok (Fields.get fields key)
  | value =>
      if value.truthy then .error ⟨.attributeError, "object has no attribute 'get'"⟩
      else .ok .null

/-- `isinstance(value, str) and value`. -/
def isText : Json → Bool
  | .str text => text ≠ ""
  | _ => false

/-- `value or other or ...` over JSON values. -/
def firstTruthy : List Json → Json
  | [] => .null
  | [value] => value
  | value :: rest => if value.truthy then value else firstTruthy rest

/-- The text of a field whose value may be missing, empty or of another type. -/
def textOr (value : Json) (default : String) : String :=
  match value with
  | .str text => if Platform.hasText text then text else default
  | _ => default

/-- Normalize an untrusted blocker into one transaction-bound gate. -/
def bindHumanGate (P : Platform) (value : Json)
    (transactionId projectId repositoryIdentity repositoryPathFingerprint : String)
    (workflowType : WorkflowType) (approvedNextState terminalClassification : String) :
    Result Fields :=
  let source : Fields := match value with | .obj fields => fields | _ => []
  let reason := textOr (firstTruthy [source.get "reason", source.get "decision"])
    "workflow requires an explicit human decision"
  let classification := textOr
    (firstTruthy [source.get "classification", source.get "gate_classification",
      .str terminalClassification])
    "HUMAN_DECISION_REQUIRED"
  let bindings : Fields :=
    [("transaction_id", .str transactionId), ("project_id", .str projectId),
     ("repository_identity", .str repositoryIdentity),
     ("repository_path_fingerprint", .str repositoryPathFingerprint),
     ("workflow_type", .str workflowType.value),
     ("approved_next_state", .str approvedNextState)]
  let digest := P.fingerprint (.obj (Fields.ofPairs
    (bindings ++ [("classification", .str classification), ("reason", .str reason)])))
  let gateId := "gate-" ++ String.ofList (digest.toList.take 32)
  validateHumanGate (.obj (source.update (bindings ++
    [("gate_id", .str gateId), ("classification", .str classification),
     ("reason", .str reason)])))

end Conveyor
