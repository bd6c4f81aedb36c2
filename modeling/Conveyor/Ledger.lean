import Conveyor.Contracts
import Conveyor.Library.Dict
import Conveyor.Redaction

/-!
# The evidence ledger

The append-only, hash-chained record of a project (`ledger.py`). This module has
the definitions: the events and their payload contracts, the full replay check
`validate`, the incremental check `validateAppend`, the durable head anchor, and
`append` with its cache. What they guarantee is proved in the modules after it.

A record is a decoded JSON line, an `Object`. `decode` is the part of the replay
loop that looks at one record alone; it yields a `LedgerEvent`, and `advance`
checks that event against the records before it.
-/

namespace Conveyor

open Library

/-! ### Event types -/

inductive EventType where
  | transactionStarted | leaseAcquired | leaseReleased | snapshotCaptured | sessionLaunched
  | sessionResultAccepted | changesDetected | validationStarted | deterministicExecutionStarted
  | deterministicResultAccepted | validationPassed | validationFailed | commitFinalized
  | humanGateRaised | humanGateResolved | transactionBlocked | transactionCompleted
  | transactionSuperseded | recoveryApplied | projectionUpdated | legacyEvidenceImported
  | checkpointRecorded
deriving DecidableEq, Repr, Inhabited

namespace EventType

def name : EventType → String
  | transactionStarted => "TransactionStarted"
  | leaseAcquired => "LeaseAcquired"
  | leaseReleased => "LeaseReleased"
  | snapshotCaptured => "SnapshotCaptured"
  | sessionLaunched => "SessionLaunched"
  | sessionResultAccepted => "SessionResultAccepted"
  | changesDetected => "ChangesDetected"
  | validationStarted => "ValidationStarted"
  | deterministicExecutionStarted => "DeterministicExecutionStarted"
  | deterministicResultAccepted => "DeterministicResultAccepted"
  | validationPassed => "ValidationPassed"
  | validationFailed => "ValidationFailed"
  | commitFinalized => "CommitFinalized"
  | humanGateRaised => "HumanGateRaised"
  | humanGateResolved => "HumanGateResolved"
  | transactionBlocked => "TransactionBlocked"
  | transactionCompleted => "TransactionCompleted"
  | transactionSuperseded => "TransactionSuperseded"
  | recoveryApplied => "RecoveryApplied"
  | projectionUpdated => "ProjectionUpdated"
  | legacyEvidenceImported => "LegacyEvidenceImported"
  | checkpointRecorded => "CheckpointRecorded"

end EventType

open EventType

def EVENT_TYPES : List EventType :=
  [transactionStarted, leaseAcquired, leaseReleased, snapshotCaptured, sessionLaunched,
   sessionResultAccepted, changesDetected, validationStarted, deterministicExecutionStarted,
   deterministicResultAccepted, validationPassed, validationFailed, commitFinalized,
   humanGateRaised, humanGateResolved, transactionBlocked, transactionCompleted,
   transactionSuperseded, recoveryApplied, projectionUpdated, legacyEvidenceImported,
   checkpointRecorded]

def EventType.ofName? (text : String) : Option EventType :=
  EVENT_TYPES.find? fun kind => kind.name = text

theorem EventType.ofName?_eq_some {text : String} {kind : EventType} :
    EventType.ofName? text = some kind ↔ kind.name = text := by
  constructor
  · intro h
    simpa using List.find?_some h
  · rintro rfl
    cases kind <;> rfl

theorem EventType.name_ne_empty (kind : EventType) : kind.name ≠ "" := by
  cases kind <;> decide

def TERMINAL_EVENT_TYPES : List EventType :=
  [transactionBlocked, transactionCompleted, transactionSuperseded, humanGateRaised]

/-- What may follow a terminal event of the same transaction. -/
def POST_TERMINAL_EVENT_TYPES : List EventType :=
  [leaseReleased, recoveryApplied, projectionUpdated, legacyEvidenceImported, checkpointRecorded]

def PAYLOAD_CONTRACTS : EventType → List (String × Json.Kind)
  | transactionStarted =>
      [("run_id", .str), ("starting_branch", .str), ("starting_head", .str),
       ("allowed_mutation_policy", .dict)]
  | leaseAcquired => [("lease_id", .str), ("lease_type", .str)]
  | snapshotCaptured => [("snapshot", .dict)]
  | sessionLaunched => [("session_id", .str)]
  | sessionResultAccepted =>
      [("classification", .str), ("session_id", .str), ("changed_paths", .list),
       ("envelope", .dict)]
  | deterministicExecutionStarted =>
      [("plan_fingerprint", .str), ("model_session_launched", .bool)]
  | deterministicResultAccepted =>
      [("classification", .str), ("plan_fingerprint", .str), ("changed_paths", .list),
       ("model_session_launched", .bool)]
  | changesDetected => [("changed_paths", .list), ("diff_fingerprint", .str)]
  | validationFailed => [("diagnostic", .str)]
  | commitFinalized => [("commit", .str), ("changed_paths", .list)]
  | leaseReleased => [("lease_id", .strOrNone)]
  | projectionUpdated => [("current_state", .str)]
  | _ => []

/-! ### Events -/

def GENESIS_FINGERPRINT : String := String.ofList (List.replicate 64 '0')

structure UnsignedEvent where
  sequence : Nat
  eventId : String
  eventType : EventType
  timestamp : String
  projectId : String
  repositoryIdentity : String
  repositoryPathFingerprint : String
  transactionId : String
  workflowType : WorkflowType
  previousFingerprint : String
  payload : Fields
deriving DecidableEq

/-- One record of the ledger with every field checked for its type. -/
structure LedgerEvent extends UnsignedEvent where
  fingerprint : String
deriving DecidableEq

/-- The event without its fingerprint, as the dictionary that is hashed. -/
def UnsignedEvent.toFields (event : UnsignedEvent) : Fields :=
  [("event_id", .str event.eventId),
   ("event_type", .str event.eventType.name),
   ("payload", .obj event.payload),
   ("previous_fingerprint", .str event.previousFingerprint),
   ("project_id", .str event.projectId),
   ("repository_identity", .str event.repositoryIdentity),
   ("repository_path_fingerprint", .str event.repositoryPathFingerprint),
   ("schema_version", .int 1),
   ("sequence", .int event.sequence),
   ("timestamp", .str event.timestamp),
   ("transaction_id", .str event.transactionId),
   ("workflow_type", .str event.workflowType.value)]

def LedgerEvent.toFields (event : LedgerEvent) : Fields :=
  event.toUnsignedEvent.toFields.set "fingerprint" (.str event.fingerprint)

/-- The fields every record has, in key order. -/
def REQUIRED_FIELDS : List String :=
  ["event_id", "event_type", "fingerprint", "payload", "previous_fingerprint", "project_id",
   "repository_identity", "repository_path_fingerprint", "schema_version", "sequence",
   "timestamp", "transaction_id", "workflow_type"]

theorem REQUIRED_FIELDS_ordered : REQUIRED_FIELDS.Pairwise (· < ·) := by decide +kernel

theorem LedgerEvent.toFields_eq (event : LedgerEvent) : event.toFields =
    [("event_id", .str event.eventId),
     ("event_type", .str event.eventType.name),
     ("fingerprint", .str event.fingerprint),
     ("payload", .obj event.payload),
     ("previous_fingerprint", .str event.previousFingerprint),
     ("project_id", .str event.projectId),
     ("repository_identity", .str event.repositoryIdentity),
     ("repository_path_fingerprint", .str event.repositoryPathFingerprint),
     ("schema_version", .int 1),
     ("sequence", .int event.sequence),
     ("timestamp", .str event.timestamp),
     ("transaction_id", .str event.transactionId),
     ("workflow_type", .str event.workflowType.value)] := by
  rfl

theorem LedgerEvent.keys_toFields (event : LedgerEvent) :
    event.toFields.keys = REQUIRED_FIELDS := by
  rfl

def LedgerEvent.toObject (event : LedgerEvent) : Object where
  fields := event.toFields
  ordered := by rw [Fields.Ordered, event.keys_toFields]; exact REQUIRED_FIELDS_ordered

/-- `event_fingerprint`. -/
def eventFingerprint (P : Platform) (event : UnsignedEvent) : String :=
  P.fingerprint (.obj event.toFields)

/-- The identity of the ledger a controller opens. -/
structure LedgerIdentity where
  projectId : String
  repositoryIdentity : String
  repositoryPathFingerprint : String
deriving DecidableEq

/-! ### One record alone -/

/-- A text field of a record, when it is a text and not empty. -/
def recordText (fields : Fields) (name : String) : Option String :=
  match fields.get name with
  | .str text => if text = "" then none else some text
  | _ => none

/-- The ten text fields of a record. -/
structure RecordTexts where
  eventId : String
  eventType : String
  timestamp : String
  projectId : String
  repositoryIdentity : String
  repositoryPathFingerprint : String
  transactionId : String
  workflowType : String
  previousFingerprint : String
  fingerprint : String

def recordTexts (fields : Fields) : Option RecordTexts := do
  let eventId ← recordText fields "event_id"
  let eventType ← recordText fields "event_type"
  let timestamp ← recordText fields "timestamp"
  let projectId ← recordText fields "project_id"
  let repositoryIdentity ← recordText fields "repository_identity"
  let repositoryPathFingerprint ← recordText fields "repository_path_fingerprint"
  let transactionId ← recordText fields "transaction_id"
  let workflowType ← recordText fields "workflow_type"
  let previousFingerprint ← recordText fields "previous_fingerprint"
  let fingerprint ← recordText fields "fingerprint"
  return ⟨eventId, eventType, timestamp, projectId, repositoryIdentity,
    repositoryPathFingerprint, transactionId, workflowType, previousFingerprint, fingerprint⟩

/-- Every present payload field has its contract's type. -/
def ContractHolds (payload : Fields) (contract : String × Json.Kind) : Prop :=
  ∀ value ∈ payload.get? contract.1, value.isInstance contract.2 = true

instance (payload : Fields) (contract : String × Json.Kind) :
    Decidable (ContractHolds payload contract) :=
  inferInstanceAs (Decidable (∀ value ∈ payload.get? contract.1, _))

def isFingerprint (text : String) : Prop :=
  text.length = 64 ∧ text.toList.all Platform.isHexLower = true

instance (text : String) : Decidable (isFingerprint text) :=
  inferInstanceAs (Decidable (_ ∧ _))

/-- The checks of the replay loop that look at one record, in their order. -/
def decode (L : LedgerIdentity) (eventIds : List String) (expected : Nat) (record : Object) :
    Result LedgerEvent := do
  let fields := record.fields
  let missing := REQUIRED_FIELDS.filter (· ∉ fields.keys)
  let extra := fields.keys.filter (· ∉ REQUIRED_FIELDS)
  let missingNames := ", ".intercalate missing
  let extraNames := ", ".intercalate extra
  require (missing = [])
    (corruptEvidenceError s!"ledger sequence {expected} is missing {missingNames}")
  require (extra = [])
    (corruptEvidenceError s!"ledger sequence {expected} has unexpected fields: {extraNames}")
  match fields.get "schema_version", fields.get "sequence" with
  | .int schemaVersion, .int sequence =>
      match recordTexts fields with
      | none =>
          .error (corruptEvidenceError s!"ledger sequence {expected} has invalid string fields")
      | some texts =>
          match fields.get "payload" with
          | .obj payload =>
              let kind := EventType.ofName? texts.eventType
              let eventType := texts.eventType
              requireAll (fun contract => require (ContractHolds payload contract)
                (corruptEvidenceError
                  (s!"ledger sequence {expected} has invalid {eventType} payload field " ++
                    contract.1)))
                (kind.elim [] PAYLOAD_CONTRACTS)
              require (64 ≤ texts.repositoryIdentity.length ∧
                  64 ≤ texts.repositoryPathFingerprint.length)
                (corruptEvidenceError
                  s!"ledger sequence {expected} has short repository identity fields")
              require (isFingerprint texts.previousFingerprint ∧ isFingerprint texts.fingerprint)
                (corruptEvidenceError
                  s!"ledger sequence {expected} has invalid fingerprint fields")
              require (schemaVersion = 1 ∧ sequence = expected)
                (corruptEvidenceError s!"ledger sequence mismatch at record {expected}")
              require (texts.eventId ∉ eventIds)
                (corruptEvidenceError s!"duplicate ledger event ID at sequence {expected}")
              match kind with
              | none =>
                  .error (corruptEvidenceError
                    s!"unsupported ledger event type at sequence {expected}")
              | some kind =>
                  require (texts.projectId = L.projectId)
                    (corruptEvidenceError s!"project identity mismatch at sequence {expected}")
                  require (texts.repositoryIdentity = L.repositoryIdentity)
                    (corruptEvidenceError
                      s!"repository identity mismatch at sequence {expected}")
                  require (texts.repositoryPathFingerprint = L.repositoryPathFingerprint)
                    (corruptEvidenceError
                      s!"repository path fingerprint mismatch at sequence {expected}")
                  match WorkflowType.ofValue? texts.workflowType with
                  | none =>
                      .error (corruptEvidenceError
                        s!"invalid workflow type at sequence {expected}")
                  | some workflow =>
                      return { sequence := expected, eventId := texts.eventId, eventType := kind,
                               timestamp := texts.timestamp, projectId := texts.projectId,
                               repositoryIdentity := texts.repositoryIdentity,
                               repositoryPathFingerprint := texts.repositoryPathFingerprint,
                               transactionId := texts.transactionId, workflowType := workflow,
                               previousFingerprint := texts.previousFingerprint,
                               payload := payload, fingerprint := texts.fingerprint }
          | _ =>
              .error (corruptEvidenceError
                s!"ledger sequence {expected} payload is not an object")
  | _, _ =>
      .error (corruptEvidenceError s!"ledger sequence {expected} has invalid integer fields")

/-! ### The replay loop -/

/-- What the replay loop of `_validate` carries from record to record. -/
structure ReplayState where
  events : List LedgerEvent
  previous : String
  eventIds : List String
  terminals : Dict EventType
  started : List String
  workflows : Dict WorkflowType
  histories : Dict (List EventType)
  raisedGateIds : Dict (String × String)
  resolutionBindings : Dict (String × String)
  resolvedGateIds : List String

def ReplayState.initial : ReplayState where
  events := []
  previous := GENESIS_FINGERPRINT
  eventIds := []
  terminals := []
  started := []
  workflows := []
  histories := []
  raisedGateIds := []
  resolutionBindings := []
  resolvedGateIds := []

def recordWorkflow (s : ReplayState) (expected : Nat) (event : LedgerEvent) :
    Result ReplayState := do
  require (∀ known ∈ s.workflows.get? event.transactionId, known = event.workflowType)
    (corruptEvidenceError s!"transaction workflow changed at sequence {expected}")
  return { s with workflows := s.workflows.insert event.transactionId event.workflowType }

/-- The gate a human-resolution transaction binds itself to when it starts. -/
inductive ResolutionBinding where
  | unbound
  | bound (gateId gateFingerprint : String)
  | invalid
deriving DecidableEq

def resolutionBindingOf (event : UnsignedEvent) : ResolutionBinding :=
  match event.payload.get "resolved_gate_id", event.payload.get "resolved_gate_fingerprint" with
  | .null, .null => .unbound
  | .str gateId, .str gateFingerprint =>
      if event.workflowType = .humanDecisionResolution then .bound gateId gateFingerprint
      else .invalid
  | _, _ => .invalid

def recordStart (s : ReplayState) (expected : Nat) (event : LedgerEvent) :
    Result ReplayState :=
  if event.eventType = transactionStarted then do
    require (event.transactionId ∉ s.started)
      (corruptEvidenceError s!"duplicate transaction start at sequence {expected}")
    let s := { s with started := s.started ++ [event.transactionId] }
    match resolutionBindingOf event.toUnsignedEvent with
    | .unbound => return s
    | .bound gateId gateFingerprint =>
        return { s with resolutionBindings :=
          s.resolutionBindings.insert event.transactionId (gateId, gateFingerprint) }
    | .invalid =>
        .error (corruptEvidenceError s!"invalid human-resolution binding at sequence {expected}")
  else do
    require (event.transactionId ∈ s.started ∨
        (event.payload.get "legacy_import").truthy = true)
      (corruptEvidenceError s!"event precedes transaction start at sequence {expected}")
    return s

def recordTerminal (s : ReplayState) (event : LedgerEvent) : Result ReplayState :=
  if event.eventType ∈ TERMINAL_EVENT_TYPES then do
    let transactionId := event.transactionId
    require (s.terminals.get? transactionId = none)
      (corruptEvidenceError s!"transaction {transactionId} has conflicting terminal events")
    return { s with terminals := s.terminals.insert transactionId event.eventType }
  else return s

/-- The gate object of a `HumanGateRaised` payload. -/
def raisedGate (P : Platform) (expected : Nat) (event : UnsignedEvent) :
    Result (Fields × String × String) :=
  match validateHumanGate (event.payload.get "gate") with
  | .error _ =>
      .error (corruptEvidenceError
        s!"human gate violates its durable contract at sequence {expected}")
  | .ok gate => .ok (gate, P.str (gate.get "gate_id"), P.fingerprint (.obj gate))

/-- Whether a `HumanGateResolved` payload is exactly bound: to the gate it names
    when that gate was raised here, else to what its transaction bound itself to. -/
def ResolutionBound (P : Platform) (raised : Option (String × String))
    (binding : Option (String × String)) (event : UnsignedEvent) : Prop :=
  match raised with
  | some (raisedTransactionId, gateFingerprint) =>
      event.payload.get "gate_fingerprint" = .str gateFingerprint ∧
        event.payload.get "raised_transaction_id" = .str raisedTransactionId
  | none =>
      match binding with
      | some (gateId, gateFingerprint) =>
          gateId = P.str (event.payload.get "gate_id") ∧
            .str gateFingerprint = event.payload.get "gate_fingerprint"
      | none => False

instance (P : Platform) (raised binding : Option (String × String)) (event : UnsignedEvent) :
    Decidable (ResolutionBound P raised binding event) := by
  unfold ResolutionBound
  exact match raised, binding with
  | some (_, _), _ => inferInstanceAs (Decidable (_ ∧ _))
  | none, some (_, _) => inferInstanceAs (Decidable (_ ∧ _))
  | none, none => inferInstanceAs (Decidable False)

def recordGate (P : Platform) (s : ReplayState) (expected : Nat) (event : LedgerEvent) :
    Result ReplayState :=
  if event.eventType = humanGateRaised then do
    let (_, gateId, actual) ← raisedGate P expected event.toUnsignedEvent
    require (s.raisedGateIds.get? gateId = none)
      (corruptEvidenceError s!"duplicate human gate identity at sequence {expected}")
    require (event.payload.get "gate_id" = .str gateId ∧
        event.payload.get "gate_fingerprint" = .str actual)
      (corruptEvidenceError s!"human gate identity mismatch at sequence {expected}")
    return { s with raisedGateIds :=
      s.raisedGateIds.insert gateId (event.transactionId, actual) }
  else if event.eventType = humanGateResolved then do
    let gateId := P.str (event.payload.get "gate_id")
    require (gateId ∉ s.resolvedGateIds ∧
        ResolutionBound P (s.raisedGateIds.get? gateId)
          (s.resolutionBindings.get? event.transactionId) event.toUnsignedEvent)
      (corruptEvidenceError
        s!"human gate resolution is not exactly bound at sequence {expected}")
    return { s with resolvedGateIds := s.resolvedGateIds ++ [gateId] }
  else do
    let transactionId := event.transactionId
    require (s.terminals.get? transactionId = none ∨ event.eventType ∈ TERMINAL_EVENT_TYPES ∨
        event.eventType ∈ POST_TERMINAL_EVENT_TYPES)
      (corruptEvidenceError
        s!"terminal transaction {transactionId} was mutated at sequence {expected}")
    return s

def COMPATIBILITY_CHECKPOINT : Json := .str "compatibility_materialization_acknowledged"

/-- One pass of the replay loop over a decoded record. -/
def advance (P : Platform) (s : ReplayState) (expected : Nat) (event : LedgerEvent) :
    Result ReplayState := do
  let s ← recordWorkflow s expected event
  let s ← recordStart s expected event
  let s ← recordTerminal s event
  let s ← recordGate P s expected event
  let transactionId := event.transactionId
  require (s.terminals.get? transactionId = none ∨ event.eventType ≠ checkpointRecorded ∨
      event.payload.get "checkpoint" = COMPATIBILITY_CHECKPOINT)
    (corruptEvidenceError
      s!"terminal transaction {transactionId} has an invalid post-terminal checkpoint")
  require (event.previousFingerprint = s.previous)
    (corruptEvidenceError s!"broken ledger fingerprint chain at sequence {expected}")
  require (event.fingerprint = eventFingerprint P event.toUnsignedEvent)
    (corruptEvidenceError s!"ledger fingerprint mismatch at sequence {expected}")
  return { s with
    events := s.events ++ [event]
    previous := event.fingerprint
    eventIds := s.eventIds ++ [event.eventId]
    histories := s.histories.insert transactionId
      ((s.histories.get? transactionId).getD [] ++ [event.eventType]) }

/-- One pass of the loop. Each accepted record adds one event identity, so their
    number is the number of records before this one. -/
def replayRecord (P : Platform) (L : LedgerIdentity) (s : ReplayState) (record : Object) :
    Result ReplayState := do
  let expected := s.eventIds.length + 1
  let event ← decode L s.eventIds expected record
  advance P s expected event

def replay (P : Platform) (L : LedgerIdentity) (records : List Object) : Result ReplayState :=
  records.foldlM (replayRecord P L) ReplayState.initial

/-! ### The checks on each transaction's history -/

def positionsOf (kind : EventType) (history : List EventType) : List Nat :=
  (List.range history.length).filter fun i => history[i]? = some kind

/-- Each reacquired lease has a recovery authorization after the lease before it. -/
def ReacquisitionsAuthorized (history : List EventType) : Prop :=
  let leases := positionsOf leaseAcquired history
  ∀ pair ∈ leases.zip leases.tail,
    ∃ recovery ∈ positionsOf recoveryApplied history, pair.1 < recovery ∧ recovery < pair.2

instance (history : List EventType) : Decidable (ReacquisitionsAuthorized history) :=
  inferInstanceAs (Decidable (∀ pair ∈ _, _))

def ORDERED_PAIRS : List (EventType × EventType) :=
  [(transactionStarted, leaseAcquired), (leaseAcquired, snapshotCaptured),
   (snapshotCaptured, sessionLaunched), (sessionLaunched, sessionResultAccepted),
   (snapshotCaptured, deterministicExecutionStarted),
   (deterministicExecutionStarted, deterministicResultAccepted),
   (validationStarted, validationPassed), (validationPassed, commitFinalized),
   (commitFinalized, transactionCompleted), (transactionCompleted, leaseReleased),
   (leaseReleased, projectionUpdated)]

/-- The first occurrence of one event type does not come after that of another. -/
def InOrder (history : List EventType) (pair : EventType × EventType) : Prop :=
  pair.1 ∈ history → pair.2 ∈ history → history.idxOf pair.1 ≤ history.idxOf pair.2

instance (history : List EventType) (pair : EventType × EventType) :
    Decidable (InOrder history pair) :=
  inferInstanceAs (Decidable (_ → _ → _))

def COMPLETION_REQUIREMENTS : List EventType :=
  [leaseAcquired, snapshotCaptured, validationPassed, validationStarted]

/-- The canonical lifecycle events a completed transaction lacks. -/
def missingLifecycle (history : List EventType) : List EventType :=
  COMPLETION_REQUIREMENTS.filter (· ∉ history)

/-- The payload of the transaction's first `TransactionCompleted`. -/
def completionPayload (events : List LedgerEvent) (transactionId : String) : Fields :=
  ((events.find? fun event => event.transactionId = transactionId ∧
    event.eventType = transactionCompleted).map fun event => event.payload).getD []

/-- The last part of `_validate`, for one transaction. -/
def checkHistory (events : List LedgerEvent) (transactionId : String)
    (history : List EventType) : Result Unit := do
  require (history.head? = some transactionStarted)
    (corruptEvidenceError s!"transaction {transactionId} does not begin with TransactionStarted")
  require (ReacquisitionsAuthorized history)
    (corruptEvidenceError
      (s!"transaction {transactionId} reacquired a lease without prior recovery " ++
        "authorization"))
  requireAll (fun pair => require (InOrder history pair)
    (corruptEvidenceError
      (s!"transaction {transactionId} has invalid event order: " ++ pair.1.name ++ " after " ++
        pair.2.name))) ORDERED_PAIRS
  require (sessionResultAccepted ∈ history → sessionLaunched ∈ history)
    (corruptEvidenceError
      s!"transaction {transactionId} accepted a result without a session launch")
  require (validationPassed ∈ history → validationStarted ∈ history)
    (corruptEvidenceError
      s!"transaction {transactionId} passed validation without starting validation")
  require (commitFinalized ∈ history → validationPassed ∈ history)
    (corruptEvidenceError
      s!"transaction {transactionId} finalized a commit without validation")
  require (projectionUpdated ∈ history → ∃ kind ∈ TERMINAL_EVENT_TYPES, kind ∈ history)
    (corruptEvidenceError
      s!"transaction {transactionId} projected state before a terminal outcome")
  let missing := ", ".intercalate ((missingLifecycle history).map EventType.name)
  require (transactionCompleted ∈ history → missingLifecycle history = [] ∨
      ((completionPayload events transactionId).get "legacy_import").truthy = true)
    (corruptEvidenceError
      s!"transaction {transactionId} skips canonical lifecycle events: {missing}")

structure LedgerIntegrity where
  sequence : Nat
  fingerprint : String
  eventCount : Nat
  transactions : Nat
deriving DecidableEq

/-- `_validate`: replay every record, then check every transaction. -/
def validate (P : Platform) (L : LedgerIdentity) (records : List Object) :
    Result (LedgerIntegrity × List LedgerEvent) := do
  let s ← replay P L records
  requireAll (fun transactionId =>
    checkHistory s.events transactionId ((s.histories.get? transactionId).getD []))
    s.histories.keys
  return (⟨records.length, s.previous, records.length, s.started.length⟩, s.events)

/-! ### The incremental check -/

/-- The event types a transaction has recorded, in order. -/
def historyOf (events : List LedgerEvent) (transactionId : String) : List EventType :=
  (events.filter fun event => event.transactionId = transactionId).map fun event =>
    event.eventType

/-- `required_predecessors`. The predecessor of `ProjectionUpdated` is the first
    terminal event of the history itself, so it never asks for one. -/
def requiredPredecessor (history : List EventType) : EventType → Option EventType
  | snapshotCaptured => some leaseAcquired
  | validationStarted => some snapshotCaptured
  | sessionResultAccepted => some sessionLaunched
  | deterministicExecutionStarted => some snapshotCaptured
  | deterministicResultAccepted => some deterministicExecutionStarted
  | validationPassed => some validationStarted
  | commitFinalized => some validationPassed
  | projectionUpdated => (history.filter (· ∈ TERMINAL_EVENT_TYPES)).head?
  | _ => none

/-- `_validate_append`. -/
def validateAppend (existing : List LedgerEvent) (event : LedgerEvent) : Result Unit := do
  let history := historyOf existing event.transactionId
  let terminals := history.filter (· ∈ TERMINAL_EVENT_TYPES)
  require (event.eventId ∉ existing.map fun item => item.eventId)
    (corruptEvidenceError "duplicate ledger event ID")
  if event.eventType = transactionStarted then
    require (history = []) (corruptEvidenceError "duplicate transaction start")
  else do
    require (history ≠ []) (corruptEvidenceError "event precedes transaction start")
    require (event.eventType = leaseAcquired → leaseAcquired ∈ history →
        recoveryApplied ∈ history)
      (corruptEvidenceError "reacquired lease requires prior recovery authorization")
    require (event.eventType ∈ TERMINAL_EVENT_TYPES → terminals = [])
      (corruptEvidenceError "transaction has conflicting terminal events")
    require (terminals = [] ∨ event.eventType ∈ POST_TERMINAL_EVENT_TYPES)
      (corruptEvidenceError "terminal transaction is immutable")
    require (terminals = [] ∨ event.eventType ≠ checkpointRecorded ∨
        event.payload.get "checkpoint" = COMPATIBILITY_CHECKPOINT)
      (corruptEvidenceError "terminal transaction has an invalid post-terminal checkpoint")
    require (∀ predecessor ∈ requiredPredecessor history event.eventType,
        predecessor ∈ history)
      (corruptEvidenceError (event.eventType.name ++ " requires prior " ++
        ((requiredPredecessor history event.eventType).map EventType.name).getD ""))
    let missing := ", ".intercalate ((missingLifecycle history).map EventType.name)
    require (event.eventType = transactionCompleted → missingLifecycle history = [] ∨
        (event.payload.get "legacy_import").truthy = true)
      (corruptEvidenceError
        s!"completed transaction skips canonical lifecycle events: {missing}")

/-! ### The files -/

/-- The ledger file and its head anchor. A record is one canonical line, and
    `stamp` stands for the inode and modification time of the file. -/
structure Storage where
  records : List Object
  head : Option Json
  stamp : Nat
deriving DecidableEq

def Storage.empty : Storage := ⟨[], none, 0⟩

structure Head where
  sequence : Int
  fingerprint : String
deriving DecidableEq

def HEAD_FIELDS : List String := ["fingerprint", "schema_version", "sequence"]

/-- The contract of a head anchor document. -/
def parseHead (value : Json) : Option Head :=
  match value with
  | .obj fields =>
      if Fields.keys fields = HEAD_FIELDS ∧
          (Fields.get fields "schema_version").equalsInt 1 then
        match Fields.get fields "sequence", Fields.get fields "fingerprint" with
        | .int sequence, .str fingerprint => some ⟨sequence, fingerprint⟩
        | _, _ => none
      else none
  | _ => none

/-- `_head`. -/
def readHead (storage : Storage) : Result (Option Head) :=
  match storage.head with
  | none => .ok none
  | some value =>
      match parseHead value with
      | some head => .ok (some head)
      | none => .error (corruptEvidenceError "ledger durable head anchor violates its contract")

def headDocument (event : LedgerEvent) : Json :=
  .obj [("fingerprint", .str event.fingerprint), ("schema_version", .int 1),
    ("sequence", .int event.sequence)]

def Storage.writeHead (P : Platform) (storage : Storage) (event : LedgerEvent) : Storage :=
  { storage with head := some (atomicWriteJson P (headDocument event)) }

/-- `_verify_head`, with the storage it leaves. -/
def verifyHead (P : Platform) (repairOneAhead : Bool) (events : List LedgerEvent)
    (storage : Storage) : Result Storage := do
  let head ← readHead storage
  match events.getLast?, head with
  | none, none => .ok storage
  | none, some _ =>
      .error (corruptEvidenceError "ledger is shorter than its durable head anchor")
  | some _, none =>
      .error (corruptEvidenceError "non-empty ledger lacks its durable head anchor")
  | some tail, some head =>
      if head.sequence = tail.sequence ∧ head.fingerprint = tail.fingerprint then .ok storage
      else if repairOneAhead ∧ (tail.sequence : Int) = head.sequence + 1 ∧
          tail.previousFingerprint = head.fingerprint then
        .ok (storage.writeHead P tail)
      else .error (corruptEvidenceError "ledger tail contradicts its durable head anchor")

/-- `read`, with the storage it leaves. -/
def Storage.read (P : Platform) (L : LedgerIdentity) (storage : Storage) :
    Result (List LedgerEvent × Storage) := do
  let (_, events) ← validate P L storage.records
  let storage ← verifyHead P true events storage
  return (events, storage)

/-! ### Appending -/

/-- The size of the ledger file: each record is its canonical bytes and a newline. -/
def fileSize (records : List Object) : Nat :=
  (records.map fun record => (Json.dumps (.obj record.fields)).utf8ByteSize + 1).sum

abbrev Signature := Option (Nat × Nat)

/-- `_signature`: none while the file does not exist. -/
def Storage.signature (storage : Storage) : Signature :=
  if storage.records = [] then none else some (fileSize storage.records, storage.stamp)

/-- The append cache of one ledger object. -/
structure AppendCache where
  signature : Signature
  events : List LedgerEvent
  integrity : LedgerIntegrity
deriving DecidableEq

structure AppendRequest where
  eventType : EventType
  transactionId : String
  workflowType : WorkflowType
  payload : Fields := []
  eventId : Option String := none
  timestamp : Option String := none

/-- What an append draws from the outside: a fresh identifier, the time, and the
    modification time its write leaves. -/
structure Drawn where
  uuid4 : String
  uuid4_ne : uuid4 ≠ ""
  utcNow : String
  utcNow_ne : utcNow ≠ ""
  stamp : Nat

/-- `given or drawn`. -/
def givenOr (given : Option String) (drawn : String) : String :=
  match given with
  | none => drawn
  | some text => if text = "" then drawn else text

theorem givenOr_ne {given : Option String} {drawn : String} (h : drawn ≠ "") :
    givenOr given drawn ≠ "" := by
  unfold givenOr
  split
  · exact h
  · split <;> assumption

/-- The event an append builds on a ledger of the given length and tail. -/
def newEvent (P : Platform) (L : LedgerIdentity) (integrity : LedgerIntegrity)
    (request : AppendRequest) (drawn : Drawn) : LedgerEvent :=
  let event : UnsignedEvent :=
    { sequence := integrity.sequence + 1
      eventId := givenOr request.eventId drawn.uuid4
      eventType := request.eventType
      timestamp := givenOr request.timestamp drawn.utcNow
      projectId := L.projectId
      repositoryIdentity := L.repositoryIdentity
      repositoryPathFingerprint := L.repositoryPathFingerprint
      transactionId := request.transactionId
      workflowType := request.workflowType
      previousFingerprint := integrity.fingerprint
      payload := redactFields P request.payload }
  { event with fingerprint := eventFingerprint P event }

/-- `_read_for_append`: the records from the cache, or read and fully checked. -/
def readForAppend (P : Platform) (L : LedgerIdentity) (cache : Option AppendCache)
    (storage : Storage) : Result (List LedgerEvent × LedgerIntegrity × Storage) :=
  match cache.filter fun cache => cache.signature = storage.signature with
  | some cache => .ok (cache.events, cache.integrity, storage)
  | none => do
      let (integrity, events) ← validate P L storage.records
      let storage ← verifyHead P true events storage
      return (events, integrity, storage)

/-- The durable write of the event line. -/
def Storage.writeRecord (storage : Storage) (event : LedgerEvent) (stamp : Nat) : Storage :=
  { storage with records := storage.records ++ [event.toObject], stamp := stamp }

/-- Everything an append does before its first write. -/
def prepareAppend (P : Platform) (L : LedgerIdentity) (cache : Option AppendCache)
    (storage : Storage) (request : AppendRequest) (drawn : Drawn) :
    Result (List LedgerEvent × LedgerIntegrity × Storage × LedgerEvent) := do
  let (existing, integrity, storage) ← readForAppend P L cache storage
  let event := newEvent P L integrity request drawn
  validateAppend existing event
  return (existing, integrity, storage, event)

/-- The cache an append leaves. -/
def cacheAfter (existing : List LedgerEvent) (integrity : LedgerIntegrity) (event : LedgerEvent)
    (storage : Storage) : AppendCache where
  signature := storage.signature
  events := existing ++ [event]
  integrity :=
    { sequence := event.sequence
      fingerprint := event.fingerprint
      eventCount := existing.length + 1
      transactions :=
        integrity.transactions + if event.eventType = transactionStarted then 1 else 0 }

/-- `append`: the event, the storage and the cache it leaves. -/
def append (P : Platform) (L : LedgerIdentity) (cache : Option AppendCache)
    (storage : Storage) (request : AppendRequest) (drawn : Drawn) :
    Result (LedgerEvent × Storage × AppendCache) := do
  let (existing, integrity, storage, event) ← prepareAppend P L cache storage request drawn
  let storage := (storage.writeRecord event drawn.stamp).writeHead P event
  return (event, storage, cacheAfter existing integrity event storage)

end Conveyor
