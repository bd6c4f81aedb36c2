import Conveyor.Ledger
import Conveyor.Library.HashChain

/-!
# What the full replay accepts

`validate` reads the ledger from its first record. Here its verdict is put in terms
of the events alone: `decode_eq_ok` says when a record is one event, `Tracks` what
the loop's state is after a list of events, and `validate_snoc_iff` what one more
event has to satisfy on a ledger that was accepted.
-/

namespace Conveyor

open Library EventType

variable {P : Platform} {L : LedgerIdentity}

/-! ### Decoding one record -/

theorem recordText_eq_some {fields : Fields} {name text : String} :
    recordText fields name = some text ↔ fields.get? name = some (.str text) ∧ text ≠ "" := by
  unfold recordText Fields.get
  cases fields.get? name with
  | none => simp
  | some value =>
      cases value with
      | str s =>
          by_cases hs : s = ""
          · subst hs
            simp only [Option.getD_some, if_true, reduceCtorEq, false_iff, not_and, not_not]
            intro h
            simpa using h.symm
          · simp only [Option.getD_some, hs, if_false, Option.some.injEq, Json.str.injEq]
            exact ⟨fun h => ⟨h, h ▸ hs⟩, fun h => h.1⟩
      | _ => simp

/-- The text fields of an event, under the names they are read by. -/
def LedgerEvent.texts (event : LedgerEvent) : RecordTexts where
  eventId := event.eventId
  eventType := event.eventType.name
  timestamp := event.timestamp
  projectId := event.projectId
  repositoryIdentity := event.repositoryIdentity
  repositoryPathFingerprint := event.repositoryPathFingerprint
  transactionId := event.transactionId
  workflowType := event.workflowType.value
  previousFingerprint := event.previousFingerprint
  fingerprint := event.fingerprint

/-- What the replay asks of a record by itself, at its place in the ledger. -/
structure RecordOk (L : LedgerIdentity) (eventIds : List String) (expected : Nat)
    (event : LedgerEvent) : Prop where
  eventId : event.eventId ≠ ""
  timestamp : event.timestamp ≠ ""
  transactionId : event.transactionId ≠ ""
  projectId : event.projectId ≠ ""
  contracts : ∀ contract ∈ PAYLOAD_CONTRACTS event.eventType, ContractHolds event.payload contract
  identityLength : 64 ≤ event.repositoryIdentity.length
  pathLength : 64 ≤ event.repositoryPathFingerprint.length
  previousHex : isFingerprint event.previousFingerprint
  fingerprintHex : isFingerprint event.fingerprint
  sequence : event.sequence = expected
  fresh : event.eventId ∉ eventIds
  project : event.projectId = L.projectId
  identity : event.repositoryIdentity = L.repositoryIdentity
  path : event.repositoryPathFingerprint = L.repositoryPathFingerprint

theorem recordTexts_eq_some {fields : Fields} {t : RecordTexts} :
    recordTexts fields = some t ↔
      recordText fields "event_id" = some t.eventId ∧
      recordText fields "event_type" = some t.eventType ∧
      recordText fields "timestamp" = some t.timestamp ∧
      recordText fields "project_id" = some t.projectId ∧
      recordText fields "repository_identity" = some t.repositoryIdentity ∧
      recordText fields "repository_path_fingerprint" = some t.repositoryPathFingerprint ∧
      recordText fields "transaction_id" = some t.transactionId ∧
      recordText fields "workflow_type" = some t.workflowType ∧
      recordText fields "previous_fingerprint" = some t.previousFingerprint ∧
      recordText fields "fingerprint" = some t.fingerprint := by
  cases t
  simp only [recordTexts, bind, Option.bind_eq_some_iff, pure, Option.some.injEq,
    RecordTexts.mk.injEq]
  constructor
  · rintro ⟨_, h1, _, h2, _, h3, _, h4, _, h5, _, h6, _, h7, _, h8, _, h9, _, h10, rfl, rfl, rfl,
      rfl, rfl, rfl, rfl, rfl, rfl, rfl⟩
    exact ⟨h1, h2, h3, h4, h5, h6, h7, h8, h9, h10⟩
  · rintro ⟨h1, h2, h3, h4, h5, h6, h7, h8, h9, h10⟩
    exact ⟨_, h1, _, h2, _, h3, _, h4, _, h5, _, h6, _, h7, _, h8, _, h9, _, h10, rfl, rfl, rfl,
      rfl, rfl, rfl, rfl, rfl, rfl, rfl⟩

/-- A record with exactly the required fields, each reading as the event's, is the
    event's own object. -/
theorem eq_toObject {record : Object} {event : LedgerEvent}
    (hkeys : record.fields.keys = REQUIRED_FIELDS)
    (hget : ∀ key ∈ REQUIRED_FIELDS, record.fields.get? key = event.toFields.get? key) :
    record = event.toObject := by
  have hfields : record.fields = event.toFields :=
    Fields.ext_of_keys record.ordered.nodup (hkeys.trans event.keys_toFields.symm)
      (fun key hkey => hget key (hkeys ▸ hkey))
  cases record
  simp only [LedgerEvent.toObject, Object.mk.injEq]
  exact hfields

theorem keys_eq_required {record : Object}
    (hmissing : REQUIRED_FIELDS.filter (· ∉ record.fields.keys) = [])
    (hextra : record.fields.keys.filter (· ∉ REQUIRED_FIELDS) = []) :
    record.fields.keys = REQUIRED_FIELDS := by
  refine List.Pairwise.eq_of_mem_iff record.ordered REQUIRED_FIELDS_ordered fun key => ?_
  simp only [List.filter_eq_nil_iff, decide_eq_true_eq, not_not] at hmissing hextra
  exact ⟨hextra key, hmissing key⟩

theorem decode_ok {eventIds : List String} {expected : Nat} {record : Object}
    {event : LedgerEvent} (h : decode L eventIds expected record = .ok event) :
    record = event.toObject ∧ RecordOk L eventIds expected event := by
  simp only [decode, bind_eq_ok, require_eq_ok, exists_const] at h
  obtain ⟨hmissing, hextra, h⟩ := h
  have hkeys := keys_eq_required hmissing hextra
  split at h
  case h_2 => cases h
  rename_i schemaVersion sequence hschema hsequence
  split at h
  case h_1 => cases h
  rename_i texts htexts
  split at h
  case h_2 => cases h
  rename_i payload hpayload
  simp only [bind_eq_ok, requireAll_eq_ok, require_eq_ok, exists_const] at h
  obtain ⟨hcontracts, hlengths, hhex, ⟨rfl, rfl⟩, hfresh, h⟩ := h
  split at h
  case h_1 => cases h
  rename_i kind hkind
  simp only [bind_eq_ok, require_eq_ok, exists_const] at h
  obtain ⟨hproject, hidentity, hpath, h⟩ := h
  split at h
  case h_1 => cases h
  rename_i workflow hworkflow
  cases h
  rw [EventType.ofName?_eq_some] at hkind
  rw [WorkflowType.ofValue?_eq_some] at hworkflow
  simp only [recordTexts_eq_some, recordText_eq_some] at htexts
  obtain ⟨⟨h1, h1'⟩, ⟨h2, -⟩, ⟨h3, h3'⟩, ⟨h4, h4'⟩, ⟨h5, -⟩, ⟨h6, -⟩, ⟨h7, h7'⟩, ⟨h8, -⟩,
    ⟨h9, -⟩, ⟨h10, -⟩⟩ := htexts
  refine ⟨eq_toObject hkeys fun key hkey => ?_, ?_⟩
  · simp only [REQUIRED_FIELDS, List.mem_cons, List.not_mem_nil, or_false] at hkey
    have hpayload' := Fields.get?_of_get hpayload (by simp)
    have hschema' := Fields.get?_of_get hschema (by simp)
    have hsequence' := Fields.get?_of_get hsequence (by simp)
    rw [LedgerEvent.toFields_eq]
    rcases hkey with rfl | rfl | rfl | rfl | rfl | rfl | rfl | rfl | rfl | rfl | rfl | rfl | rfl <;>
      simp [Fields.get?_cons, *]
  · refine ⟨h1', h3', h7', h4', ?_, hlengths.1, hlengths.2, hhex.1, hhex.2, rfl, hfresh, hproject,
      hidentity, hpath⟩
    rw [← hkind, EventType.ofName?_eq_some.mpr rfl] at hcontracts
    exact hcontracts

theorem recordTexts_toFields {event : LedgerEvent} (hid : event.eventId ≠ "")
    (htime : event.timestamp ≠ "") (htransaction : event.transactionId ≠ "")
    (hproject : event.projectId ≠ "") (hidentity : event.repositoryIdentity ≠ "")
    (hpath : event.repositoryPathFingerprint ≠ "")
    (hprevious : event.previousFingerprint ≠ "") (hfingerprint : event.fingerprint ≠ "") :
    recordTexts event.toFields = some event.texts := by
  have hworkflow : event.workflowType.value ≠ "" := by
    cases event.workflowType <;> decide
  simp [recordTexts_eq_some, recordText_eq_some, LedgerEvent.toFields_eq, LedgerEvent.texts,
    Fields.get?_cons, EventType.name_ne_empty, *]

theorem ne_empty_of_length {text : String} {n : Nat} (h : n + 1 ≤ text.length) : text ≠ "" := by
  rintro rfl
  simp at h

/-- An event whose fields are right decodes from its own object. -/
theorem decode_toObject {eventIds : List String} {expected : Nat} {event : LedgerEvent}
    (h : RecordOk L eventIds expected event) :
    decode L eventIds expected event.toObject = .ok event := by
  have htexts : recordTexts event.toObject.fields = some event.texts :=
    recordTexts_toFields h.eventId h.timestamp h.transactionId h.projectId
      (ne_empty_of_length h.identityLength) (ne_empty_of_length h.pathLength)
      (ne_empty_of_length h.previousHex.1.ge) (ne_empty_of_length h.fingerprintHex.1.ge)
  have hkeys : event.toObject.fields.keys = REQUIRED_FIELDS := event.keys_toFields
  have hschema : event.toObject.fields.get "schema_version" = .int 1 := rfl
  have hsequence : event.toObject.fields.get "sequence" = .int event.sequence := rfl
  have hpayload : event.toObject.fields.get "payload" = .obj event.payload := rfl
  have hkind : EventType.ofName? event.texts.eventType = some event.eventType :=
    EventType.ofName?_eq_some.mpr rfl
  have hworkflow : WorkflowType.ofValue? event.texts.workflowType = some event.workflowType :=
    WorkflowType.ofValue?_eq_some.mpr rfl
  simp only [decode, hkeys, hschema, hsequence, htexts, hpayload, hkind, hworkflow,
    bind_eq_ok, requireAll_eq_ok, require_eq_ok, exists_const]
  refine ⟨by simp, by simp, h.contracts, ⟨h.identityLength, h.pathLength⟩,
    ⟨h.previousHex, h.fingerprintHex⟩, ⟨trivial, by rw [h.sequence]⟩, h.fresh, h.project, h.identity,
    h.path, ?_⟩
  rw [← h.sequence]
  rfl

/-- When a record passes the checks on it alone. -/
theorem decode_eq_ok {eventIds : List String} {expected : Nat} {record : Object}
    {event : LedgerEvent} :
    decode L eventIds expected record = .ok event ↔
      record = event.toObject ∧ RecordOk L eventIds expected event :=
  ⟨decode_ok, fun ⟨hrecord, h⟩ => hrecord ▸ decode_toObject h⟩

/-! ### Reading the state off the events -/

/-- A transaction that has recorded a terminal event. -/
def Terminated (history : List EventType) : Prop :=
  ∃ kind ∈ history, kind ∈ TERMINAL_EVENT_TYPES

instance (history : List EventType) : Decidable (Terminated history) :=
  inferInstanceAs (Decidable (∃ kind ∈ history, _))

/-- The fingerprint the next event of the ledger has to name. -/
def tailFingerprint (events : List LedgerEvent) : String :=
  tailDigest (fun event => event.fingerprint) GENESIS_FINGERPRINT events

def workflowOf (events : List LedgerEvent) (transactionId : String) : Option WorkflowType :=
  (events.find? fun event => event.transactionId = transactionId).map fun event =>
    event.workflowType

/-- The gate object an event carries. -/
def gateOf (event : UnsignedEvent) : Fields :=
  match event.payload.get "gate" with
  | .obj gate => gate
  | _ => []

def gateIdOf (P : Platform) (event : UnsignedEvent) : String :=
  P.str ((gateOf event).get "gate_id")

/-- The transaction that raised a gate, with the gate's fingerprint. -/
def raisedGateOf (P : Platform) (events : List LedgerEvent) (gateId : String) :
    Option (String × String) :=
  events.findSome? fun event =>
    if event.eventType = humanGateRaised ∧ gateIdOf P event.toUnsignedEvent = gateId then
      some (event.transactionId, P.fingerprint (.obj (gateOf event.toUnsignedEvent)))
    else none

def resolvedGates (P : Platform) (events : List LedgerEvent) : List String :=
  (events.filter fun event => event.eventType = humanGateResolved).map fun event =>
    P.str (event.payload.get "gate_id")

/-- The gate a start event binds its transaction to. -/
def boundGate (event : LedgerEvent) : Option (String × String) :=
  if event.eventType = transactionStarted then
    match resolutionBindingOf event.toUnsignedEvent with
    | .bound gateId gateFingerprint => some (gateId, gateFingerprint)
    | _ => none
  else none

def bindingOf (events : List LedgerEvent) (transactionId : String) : Option (String × String) :=
  events.findSome? fun event =>
    if event.transactionId = transactionId then boundGate event else none

theorem historyOf_snoc (events : List LedgerEvent) (event : LedgerEvent) (transactionId : String) :
    historyOf (events ++ [event]) transactionId =
      if event.transactionId = transactionId then
        historyOf events transactionId ++ [event.eventType]
      else historyOf events transactionId := by
  unfold historyOf
  by_cases h : event.transactionId = transactionId <;> simp [h]

theorem historyOf_snoc_self (events : List LedgerEvent) (event : LedgerEvent) :
    historyOf (events ++ [event]) event.transactionId =
      historyOf events event.transactionId ++ [event.eventType] := by
  simp [historyOf_snoc]

theorem tailFingerprint_snoc (events : List LedgerEvent) (event : LedgerEvent) :
    tailFingerprint (events ++ [event]) = event.fingerprint :=
  tailDigest_snoc _ _ _ _

theorem workflowOf_eq_none {events : List LedgerEvent} {transactionId : String} :
    workflowOf events transactionId = none ↔ historyOf events transactionId = [] := by
  simp [workflowOf, historyOf, List.filter_eq_nil_iff]

theorem workflowOf_snoc (events : List LedgerEvent) (event : LedgerEvent)
    (transactionId : String) :
    workflowOf (events ++ [event]) transactionId =
      (workflowOf events transactionId).or
        (if event.transactionId = transactionId then some event.workflowType else none) := by
  unfold workflowOf
  rw [List.find?_append]
  cases events.find? fun event => event.transactionId = transactionId with
  | some found => simp
  | none => by_cases h : event.transactionId = transactionId <;> simp [h]

theorem raisedGateOf_snoc (events : List LedgerEvent) (event : LedgerEvent) (gateId : String) :
    raisedGateOf P (events ++ [event]) gateId =
      (raisedGateOf P events gateId).or
        (if event.eventType = humanGateRaised ∧ gateIdOf P event.toUnsignedEvent = gateId then
          some (event.transactionId, P.fingerprint (.obj (gateOf event.toUnsignedEvent)))
        else none) := by
  simp [raisedGateOf, List.findSome?_append]

theorem bindingOf_snoc (events : List LedgerEvent) (event : LedgerEvent)
    (transactionId : String) :
    bindingOf (events ++ [event]) transactionId =
      (bindingOf events transactionId).or
        (if event.transactionId = transactionId then boundGate event else none) := by
  simp [bindingOf, List.findSome?_append]

/-- Only a transaction that started is bound to a gate. -/
theorem started_of_bindingOf {events : List LedgerEvent} {transactionId : String}
    {binding : String × String} (h : bindingOf events transactionId = some binding) :
    transactionStarted ∈ historyOf events transactionId := by
  obtain ⟨event, hmem, hevent⟩ := List.exists_of_findSome?_eq_some h
  by_cases htransaction : event.transactionId = transactionId
  · by_cases hkind : event.eventType = transactionStarted
    · simp only [historyOf, List.mem_map, List.mem_filter, decide_eq_true_eq]
      exact ⟨event, ⟨hmem, htransaction⟩, hkind⟩
    · simp [boundGate, hkind, htransaction] at hevent
  · simp [htransaction] at hevent

theorem resolvedGates_snoc (events : List LedgerEvent) (event : LedgerEvent) :
    resolvedGates P (events ++ [event]) =
      resolvedGates P events ++
        (if event.eventType = humanGateResolved then [P.str (event.payload.get "gate_id")]
        else []) := by
  by_cases h : event.eventType = humanGateResolved <;>
    simp [resolvedGates, h]

theorem terminated_snoc {history : List EventType} {kind : EventType} :
    Terminated (history ++ [kind]) ↔ Terminated history ∨ kind ∈ TERMINAL_EVENT_TYPES := by
  simp only [Terminated, List.mem_append, List.mem_singleton]
  constructor
  · rintro ⟨k, hk | rfl, ht⟩
    · exact Or.inl ⟨k, hk, ht⟩
    · exact Or.inr ht
  · rintro (⟨k, hk, ht⟩ | ht)
    · exact ⟨k, Or.inl hk, ht⟩
    · exact ⟨kind, Or.inr rfl, ht⟩

/-! ### One pass of the loop -/

/-- The state after a pass over an event the pass accepts. -/
def ReplayState.next (P : Platform) (s : ReplayState) (event : LedgerEvent) : ReplayState where
  events := s.events ++ [event]
  previous := event.fingerprint
  eventIds := s.eventIds ++ [event.eventId]
  terminals :=
    if event.eventType ∈ TERMINAL_EVENT_TYPES then
      s.terminals.insert event.transactionId event.eventType
    else s.terminals
  started :=
    if event.eventType = transactionStarted then s.started ++ [event.transactionId]
    else s.started
  workflows := s.workflows.insert event.transactionId event.workflowType
  histories := s.histories.insert event.transactionId
    ((s.histories.get? event.transactionId).getD [] ++ [event.eventType])
  raisedGateIds :=
    if event.eventType = humanGateRaised then
      s.raisedGateIds.insert (gateIdOf P event.toUnsignedEvent)
        (event.transactionId, P.fingerprint (.obj (gateOf event.toUnsignedEvent)))
    else s.raisedGateIds
  resolutionBindings :=
    match boundGate event with
    | some binding => s.resolutionBindings.insert event.transactionId binding
    | none => s.resolutionBindings
  resolvedGateIds :=
    if event.eventType = humanGateResolved then
      s.resolvedGateIds ++ [P.str (event.payload.get "gate_id")]
    else s.resolvedGateIds

/-- The gate of a `HumanGateRaised` is valid and is the one the payload names. -/
def GateNamed (P : Platform) (event : UnsignedEvent) : Prop :=
  ∃ gate : Fields, event.payload.get "gate" = .obj gate ∧ GateValid gate ∧
    event.payload.get "gate_id" = .str (P.str (gate.get "gate_id")) ∧
    event.payload.get "gate_fingerprint" = .str (P.fingerprint (.obj gate))

/-- What a pass of the loop asks of an event, over the replayed state. -/
structure Accepted (P : Platform) (s : ReplayState) (event : LedgerEvent) : Prop where
  workflow : ∀ known ∈ s.workflows.get? event.transactionId, known = event.workflowType
  start : event.eventType = transactionStarted →
    event.transactionId ∉ s.started ∧ resolutionBindingOf event.toUnsignedEvent ≠ .invalid
  begun : event.eventType ≠ transactionStarted →
    event.transactionId ∈ s.started ∨ (event.payload.get "legacy_import").truthy = true
  terminal : event.eventType ∈ TERMINAL_EVENT_TYPES →
    s.terminals.get? event.transactionId = none
  raised : event.eventType = humanGateRaised →
    GateNamed P event.toUnsignedEvent ∧
      s.raisedGateIds.get? (gateIdOf P event.toUnsignedEvent) = none
  resolved : event.eventType = humanGateResolved →
    P.str (event.payload.get "gate_id") ∉ s.resolvedGateIds ∧
      ResolutionBound P (s.raisedGateIds.get? (P.str (event.payload.get "gate_id")))
        (s.resolutionBindings.get? event.transactionId) event.toUnsignedEvent
  immutable : event.eventType ≠ humanGateRaised → event.eventType ≠ humanGateResolved →
    s.terminals.get? event.transactionId = none ∨ event.eventType ∈ TERMINAL_EVENT_TYPES ∨
      event.eventType ∈ POST_TERMINAL_EVENT_TYPES
  checkpoint : event.eventType = checkpointRecorded →
    s.terminals.get? event.transactionId = none ∨
      event.payload.get "checkpoint" = COMPATIBILITY_CHECKPOINT
  chain : event.previousFingerprint = s.previous
  fingerprint : event.fingerprint = eventFingerprint P event.toUnsignedEvent

theorem recordWorkflow_eq_ok {s t : ReplayState} {expected : Nat} {event : LedgerEvent} :
    recordWorkflow s expected event = .ok t ↔
      (∀ known ∈ s.workflows.get? event.transactionId, known = event.workflowType) ∧
      t = { s with workflows := s.workflows.insert event.transactionId event.workflowType } := by
  simp only [recordWorkflow, bind_eq_ok, require_eq_ok, exists_const, pure, Except.pure,
    Except.ok.injEq, eq_comm (a := t)]

theorem recordStart_eq_ok {s t : ReplayState} {expected : Nat} {event : LedgerEvent} :
    recordStart s expected event = .ok t ↔
      (event.eventType = transactionStarted →
        event.transactionId ∉ s.started ∧
          resolutionBindingOf event.toUnsignedEvent ≠ .invalid) ∧
      (event.eventType ≠ transactionStarted →
        event.transactionId ∈ s.started ∨
          (event.payload.get "legacy_import").truthy = true) ∧
      t = { s with
        started :=
          if event.eventType = transactionStarted then s.started ++ [event.transactionId]
          else s.started
        resolutionBindings :=
          match boundGate event with
          | some binding => s.resolutionBindings.insert event.transactionId binding
          | none => s.resolutionBindings } := by
  unfold recordStart boundGate
  by_cases hkind : event.eventType = transactionStarted
  · simp only [hkind, if_true, bind_eq_ok, require_eq_ok, exists_const]
    cases hbinding : resolutionBindingOf event.toUnsignedEvent <;>
      simp [pure, Except.pure, eq_comm (a := t)]
  · simp [hkind, bind_eq_ok, require_eq_ok, pure, Except.pure, eq_comm (a := t)]

theorem recordTerminal_eq_ok {s t : ReplayState} {event : LedgerEvent} :
    recordTerminal s event = .ok t ↔
      (event.eventType ∈ TERMINAL_EVENT_TYPES →
        s.terminals.get? event.transactionId = none) ∧
      t = { s with
        terminals :=
          if event.eventType ∈ TERMINAL_EVENT_TYPES then
            s.terminals.insert event.transactionId event.eventType
          else s.terminals } := by
  unfold recordTerminal
  by_cases hkind : event.eventType ∈ TERMINAL_EVENT_TYPES <;>
    simp [hkind, bind_eq_ok, require_eq_ok, pure, Except.pure, eq_comm (a := t)]

theorem raisedGate_eq_ok {expected : Nat} {event : UnsignedEvent} {gate : Fields}
    {gateId actual : String} :
    raisedGate P expected event = .ok (gate, gateId, actual) ↔
      event.payload.get "gate" = .obj gate ∧ GateValid gate ∧
        P.str (gate.get "gate_id") = gateId ∧ P.fingerprint (.obj gate) = actual := by
  unfold raisedGate
  cases hvalid : validateHumanGate (event.payload.get "gate") with
  | error failure =>
      simp only [reduceCtorEq, false_iff]
      rintro ⟨hgate, hok, -⟩
      rw [validateHumanGate_eq_ok.mpr ⟨hgate, hok⟩] at hvalid
      cases hvalid
  | ok found =>
      obtain ⟨hgate, hok⟩ := validateHumanGate_eq_ok.mp hvalid
      simp only [Except.ok.injEq, Prod.mk.injEq, hgate, Json.obj.injEq]
      constructor
      · rintro ⟨rfl, hid, hfp⟩
        exact ⟨rfl, hok, hid, hfp⟩
      · rintro ⟨rfl, -, hid, hfp⟩
        exact ⟨rfl, hid, hfp⟩

theorem recordGate_eq_ok {s t : ReplayState} {expected : Nat} {event : LedgerEvent} :
    recordGate P s expected event = .ok t ↔
      (event.eventType = humanGateRaised →
        GateNamed P event.toUnsignedEvent ∧
          s.raisedGateIds.get? (gateIdOf P event.toUnsignedEvent) = none) ∧
      (event.eventType = humanGateResolved →
        P.str (event.payload.get "gate_id") ∉ s.resolvedGateIds ∧
          ResolutionBound P (s.raisedGateIds.get? (P.str (event.payload.get "gate_id")))
            (s.resolutionBindings.get? event.transactionId) event.toUnsignedEvent) ∧
      (event.eventType ≠ humanGateRaised → event.eventType ≠ humanGateResolved →
        s.terminals.get? event.transactionId = none ∨
          event.eventType ∈ TERMINAL_EVENT_TYPES ∨
          event.eventType ∈ POST_TERMINAL_EVENT_TYPES) ∧
      t = { s with
        raisedGateIds :=
          if event.eventType = humanGateRaised then
            s.raisedGateIds.insert (gateIdOf P event.toUnsignedEvent)
              (event.transactionId, P.fingerprint (.obj (gateOf event.toUnsignedEvent)))
          else s.raisedGateIds
        resolvedGateIds :=
          if event.eventType = humanGateResolved then
            s.resolvedGateIds ++ [P.str (event.payload.get "gate_id")]
          else s.resolvedGateIds } := by
  unfold recordGate
  by_cases hraised : event.eventType = humanGateRaised
  · simp only [hraised, if_true, bind_eq_ok, require_eq_ok, exists_const, Prod.exists,
      raisedGate_eq_ok, reduceCtorEq, if_false, forall_const, false_imp_iff, true_and, ne_eq,
      not_true_eq_false, pure, Except.pure, Except.ok.injEq]
    constructor
    · rintro ⟨gate, -, -, ⟨hgate, hok, rfl, rfl⟩, hfresh, ⟨hid, hfp⟩, rfl⟩
      have hgateOf : gateOf event.toUnsignedEvent = gate := by rw [gateOf, hgate]
      exact ⟨⟨⟨gate, hgate, hok, hid, hfp⟩, by rw [gateIdOf, hgateOf]; exact hfresh⟩,
        by rw [gateIdOf, hgateOf]⟩
    · rintro ⟨⟨⟨gate, hgate, hok, hid, hfp⟩, hfresh⟩, rfl⟩
      have hgateOf : gateOf event.toUnsignedEvent = gate := by rw [gateOf, hgate]
      rw [gateIdOf, hgateOf] at hfresh ⊢
      exact ⟨gate, _, _, ⟨hgate, hok, rfl, rfl⟩, hfresh, ⟨hid, hfp⟩, rfl⟩
  · by_cases hresolved : event.eventType = humanGateResolved
    · simp [hresolved, bind_eq_ok, require_eq_ok, pure, Except.pure, eq_comm (a := t)]
    · simp [hraised, hresolved, bind_eq_ok, require_eq_ok, pure, Except.pure, eq_comm (a := t)]

theorem boundGate_eq_none {event : LedgerEvent} (h : event.eventType ≠ transactionStarted) :
    boundGate event = none := by
  simp [boundGate, h]

theorem advance_eq_ok {s t : ReplayState} {expected : Nat} {event : LedgerEvent} :
    advance P s expected event = .ok t ↔ Accepted P s event ∧ t = s.next P event := by
  simp only [advance, bind_eq_ok, require_eq_ok, exists_const, recordWorkflow_eq_ok,
    recordStart_eq_ok, recordTerminal_eq_ok, recordGate_eq_ok, pure, Except.pure,
    Except.ok.injEq]
  constructor
  · rintro ⟨_, ⟨hworkflow, rfl⟩, _, ⟨hstart, hbegun, rfl⟩, _, ⟨hterminal, rfl⟩, _,
      ⟨hraised, hresolved, himmutable, rfl⟩, hcheckpoint, hchain, hfingerprint, rfl⟩
    refine ⟨⟨hworkflow, hstart, hbegun, hterminal, hraised, fun hkind => ?_, fun h1 h2 => ?_,
      fun hkind => ?_, hchain, hfingerprint⟩, rfl⟩
    · have hne : event.eventType ≠ transactionStarted := by rw [hkind]; decide
      simpa [boundGate_eq_none hne] using hresolved hkind
    · by_cases hterm : event.eventType ∈ TERMINAL_EVENT_TYPES
      · exact Or.inr (Or.inl hterm)
      · simpa [hterm] using himmutable h1 h2
    · have hterm : event.eventType ∉ TERMINAL_EVENT_TYPES := by rw [hkind]; decide
      rw [if_neg hterm] at hcheckpoint
      exact hcheckpoint.imp_right fun h => h.resolve_left fun hne => hne hkind
  · rintro ⟨⟨hworkflow, hstart, hbegun, hterminal, hraised, hresolved, himmutable, hcheckpoint,
      hchain, hfingerprint⟩, rfl⟩
    refine ⟨_, ⟨hworkflow, rfl⟩, _, ⟨hstart, hbegun, rfl⟩, _, ⟨hterminal, rfl⟩, _,
      ⟨hraised, fun hkind => ?_, fun h1 h2 => ?_, rfl⟩, ?_, hchain, hfingerprint, rfl⟩
    · have hne : event.eventType ≠ transactionStarted := by rw [hkind]; decide
      simpa [boundGate_eq_none hne] using hresolved hkind
    · by_cases hterm : event.eventType ∈ TERMINAL_EVENT_TYPES
      · exact Or.inr (Or.inl hterm)
      · simpa [hterm] using himmutable h1 h2
    · by_cases hkind : event.eventType = checkpointRecorded
      · have hterm : event.eventType ∉ TERMINAL_EVENT_TYPES := by rw [hkind]; decide
        rw [if_neg hterm]
        exact (hcheckpoint hkind).imp_right Or.inr
      · exact Or.inr (Or.inl hkind)

/-! ### The loop's state is what the events say -/

/-- The replay state after a list of events. -/
structure Tracks (P : Platform) (events : List LedgerEvent) (s : ReplayState) : Prop where
  seen : s.events = events
  previous : s.previous = tailFingerprint events
  eventIds : s.eventIds = events.map fun event => event.eventId
  terminals : ∀ transactionId,
    s.terminals.get? transactionId = none ↔ ¬Terminated (historyOf events transactionId)
  started : ∀ transactionId,
    transactionId ∈ s.started ↔ transactionStarted ∈ historyOf events transactionId
  workflows : ∀ transactionId,
    s.workflows.get? transactionId = workflowOf events transactionId
  histories : ∀ transactionId,
    (s.histories.get? transactionId).getD [] = historyOf events transactionId
  keys : ∀ transactionId,
    transactionId ∈ s.histories.keys ↔ historyOf events transactionId ≠ []
  raised : ∀ gateId, s.raisedGateIds.get? gateId = raisedGateOf P events gateId
  bindings : ∀ transactionId,
    s.resolutionBindings.get? transactionId = bindingOf events transactionId
  resolved : s.resolvedGateIds = resolvedGates P events

theorem tracks_initial : Tracks P [] ReplayState.initial where
  seen := rfl
  previous := rfl
  eventIds := rfl
  terminals := by simp [ReplayState.initial, Terminated, historyOf]
  started := by simp [ReplayState.initial, historyOf]
  workflows := by simp [ReplayState.initial, workflowOf]
  histories := by simp [ReplayState.initial, historyOf]
  keys := by simp [ReplayState.initial, historyOf, Dict.keys]
  raised := by simp [ReplayState.initial, raisedGateOf]
  bindings := by simp [ReplayState.initial, bindingOf]
  resolved := rfl

/-- What one more event has to satisfy, in terms of the events before it. -/
structure Follows (P : Platform) (events : List LedgerEvent) (event : LedgerEvent) : Prop where
  workflow : ∀ known ∈ workflowOf events event.transactionId, known = event.workflowType
  start : event.eventType = transactionStarted →
    transactionStarted ∉ historyOf events event.transactionId ∧
      resolutionBindingOf event.toUnsignedEvent ≠ .invalid
  begun : event.eventType ≠ transactionStarted →
    transactionStarted ∈ historyOf events event.transactionId ∨
      (event.payload.get "legacy_import").truthy = true
  terminal : event.eventType ∈ TERMINAL_EVENT_TYPES →
    ¬Terminated (historyOf events event.transactionId)
  raised : event.eventType = humanGateRaised →
    GateNamed P event.toUnsignedEvent ∧
      raisedGateOf P events (gateIdOf P event.toUnsignedEvent) = none
  resolved : event.eventType = humanGateResolved →
    P.str (event.payload.get "gate_id") ∉ resolvedGates P events ∧
      ResolutionBound P (raisedGateOf P events (P.str (event.payload.get "gate_id")))
        (bindingOf events event.transactionId) event.toUnsignedEvent
  immutable : event.eventType ≠ humanGateRaised → event.eventType ≠ humanGateResolved →
    ¬Terminated (historyOf events event.transactionId) ∨
      event.eventType ∈ TERMINAL_EVENT_TYPES ∨ event.eventType ∈ POST_TERMINAL_EVENT_TYPES
  checkpoint : event.eventType = checkpointRecorded →
    ¬Terminated (historyOf events event.transactionId) ∨
      event.payload.get "checkpoint" = COMPATIBILITY_CHECKPOINT
  chain : event.previousFingerprint = tailFingerprint events
  fingerprint : event.fingerprint = eventFingerprint P event.toUnsignedEvent

variable {events : List LedgerEvent} {s : ReplayState} {event : LedgerEvent}

theorem Tracks.accepted_iff (h : Tracks P events s) :
    Accepted P s event ↔ Follows P events event := by
  constructor
  · rintro ⟨h1, h2, h3, h4, h5, h6, h7, h8, h9, h10⟩
    simp only [h.workflows, h.started, h.terminals, h.raised, h.bindings, h.resolved,
      h.previous] at h1 h2 h3 h4 h5 h6 h7 h8 h9
    exact ⟨h1, h2, h3, h4, h5, h6, h7, h8, h9, h10⟩
  · rintro ⟨h1, h2, h3, h4, h5, h6, h7, h8, h9, h10⟩
    simp only [← h.workflows, ← h.started, ← h.terminals, ← h.raised, ← h.bindings,
      ← h.resolved, ← h.previous] at h1 h2 h3 h4 h5 h6 h7 h8 h9
    exact ⟨h1, h2, h3, h4, h5, h6, h7, h8, h9, h10⟩

theorem Tracks.next (h : Tracks P events s) (hok : Follows P events event) :
    Tracks P (events ++ [event]) (s.next P event) where
  seen := by simp [ReplayState.next, h.seen]
  previous := by rw [tailFingerprint_snoc, ReplayState.next]
  eventIds := by simp [ReplayState.next, h.eventIds]
  terminals transactionId := by
    have hold := h.terminals transactionId
    by_cases hterm : event.eventType ∈ TERMINAL_EVENT_TYPES
    · by_cases htx : event.transactionId = transactionId
      · subst htx
        simp [ReplayState.next, hterm, Dict.get?_insert, historyOf_snoc, terminated_snoc]
      · simp [ReplayState.next, hterm, Dict.get?_insert, historyOf_snoc, htx, Ne.symm htx, hold]
    · by_cases htx : event.transactionId = transactionId
      · subst htx
        simp [ReplayState.next, hterm, historyOf_snoc, terminated_snoc, hold]
      · simp [ReplayState.next, hterm, historyOf_snoc, htx, hold]
  started transactionId := by
    have hold := h.started transactionId
    by_cases hkind : event.eventType = transactionStarted <;>
      by_cases htx : event.transactionId = transactionId <;>
      simp [ReplayState.next, hkind, historyOf_snoc, htx, hold, eq_comm (a := transactionId),
        eq_comm (a := transactionStarted)]
  workflows transactionId := by
    have hold := h.workflows transactionId
    rw [ReplayState.next, Dict.get?_insert, workflowOf_snoc, ← hold]
    by_cases htx : transactionId = event.transactionId
    · subst htx
      cases hknown : s.workflows.get? event.transactionId with
      | none => simp
      | some known =>
          rw [hold] at hknown
          simp [hok.workflow known hknown]
    · simp [htx, Ne.symm htx]
  histories transactionId := by
    have hold := h.histories transactionId
    rw [ReplayState.next, Dict.get?_insert, historyOf_snoc]
    by_cases htx : transactionId = event.transactionId
    · subst htx
      simp [hold]
    · simp [htx, Ne.symm htx, hold]
  keys transactionId := by
    have hold := h.keys transactionId
    rw [ReplayState.next, Dict.mem_keys_insert, hold, historyOf_snoc]
    by_cases htx : transactionId = event.transactionId
    · simp [htx]
    · simp [htx, Ne.symm htx]
  raised gateId := by
    have hold := h.raised gateId
    by_cases hkind : event.eventType = humanGateRaised
    · rw [raisedGateOf_snoc, ← hold]
      by_cases hid : gateId = gateIdOf P event.toUnsignedEvent
      · have hfresh := (hok.raised hkind).2
        rw [← hid, ← hold] at hfresh
        simp [ReplayState.next, hkind, Dict.get?_insert, hid.symm, hfresh]
      · simp [ReplayState.next, hkind, Dict.get?_insert, hid, Ne.symm hid]
    · simp [ReplayState.next, hkind, raisedGateOf_snoc, hold]
  bindings transactionId := by
    have hold := h.bindings transactionId
    rw [bindingOf_snoc, ← hold, ReplayState.next]
    cases hbound : boundGate event with
    | none => simp
    | some binding =>
        by_cases htx : transactionId = event.transactionId
        · subst htx
          have hkind : event.eventType = transactionStarted := by
            by_contra hne
            rw [boundGate_eq_none hne] at hbound
            cases hbound
          have hnone : s.resolutionBindings.get? event.transactionId = none := by
            rw [hold]
            cases hsome : bindingOf events event.transactionId with
            | none => rfl
            | some found => exact absurd (started_of_bindingOf hsome) (hok.start hkind).1
          simp [Dict.get?_insert, hnone]
        · simp [Dict.get?_insert, htx, Ne.symm htx]
  resolved := by
    by_cases hkind : event.eventType = humanGateResolved <;>
      simp [ReplayState.next, hkind, resolvedGates_snoc, h.resolved]

/-! ### The whole loop -/

/-- The records are the objects of these events, each of which follows the ones
    before it. -/
inductive Replays (P : Platform) (L : LedgerIdentity) : List LedgerEvent → Prop where
  | nil : Replays P L []
  | snoc {events : List LedgerEvent} {event : LedgerEvent} (prior : Replays P L events)
      (record : RecordOk L (events.map fun event => event.eventId) (events.length + 1) event)
      (follows : Follows P events event) : Replays P L (events ++ [event])

theorem replay_snoc (records : List Object) (record : Object) (t : ReplayState) :
    replay P L (records ++ [record]) = .ok t ↔
      ∃ s, replay P L records = .ok s ∧ replayRecord P L s record = .ok t :=
  foldlM_snoc_eq_ok

/-- The loop returns exactly on the objects of a list that replays. -/
theorem replay_eq_ok {records : List Object} {s : ReplayState} :
    replay P L records = .ok s →
      ∃ events, records = events.map LedgerEvent.toObject ∧ Replays P L events ∧
        Tracks P events s := by
  induction records using List.reverseRecOn generalizing s with
  | nil =>
      intro h
      cases h
      exact ⟨[], rfl, .nil, tracks_initial⟩
  | append_singleton records record ih =>
      intro h
      obtain ⟨s₀, hprior, hstep⟩ := (replay_snoc records record s).mp h
      obtain ⟨events, rfl, hreplays, htracks⟩ := ih hprior
      simp only [replayRecord, bind_eq_ok, decode_eq_ok, advance_eq_ok] at hstep
      obtain ⟨event, ⟨rfl, hrecord⟩, haccepted, rfl⟩ := hstep
      rw [htracks.eventIds, List.length_map] at hrecord
      have hfollows := htracks.accepted_iff.mp haccepted
      exact ⟨events ++ [event], by simp, .snoc hreplays hrecord hfollows, htracks.next hfollows⟩

theorem Replays.replay_ok {events : List LedgerEvent} (h : Replays P L events) :
    ∃ s, replay P L (events.map LedgerEvent.toObject) = .ok s ∧ Tracks P events s := by
  induction h with
  | nil => exact ⟨_, rfl, tracks_initial⟩
  | @snoc events event prior hrecord hfollows ih =>
      obtain ⟨s, hreplay, htracks⟩ := ih
      refine ⟨s.next P event, ?_, htracks.next hfollows⟩
      rw [List.map_append, List.map_singleton, replay_snoc]
      refine ⟨s, hreplay, ?_⟩
      simp only [replayRecord, bind_eq_ok, decode_eq_ok, advance_eq_ok]
      rw [htracks.eventIds, List.length_map]
      exact ⟨event, ⟨rfl, hrecord⟩, htracks.accepted_iff.mpr hfollows, rfl⟩

end Conveyor
