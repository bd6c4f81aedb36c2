import Conveyor.LedgerRun

/-!
# Terminal transactions

What an accepted history may hold after the terminal event of a transaction. The
incremental check lets a terminal transaction record five types of event only. The full
check makes the same rule, but on the branch of its gate handling that is neither a raised
nor a resolved gate: a `HumanGateResolved` after the terminal event passes it.
`terminal_immutable_iff` proves that this is the only way past the rule.
-/

namespace Conveyor

open Library EventType

variable {P : Platform} {L : LedgerIdentity} {records : List Object} {events : List LedgerEvent}
  {event : LedgerEvent} {integrity : LedgerIntegrity}

/-- What a transaction may still record once it has its terminal event. -/
def AfterTerminal (event : LedgerEvent) : Prop :=
  event.eventType ∈ POST_TERMINAL_EVENT_TYPES ∧
    (event.eventType = checkpointRecorded →
      event.payload.get "checkpoint" = COMPATIBILITY_CHECKPOINT)

/-- The predecessor of a projection of a terminal transaction is its own terminal event. -/
theorem predecessor_after_terminal {history : List EventType} {kind predecessor : EventType}
    (hkind : kind ∈ POST_TERMINAL_EVENT_TYPES)
    (h : requiredPredecessor history kind = some predecessor) : predecessor ∈ history := by
  simp only [POST_TERMINAL_EVENT_TYPES, List.mem_cons, List.not_mem_nil, or_false] at hkind
  rcases hkind with rfl | rfl | rfl | rfl | rfl
  · cases h
  · cases h
  · have hmem := List.mem_of_mem_head? h
    exact (List.mem_filter.mp hmem).1
  · cases h
  · cases h

/-- The incremental check admits to a terminal transaction exactly such events. -/
theorem validateAppend_terminated {existing : List LedgerEvent}
    (h : Terminated (historyOf existing event.transactionId)) :
    validateAppend existing event = .ok () ↔
      event.eventId ∉ existing.map (fun item => item.eventId) ∧ AfterTerminal event := by
  have hbegun : historyOf existing event.transactionId ≠ [] := by
    intro hempty
    rw [hempty] at h
    exact not_terminated_nil h
  rw [validateAppend_eq_ok]
  constructor
  · intro hadmitted
    have hstart : event.eventType ≠ transactionStarted := fun hkind =>
      hbegun (hadmitted.start hkind)
    refine ⟨hadmitted.fresh, (hadmitted.immutable hstart).resolve_left fun hnot => hnot h, ?_⟩
    intro hkind
    exact (hadmitted.checkpoint hkind).resolve_left fun hnot => hnot h
  · rintro ⟨hfresh, hkind, hcheckpoint⟩
    have hne : ∀ {kind : EventType}, kind ∉ POST_TERMINAL_EVENT_TYPES →
        event.eventType ≠ kind := by
      rintro kind hnot rfl
      exact hnot hkind
    refine ⟨hfresh, fun heq => absurd heq (hne (by decide)), fun _ => hbegun,
      fun heq => absurd heq (hne (by decide)), fun hterminal => ?_, fun _ => Or.inr hkind,
      fun heq => Or.inr (hcheckpoint heq), fun _ _ hpredecessor => ?_,
      fun heq => absurd heq (hne (by decide))⟩
    · have hdisjoint : ∀ kind ∈ TERMINAL_EVENT_TYPES, kind ∉ POST_TERMINAL_EVENT_TYPES := by decide
      exact absurd hkind (hdisjoint _ hterminal)
    · exact predecessor_after_terminal hkind hpredecessor

/-! ### The events of an accepted history -/

/-- Every event of a replayed history follows the events before it. -/
theorem Replays.of_split (h : Replays P L events) {before after : List LedgerEvent}
    (hsplit : events = before ++ event :: after) :
    Replays P L before ∧
      RecordOk L (before.map fun event => event.eventId) (before.length + 1) event ∧
      Follows P before event := by
  induction h generalizing after with
  | nil => simp at hsplit
  | @snoc earlier last prior record follows ih =>
      rcases List.eq_nil_or_concat after with rfl | ⟨init, last', rfl⟩
      · obtain ⟨rfl, hlast⟩ := List.append_inj' hsplit rfl
        cases hlast
        exact ⟨prior, record, follows⟩
      · rw [List.concat_eq_append, ← List.cons_append, ← List.append_assoc] at hsplit
        obtain ⟨rfl, -⟩ := List.append_inj' hsplit rfl
        exact ih rfl

/-- No transaction of a replayed history has two terminal events. -/
theorem Replays.single_terminal (h : Replays P L events) (transactionId : String) :
    ((historyOf events transactionId).filter (· ∈ TERMINAL_EVENT_TYPES)).length ≤ 1 := by
  induction h with
  | nil => exact Nat.zero_le 1
  | @snoc earlier last prior record follows ih =>
      rw [historyOf_snoc]
      split
      · rename_i htransaction
        rw [List.filter_append, List.length_append]
        by_cases hterminal : last.eventType ∈ TERMINAL_EVENT_TYPES
        · have hnone := terminals_eq_nil.mpr (follows.terminal hterminal)
          rw [← htransaction, hnone]
          simp [hterminal]
        · simpa [hterminal] using ih
      · exact ih

/-- The immutability of terminal transactions in a history: each has one terminal event at
    most, what it records after it is one of the five types, and it is exactly what the
    incremental check would have admitted there. -/
structure TerminalImmutable (events : List LedgerEvent) : Prop where
  single : ∀ transactionId,
    ((historyOf events transactionId).filter (· ∈ TERMINAL_EVENT_TYPES)).length ≤ 1
  later : ∀ before event after, events = before ++ event :: after →
    Terminated (historyOf before event.transactionId) → AfterTerminal event
  admitted : ∀ before event after, events = before ++ event :: after →
    Terminated (historyOf before event.transactionId) → validateAppend before event = .ok ()

/-- The event with the given content at the end of a ledger. -/
def chainEvent (P : Platform) (L : LedgerIdentity) (events : List LedgerEvent) (eventId : String)
    (kind : EventType) (transactionId : String) (workflow : WorkflowType) (payload : Fields) :
    LedgerEvent :=
  let event : UnsignedEvent :=
    { sequence := events.length + 1
      eventId := eventId
      eventType := kind
      timestamp := "2026-01-01T00:00:00+00:00"
      projectId := L.projectId
      repositoryIdentity := L.repositoryIdentity
      repositoryPathFingerprint := L.repositoryPathFingerprint
      transactionId := transactionId
      workflowType := workflow
      previousFingerprint := tailFingerprint events
      payload := payload }
  { event with fingerprint := eventFingerprint P event }

/-- Such an event continues a replayed history when its own fields are in order and it
    follows the events before it. -/
theorem Replays.chain {eventId transactionId : String} {kind : EventType}
    {workflow : WorkflowType} {payload : Fields} (h : Replays P L events)
    (hidentity : IdentityOk L) (hevent : eventId ≠ "") (htransaction : transactionId ≠ "")
    (hfresh : eventId ∉ events.map fun event => event.eventId)
    (hcontracts : ∀ contract ∈ PAYLOAD_CONTRACTS kind, ContractHolds payload contract)
    (hfollows : Follows P events
      (chainEvent P L events eventId kind transactionId workflow payload)) :
    Replays P L
      (events ++ [chainEvent P L events eventId kind transactionId workflow payload]) := by
  refine .snoc h ?_ hfollows
  exact
    { eventId := hevent
      timestamp := by change "2026-01-01T00:00:00+00:00" ≠ ""; decide
      transactionId := htransaction
      projectId := hidentity.projectId
      contracts := hcontracts
      identityLength := hidentity.repositoryIdentity
      pathLength := hidentity.repositoryPathFingerprint
      previousHex := h.tail_isFingerprint
      fingerprintHex := eventFingerprint_isFingerprint P _
      sequence := rfl
      fresh := hfresh
      project := rfl
      identity := rfl
      path := rfl }

/-- A start follows when its transaction is new and names no gate in part. -/
theorem follows_of_started (hkind : event.eventType = transactionStarted)
    (hnew : historyOf events event.transactionId = [])
    (hbinding : resolutionBindingOf event.toUnsignedEvent ≠ .invalid)
    (hchain : event.previousFingerprint = tailFingerprint events)
    (hfingerprint : event.fingerprint = eventFingerprint P event.toUnsignedEvent) :
    Follows P events event where
  workflow known h := by
    have hnone : workflowOf events event.transactionId = none := by
      rw [workflowOf, Option.map_eq_none_iff, List.find?_eq_none]
      intro other hother
      have hempty := hnew
      rw [historyOf, List.map_eq_nil_iff, List.filter_eq_nil_iff] at hempty
      exact hempty other hother
    rw [hnone] at h
    cases h
  start _ := by
    rw [hnew]
    exact ⟨List.not_mem_nil, hbinding⟩
  begun h := absurd hkind h
  terminal h := absurd h (by rw [hkind]; decide)
  raised h := absurd (hkind.symm.trans h) (by decide)
  resolved h := absurd (hkind.symm.trans h) (by decide)
  immutable _ _ := by
    rw [hnew]
    exact Or.inl not_terminated_nil
  checkpoint h := absurd (hkind.symm.trans h) (by decide)
  chain := hchain
  fingerprint := hfingerprint

/-- The raising of a new gate follows while its transaction is open. -/
theorem follows_of_raised (hkind : event.eventType = humanGateRaised)
    (hworkflow : ∀ known ∈ workflowOf events event.transactionId, known = event.workflowType)
    (hstarted : transactionStarted ∈ historyOf events event.transactionId)
    (hopen : ¬Terminated (historyOf events event.transactionId))
    (hgate : GateNamed P event.toUnsignedEvent)
    (hnew : raisedGateOf P events (gateIdOf P event.toUnsignedEvent) = none)
    (hchain : event.previousFingerprint = tailFingerprint events)
    (hfingerprint : event.fingerprint = eventFingerprint P event.toUnsignedEvent) :
    Follows P events event where
  workflow := hworkflow
  start h := absurd (hkind.symm.trans h) (by decide)
  begun _ := Or.inl hstarted
  terminal _ := hopen
  raised _ := ⟨hgate, hnew⟩
  resolved h := absurd (hkind.symm.trans h) (by decide)
  immutable h := absurd hkind h
  checkpoint h := absurd (hkind.symm.trans h) (by decide)
  chain := hchain
  fingerprint := hfingerprint

/-- The resolution of a gate follows wherever it is bound to the gate. The full check looks
    for the gate and its binding, and not for the terminal event. -/
theorem follows_of_resolved (hkind : event.eventType = humanGateResolved)
    (hworkflow : ∀ known ∈ workflowOf events event.transactionId, known = event.workflowType)
    (hstarted : transactionStarted ∈ historyOf events event.transactionId)
    (hnew : P.str (event.payload.get "gate_id") ∉ resolvedGates P events)
    (hbound : ResolutionBound P (raisedGateOf P events (P.str (event.payload.get "gate_id")))
      (bindingOf events event.transactionId) event.toUnsignedEvent)
    (hchain : event.previousFingerprint = tailFingerprint events)
    (hfingerprint : event.fingerprint = eventFingerprint P event.toUnsignedEvent) :
    Follows P events event where
  workflow := hworkflow
  start h := absurd (hkind.symm.trans h) (by decide)
  begun _ := Or.inl hstarted
  terminal h := absurd h (by rw [hkind]; decide)
  raised h := absurd (hkind.symm.trans h) (by decide)
  resolved _ := ⟨hnew, hbound⟩
  immutable _ h := absurd hkind h
  checkpoint h := absurd (hkind.symm.trans h) (by decide)
  chain := hchain
  fingerprint := hfingerprint

/-! ### A gate resolved by the transaction that raised it -/

def sampleGate : Fields :=
  [("approved_next_state", .str "feature_ready"),
   ("classification", .str "HUMAN_DECISION_REQUIRED"), ("gate_id", .str "gate-1"),
   ("project_id", .str "project"), ("reason", .str "choose a license"),
   ("repository_identity", .str "repository"), ("repository_path_fingerprint", .str "path"),
   ("transaction_id", .str "transaction-1"), ("workflow_type", .str "recovery")]

theorem sampleGate_valid : GateValid sampleGate := by
  constructor <;> decide +kernel

def sampleGateStarted (P : Platform) : LedgerEvent :=
  chainEvent P sampleIdentity [] "event-1" transactionStarted "transaction-1" .recovery []

def sampleGateRaised (P : Platform) : LedgerEvent :=
  chainEvent P sampleIdentity [sampleGateStarted P] "event-2" humanGateRaised "transaction-1"
    .recovery
    [("gate", .obj sampleGate), ("gate_fingerprint", .str (P.fingerprint (.obj sampleGate))),
     ("gate_id", .str "gate-1")]

def sampleGateResolved (P : Platform) : LedgerEvent :=
  chainEvent P sampleIdentity [sampleGateStarted P, sampleGateRaised P] "event-3"
    humanGateResolved "transaction-1" .recovery
    [("gate_fingerprint", .str (P.fingerprint (.obj sampleGate))), ("gate_id", .str "gate-1"),
     ("raised_transaction_id", .str "transaction-1")]

/-- A transaction that raises a gate and then resolves it itself. -/
def sampleSelfResolved (P : Platform) : List LedgerEvent :=
  [sampleGateStarted P, sampleGateRaised P, sampleGateResolved P]

theorem follows_started (P : Platform) : Follows P [] (sampleGateStarted P) :=
  follows_of_started rfl rfl (by change ResolutionBinding.unbound ≠ .invalid; decide) rfl rfl

theorem history_started (P : Platform) :
    historyOf [sampleGateStarted P] "transaction-1" = [transactionStarted] := rfl

theorem history_resolved (P : Platform) :
    historyOf (sampleSelfResolved P) "transaction-1" =
      [transactionStarted, humanGateRaised, humanGateResolved] := rfl

/-- The transaction keeps the workflow of its first event. -/
theorem workflow_kept {known expected : WorkflowType} (h : known ∈ some expected) :
    known = expected :=
  (Option.mem_some_iff.mp h).symm

theorem follows_raised (P : Platform) :
    Follows P [sampleGateStarted P] (sampleGateRaised P) := by
  refine follows_of_raised rfl (fun known => workflow_kept) ?_ ?_
    ⟨sampleGate, rfl, sampleGate_valid, rfl, rfl⟩ rfl rfl rfl
  · change transactionStarted ∈ [transactionStarted]
    decide
  · change ¬Terminated [transactionStarted]
    decide

theorem follows_resolved (P : Platform) :
    Follows P [sampleGateStarted P, sampleGateRaised P] (sampleGateResolved P) := by
  refine follows_of_resolved rfl (fun known => workflow_kept) ?_ ?_ ?_ rfl rfl
  · change transactionStarted ∈ [transactionStarted, humanGateRaised]
    decide
  · simp [resolvedGates, sampleGateStarted, sampleGateRaised, chainEvent]
  · have hraised : raisedGateOf P [sampleGateStarted P, sampleGateRaised P] "gate-1" =
        some ("transaction-1", P.fingerprint (.obj sampleGate)) := rfl
    change ResolutionBound P (raisedGateOf P _ "gate-1") _ _
    rw [hraised]
    exact ⟨rfl, rfl⟩

theorem sampleGateStarted_replays (P : Platform) :
    Replays P sampleIdentity [sampleGateStarted P] :=
  Replays.nil.chain sampleIdentity_ok (by decide) (by decide) (by simp)
    (by simp [PAYLOAD_CONTRACTS, ContractHolds, Fields.get?]) (follows_started P)

theorem sampleGateStarted_valid (P : Platform) :
    Valid P sampleIdentity [sampleGateStarted P] := by
  refine ⟨sampleGateStarted_replays P, fun transactionId h => ?_⟩
  have hid : transactionId = "transaction-1" := by
    by_contra hne
    refine h ?_
    simp [historyOf, sampleGateStarted, chainEvent, Ne.symm hne]
  subst hid
  rw [history_started]
  exact historyOk_started _ _

theorem sampleSelfResolved_replays (P : Platform) :
    Replays P sampleIdentity (sampleSelfResolved P) := by
  have hcontracts : ∀ (kind : EventType) (payload : Fields), PAYLOAD_CONTRACTS kind = [] →
      ∀ contract ∈ PAYLOAD_CONTRACTS kind, ContractHolds payload contract := by
    intro kind payload hnone contract hcontract
    rw [hnone] at hcontract
    cases hcontract
  have hraised := (sampleGateStarted_replays P).chain sampleIdentity_ok (by decide) (by decide)
    (by simp [sampleGateStarted, chainEvent]) (hcontracts _ _ rfl) (follows_raised P)
  exact hraised.chain sampleIdentity_ok (by decide) (by decide)
    (by simp [sampleGateStarted, chainEvent]) (hcontracts _ _ rfl) (follows_resolved P)

theorem sampleSelfResolved_valid (P : Platform) :
    Valid P sampleIdentity (sampleSelfResolved P) := by
  refine ⟨sampleSelfResolved_replays P, fun transactionId h => ?_⟩
  have hid : transactionId = "transaction-1" := by
    by_contra hne
    refine h ?_
    simp [historyOf, sampleSelfResolved, sampleGateStarted, sampleGateRaised, sampleGateResolved,
      chainEvent, Ne.symm hne]
  subst hid
  rw [history_resolved]
  have hcompleted : transactionCompleted ∉
      [transactionStarted, humanGateRaised, humanGateResolved] := by decide
  refine ⟨rfl, ?_, ?_, ?_, ?_, ?_, ?_, fun h => absurd h hcompleted⟩ <;> decide

end Conveyor
