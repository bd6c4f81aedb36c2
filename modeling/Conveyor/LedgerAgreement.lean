import Conveyor.LedgerHistory

/-!
# The incremental and the full check

An append on a cache hit runs only the incremental check. `Replayable` is what the
full check asks of an appended event beyond it: `valid_snoc_iff` proves that on a
ledger the full check accepts, an admitted event keeps it accepted exactly when it
is replayable, and `appendRun_validates` carries that through every run of appends.
-/

namespace Conveyor

open Library EventType

variable {P : Platform} {L : LedgerIdentity} {events : List LedgerEvent} {event : LedgerEvent}

/-! ### What an append guarantees by itself -/

/-- What the incremental check asks of an event. -/
structure Admitted (existing : List LedgerEvent) (event : LedgerEvent) : Prop where
  fresh : event.eventId ∉ existing.map fun item => item.eventId
  start : event.eventType = transactionStarted → historyOf existing event.transactionId = []
  begun : event.eventType ≠ transactionStarted → historyOf existing event.transactionId ≠ []
  reacquired : event.eventType = leaseAcquired →
    leaseAcquired ∈ historyOf existing event.transactionId →
      recoveryApplied ∈ historyOf existing event.transactionId
  terminal : event.eventType ∈ TERMINAL_EVENT_TYPES →
    ¬Terminated (historyOf existing event.transactionId)
  immutable : event.eventType ≠ transactionStarted →
    ¬Terminated (historyOf existing event.transactionId) ∨
      event.eventType ∈ POST_TERMINAL_EVENT_TYPES
  checkpoint : event.eventType = checkpointRecorded →
    ¬Terminated (historyOf existing event.transactionId) ∨
      event.payload.get "checkpoint" = COMPATIBILITY_CHECKPOINT
  predecessor : event.eventType ≠ transactionStarted →
    ∀ kind ∈ requiredPredecessor (historyOf existing event.transactionId) event.eventType,
      kind ∈ historyOf existing event.transactionId
  completion : event.eventType = transactionCompleted →
    missingLifecycle (historyOf existing event.transactionId) = [] ∨
      (event.payload.get "legacy_import").truthy = true

theorem terminals_eq_nil {history : List EventType} :
    history.filter (· ∈ TERMINAL_EVENT_TYPES) = [] ↔ ¬Terminated history := by
  simp [List.filter_eq_nil_iff, Terminated]

theorem not_terminated_nil : ¬Terminated [] := by
  simp [Terminated]

theorem validateAppend_eq_ok {existing : List LedgerEvent} :
    validateAppend existing event = .ok () ↔ Admitted existing event := by
  simp only [validateAppend, bind_eq_ok, require_eq_ok, exists_const]
  by_cases hstart : event.eventType = transactionStarted
  · simp only [hstart, if_true, require_eq_ok]
    constructor
    · rintro ⟨hfresh, hempty⟩
      have hnone : ¬Terminated (historyOf existing event.transactionId) := by
        rw [hempty]; exact not_terminated_nil
      exact ⟨hfresh, fun _ => hempty, fun h => absurd hstart h, fun h => by simp [hstart] at h,
        fun _ => hnone, fun h => absurd hstart h, fun h => by simp [hstart] at h,
        fun h => absurd hstart h, fun h => by simp [hstart] at h⟩
    · intro h
      exact ⟨h.fresh, h.start hstart⟩
  · simp only [hstart, if_false, bind_eq_ok, require_eq_ok, exists_const, terminals_eq_nil]
    constructor
    · rintro ⟨h1, h2, h3, h4, h5, h6, h7, h8⟩
      exact ⟨h1, fun h => absurd h hstart, fun _ => h2, h3, h4, fun _ => h5,
        fun h => h6.imp_right fun h' => h'.resolve_left (fun hne => hne h), fun _ => h7, h8⟩
    · intro h
      refine ⟨h.fresh, h.begun hstart, h.reacquired, h.terminal, h.immutable hstart, ?_,
        h.predecessor hstart, h.completion⟩
      by_cases hkind : event.eventType = checkpointRecorded
      · exact (h.checkpoint hkind).imp_right Or.inr
      · exact Or.inr (Or.inl hkind)

/-- What the construction of a new event guarantees. -/
structure Built (P : Platform) (L : LedgerIdentity) (events : List LedgerEvent)
    (event : LedgerEvent) : Prop where
  sequence : event.sequence = events.length + 1
  eventId : event.eventId ≠ ""
  timestamp : event.timestamp ≠ ""
  project : event.projectId = L.projectId
  identity : event.repositoryIdentity = L.repositoryIdentity
  path : event.repositoryPathFingerprint = L.repositoryPathFingerprint
  chain : event.previousFingerprint = tailFingerprint events
  fingerprint : event.fingerprint = eventFingerprint P event.toUnsignedEvent

theorem newEvent_built {integrity : LedgerIntegrity} {request : AppendRequest} {drawn : Drawn}
    (hsequence : integrity.sequence = events.length)
    (hfingerprint : integrity.fingerprint = tailFingerprint events) :
    Built P L events (newEvent P L integrity request drawn) where
  sequence := by rw [← hsequence]; rfl
  eventId := givenOr_ne drawn.uuid4_ne
  timestamp := givenOr_ne drawn.utcNow_ne
  project := rfl
  identity := rfl
  path := rfl
  chain := hfingerprint
  fingerprint := rfl

/-! ### What the full check asks beyond it -/

/-- The identity of a ledger that any record can carry. -/
structure IdentityOk (L : LedgerIdentity) : Prop where
  projectId : L.projectId ≠ ""
  repositoryIdentity : 64 ≤ L.repositoryIdentity.length
  repositoryPathFingerprint : 64 ≤ L.repositoryPathFingerprint.length

/-- The conditions of the full check that the incremental check does not make, or
    makes in a weaker form: the types of the payload fields, the workflow of the
    transaction, the identity of gates and of their resolutions, a recovery after the
    last lease, and the order of three late events. -/
structure Replayable (P : Platform) (L : LedgerIdentity) (events : List LedgerEvent)
    (event : LedgerEvent) : Prop where
  identity : IdentityOk L
  contracts : ∀ contract ∈ PAYLOAD_CONTRACTS event.eventType, ContractHolds event.payload contract
  workflow : ∀ known ∈ workflowOf events event.transactionId, known = event.workflowType
  binding : event.eventType = transactionStarted →
    resolutionBindingOf event.toUnsignedEvent ≠ .invalid
  raised : event.eventType = humanGateRaised →
    GateNamed P event.toUnsignedEvent ∧
      raisedGateOf P events (gateIdOf P event.toUnsignedEvent) = none
  resolved : event.eventType = humanGateResolved →
    P.str (event.payload.get "gate_id") ∉ resolvedGates P events ∧
      ResolutionBound P (raisedGateOf P events (P.str (event.payload.get "gate_id")))
        (bindingOf events event.transactionId) event.toUnsignedEvent
  reacquired : event.eventType = leaseAcquired →
    leaseAcquired ∈ historyOf events event.transactionId →
      RecoveredSinceLease (historyOf events event.transactionId)
  snapshot : event.eventType = snapshotCaptured →
    sessionLaunched ∈ historyOf events event.transactionId →
      snapshotCaptured ∈ historyOf events event.transactionId
  completed : event.eventType = transactionCompleted →
    leaseReleased ∉ historyOf events event.transactionId
  released : event.eventType = leaseReleased →
    projectionUpdated ∈ historyOf events event.transactionId →
      leaseReleased ∈ historyOf events event.transactionId
  projection : event.eventType = projectionUpdated →
    Terminated (historyOf events event.transactionId)

/-! ### The lifecycle order -/

/-- The predecessors the incremental check does ask for are there for every event
    of the history. -/
def Closed (history : List EventType) : Prop :=
  ∀ kind ∈ history, kind ≠ projectionUpdated →
    ∀ predecessor ∈ requiredPredecessor [] kind, predecessor ∈ history

theorem requiredPredecessor_eq (history : List EventType) {kind : EventType}
    (h : kind ≠ projectionUpdated) :
    requiredPredecessor history kind = requiredPredecessor [] kind := by
  cases kind <;> first | rfl | exact absurd rfl h

theorem closed_nil : Closed [] := by
  intro kind h
  cases h

theorem closed_snoc {history : List EventType} {kind : EventType} (h : Closed history)
    (hkind : ∀ predecessor ∈ requiredPredecessor history kind, predecessor ∈ history) :
    Closed (history ++ [kind]) := by
  intro k hk hne predecessor hpredecessor
  rcases List.mem_append.mp hk with hk | hk
  · exact List.mem_append_left _ (h k hk hne predecessor hpredecessor)
  · rw [List.mem_singleton] at hk
    subst hk
    rw [← requiredPredecessor_eq history hne] at hpredecessor
    exact List.mem_append_left _ (hkind predecessor hpredecessor)

theorem ordered_snoc {history : List EventType} {kind : EventType} :
    (∀ pair ∈ ORDERED_PAIRS, InOrder (history ++ [kind]) pair) ↔
      (∀ pair ∈ ORDERED_PAIRS, InOrder history pair) ∧
        ∀ pair ∈ ORDERED_PAIRS, ¬(kind = pair.1 ∧ pair.1 ∉ history ∧ pair.2 ∈ history) := by
  have hpairs : ∀ pair ∈ ORDERED_PAIRS, pair.1 ≠ pair.2 := by decide
  rw [← forall₂_and]
  exact forall₂_congr fun pair hpair => inOrder_snoc (hpairs pair hpair)

/-- Of the ordered pairs only three can be broken by an admitted event. -/
theorem admitted_order {history : List EventType} {kind : EventType} (hclosed : Closed history)
    (hstart : kind = transactionStarted → history = [])
    (hterminal : kind ∈ TERMINAL_EVENT_TYPES → ¬Terminated history)
    (himmutable : ¬Terminated history ∨ kind ∈ POST_TERMINAL_EVENT_TYPES ∨
      kind = transactionStarted) :
    (∀ pair ∈ ORDERED_PAIRS, ¬(kind = pair.1 ∧ pair.1 ∉ history ∧ pair.2 ∈ history)) ↔
      (kind = snapshotCaptured → sessionLaunched ∈ history → snapshotCaptured ∈ history) ∧
      (kind = transactionCompleted → leaseReleased ∉ history) ∧
      (kind = leaseReleased → projectionUpdated ∈ history → leaseReleased ∈ history) := by
  have hafter : ∀ {first second : EventType}, second ≠ projectionUpdated →
      requiredPredecessor [] second = some first → second ∈ history → first ∈ history :=
    fun hne hpredecessor hmem => hclosed _ hmem hne _ hpredecessor
  constructor
  · intro h
    refine ⟨fun hkind hmem => ?_, fun hkind hmem => ?_, fun hkind hmem => ?_⟩
    · by_contra hnot
      exact h (snapshotCaptured, sessionLaunched) (by decide) ⟨hkind, hnot, hmem⟩
    · refine h (transactionCompleted, leaseReleased) (by decide) ⟨hkind, fun hin => ?_, hmem⟩
      exact hterminal (by rw [hkind]; decide) ⟨_, hin, by decide⟩
    · by_contra hnot
      exact h (leaseReleased, projectionUpdated) (by decide) ⟨hkind, hnot, hmem⟩
  · rintro ⟨hsnapshot, hcompleted, hreleased⟩ pair hpair ⟨hkind, hnot, hmem⟩
    simp only [ORDERED_PAIRS, List.mem_cons, List.not_mem_nil, or_false] at hpair
    rcases hpair with rfl | rfl | rfl | rfl | rfl | rfl | rfl | rfl | rfl | rfl | rfl
    · rw [hstart hkind] at hmem
      cases hmem
    · exact hnot (hafter (by decide) rfl hmem)
    · exact hnot (hsnapshot hkind hmem)
    · exact hnot (hafter (by decide) rfl hmem)
    · exact hnot (hafter (by decide) rfl hmem)
    · exact hnot (hafter (by decide) rfl hmem)
    · exact hnot (hafter (by decide) rfl hmem)
    · exact hnot (hafter (by decide) rfl hmem)
    · have hopen : ¬Terminated history := by
        rcases himmutable with h | h | h
        · exact h
        · rw [hkind] at h
          exact absurd h (by decide)
        · rw [hkind] at h
          exact absurd h (by decide)
      exact hopen ⟨_, hmem, by decide⟩
    · exact hcompleted hkind hmem
    · exact hnot (hreleased hkind hmem)

/-! ### One more event on a valid ledger -/

theorem Replays.snoc_inv (h : Replays P L (events ++ [event])) :
    Replays P L events ∧
      RecordOk L (events.map fun event => event.eventId) (events.length + 1) event ∧
      Follows P events event := by
  generalize hall : events ++ [event] = all at h
  cases h with
  | nil => simp at hall
  | snoc prior record follows =>
      obtain ⟨rfl, hlast⟩ := List.append_inj' hall rfl
      simp only [List.cons.injEq, and_true] at hlast
      subst hlast
      exact ⟨prior, record, follows⟩

theorem Replays.tail_isFingerprint (h : Replays P L events) :
    isFingerprint (tailFingerprint events) := by
  cases h with
  | nil => decide +kernel
  | snoc prior record follows =>
      rw [tailFingerprint_snoc]
      exact record.fingerprintHex

theorem eventFingerprint_isFingerprint (P : Platform) (event : UnsignedEvent) :
    isFingerprint (eventFingerprint P event) :=
  ⟨P.length_fingerprint _, List.all_eq_true.mpr fun _ hc => P.isHexLower_of_mem_fingerprint hc⟩

theorem completionPayload_snoc (transactionId : String) :
    completionPayload (events ++ [event]) transactionId =
      if transactionCompleted ∈ historyOf events transactionId then
        completionPayload events transactionId
      else if event.transactionId = transactionId ∧ event.eventType = transactionCompleted then
        event.payload
      else [] := by
  unfold completionPayload
  rw [List.find?_append]
  cases hfind : events.find? fun event => event.transactionId = transactionId ∧
      event.eventType = transactionCompleted with
  | some found =>
      have hmem := List.mem_of_find?_eq_some hfind
      have hprop := List.find?_some hfind
      have hin : transactionCompleted ∈ historyOf events transactionId := by
        simp only [decide_eq_true_eq] at hprop
        simp only [historyOf, List.mem_map, List.mem_filter, decide_eq_true_eq]
        exact ⟨found, ⟨hmem, hprop.1⟩, hprop.2⟩
      simp [hin]
  | none =>
      have hnot : transactionCompleted ∉ historyOf events transactionId := by
        simp only [historyOf, List.mem_map, List.mem_filter, decide_eq_true_eq]
        rintro ⟨found, ⟨hmem, htransaction⟩, hkind⟩
        have := List.find?_eq_none.mp hfind found hmem
        simp [htransaction, hkind] at this
      by_cases h : event.transactionId = transactionId ∧ event.eventType = transactionCompleted
      · simp [hnot, h]
      · simp [hnot, h]

theorem HistoryOk.of_other {transactionId : String} (hne : event.transactionId ≠ transactionId) :
    HistoryOk (events ++ [event]) transactionId (historyOf (events ++ [event]) transactionId) ↔
      HistoryOk events transactionId (historyOf events transactionId) := by
  have hpayload : transactionCompleted ∈ historyOf events transactionId →
      completionPayload (events ++ [event]) transactionId =
        completionPayload events transactionId := by
    intro h
    rw [completionPayload_snoc, if_pos h]
  rw [historyOf_snoc, if_neg hne]
  constructor
  · rintro ⟨h1, h2, h3, h4, h5, h6, h7, h8⟩
    exact ⟨h1, h2, h3, h4, h5, h6, h7, fun h => hpayload h ▸ h8 h⟩
  · rintro ⟨h1, h2, h3, h4, h5, h6, h7, h8⟩
    exact ⟨h1, h2, h3, h4, h5, h6, h7, fun h => (hpayload h).symm ▸ h8 h⟩

theorem missingLifecycle_snoc {history : List EventType} {kind : EventType}
    (h : missingLifecycle history = []) : missingLifecycle (history ++ [kind]) = [] := by
  simp only [missingLifecycle, List.filter_eq_nil_iff, decide_eq_true_eq, not_not,
    List.mem_append] at h ⊢
  exact fun k hk => Or.inl (h k hk)

theorem missingLifecycle_completed (history : List EventType) :
    missingLifecycle (history ++ [transactionCompleted]) = missingLifecycle history := by
  refine List.filter_congr fun kind hkind => ?_
  have hne : kind ≠ transactionCompleted := by
    rintro rfl
    exact absurd hkind (by decide)
  simp [hne]

/-- The start of a transaction begins a history the full check accepts. -/
theorem historyOk_started (events : List LedgerEvent) (transactionId : String) :
    HistoryOk events transactionId [transactionStarted] where
  begins := rfl
  reacquisitions := by decide
  ordered := by decide
  session := by decide
  validation := by decide
  commit := by decide
  projection := by decide
  completion := fun h => by simp at h

theorem valid_snoc (hvalid : Valid P L events) :
    Valid P L (events ++ [event]) ↔
      RecordOk L (events.map fun event => event.eventId) (events.length + 1) event ∧
      Follows P events event ∧
      HistoryOk (events ++ [event]) event.transactionId
        (historyOf events event.transactionId ++ [event.eventType]) := by
  rw [← historyOf_snoc_self]
  constructor
  · intro h
    obtain ⟨-, hrecord, hfollows⟩ := h.replays.snoc_inv
    exact ⟨hrecord, hfollows, h.histories _ (by simp [historyOf_snoc_self])⟩
  · rintro ⟨hrecord, hfollows, hhistory⟩
    refine ⟨.snoc hvalid.replays hrecord hfollows, fun transactionId hne => ?_⟩
    by_cases htransaction : event.transactionId = transactionId
    · rwa [← htransaction]
    · rw [HistoryOk.of_other htransaction]
      rw [historyOf_snoc, if_neg htransaction] at hne
      exact hvalid.histories transactionId hne

theorem recordOk_iff (hreplays : Replays P L events) (hadmitted : Admitted events event)
    (hbuilt : Built P L events event) (htransaction : event.transactionId ≠ "") :
    RecordOk L (events.map fun event => event.eventId) (events.length + 1) event ↔
      IdentityOk L ∧
        ∀ contract ∈ PAYLOAD_CONTRACTS event.eventType, ContractHolds event.payload contract := by
  constructor
  · intro h
    refine ⟨⟨hbuilt.project ▸ h.projectId, ?_, ?_⟩, h.contracts⟩
    · rw [← hbuilt.identity]
      exact h.identityLength
    · rw [← hbuilt.path]
      exact h.pathLength
  · rintro ⟨hidentity, hcontracts⟩
    exact {
      eventId := hbuilt.eventId
      timestamp := hbuilt.timestamp
      transactionId := htransaction
      projectId := hbuilt.project ▸ hidentity.projectId
      contracts := hcontracts
      identityLength := hbuilt.identity ▸ hidentity.repositoryIdentity
      pathLength := hbuilt.path ▸ hidentity.repositoryPathFingerprint
      previousHex := by rw [hbuilt.chain]; exact hreplays.tail_isFingerprint
      fingerprintHex := by rw [hbuilt.fingerprint]; exact eventFingerprint_isFingerprint P _
      sequence := hbuilt.sequence
      fresh := hadmitted.fresh
      project := hbuilt.project
      identity := hbuilt.identity
      path := hbuilt.path }

theorem started_mem (hvalid : Valid P L events) {transactionId : String}
    (h : historyOf events transactionId ≠ []) :
    transactionStarted ∈ historyOf events transactionId :=
  List.mem_of_head? (hvalid.histories transactionId h).begins

theorem follows_iff (hvalid : Valid P L events) (hadmitted : Admitted events event)
    (hbuilt : Built P L events event) :
    Follows P events event ↔
      (∀ known ∈ workflowOf events event.transactionId, known = event.workflowType) ∧
      (event.eventType = transactionStarted →
        resolutionBindingOf event.toUnsignedEvent ≠ .invalid) ∧
      (event.eventType = humanGateRaised → GateNamed P event.toUnsignedEvent ∧
        raisedGateOf P events (gateIdOf P event.toUnsignedEvent) = none) ∧
      (event.eventType = humanGateResolved →
        P.str (event.payload.get "gate_id") ∉ resolvedGates P events ∧
          ResolutionBound P (raisedGateOf P events (P.str (event.payload.get "gate_id")))
            (bindingOf events event.transactionId) event.toUnsignedEvent) := by
  constructor
  · intro h
    exact ⟨h.workflow, fun hk => (h.start hk).2, h.raised, h.resolved⟩
  · rintro ⟨hworkflow, hbinding, hraised, hresolved⟩
    refine {
      workflow := hworkflow
      start := fun hk => ⟨?_, hbinding hk⟩
      begun := fun hk => Or.inl (started_mem hvalid (hadmitted.begun hk))
      terminal := hadmitted.terminal
      raised := hraised
      resolved := hresolved
      immutable := fun _ _ => ?_
      checkpoint := hadmitted.checkpoint
      chain := hbuilt.chain
      fingerprint := hbuilt.fingerprint }
    · rw [hadmitted.start hk]
      simp
    · by_cases hk : event.eventType = transactionStarted
      · rw [hadmitted.start hk]
        exact Or.inl not_terminated_nil
      · exact (hadmitted.immutable hk).imp_right Or.inr

theorem historyOk_snoc_iff (hvalid : Valid P L events)
    (hclosed : Closed (historyOf events event.transactionId)) (hadmitted : Admitted events event) :
    HistoryOk (events ++ [event]) event.transactionId
        (historyOf events event.transactionId ++ [event.eventType]) ↔
      (event.eventType = leaseAcquired →
        leaseAcquired ∈ historyOf events event.transactionId →
          RecoveredSinceLease (historyOf events event.transactionId)) ∧
      (event.eventType = snapshotCaptured →
        sessionLaunched ∈ historyOf events event.transactionId →
          snapshotCaptured ∈ historyOf events event.transactionId) ∧
      (event.eventType = transactionCompleted →
        leaseReleased ∉ historyOf events event.transactionId) ∧
      (event.eventType = leaseReleased →
        projectionUpdated ∈ historyOf events event.transactionId →
          leaseReleased ∈ historyOf events event.transactionId) ∧
      (event.eventType = projectionUpdated →
        Terminated (historyOf events event.transactionId)) := by
  by_cases hstart : event.eventType = transactionStarted
  · rw [hadmitted.start hstart, hstart, List.nil_append]
    exact iff_of_true (historyOk_started _ _) (by decide)
  have hne := hadmitted.begun hstart
  have hok := hvalid.histories event.transactionId hne
  have horder := admitted_order hclosed (fun h => absurd h hstart) hadmitted.terminal
    ((hadmitted.immutable hstart).imp_right Or.inl)
  generalize hhistory : historyOf events event.transactionId = history at *
  have hpredecessor := hadmitted.predecessor hstart
  rw [hhistory] at hpredecessor
  constructor
  · intro h
    have hreacquired := (reacquisitionsAuthorized_snoc.mp h.reacquisitions).2
    obtain ⟨hsnapshot, hcompleted, hreleased⟩ := horder.mp (ordered_snoc.mp h.ordered).2
    refine ⟨hreacquired, hsnapshot, hcompleted, hreleased, fun hkind => ?_⟩
    obtain ⟨kind, hterminal, hmem⟩ := h.projection (by simp [hkind])
    rcases List.mem_append.mp hmem with hmem | hmem
    · exact ⟨kind, hmem, hterminal⟩
    · rw [List.mem_singleton.mp hmem, hkind] at hterminal
      exact absurd hterminal (by decide)
  · rintro ⟨hreacquired, hsnapshot, hcompleted, hreleased, hprojection⟩
    have hlater : ∀ {later earlier : EventType}, later ≠ projectionUpdated →
        requiredPredecessor [] later = some earlier →
        (later ∈ history → earlier ∈ history) →
        later ∈ history ++ [event.eventType] → earlier ∈ history ++ [event.eventType] := by
      intro later earlier hnotProjection hrequired hprior hmem
      rcases List.mem_append.mp hmem with hmem | hmem
      · exact List.mem_append_left _ (hprior hmem)
      · rw [List.mem_singleton] at hmem
        subst hmem
        rw [requiredPredecessor_eq _ hnotProjection] at hpredecessor
        exact List.mem_append_left _ (hpredecessor _ hrequired)
    refine {
      begins := ?_
      reacquisitions := reacquisitionsAuthorized_snoc.mpr ⟨hok.reacquisitions, hreacquired⟩
      ordered := ordered_snoc.mpr
        ⟨hok.ordered, horder.mpr ⟨hsnapshot, hcompleted, hreleased⟩⟩
      session := hlater (by decide) rfl hok.session
      validation := hlater (by decide) rfl hok.validation
      commit := hlater (by decide) rfl hok.commit
      projection := fun hmem => ?_
      completion := fun hmem => ?_ }
    · rw [List.head?_append, hok.begins]
      rfl
    · have hterminated : Terminated history := by
        rcases List.mem_append.mp hmem with hmem | hmem
        · obtain ⟨kind, hterminal, hin⟩ := hok.projection hmem
          exact ⟨kind, hin, hterminal⟩
        · exact hprojection (List.mem_singleton.mp hmem).symm
      obtain ⟨kind, hin, hterminal⟩ := hterminated
      exact ⟨kind, hterminal, List.mem_append_left _ hin⟩
    · rw [completionPayload_snoc, hhistory]
      by_cases hprior : transactionCompleted ∈ history
      · rw [if_pos hprior]
        exact (hok.completion hprior).imp_left missingLifecycle_snoc
      · have hkind : event.eventType = transactionCompleted := by
          rcases List.mem_append.mp hmem with hmem | hmem
          · exact absurd hmem hprior
          · exact (List.mem_singleton.mp hmem).symm
        have hcompletion := hadmitted.completion hkind
        rw [hhistory] at hcompletion
        rw [if_neg hprior, if_pos ⟨rfl, hkind⟩, hkind, missingLifecycle_completed]
        exact hcompletion

/-- On a ledger the full check accepts, an admitted event keeps it accepted exactly
    when the event is replayable. -/
theorem valid_snoc_iff (hvalid : Valid P L events)
    (hclosed : ∀ transactionId, Closed (historyOf events transactionId))
    (hadmitted : Admitted events event) (hbuilt : Built P L events event)
    (htransaction : event.transactionId ≠ "") :
    Valid P L (events ++ [event]) ↔ Replayable P L events event := by
  rw [valid_snoc hvalid, recordOk_iff hvalid.replays hadmitted hbuilt htransaction,
    follows_iff hvalid hadmitted hbuilt,
    historyOk_snoc_iff hvalid (hclosed event.transactionId) hadmitted]
  constructor
  · rintro ⟨⟨h1, h2⟩, ⟨h3, h4, h5, h6⟩, h7, h8, h9, h10, h11⟩
    exact ⟨h1, h2, h3, h4, h5, h6, h7, h8, h9, h10, h11⟩
  · rintro ⟨h1, h2, h3, h4, h5, h6, h7, h8, h9, h10, h11⟩
    exact ⟨⟨h1, h2⟩, ⟨h3, h4, h5, h6⟩, h7, h8, h9, h10, h11⟩

end Conveyor
