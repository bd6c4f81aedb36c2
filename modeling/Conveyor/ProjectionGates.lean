import Conveyor.LedgerTerminals
import Conveyor.ProjectionCache

/-!
# The projected gate

The loop of `rebuild` keeps one gate: an event that raises a gate shows it, and one that
resolves any gate takes it down. `human_gate_projected_iff` says for which ledgers the projected
gate is nevertheless the last raised one that is still open, and an open gate is never
projected as none.
-/

namespace Conveyor

open Library EventType

variable {P : Platform} {L : LedgerIdentity} {events : List LedgerEvent} {event : LedgerEvent}
  {s t : ProjectionState} {value : Fields} {transactionId : String}

def HUMAN_DECISION_REQUIRED : Json := .str "human_decision_required"

/-! ### Open gates -/

/-- The event bears evidence that a migration imported, or facts that it derived. -/
def isImport (event : LedgerEvent) : Prop :=
  event.eventType = legacyEvidenceImported ∨
    (event.payload.get "legacy_import").truthy = true ∨
    (event.payload.get "migration_batch").truthy = true ∨ factsNamed event ≠ []

/-- The event raises a gate that no event of the ledger resolves. -/
def isOpen (P : Platform) (events : List LedgerEvent) (event : LedgerEvent) : Prop :=
  event.eventType = humanGateRaised ∧
    gateIdOf P event.toUnsignedEvent ∉ resolvedGates P events

instance (events : List LedgerEvent) (event : LedgerEvent) : Decidable (isOpen P events event) :=
  instDecidableAnd

/-- The most recently raised gate that is open. -/
def openGate (P : Platform) (events : List LedgerEvent) : Json :=
  match events.reverse.find? fun event => isOpen P events event with
  | some event => .obj (gateOf event.toUnsignedEvent)
  | none => .null

/-- No transaction completes among these events but one that resolves a human decision. -/
def OnlyResolutionsComplete (events : List LedgerEvent) : Prop :=
  ∀ event ∈ events, event.eventType = transactionCompleted →
    event.workflowType = .humanDecisionResolution

/-- An open gate after whose event only resolutions completed. -/
def Standing (P : Platform) (events : List LedgerEvent) : Prop :=
  ∃ earlier event later, events = earlier ++ event :: later ∧ isOpen P events event ∧
    OnlyResolutionsComplete later

/-- The projected gate is the open gate: where the projection asks for a human decision it
    is the last open one, and a standing gate is never projected as none. -/
structure GateProjected (P : Platform) (events : List LedgerEvent) (value : Fields) : Prop where
  shown : value.get "current_state" = HUMAN_DECISION_REQUIRED →
    value.get "human_gate" = openGate P events
  kept : Standing P events → value.get "human_gate" ≠ .null

/-! ### The gate in the slot -/

def isGateEvent (event : LedgerEvent) : Prop :=
  event.eventType = humanGateRaised ∨ event.eventType = humanGateResolved

instance (event : LedgerEvent) : Decidable (isGateEvent event) := instDecidableOr

/-- The last event that raised or resolved a gate. -/
def lastGateEvent (events : List LedgerEvent) : Option LedgerEvent :=
  events.reverse.find? fun event => isGateEvent event

def stateAfter (events : List LedgerEvent) : Json :=
  lastWrite stateNamed (.str "discover") events

def featureAfter (events : List LedgerEvent) : Json := lastWrite featureNamed .null events

/-- Every transaction has ended in a state in which none is active. -/
def AllEnded (events : List LedgerEvent) : Prop :=
  ∀ transactionId, historyOf events transactionId ≠ [] →
    ∃ state ∈ INACTIVE_STATES, viewState events transactionId = .str state

/-- The settlement after the loop moves on from an integrated feature, and takes the gate
    down with it. -/
def SettledAway (events : List LedgerEvent) : Prop :=
  AllEnded events ∧ featureAfter events ≠ .null ∧
    (∃ key, hashKey (featureAfter events) = .ok key ∧ Integrates events key) ∧
    stateAfter events ≠ HUMAN_DECISION_REQUIRED

/-- The gates were raised and resolved in an order that one slot can follow. -/
structure GatesInOrder (P : Platform) (events : List LedgerEvent) : Prop where
  last : stateAfter events = HUMAN_DECISION_REQUIRED →
    (∃ event, lastGateEvent events = some event ∧ isOpen P events event) ∨
      (∀ event ∈ events, ¬isOpen P events event) ∧
        ∀ event, lastGateEvent events = some event → event.eventType = humanGateResolved
  standing : Standing P events →
    (∃ event, lastGateEvent events = some event ∧ event.eventType = humanGateRaised) ∧
      ¬SettledAway events

theorem gateNamed_eq (hmerge : event.payload.get? "human_merge_gate" = none) :
    gateNamed event = if event.eventType = humanGateRaised then
      some (firstTruthy [event.payload.get "gate", .obj event.payload])
    else if event.eventType = humanGateResolved then some .null else none := by
  cases hkind : event.eventType <;> simp [gateNamed, hkind, hmerge]

theorem isGateEvent_iff (hmerge : event.payload.get? "human_merge_gate" = none) :
    isGateEvent event ↔ gateNamed event ≠ none := by
  rw [gateNamed_eq hmerge, isGateEvent]
  split
  · simp_all
  · split <;> simp_all

theorem lastGateEvent_split {last : LedgerEvent} (h : lastGateEvent events = some last) :
    isGateEvent last ∧ ∃ earlier later, events = earlier ++ last :: later ∧
      ∀ other ∈ later, ¬isGateEvent other := by
  obtain ⟨hlast, before, after, hsplit, hbefore⟩ := List.find?_eq_some_iff_append.mp h
  refine ⟨by simpa using hlast, after.reverse, before.reverse, ?_, fun other hother => ?_⟩
  · rw [← List.reverse_reverse events, hsplit]
    simp
  · have hnot := hbefore other (List.mem_reverse.mp hother)
    simpa using hnot

/-- The gate that an accepted event raises. -/
theorem Replays.gate (h : Replays P L events) (hmem : event ∈ events)
    (hkind : event.eventType = humanGateRaised) :
    firstTruthy [event.payload.get "gate", .obj event.payload] =
      .obj (gateOf event.toUnsignedEvent) := by
  obtain ⟨before, after, hsplit⟩ := List.append_of_mem hmem
  obtain ⟨-, -, hfollows⟩ := h.of_split hsplit
  obtain ⟨⟨gate, hgate, hvalid, -⟩, -⟩ := hfollows.raised hkind
  have hgateOf : gateOf event.toUnsignedEvent = gate := by rw [gateOf, hgate]
  have hne : gate ≠ [] := by
    rintro rfl
    exact absurd hvalid.gateId (by decide)
  have htruthy : (Json.obj gate).truthy = true := by simpa [Json.truthy] using hne
  simp [firstTruthy, hgateOf, hgate, htruthy]

/-- What the slot of the loop holds after an accepted ledger. -/
theorem slot_eq (hreplays : Replays P L events)
    (hmerge : ∀ event ∈ events, event.payload.get? "human_merge_gate" = none) :
    lastWrite gateNamed .null events =
      match lastGateEvent events with
      | some event =>
          if event.eventType = humanGateRaised then .obj (gateOf event.toUnsignedEvent) else .null
      | none => .null := by
  cases hlast : lastGateEvent events with
  | none =>
      refine lastWrite_of_silent fun event hmem => ?_
      have hnot := List.find?_eq_none.mp hlast event (List.mem_reverse.mpr hmem)
      have hnone := (isGateEvent_iff (hmerge event hmem)).not.mp (by simpa using hnot)
      simpa using hnone
  | some last =>
      obtain ⟨hgate, earlier, later, rfl, hlater⟩ := lastGateEvent_split hlast
      have hmem : last ∈ earlier ++ last :: later := by simp
      have hsilent : ∀ other ∈ later, gateNamed other = none := fun other hother => by
        have hother' : other ∈ earlier ++ last :: later := by simp [hother]
        simpa using (isGateEvent_iff (hmerge other hother')).not.mp (hlater other hother)
      by_cases hkind : last.eventType = humanGateRaised
      · have hnamed : gateNamed last = some (.obj (gateOf last.toUnsignedEvent)) := by
          rw [gateNamed_eq (hmerge last hmem), if_pos hkind, hreplays.gate hmem hkind]
        rw [lastWrite_split hnamed hsilent]
        exact (if_pos hkind).symm
      · have hnamed : gateNamed last = some .null := by
          rw [gateNamed_eq (hmerge last hmem), if_neg hkind, if_pos (hgate.resolve_left hkind)]
        rw [lastWrite_split hnamed hsilent]
        exact (if_neg hkind).symm

theorem openGate_of_last {last : LedgerEvent} (hlast : lastGateEvent events = some last)
    (hopen : isOpen P events last) : openGate P events = .obj (gateOf last.toUnsignedEvent) := by
  obtain ⟨hgate, before, after, hsplit, hbefore⟩ := List.find?_eq_some_iff_append.mp hlast
  have hfind : (events.reverse.find? fun event => isOpen P events event) = some last := by
    refine List.find?_eq_some_iff_append.mpr ⟨by simpa using hopen, before, after, hsplit, ?_⟩
    intro other hother
    have hnot : ¬isGateEvent other := by simpa using hbefore other hother
    simpa using fun h : isOpen P events other => hnot (Or.inl h.1)
  rw [openGate, hfind]

theorem openGate_eq_null : openGate P events = .null ↔ ∀ event ∈ events, ¬isOpen P events event := by
  unfold openGate
  split
  · rename_i found hfind
    obtain ⟨hopen, -⟩ := List.find?_eq_some_iff_append.mp hfind
    have hmem : found ∈ events := List.mem_reverse.mp (List.mem_of_find?_eq_some hfind)
    exact iff_of_false (by simp) fun h => h found hmem (by simpa using hopen)
  · rename_i hfind
    refine iff_of_true rfl fun event hmem => ?_
    simpa using List.find?_eq_none.mp hfind event (List.mem_reverse.mpr hmem)

theorem openGate_eq_obj {gate : Fields} (h : openGate P events = .obj gate) :
    ∃ event ∈ events, isOpen P events event ∧ gateOf event.toUnsignedEvent = gate := by
  unfold openGate at h
  split at h
  · rename_i found hfind
    obtain ⟨hopen, -⟩ := List.find?_eq_some_iff_append.mp hfind
    have hmem : found ∈ events := List.mem_reverse.mp (List.mem_of_find?_eq_some hfind)
    exact ⟨found, hmem, by simpa using hopen, Json.obj.inj h⟩
  · cases h

/-- The slot holds the open gate exactly when the last gate event raised it, or no gate is
    open and none was raised last. -/
theorem slot_eq_openGate_iff (hreplays : Replays P L events)
    (hmerge : ∀ event ∈ events, event.payload.get? "human_merge_gate" = none) :
    lastWrite gateNamed .null events = openGate P events ↔
      (∃ event, lastGateEvent events = some event ∧ isOpen P events event) ∨
        (∀ event ∈ events, ¬isOpen P events event) ∧
          ∀ event, lastGateEvent events = some event → event.eventType = humanGateResolved := by
  rw [slot_eq hreplays hmerge]
  cases hlast : lastGateEvent events with
  | none =>
      rw [eq_comm, openGate_eq_null]
      simp
  | some last =>
      obtain ⟨hgate, -⟩ := lastGateEvent_split hlast
      by_cases hkind : last.eventType = humanGateRaised
      · simp only [if_pos hkind, Option.some.injEq, exists_eq_left', forall_eq']
        constructor
        · intro hslot
          obtain ⟨event, -, hopen, hsame⟩ := openGate_eq_obj hslot.symm
          refine Or.inl ⟨hkind, ?_⟩
          have hid : gateIdOf P last.toUnsignedEvent = gateIdOf P event.toUnsignedEvent := by
            rw [gateIdOf, gateIdOf, hsame]
          rw [hid]
          exact hopen.2
        · rintro (hopen | ⟨-, hresolved⟩)
          · exact (openGate_of_last hlast hopen).symm
          · rw [hkind] at hresolved
            cases hresolved
      · have hresolved := hgate.resolve_left hkind
        simp only [if_neg hkind, Option.some.injEq, exists_eq_left', forall_eq']
        rw [eq_comm, openGate_eq_null, and_iff_left hresolved]
        exact ⟨Or.inr, fun h => h.resolve_left fun hopen => hkind hopen.1⟩

theorem slot_ne_null_iff (hreplays : Replays P L events)
    (hmerge : ∀ event ∈ events, event.payload.get? "human_merge_gate" = none) :
    lastWrite gateNamed .null events ≠ .null ↔
      ∃ event, lastGateEvent events = some event ∧ event.eventType = humanGateRaised := by
  rw [slot_eq hreplays hmerge]
  cases lastGateEvent events with
  | none => simp
  | some last => by_cases hkind : last.eventType = humanGateRaised <;> simp [hkind]

/-! ### The settlement -/

/-- The settlement takes the gate down with the feature it moves on from. -/
def ClearsGate (s : ProjectionState) : Prop :=
  s.currentFeature ≠ .null ∧
    (∃ key, hashKey s.currentFeature = .ok key ∧ key ∈ s.integratedFeatures) ∧
    s.currentState ≠ HUMAN_DECISION_REQUIRED

theorem settledState_eq_ok {feature state settled : Json}
    (h : settledState feature state = .ok settled) :
    settled = HUMAN_DECISION_REQUIRED ↔ state = HUMAN_DECISION_REQUIRED := by
  unfold settledState at h
  split at h
  · simp only [bind_eq_ok, pure, Except.pure, Except.ok.injEq] at h
    obtain ⟨key, hkey, rfl⟩ := h
    split
    · rename_i hmem
      refine iff_of_false (by decide) fun hstate => ?_
      rw [hstate] at hkey
      cases hkey
      exact absurd hmem (by decide)
    · exact Iff.rfl
  · cases h
    exact Iff.rfl

/-- What the settlement does to the state and the gate. -/
theorem settle_eq_ok (h : settle s = .ok t) :
    (t.currentState = HUMAN_DECISION_REQUIRED ↔ s.currentState = HUMAN_DECISION_REQUIRED) ∧
      (ClearsGate s → t.humanGate = .null) ∧ (¬ClearsGate s → t.humanGate = s.humanGate) := by
  simp only [settle, ProjectionState.isIntegrated, bind_eq_ok, pure, Except.pure,
    Except.ok.injEq] at h
  obtain ⟨integrated, ⟨key, hkey, rfl⟩, h⟩ := h
  split at h
  · rename_i hcurrent
    simp only [bind_eq_ok, Except.ok.injEq] at h
    obtain ⟨selected, -, feature, -, state, hstate, rfl⟩ := h
    have hsettled := settledState_eq_ok hstate
    have hintegrated : key ∈ s.integratedFeatures := by simpa using hcurrent.1
    refine ⟨hsettled, fun hclears => ?_, fun hkeeps => ?_⟩
    · exact if_pos fun hhuman => hclears.2.2 (hsettled.mp hhuman)
    · refine if_neg fun hhuman => hkeeps ⟨hcurrent.2, ⟨key, hkey, hintegrated⟩, fun hstate => ?_⟩
      exact hhuman (hsettled.mpr hstate)
  · rename_i hcurrent
    cases h
    refine ⟨Iff.rfl, fun hclears => absurd ?_ hcurrent, fun _ => rfl⟩
    obtain ⟨hne, ⟨key', hkey', hmem⟩, -⟩ := hclears
    rw [hkey] at hkey'
    cases hkey'
    exact ⟨by simpa using hmem, hne⟩

/-- No transaction is active exactly when all have ended. -/
theorem activeTransaction_none_iff (hfolded : Folded events s)
    {active : Option TransactionView} (h : activeTransaction s = .ok active) :
    active = none ↔ AllEnded events := by
  simp only [activeTransaction, bind_eq_ok, require_eq_ok, exists_const, pure, Except.pure,
    Except.ok.injEq] at h
  obtain ⟨-, -, -, rfl⟩ := h
  rw [List.getLast?_eq_none_iff, List.filter_eq_nil_iff]
  have hinactive (view : TransactionView) : isInactive view = true ↔
      ∃ state ∈ INACTIVE_STATES, view.state = .str state := by
    unfold isInactive
    cases view.state <;> simp
  constructor
  · intro hall transactionId hne
    cases hfound : s.transactions.get? transactionId with
    | none => exact absurd ((hfolded.known transactionId).mp hfound) hne
    | some view =>
        have hview := hall view (List.mem_map_of_mem (Dict.mem_of_get? hfound))
        rw [← (hfolded.views transactionId view hfound).2.2]
        exact (hinactive view).mp (by simpa using hview)
  · intro hended view hmem
    obtain ⟨⟨transactionId, view'⟩, hentry, rfl⟩ := List.mem_map.mp hmem
    have hfound := Dict.get?_of_mem hfolded.distinct hentry
    have hne : historyOf events transactionId ≠ [] := fun hnil => by
      rw [(hfolded.known transactionId).mpr hnil] at hfound
      cases hfound
    have hview := hended transactionId hne
    rw [← (hfolded.views transactionId view' hfound).2.2] at hview
    simpa using (hinactive view').mpr hview

/-- What is done to the gate between the loop and the document. -/
theorem settleIdle_gate (hfolded : Folded events s) {active : Option TransactionView}
    (hactive : activeTransaction s = .ok active) (h : settleIdle s active = .ok t) :
    (t.currentState = HUMAN_DECISION_REQUIRED ↔ stateAfter events = HUMAN_DECISION_REQUIRED) ∧
      (SettledAway events → t.humanGate = .null) ∧
      (¬SettledAway events → t.humanGate = lastWrite gateNamed .null events) := by
  have hnone := activeTransaction_none_iff hfolded hactive
  rw [← hfolded.gate, stateAfter, ← hfolded.state]
  have haway : SettledAway events ↔ active = none ∧ ClearsGate s := by
    rw [SettledAway, ClearsGate, hnone, featureAfter, stateAfter, ← hfolded.feature,
      ← hfolded.state]
    simp only [hfolded.integrated]
  rw [haway]
  cases active with
  | none =>
      obtain ⟨hstate, hclears, hkeeps⟩ := settle_eq_ok h
      exact ⟨hstate, fun h => hclears h.2, fun h => hkeeps fun hclears => h ⟨rfl, hclears⟩⟩
  | some view =>
      cases h
      exact ⟨Iff.rfl, fun h => absurd h.1 (by simp), fun _ => rfl⟩

/-! ### The document -/

theorem readyForIntegration_eq_ok {commit state : Json}
    (h : readyForIntegration s commit = .ok state) :
    state = HUMAN_DECISION_REQUIRED ↔ s.currentState = HUMAN_DECISION_REQUIRED := by
  unfold readyForIntegration at h
  split at h
  · rename_i hrunning
    simp only [bind_eq_ok, pure, Except.pure, Except.ok.injEq] at h
    obtain ⟨integrated, -, rfl⟩ := h
    rw [hrunning.2]
    split <;> exact iff_of_false (by decide) (by decide)
  · cases h
    exact Iff.rfl

/-- Without imported facts the document shows the state and the gate of the settlement. -/
theorem project_gate {sequence : Nat} {fingerprint : String} {observations : Option Fields}
    (hfacts : events.foldl factsAfter [] = []) (hreplays : Replays P L events)
    (hbegun : Begun events)
    (h : project P L sequence fingerprint events observations = .ok value) :
    (value.get "current_state" = HUMAN_DECISION_REQUIRED ↔
        stateAfter events = HUMAN_DECISION_REQUIRED) ∧
      (SettledAway events → value.get "human_gate" = .null) ∧
      (¬SettledAway events → value.get "human_gate" = lastWrite gateNamed .null events) := by
  simp only [project, bind_eq_ok, pure, Except.pure, Except.ok.injEq] at h
  obtain ⟨s, hfold, active, hactive, settled, hsettled, commit, -, state, hstate, observed, -,
    action, -, rfl⟩ := h
  have hfolded := foldEvents_folded hreplays hbegun hfold
  obtain ⟨hhuman, haway, hkept⟩ := settleIdle_gate hfolded hactive hsettled
  have hready := readyForIntegration_eq_ok hstate
  have hnone : settled.projectionFacts = [] := by
    rw [settleIdle_facts hsettled, hfolded.facts, hfacts]
  have hget (key : String) (hkey : key ≠ "allowed_next_action") (pairs : Fields) :
      Fields.get (if observed.consistency ∈ ["not_observed", "consistent"] then pairs
        else pairs.set "allowed_next_action" (.str "verify_consistency")) key =
      Fields.get pairs key := by
    split
    · rfl
    · exact Fields.get_set_of_ne hkey _ _
  rw [hnone, Fields.update_nil, hget _ (by decide), hget _ (by decide), Fields.get, Fields.get,
    Fields.get?_ofPairs, Fields.get?_ofPairs]
  change (state = _ ↔ _) ∧ (_ → settled.humanGate = _) ∧ (_ → settled.humanGate = _)
  exact ⟨hready.trans hhuman, haway, hkept⟩

/-- No event of the ledger bears imported evidence. -/
def NoImport (events : List LedgerEvent) : Prop := ∀ event ∈ events, ¬isImport event

def NoMergeGate (events : List LedgerEvent) : Prop :=
  ∀ event ∈ events, event.payload.get? "human_merge_gate" = none

theorem NoImport.facts (h : NoImport events) : events.foldl factsAfter [] = [] := by
  induction events using List.reverseRecOn with
  | nil => rfl
  | append_singleton rest event ih =>
      have hrest : NoImport rest := fun other hother => h other (List.mem_append_left _ hother)
      have hnone : factsNamed event = [] := by
        by_contra hne
        exact h event (by simp) (Or.inr (Or.inr (Or.inr hne)))
      rw [List.foldl_append, ih hrest, List.foldl_cons, List.foldl_nil, factsAfter, hnone]
      split <;> rfl

/-- On an accepted ledger without imports the projected gate is the open gate exactly when
    the gates were raised and resolved in order. -/
theorem gate_projected_iff {integrity : LedgerIntegrity} {records : List Object} {sequence : Nat}
    {fingerprint : String} {observations : Option Fields}
    (haccepted : validate P L records = .ok (integrity, events)) (himport : NoImport events)
    (hmerge : NoMergeGate events)
    (hproject : project P L sequence fingerprint events observations = .ok value) :
    GateProjected P events value ↔ GatesInOrder P events := by
  obtain ⟨-, hvalid, -⟩ := validate_eq_ok haccepted
  obtain ⟨hstate, haway, hkept⟩ := project_gate himport.facts hvalid.replays hvalid.begun hproject
  have hshown : (value.get "current_state" = HUMAN_DECISION_REQUIRED →
      value.get "human_gate" = openGate P events) ↔
        (stateAfter events = HUMAN_DECISION_REQUIRED →
          lastWrite gateNamed .null events = openGate P events) := by
    rw [hstate]
    refine forall_congr' fun hhuman => ?_
    rw [hkept fun h => h.2.2.2 hhuman]
  have hnull : value.get "human_gate" ≠ .null ↔
      lastWrite gateNamed .null events ≠ .null ∧ ¬SettledAway events := by
    by_cases h : SettledAway events
    · simp [haway h, h]
    · simp [hkept h, h]
  constructor
  · intro h
    refine ⟨fun hhuman => ?_, fun hstanding => ?_⟩
    · exact (slot_eq_openGate_iff hvalid.replays hmerge).mp (hshown.mp h.shown hhuman)
    · obtain ⟨hslot, hstays⟩ := hnull.mp (h.kept hstanding)
      exact ⟨(slot_ne_null_iff hvalid.replays hmerge).mp hslot, hstays⟩
  · intro h
    refine ⟨hshown.mpr fun hhuman => ?_, fun hstanding => ?_⟩
    · exact (slot_eq_openGate_iff hvalid.replays hmerge).mpr (h.last hhuman)
    · obtain ⟨hraised, hstays⟩ := h.standing hstanding
      exact hnull.mpr ⟨(slot_ne_null_iff hvalid.replays hmerge).mpr hraised, hstays⟩

/-- The signature is no part of what the projection shows. -/
theorem projected_signProjection :
    GateProjected P events (signProjection P value) ↔ GateProjected P events value := by
  have hget {key : String} (hne : key ≠ "projection_fingerprint") :
      Fields.get (signProjection P value) key = value.get key :=
    Fields.get_set_of_ne hne _ _
  constructor
  · intro h
    refine ⟨fun hstate => ?_, fun hstanding => ?_⟩
    · rw [← hget (by decide)]
      exact h.shown ((hget (by decide)).trans hstate)
    · rw [← hget (by decide)]
      exact h.kept hstanding
  · intro h
    refine ⟨fun hstate => ?_, fun hstanding => ?_⟩
    · rw [hget (by decide)] at hstate ⊢
      exact h.shown hstate
    · rw [hget (by decide)]
      exact h.kept hstanding

/-- A rebuild over an accepted ledger without imports projects the open gate exactly when
    the gates were raised and resolved in order. -/
theorem human_gate_projected_iff {persistCache : Bool} {observations : Option Fields} {read : Storage}
    {files after : ProjectionFiles} {projection : Fields}
    (hread : files.storage.read P L = .ok (events, read)) (himport : NoImport events)
    (hmerge : NoMergeGate events)
    (hrebuild : rebuild P L persistCache observations files = .ok (projection, after)) :
    GateProjected P events projection ↔ GatesInOrder P events := by
  simp only [rebuild, hread, bind_eq_ok, Prod.exists, pure, Except.pure, Except.ok.injEq,
    Prod.mk.injEq] at hrebuild
  obtain ⟨found, read', ⟨rfl, rfl⟩, integrity, verified, -, value, hproject, rfl, rfl⟩ := hrebuild
  simp only [Storage.read, bind_eq_ok, Prod.exists, pure, Except.pure, Except.ok.injEq,
    Prod.mk.injEq] at hread
  obtain ⟨accepted, found, haccepted, -, -, rfl, -⟩ := hread
  exact projected_signProjection.trans (gate_projected_iff haccepted himport hmerge hproject)

/-! ### One gate -/

def oneGateRaised (P : Platform) : List LedgerEvent := [sampleGateStarted P, sampleGateRaised P]

theorem oneGateRaised_replays (P : Platform) : Replays P sampleIdentity (oneGateRaised P) :=
  (sampleGateStarted_replays P).chain sampleIdentity_ok (by decide) (by decide)
    (by simp [sampleGateStarted, chainEvent]) (by simp [PAYLOAD_CONTRACTS]) (follows_raised P)

/-- A history that these samples have in common. -/
theorem historyOk_raised (events : List LedgerEvent) (transactionId : String) :
    HistoryOk events transactionId [transactionStarted, humanGateRaised] := by
  refine ⟨rfl, ?_, ?_, ?_, ?_, ?_, ?_, fun h => absurd h (by decide)⟩ <;> decide

theorem closed_raised : Closed [transactionStarted, humanGateRaised] := by
  unfold Closed
  decide

theorem oneGateRaised_histories (P : Platform) (transactionId : String) :
    historyOf (oneGateRaised P) transactionId = [] ∨
      historyOf (oneGateRaised P) transactionId = [transactionStarted, humanGateRaised] := by
  by_cases h : transactionId = "transaction-1"
  · subst h
    exact Or.inr rfl
  left
  simp [historyOf, oneGateRaised, sampleGateStarted, sampleGateRaised, chainEvent, Ne.symm h]

theorem oneGateRaised_valid (P : Platform) : Valid P sampleIdentity (oneGateRaised P) := by
  refine ⟨oneGateRaised_replays P, fun transactionId hne => ?_⟩
  rw [(oneGateRaised_histories P transactionId).resolve_left hne]
  exact historyOk_raised _ _

theorem oneGateRaised_coherent (P : Platform) :
    Coherent P (oneGateRaised P)
      ⟨(oneGateRaised P).map LedgerEvent.toObject, anchorOf P (oneGateRaised P), 0⟩
      fun _ => none where
  records := rfl
  head := rfl
  tail event h := by
    cases h
    exact ⟨rfl, rfl⟩
  caches := by simp
  closed transactionId := by
    rcases oneGateRaised_histories P transactionId with h | h
    · rw [h]
      exact closed_nil
    · rw [h]
      exact closed_raised

theorem oneGateRaised_inOrder (P : Platform) : GatesInOrder P (oneGateRaised P) where
  last _ := by
    refine Or.inl ⟨sampleGateRaised P, rfl, rfl, ?_⟩
    change "gate-1" ∉ []
    decide
  standing _ := by
    refine ⟨⟨sampleGateRaised P, rfl, rfl⟩, fun h => ?_⟩
    exact h.2.2.2 rfl

theorem human_gate_projected_raised :
    ∃ files after projection,
      rebuild Platform.reference sampleIdentity true none files = .ok (projection, after) ∧
      GateProjected Platform.reference (oneGateRaised Platform.reference) projection := by
  have hproject : ∃ value, project Platform.reference sampleIdentity 2
      (tailFingerprint (oneGateRaised Platform.reference)) (oneGateRaised Platform.reference)
      none = .ok value := ⟨_, rfl⟩
  obtain ⟨value, hproject⟩ := hproject
  have hvalid := oneGateRaised_valid Platform.reference
  have hcoherent := oneGateRaised_coherent Platform.reference
  have hrebuild : rebuild Platform.reference sampleIdentity true none ⟨_, some .absent⟩ = _ :=
    (rebuild_eq_ok hcoherent).mpr ⟨hvalid, value, hproject, rfl, rfl⟩
  refine ⟨_, _, _, hrebuild, ?_⟩
  refine (human_gate_projected_iff (read_coherent hcoherent hvalid) ?_ ?_ hrebuild).mpr
    (oneGateRaised_inOrder _)
  · intro event hmem
    simp only [oneGateRaised, List.mem_cons, List.not_mem_nil, or_false] at hmem
    rcases hmem with rfl | rfl
    all_goals
      rintro (h | h | h | h)
      · cases h
      · cases h
      · cases h
      · exact h rfl
  · intro event hmem
    simp only [oneGateRaised, List.mem_cons, List.not_mem_nil, or_false] at hmem
    rcases hmem with rfl | rfl <;> rfl

/-! ### A resolved gate that hides an open one -/

def secondGate : Fields :=
  [("approved_next_state", .str "feature_ready"),
   ("classification", .str "HUMAN_DECISION_REQUIRED"), ("gate_id", .str "gate-2"),
   ("project_id", .str "project"), ("reason", .str "choose a name"),
   ("repository_identity", .str "repository"), ("repository_path_fingerprint", .str "path"),
   ("transaction_id", .str "transaction-2"), ("workflow_type", .str "recovery")]

theorem secondGate_valid : GateValid secondGate := by
  constructor <;> decide +kernel

def secondStarted (P : Platform) : LedgerEvent :=
  chainEvent P sampleIdentity (oneGateRaised P) "event-3" transactionStarted "transaction-2"
    .recovery []

def secondRaised (P : Platform) : LedgerEvent :=
  chainEvent P sampleIdentity (oneGateRaised P ++ [secondStarted P]) "event-4" humanGateRaised
    "transaction-2" .recovery
    [("gate", .obj secondGate), ("gate_fingerprint", .str (P.fingerprint (.obj secondGate))),
     ("gate_id", .str "gate-2")]

def twoGatesRaised (P : Platform) : List LedgerEvent :=
  oneGateRaised P ++ [secondStarted P] ++ [secondRaised P]

def resolverStarted (P : Platform) : LedgerEvent :=
  chainEvent P sampleIdentity (twoGatesRaised P) "event-5" transactionStarted "transaction-3"
    .humanDecisionResolution
    [("resolved_gate_fingerprint", .str (P.fingerprint (.obj secondGate))),
     ("resolved_gate_id", .str "gate-2")]

def secondResolved (P : Platform) : LedgerEvent :=
  chainEvent P sampleIdentity (twoGatesRaised P ++ [resolverStarted P]) "event-6"
    humanGateResolved "transaction-3" .humanDecisionResolution
    [("gate_fingerprint", .str (P.fingerprint (.obj secondGate))), ("gate_id", .str "gate-2"),
     ("raised_transaction_id", .str "transaction-2")]

/-- Two gates are raised, and a third transaction resolves the second one. -/
def sampleGates (P : Platform) : List LedgerEvent :=
  twoGatesRaised P ++ [resolverStarted P] ++ [secondResolved P]

theorem twoGatesRaised_replays (P : Platform) : Replays P sampleIdentity (twoGatesRaised P) := by
  have hstarted : Replays P sampleIdentity (oneGateRaised P ++ [secondStarted P]) := by
    refine (oneGateRaised_replays P).chain sampleIdentity_ok (by decide) (by decide) ?_ ?_ ?_
    · simp [oneGateRaised, sampleGateStarted, sampleGateRaised, chainEvent]
    · simp [PAYLOAD_CONTRACTS, ContractHolds, Fields.get?]
    · exact follows_of_started rfl rfl (by change ResolutionBinding.unbound ≠ .invalid; decide) rfl rfl
  refine hstarted.chain sampleIdentity_ok (by decide) (by decide) ?_ (by simp [PAYLOAD_CONTRACTS]) ?_
  · simp [oneGateRaised, secondStarted, sampleGateStarted, sampleGateRaised, chainEvent]
  · refine follows_of_raised rfl (fun known => workflow_kept) ?_ ?_
      ⟨secondGate, rfl, secondGate_valid, rfl, rfl⟩ rfl rfl rfl
    · change transactionStarted ∈ [transactionStarted]
      decide
    · change ¬Terminated [transactionStarted]
      decide

theorem sampleGates_replays (P : Platform) : Replays P sampleIdentity (sampleGates P) := by
  have hstarted : Replays P sampleIdentity (twoGatesRaised P ++ [resolverStarted P]) := by
    refine (twoGatesRaised_replays P).chain sampleIdentity_ok (by decide) (by decide) ?_ ?_ ?_
    · simp [twoGatesRaised, oneGateRaised, secondStarted, secondRaised, sampleGateStarted,
        sampleGateRaised, chainEvent]
    · simp [PAYLOAD_CONTRACTS, ContractHolds, Fields.get?_cons]
    · refine follows_of_started rfl rfl ?_ rfl rfl
      change ResolutionBinding.bound _ _ ≠ .invalid
      simp
  refine hstarted.chain sampleIdentity_ok (by decide) (by decide) ?_ (by simp [PAYLOAD_CONTRACTS]) ?_
  · simp [twoGatesRaised, oneGateRaised, secondStarted, secondRaised, resolverStarted,
      sampleGateStarted, sampleGateRaised, chainEvent]
  · refine follows_of_resolved rfl (fun known => workflow_kept) ?_ ?_ ?_ rfl rfl
    · change transactionStarted ∈ [transactionStarted]
      decide
    · simp [resolvedGates, twoGatesRaised, oneGateRaised, secondStarted, secondRaised,
        resolverStarted, sampleGateStarted, sampleGateRaised, chainEvent]
    · have hraised : raisedGateOf P (twoGatesRaised P ++ [resolverStarted P]) "gate-2" =
          some ("transaction-2", P.fingerprint (.obj secondGate)) := rfl
      change ResolutionBound P (raisedGateOf P _ "gate-2") _ _
      rw [hraised]
      exact ⟨rfl, rfl⟩

theorem sampleGates_histories (P : Platform) (transactionId : String) :
    historyOf (sampleGates P) transactionId = [] ∨
      historyOf (sampleGates P) transactionId = [transactionStarted, humanGateRaised] ∨
      historyOf (sampleGates P) transactionId = [transactionStarted, humanGateResolved] := by
  by_cases h1 : transactionId = "transaction-1"
  · subst h1
    exact Or.inr (Or.inl rfl)
  by_cases h2 : transactionId = "transaction-2"
  · subst h2
    exact Or.inr (Or.inl rfl)
  by_cases h3 : transactionId = "transaction-3"
  · subst h3
    exact Or.inr (Or.inr rfl)
  left
  simp [historyOf, sampleGates, twoGatesRaised, oneGateRaised, secondStarted, secondRaised,
    resolverStarted, secondResolved, sampleGateStarted, sampleGateRaised, chainEvent, Ne.symm h1,
    Ne.symm h2, Ne.symm h3]

theorem sampleGates_valid (P : Platform) : Valid P sampleIdentity (sampleGates P) := by
  refine ⟨sampleGates_replays P, fun transactionId hne => ?_⟩
  rcases sampleGates_histories P transactionId with h | h | h
  · exact absurd h hne
  · rw [h]
    exact historyOk_raised _ _
  · rw [h]
    refine ⟨rfl, ?_, ?_, ?_, ?_, ?_, ?_, fun h => absurd h (by decide)⟩ <;> decide

theorem sampleGates_coherent (P : Platform) :
    Coherent P (sampleGates P)
      ⟨(sampleGates P).map LedgerEvent.toObject, anchorOf P (sampleGates P), 0⟩ fun _ => none where
  records := rfl
  head := rfl
  tail event h := by
    cases h
    exact ⟨rfl, rfl⟩
  caches := by simp
  closed transactionId := by
    rcases sampleGates_histories P transactionId with h | h | h
    · rw [h]
      exact closed_nil
    · rw [h]
      exact closed_raised
    · rw [h, Closed]
      decide

theorem sampleGates_noImport (P : Platform) : NoImport (sampleGates P) := by
  intro event hmem
  simp only [sampleGates, twoGatesRaised, oneGateRaised, List.mem_append, List.mem_cons,
    List.not_mem_nil, or_false] at hmem
  rcases hmem with ((((rfl | rfl) | rfl) | rfl) | rfl) | rfl
  all_goals
    rintro (h | h | h | h)
    · cases h
    · cases h
    · cases h
    · exact h rfl

theorem sampleGates_noMergeGate (P : Platform) : NoMergeGate (sampleGates P) := by
  intro event hmem
  simp only [sampleGates, twoGatesRaised, oneGateRaised, List.mem_append, List.mem_cons,
    List.not_mem_nil, or_false] at hmem
  rcases hmem with ((((rfl | rfl) | rfl) | rfl) | rfl) | rfl <;> rfl

theorem sampleGates_standing (P : Platform) : Standing P (sampleGates P) := by
  refine ⟨[sampleGateStarted P], sampleGateRaised P,
    [secondStarted P, secondRaised P, resolverStarted P, secondResolved P], rfl, ⟨rfl, ?_⟩, ?_⟩
  · change "gate-1" ∉ ["gate-2"]
    decide
  · intro event hmem hkind
    simp only [List.mem_cons, List.not_mem_nil, or_false] at hmem
    rcases hmem with rfl | rfl | rfl | rfl <;> cases hkind

/-- The gate of the first transaction stays open, and the projection shows none. -/
theorem openGate_hidden :
    ∃ files read projection after,
      Storage.read Platform.reference sampleIdentity files.storage =
        .ok (sampleGates Platform.reference, read) ∧
      NoImport (sampleGates Platform.reference) ∧ NoMergeGate (sampleGates Platform.reference) ∧
      rebuild Platform.reference sampleIdentity true none files = .ok (projection, after) ∧
      ¬GateProjected Platform.reference (sampleGates Platform.reference) projection := by
  have hproject : ∃ value, project Platform.reference sampleIdentity 6
      (tailFingerprint (sampleGates Platform.reference)) (sampleGates Platform.reference) none =
        .ok value ∧ value.get "human_gate" = .null := ⟨_, rfl, rfl⟩
  obtain ⟨value, hproject, hgate⟩ := hproject
  have hvalid := sampleGates_valid Platform.reference
  have hcoherent := sampleGates_coherent Platform.reference
  have hrebuild : rebuild Platform.reference sampleIdentity true none ⟨_, some .absent⟩ = _ :=
    (rebuild_eq_ok hcoherent).mpr ⟨hvalid, value, hproject, rfl, rfl⟩
  refine ⟨_, _, _, _, read_coherent hcoherent hvalid, sampleGates_noImport _,
    sampleGates_noMergeGate _, hrebuild, fun h => ?_⟩
  exact (projected_signProjection.mp h).kept (sampleGates_standing _) hgate

end Conveyor
