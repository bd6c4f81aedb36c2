import Conveyor.ExecutionPlan
import Conveyor.LedgerEntries
import Conveyor.ProjectionCache
import Conveyor.ProjectionFold

/-!
# Integration history

Which features a projection lists as integrated. The list comes from two sources: the loop
appends an outcome for each completed milestone integration, and a migration imports a list of
its own, which takes the place of the folded one for as long as it is in force. Imported facts
end with the next canonical start, so a feature that only an imported list names is forgotten
there.

`integration_history_kept` says when a listed feature stays listed, and that no executable plan
is derived for it then.
-/

namespace Conveyor

open Library EventType

def HISTORY_KEY : String := "historical_integration_outcomes"

/-- The feature is listed with the classification of an integration. -/
def Listed (history : Json) (feature : String) : Prop :=
  ∃ items item, history = .arr items ∧ .obj item ∈ items ∧
    Fields.get item "classification" = .str "INTEGRATED" ∧
    Fields.get item "feature_id" = .str feature

/-- The event completes the integration of the feature. -/
def integrates (feature : String) (event : LedgerEvent) : Prop :=
  isIntegration event ∧ event.payload.get "classification" = .str "INTEGRATED" ∧
    event.payload.get "feature_id" = .str feature

def Completed (events : List LedgerEvent) (feature : String) : Prop :=
  ∃ event ∈ events, integrates feature event

/-- The history that an event imports. -/
def historyNamed (event : LedgerEvent) : Option Json :=
  Fields.get? (factsNamed event).reverse HISTORY_KEY

/-- The imported history in force. -/
def importedHistory (events : List LedgerEvent) : Option Json :=
  events.foldl (fun history event =>
    if isCanonicalStart event then none else (historyNamed event).or history) none

/-- The projection of the ledger lists the feature as integrated. -/
def ListedAfter (events : List LedgerEvent) (feature : String) : Prop :=
  match importedHistory events with
  | some history => Listed history feature
  | none => Completed events feature

/-- The event keeps a listed feature listed: a canonical start comes after the completed
    integration of the feature, and an imported history lists it. -/
structure KeepsHistory (feature : String) (earlier : List LedgerEvent) (event : LedgerEvent) :
    Prop where
  start : isCanonicalStart event → Completed earlier feature
  imported : ∀ history, historyNamed event = some history → Listed history feature

variable {P : Platform} {L : LedgerIdentity} {events earlier later : List LedgerEvent}
  {event : LedgerEvent} {feature : String} {value : Fields} {s t : ProjectionState}

/-! ### One event -/

theorem importedHistory_snoc : importedHistory (events ++ [event]) =
    if isCanonicalStart event then none
    else (historyNamed event).or (importedHistory events) := by
  rw [importedHistory, List.foldl_append]
  rfl

theorem completed_snoc : Completed (events ++ [event]) feature ↔
    Completed events feature ∨ integrates feature event := by
  simp only [Completed, List.mem_append, List.mem_singleton]
  constructor
  · rintro ⟨found, hfound | rfl, h⟩
    · exact Or.inl ⟨found, hfound, h⟩
    · exact Or.inr h
  · rintro (⟨found, hfound, h⟩ | h)
    · exact ⟨found, Or.inl hfound, h⟩
    · exact ⟨event, Or.inr rfl, h⟩

theorem historyNamed_of_start (h : event.eventType = transactionStarted) :
    historyNamed event = none := by
  have hfacts : factsNamed event = [] := if_neg (by rw [h]; decide)
  rw [historyNamed, hfacts]
  rfl

theorem not_integrates_of_start (h : event.eventType = transactionStarted) :
    ¬integrates feature event := by
  rintro ⟨⟨hkind, -⟩, -⟩
  rw [h] at hkind
  cases hkind

/-- A listed feature stays listed exactly when the event keeps it. -/
theorem listedAfter_snoc_iff (h : ListedAfter events feature) :
    ListedAfter (events ++ [event]) feature ↔ KeepsHistory feature events event := by
  rw [ListedAfter, importedHistory_snoc]
  by_cases hstart : isCanonicalStart event
  · rw [if_pos hstart]
    dsimp only
    rw [completed_snoc, or_iff_left (not_integrates_of_start hstart.1)]
    constructor
    · intro hcompleted
      refine ⟨fun _ => hcompleted, fun history himported => ?_⟩
      rw [historyNamed_of_start hstart.1] at himported
      cases himported
    · intro hkeeps
      exact hkeeps.start hstart
  · rw [if_neg hstart]
    cases himported : historyNamed event with
    | some history =>
        change Listed history feature ↔ _
        constructor
        · intro hlisted
          refine ⟨fun h => absurd h hstart, fun found hfound => ?_⟩
          rw [himported] at hfound
          cases hfound
          exact hlisted
        · intro hkeeps
          exact hkeeps.imported history himported
    | none =>
        have hkeeps : KeepsHistory feature events event := by
          refine ⟨fun h => absurd h hstart, fun found hfound => ?_⟩
          rw [himported] at hfound
          cases hfound
        refine iff_of_true ?_ hkeeps
        rw [ListedAfter] at h
        rw [Option.none_or]
        cases hforce : importedHistory events with
        | some history => rwa [hforce] at h
        | none =>
            rw [hforce] at h
            exact completed_snoc.mpr (Or.inl h)

/-- A listed feature stays listed over any extension whose events keep it. -/
theorem listedAfter_append (h : ListedAfter earlier feature)
    (hkept : ∀ before event after, later = before ++ event :: after →
      KeepsHistory feature (earlier ++ before) event) : ListedAfter (earlier ++ later) feature := by
  induction later using List.reverseRecOn with
  | nil => rwa [List.append_nil]
  | append_singleton rest event ih =>
      have hrest : ListedAfter (earlier ++ rest) feature := by
        refine ih fun before other after hsplit => hkept before other (after ++ [event]) ?_
        rw [hsplit, List.append_assoc, List.cons_append]
      rw [← List.append_assoc]
      exact (listedAfter_snoc_iff hrest).mpr (hkept rest event [] rfl)

/-! ### What the projection lists -/

theorem integrationOutcome_listed {outcome : Json} (h : integrationOutcome event = .ok outcome) :
    ∃ item, outcome = .obj item ∧
      Fields.get item "classification" = event.payload.get "classification" ∧
      Fields.get item "feature_id" = event.payload.get "feature_id" := by
  simp only [integrationOutcome, bind_eq_ok, pure, Except.pure, Except.ok.injEq] at h
  obtain ⟨head, -, clean, -, rfl⟩ := h
  refine ⟨_, rfl, ?_, ?_⟩ <;> rw [Fields.get, Fields.get?_ofPairs] <;> rfl

theorem listed_snoc {outcomes : List Json} {outcome : Json} :
    Listed (.arr (outcomes ++ [outcome])) feature ↔
      Listed (.arr outcomes) feature ∨ Listed (.arr [outcome]) feature := by
  constructor
  · rintro ⟨items, item, hitems, hmem, hlisted⟩
    cases hitems
    rcases List.mem_append.mp hmem with hmem | hmem
    · exact Or.inl ⟨_, item, rfl, hmem, hlisted⟩
    · exact Or.inr ⟨_, item, rfl, hmem, hlisted⟩
  · rintro (⟨items, item, hitems, hmem, hlisted⟩ | ⟨items, item, hitems, hmem, hlisted⟩)
    · cases hitems
      exact ⟨_, item, rfl, List.mem_append_left _ hmem, hlisted⟩
    · cases hitems
      exact ⟨_, item, rfl, List.mem_append_right _ hmem, hlisted⟩

theorem listed_outcome {outcome : Json} (hkind : isIntegration event)
    (h : integrationOutcome event = .ok outcome) :
    Listed (.arr [outcome]) feature ↔ integrates feature event := by
  obtain ⟨item, rfl, hclassification, hfeature⟩ := integrationOutcome_listed h
  constructor
  · rintro ⟨items, found, hitems, hmem, hlisted⟩
    cases hitems
    cases List.mem_singleton.mp hmem
    rw [hclassification, hfeature] at hlisted
    exact ⟨hkind, hlisted⟩
  · rintro ⟨-, hlisted⟩
    rw [← hclassification, ← hfeature] at hlisted
    exact ⟨_, item, rfl, List.mem_singleton.mpr rfl, hlisted⟩

/-- The loop lists the completed integrations. -/
theorem outcomes_listed (hreplays : Replays P L events) (hbegun : Begun events)
    (h : foldEvents events = .ok s) :
    Listed (.arr s.historicalIntegrationOutcomes) feature ↔ Completed events feature := by
  induction hreplays generalizing s with
  | nil =>
      cases h
      simp [Listed, Completed]
  | @snoc events event prior record follows ih =>
      obtain ⟨u, hrest, hlast⟩ := foldlM_snoc_eq_ok.mp h
      have hfolded := foldEvents_folded prior hbegun.init hrest
      have hu := ih hbegun.init hrest
      rw [completed_snoc]
      rcases (foldEvent_step hfolded.keyed hlast).outcomes with
        ⟨hsame, hnone⟩ | ⟨outcome, houtcome, hkind, hadded⟩
      · rw [hsame, hu, or_iff_left fun h => hnone h.1]
      · rw [hadded, listed_snoc, hu, listed_outcome hkind houtcome]

theorem facts_history :
    Fields.get? (events.foldl factsAfter []) HISTORY_KEY = importedHistory events := by
  induction events using List.reverseRecOn with
  | nil => rfl
  | append_singleton rest event ih =>
      rw [importedHistory_snoc, List.foldl_append, List.foldl_cons, List.foldl_nil, factsAfter]
      split
      · rfl
      · rw [Fields.get?_update, Fields.get?_append, ih, historyNamed]
        cases Fields.get? (factsNamed event).reverse HISTORY_KEY <;> rfl

theorem facts_ordered : Fields.Ordered (events.foldl factsAfter []) := by
  induction events using List.reverseRecOn with
  | nil => exact Fields.ordered_nil
  | append_singleton rest event ih =>
      rw [List.foldl_append, List.foldl_cons, List.foldl_nil, factsAfter]
      split
      · exact Fields.ordered_nil
      · exact ih.update _

/-- Without a repeated key the last entry of a key is its first one. -/
theorem get?_reverse {fields : Fields} (h : fields.keys.Nodup) (key : String) :
    Fields.get? fields.reverse key = Fields.get? fields key := by
  have hreverse : (Dict.keys fields.reverse).Nodup := by
    rw [Dict.keys, List.map_reverse]
    exact List.nodup_reverse.mpr h
  cases hfound : Fields.get? fields key with
  | some found =>
      have hmem : (key, found) ∈ fields := Dict.mem_of_get? hfound
      exact Dict.get?_of_mem hreverse (List.mem_reverse.mpr hmem)
  | none =>
      have hnone : key ∉ Fields.keys fields := Dict.get?_eq_none.mp hfound
      refine Dict.get?_eq_none.mpr ?_
      rw [Dict.keys, List.map_reverse]
      exact fun hmem => hnone (List.mem_reverse.mp hmem)

/-- The settlement leaves the folded history alone. -/
theorem settleIdle_history {settled : ProjectionState} {active : Option TransactionView}
    (h : settleIdle s active = .ok settled) :
    settled.historicalIntegrationOutcomes = s.historicalIntegrationOutcomes := by
  cases active with
  | some view => cases h; rfl
  | none =>
      simp only [settleIdle, settle, bind_eq_ok] at h
      obtain ⟨integrated, -, h⟩ := h
      split at h
      · simp only [bind_eq_ok, pure, Except.pure, Except.ok.injEq] at h
        obtain ⟨selected, -, feature, -, state, -, rfl⟩ := h
        rfl
      · cases h; rfl

theorem project_listed {sequence : Nat} {fingerprint : String} {observations : Option Fields}
    (hreplays : Replays P L events) (hbegun : Begun events)
    (h : project P L sequence fingerprint events observations = .ok value) :
    Listed (value.get HISTORY_KEY) feature ↔ ListedAfter events feature := by
  simp only [project, bind_eq_ok, pure, Except.pure, Except.ok.injEq] at h
  obtain ⟨s, hfold, active, -, settled, hsettled, commit, -, state, -, observed, -, action, -,
    rfl⟩ := h
  have hfolded := foldEvents_folded hreplays hbegun hfold
  have hlisted : Listed (.arr s.historicalIntegrationOutcomes) feature ↔ Completed events feature :=
    outcomes_listed hreplays hbegun hfold
  have hfacts : settled.projectionFacts = events.foldl factsAfter [] := by
    rw [settleIdle_facts hsettled, hfolded.facts]
  have hget (pairs : Fields) :
      Fields.get (if observed.consistency ∈ ["not_observed", "consistent"] then pairs
        else pairs.set "allowed_next_action" (.str "verify_consistency")) HISTORY_KEY =
      Fields.get pairs HISTORY_KEY := by
    split
    · rfl
    · exact Fields.get_set_of_ne (by decide) _ _
  rw [hget, hfacts, Fields.get, Fields.get?_update, Fields.get?_append,
    get?_reverse facts_ordered.nodup, facts_history, Fields.get?_ofPairs, ListedAfter]
  cases importedHistory events with
  | some history => rfl
  | none =>
      change Listed (.arr settled.historicalIntegrationOutcomes) feature ↔ _
      rw [settleIdle_history hsettled, hlisted]

/-! ### What a plan is derived for -/

theorem mem_of_mapM {α β : Type} {f : α → Result β} {items : List α} {found : List β}
    (h : items.mapM f = .ok found) {item : α} (hitem : item ∈ items) :
    ∃ value ∈ found, f item = .ok value := by
  induction items generalizing found with
  | nil => cases hitem
  | cons head rest ih =>
      simp only [List.mapM_cons, bind_eq_ok, pure, Except.pure, Except.ok.injEq] at h
      obtain ⟨value, hvalue, values, hvalues, rfl⟩ := h
      rcases List.mem_cons.mp hitem with rfl | hitem
      · exact ⟨value, List.mem_cons_self, hvalue⟩
      · obtain ⟨other, hother, hf⟩ := ih hvalues hitem
        exact ⟨other, List.mem_cons_of_mem _ hother, hf⟩

theorem mem_integratedFeatures {history : Json} {historical integrated : List Json}
    (hlisted : Listed history feature)
    (hhistorical : itemsOf (firstTruthy [history, .arr []]) = .ok historical)
    (hintegrated : ExecutionPlan.integratedFeatures historical = .ok integrated) :
    .str feature ∈ integrated := by
  obtain ⟨items, item, rfl, hmem, hclassification, hfeature⟩ := hlisted
  have hitems : historical = items := by
    have htruthy : (Json.arr items).truthy = true := by
      cases items with
      | nil => cases hmem
      | cons head rest => rfl
    have hfirst : firstTruthy [.arr items, .arr []] = .arr items := if_pos htruthy
    rw [hfirst] at hhistorical
    exact (Except.ok.inj hhistorical).symm
  subst hitems
  have hitem : item ∈ (historical.filterMap asFields?).filter fun item =>
      item.get "classification" = .str "INTEGRATED" := by
    refine List.mem_filter.mpr ⟨List.mem_filterMap.mpr ⟨_, hmem, rfl⟩, ?_⟩
    exact decide_eq_true hclassification
  obtain ⟨value, hvalue, hkey⟩ := mem_of_mapM hintegrated hitem
  rw [hfeature] at hkey
  cases hkey
  exact hvalue

/-- No executable plan is derived for a feature that the projection lists. -/
theorem fromProjection_of_listed {projection : Fields} {arguments : PlanArguments}
    {plan : ExecutionPlan} (hlisted : Listed (projection.get HISTORY_KEY) feature)
    (h : ExecutionPlan.fromProjection P projection arguments = .ok plan)
    (hworkflow : plan.workflow ∈ ExecutionPlan.EXECUTABLE_WORKFLOWS) :
    plan.featureId ≠ .str feature := by
  simp only [ExecutionPlan.fromProjection, bind_eq_ok, require_eq_ok, exists_const, pure,
    Except.pure, Except.ok.injEq] at h
  obtain ⟨-, -, active, -, workflow, -, session, -, -, identity, -, -, historical, hhistorical,
    integrated, hintegrated, _, hfresh, sequence, -, _, -, rfl⟩ := h
  change workflow ∈ ExecutionPlan.EXECUTABLE_WORKFLOWS at hworkflow
  change identity.featureId ≠ .str feature
  rw [ExecutionPlan.requireFreshFeature, if_pos hworkflow] at hfresh
  simp only [bind_eq_ok, require_eq_ok, exists_const] at hfresh
  obtain ⟨-, hnew, -⟩ := hfresh
  intro hsame
  rw [hsame] at hnew
  exact hnew (mem_integratedFeatures hlisted hhistorical hintegrated)

/-! ### Two rebuilds -/

theorem rebuild_listed {persistCache : Bool} {observations : Option Fields} {read : Storage}
    {files after : ProjectionFiles} {projection : Fields}
    (hread : files.storage.read P L = .ok (events, read))
    (hrebuild : rebuild P L persistCache observations files = .ok (projection, after)) :
    Listed (projection.get HISTORY_KEY) feature ↔ ListedAfter events feature := by
  simp only [rebuild, hread, bind_eq_ok, Prod.exists, pure, Except.pure, Except.ok.injEq,
    Prod.mk.injEq] at hrebuild
  obtain ⟨found, read', ⟨rfl, rfl⟩, integrity, verified, -, value, hproject, rfl, rfl⟩ := hrebuild
  simp only [Storage.read, bind_eq_ok, Prod.exists, pure, Except.pure, Except.ok.injEq,
    Prod.mk.injEq] at hread
  obtain ⟨accepted, found, haccepted, -, -, rfl, -⟩ := hread
  obtain ⟨-, hvalid, -⟩ := validate_eq_ok haccepted
  rw [← project_listed hvalid.replays hvalid.begun hproject, signProjection, Fields.get_set_of_ne]
  decide

/-- A feature that the projection lists as integrated stays listed over every extension of the
    ledger whose events keep it, and no executable plan is derived for it. -/
theorem integration_history_kept {persistShort persistLong : Bool}
    {observedShort observedLong : Option Fields} {readShort readLong : Storage}
    {filesShort filesLong afterShort afterLong : ProjectionFiles} {short long : Fields}
    (hreadShort : filesShort.storage.read P L = .ok (earlier, readShort))
    (hreadLong : filesLong.storage.read P L = .ok (earlier ++ later, readLong))
    (hshort : rebuild P L persistShort observedShort filesShort = .ok (short, afterShort))
    (hlong : rebuild P L persistLong observedLong filesLong = .ok (long, afterLong))
    (hkept : ∀ before event after, later = before ++ event :: after →
      KeepsHistory feature (earlier ++ before) event)
    (hlisted : Listed (short.get HISTORY_KEY) feature) :
    Listed (long.get HISTORY_KEY) feature ∧
      ∀ arguments plan, ExecutionPlan.fromProjection P long arguments = .ok plan →
        plan.workflow ∈ ExecutionPlan.EXECUTABLE_WORKFLOWS → plan.featureId ≠ .str feature := by
  have hbefore := (rebuild_listed hreadShort hshort).mp hlisted
  have hafter := (rebuild_listed hreadLong hlong).mpr (listedAfter_append hbefore hkept)
  exact ⟨hafter, fun arguments plan => fromProjection_of_listed hafter⟩

/-! ### A canonical integration and an imported one -/

/-- A milestone integration of F001, from its start to its projection update. -/
def integrationEntries : List LedgerEntry :=
  let entry := fun eventId kind payload =>
    LedgerEntry.mk eventId kind "transaction-1" .milestoneIntegration payload
  [entry "event-1" transactionStarted [("feature_id", .str "F001"), ("run_id", .str "run-1")],
   entry "event-2" leaseAcquired
     [("lease_id", .str "lease-1"), ("lease_type", .str "integration_writer")],
   entry "event-3" snapshotCaptured [("snapshot", .obj [])],
   entry "event-4" deterministicExecutionStarted
     [("model_session_launched", .bool false), ("plan_fingerprint", .str "plan-1")],
   entry "event-5" deterministicResultAccepted
     [("changed_paths", .arr [.str "a.py"]), ("classification", .str "INTEGRATED"),
      ("model_session_launched", .bool false), ("plan_fingerprint", .str "plan-1")],
   entry "event-6" changesDetected
     [("changed_paths", .arr [.str "a.py"]), ("diff_fingerprint", .str "diff-1")],
   entry "event-7" validationStarted [],
   entry "event-8" validationPassed [],
   entry "event-9" commitFinalized
     [("changed_paths", .arr [.str "a.py"]), ("commit", .str "c2")],
   entry "event-10" transactionCompleted
     [("accepted_feature_commit", .str "c1"), ("classification", .str "INTEGRATED"),
      ("feature_id", .str "F001"), ("integrated_commit", .str "c2"),
      ("next_state", .str "feature_integrated"),
      ("terminal_snapshot", .obj [("clean", .bool true), ("head", .str "c2")])],
   entry "event-11" leaseReleased [("lease_id", .str "lease-1")],
   entry "event-12" projectionUpdated [("current_state", .str "feature_integrated")]]

/-- The kernel starts to reconcile the queue. -/
def reconciliationStart : LedgerEntry :=
  ⟨"event-20", transactionStarted, "transaction-2", .queueReconciliation,
    [("run_id", .str "run-2"), ("starting_branch", .str "codex/m1"),
     ("starting_head", .str "c2")]⟩

/-- The facts that a migration imports. -/
def importedFacts (history : List Json) : Fields :=
  [("accepted_feature_commit", .null), ("active_transaction", .null),
   ("allowed_next_action", .str "queue_reconciliation"), ("current_feature", .null),
   ("current_repository_consistency", .str "consistent"),
   ("current_state", .str "queue_reconciliation"), ("feature_branch", .null),
   ("historical_integration_outcomes", .arr history),
   ("human_gate", .null), ("integration_status", .null), ("legacy_cycle_classification", .null),
   ("milestone", .str "M1"), ("milestone_branch", .str "codex/m1"),
   ("old_session_resume", .bool false), ("planning_status", .null), ("project_id", .str "project"),
   ("required_lease", .null), ("schema_version", .int 1),
   ("selected_feature_starting_commit", .null), ("selected_next_feature", .null),
   ("session_resume_eligible", .bool false), ("warnings", .arr [])]

/-- F001 as a queue names an integrated feature. -/
def importedOutcome : Json :=
  .obj [("accepted_commit", .str "c1"), ("classification", .str "INTEGRATED"),
    ("classification_source", .str "corroborated"), ("feature_id", .str "F001"),
    ("integrated_commit", .str "c2"), ("terminal_head", .null)]

/-- The migration of a queue with these integrated features. -/
def migrationEntries (transactionId : String) (history : List Json) : List LedgerEntry :=
  let entry := fun eventId kind (payload : Fields) =>
    LedgerEntry.mk (transactionId ++ eventId) kind transactionId .recovery
      (payload.set "migration_batch" (.bool true))
  [entry ":1" transactionStarted
     [("allowed_mutation_policy", .obj []), ("legacy_import", .bool true),
      ("run_id", .str "legacy-migration-project"), ("source_fingerprints", .arr [.str "source-1"]),
      ("starting_branch", .str "codex/m1"), ("starting_head", .str "c2")],
   entry ":2" leaseAcquired
     [("lease_id", .str "lease-1"), ("lease_type", .str "recovery_writer")],
   entry ":3" snapshotCaptured [("snapshot", .obj [])],
   entry ":4" validationStarted [("source_count", .int 1)],
   entry ":5" validationPassed [("application_git_mutations", .arr [])],
   entry ":6" legacyEvidenceImported
     [("classification", .str "corroborated"), ("legacy_import", .bool true),
      ("source_fingerprint", .str "source-1")],
   entry ":7" changesDetected
     [("application_git_mutations", .arr []),
      ("controller_evidence_sources", .arr [.str "source-1"])],
   entry ":8" transactionCompleted
     [("accepted_feature_commit", .null), ("classification", .str "RECOVERY_APPLIED"),
      ("feature_id", .null), ("legacy_import", .bool true),
      ("next_state", .str "queue_reconciliation"),
      ("terminal_snapshot", .obj [("clean", .bool true), ("head", .str "c2")])],
   entry ":9" leaseReleased [("lease_id", .str "lease-1")],
   entry ":10" projectionUpdated
     [("current_feature", .null), ("current_state", .str "queue_reconciliation"),
      ("projection_facts", .obj (importedFacts history)), ("selected_feature", .null)]]

theorem integrationEntries_valid : EntriesValid integrationEntries := by decide +kernel

theorem integrationEntries_then_valid :
    EntriesValid (integrationEntries ++ [reconciliationStart]) := by decide +kernel

theorem migrationEntries_valid : EntriesValid (migrationEntries "migration-1" [importedOutcome]) :=
  by decide +kernel

theorem migrationEntries_then_valid : EntriesValid
    (migrationEntries "migration-1" [importedOutcome] ++ [reconciliationStart]) := by
  decide +kernel

theorem integrationEntries_migrated_valid :
    EntriesValid (integrationEntries ++ migrationEntries "migration-1" []) := by decide +kernel

/-! ### What the two ledgers list -/

instance (event : LedgerEvent) : Decidable (integrates feature event) :=
  inferInstanceAs (Decidable (_ ∧ _ ∧ _))

instance : Decidable (Completed events feature) :=
  inferInstanceAs (Decidable (∃ _ ∈ _, _))

/-- The files of the entries, without a cached projection. -/
def filesOf (entries : List LedgerEntry) : ProjectionFiles :=
  ⟨storageOf Platform.reference sampleIdentity entries, some .absent⟩

/-- The projection of the entries. -/
def projectEntries (entries : List LedgerEntry) : Result Fields :=
  project Platform.reference sampleIdentity (ledgerOf Platform.reference sampleIdentity entries).length
    (tailFingerprint (ledgerOf Platform.reference sampleIdentity entries))
    (ledgerOf Platform.reference sampleIdentity entries) none

theorem read_entries {entries : List LedgerEntry} (h : EntriesValid entries) :
    (filesOf entries).storage.read Platform.reference sampleIdentity =
      .ok (ledgerOf Platform.reference sampleIdentity entries, (filesOf entries).storage) :=
  read_coherent (coherent_ledgerOf h) (valid_ledgerOf sampleIdentity_ok h)

/-- Accepted entries that project are rebuilt. -/
theorem rebuild_entries {entries : List LedgerEntry} (h : EntriesValid entries)
    (hproject : (projectEntries entries).toBool = true) :
    ∃ projection after,
      rebuild Platform.reference sampleIdentity true none (filesOf entries) =
        .ok (projection, after) := by
  rcases hvalue : projectEntries entries with error | value
  · rw [hvalue] at hproject
    cases hproject
  · have hrebuild : rebuild Platform.reference sampleIdentity true none (filesOf entries) = _ :=
      (rebuild_eq_ok (coherent_ledgerOf h)).mpr
        ⟨valid_ledgerOf sampleIdentity_ok h, value, hvalue, rfl, rfl⟩
    exact ⟨_, _, hrebuild⟩

/-- A reconciliation starts after a canonical integration. -/
theorem integration_history_kept_sample :
    ∃ short long afterShort afterLong,
      rebuild Platform.reference sampleIdentity true none (filesOf integrationEntries) =
        .ok (short, afterShort) ∧
      rebuild Platform.reference sampleIdentity true none
        (filesOf (integrationEntries ++ [reconciliationStart])) = .ok (long, afterLong) ∧
      Listed (short.get HISTORY_KEY) "F001" ∧ Listed (long.get HISTORY_KEY) "F001" ∧
      ∀ arguments plan, ExecutionPlan.fromProjection Platform.reference long arguments = .ok plan →
        plan.workflow ∈ ExecutionPlan.EXECUTABLE_WORKFLOWS → plan.featureId ≠ .str "F001" := by
  obtain ⟨short, afterShort, hshort⟩ := rebuild_entries integrationEntries_valid (by decide +kernel)
  obtain ⟨long, afterLong, hlong⟩ :=
    rebuild_entries integrationEntries_then_valid (by decide +kernel)
  have hcompleted : Completed (ledgerOf Platform.reference sampleIdentity integrationEntries)
      "F001" := by decide +kernel
  have hnone : importedHistory (ledgerOf Platform.reference sampleIdentity integrationEntries) =
      none := by decide +kernel
  have hlisted : Listed (short.get HISTORY_KEY) "F001" := by
    refine (rebuild_listed (read_entries integrationEntries_valid) hshort).mpr ?_
    rw [ListedAfter, hnone]
    exact hcompleted
  have hread := read_entries integrationEntries_then_valid
  rw [ledgerOf_snoc] at hread
  refine ⟨short, long, afterShort, afterLong, hshort, hlong, hlisted,
    integration_history_kept (read_entries integrationEntries_valid) hread hshort hlong ?_
      hlisted⟩
  intro before event after hsplit
  rcases before with - | ⟨first, rest⟩
  · obtain ⟨rfl, rfl⟩ := List.cons.inj hsplit
    rw [List.append_nil]
    refine ⟨fun _ => hcompleted, fun history himported => ?_⟩
    rw [historyNamed_of_start rfl] at himported
    cases himported
  · rw [List.cons_append] at hsplit
    have htail := (List.cons.inj hsplit).2
    cases rest <;> cases htail

/-- The entries project and list the feature. -/
theorem rebuild_entries_listed {entries : List LedgerEntry} (h : EntriesValid entries)
    (hproject : (projectEntries entries).toBool = true) :
    ∃ projection after,
      rebuild Platform.reference sampleIdentity true none (filesOf entries) =
        .ok (projection, after) ∧
      (Listed (projection.get HISTORY_KEY) feature ↔
        ListedAfter (ledgerOf Platform.reference sampleIdentity entries) feature) := by
  obtain ⟨projection, after, hrebuild⟩ := rebuild_entries h hproject
  exact ⟨projection, after, hrebuild, rebuild_listed (read_entries h) hrebuild⟩

/-- The next canonical start forgets an integration that only a migration lists, and a migration
    whose queue does not list it forgets a canonical one. -/
theorem integration_forgotten :
    (∃ short long afterShort afterLong,
      rebuild Platform.reference sampleIdentity true none
        (filesOf (migrationEntries "migration-1" [importedOutcome])) = .ok (short, afterShort) ∧
      rebuild Platform.reference sampleIdentity true none
        (filesOf (migrationEntries "migration-1" [importedOutcome] ++ [reconciliationStart])) =
          .ok (long, afterLong) ∧
      Listed (short.get HISTORY_KEY) "F001" ∧ ¬Listed (long.get HISTORY_KEY) "F001") ∧
    ∃ short long afterShort afterLong,
      rebuild Platform.reference sampleIdentity true none (filesOf integrationEntries) =
        .ok (short, afterShort) ∧
      rebuild Platform.reference sampleIdentity true none
        (filesOf (integrationEntries ++ migrationEntries "migration-1" [])) =
          .ok (long, afterLong) ∧
      Listed (short.get HISTORY_KEY) "F001" ∧ ¬Listed (long.get HISTORY_KEY) "F001" := by
  constructor
  · obtain ⟨short, afterShort, hshort, hlistedShort⟩ :=
      rebuild_entries_listed migrationEntries_valid (by decide +kernel)
    obtain ⟨long, afterLong, hlong, hlistedLong⟩ :=
      rebuild_entries_listed migrationEntries_then_valid (by decide +kernel)
    refine ⟨short, long, afterShort, afterLong, hshort, hlong, hlistedShort.mpr ?_, ?_⟩
    · have himported : importedHistory (ledgerOf Platform.reference sampleIdentity
          (migrationEntries "migration-1" [importedOutcome])) =
            some (.arr [importedOutcome]) := by decide +kernel
      rw [ListedAfter, himported]
      exact ⟨_, _, rfl, List.mem_singleton.mpr rfl, by decide, by decide⟩
    · rw [hlistedLong]
      have hnone : importedHistory (ledgerOf Platform.reference sampleIdentity
          (migrationEntries "migration-1" [importedOutcome] ++ [reconciliationStart])) =
            none := by decide +kernel
      rw [ListedAfter, hnone]
      decide +kernel
  · obtain ⟨short, afterShort, hshort, hlistedShort⟩ :=
      rebuild_entries_listed integrationEntries_valid (by decide +kernel)
    obtain ⟨long, afterLong, hlong, hlistedLong⟩ :=
      rebuild_entries_listed integrationEntries_migrated_valid
        (by decide +kernel)
    refine ⟨short, long, afterShort, afterLong, hshort, hlong, hlistedShort.mpr ?_, ?_⟩
    · have hnone : importedHistory (ledgerOf Platform.reference sampleIdentity
          integrationEntries) = none := by decide +kernel
      rw [ListedAfter, hnone]
      decide +kernel
    · rw [hlistedLong]
      have himported : importedHistory (ledgerOf Platform.reference sampleIdentity
          (integrationEntries ++ migrationEntries "migration-1" [])) = some (.arr []) := by
        decide +kernel
      rw [ListedAfter, himported]
      rintro ⟨items, item, hitems, hmem, -⟩
      cases hitems
      cases hmem

end Conveyor
