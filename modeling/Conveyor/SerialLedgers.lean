import Conveyor.CompletionSteps
import Conveyor.DependencyGates
import Conveyor.QueueBinding
import Mathlib.Data.List.Infix

/-!
# Serial ledgers

The ledger of a project whose transactions ran one after the other. A kernel completed some of
them, on the milestone branch or on a branch of a feature; the others ended in another way. The
module says what the fold over such a ledger computes: the start that is remembered for the
selected feature, the history of the integrations, and the entries of the completed transactions.
-/

namespace Conveyor

open Library EventType WorkflowKernel

/-! ### Completed transactions -/

/-- A completed transaction: the call of `complete` and the event that records it. -/
structure FinishedTransaction where
  call : CompletionCall
  event : LedgerEvent

namespace FinishedTransaction

variable (finished : FinishedTransaction)

def workflow : WorkflowType := finished.call.transaction.workflowType

/-- The commit that the transaction left its branch at. -/
def head : String := finished.call.snapshot.head

def branch : String := finished.call.snapshot.branch

/-- The start of the selected feature, if the evidence of the completion has one. -/
def selectedStart : Option Json :=
  Fields.get? finished.call.completion.evidence.reverse "selected_feature_starting_commit"

/-- The feature as the ledger names it. -/
def recordedFeature : Json := finished.event.payload.get "feature_id"

end FinishedTransaction

def START_FIELD : String := "selected_feature_starting_commit"

section Histories

variable (branch start : String) (done : List FinishedTransaction)

/-- The head of the milestone branch after the transactions. -/
def milestoneHead : String :=
  lastWrite (fun finished => if finished.branch = branch then some finished.head else none) start
    done

/-- The start that the last selection with a start on record left. -/
def rememberedStart : Json := lastWrite FinishedTransaction.selectedStart .null done

/-- The completed integrations. -/
def integrations : List FinishedTransaction :=
  done.filter fun finished => finished.workflow = .milestoneIntegration

/-- The head that the latest integration left, if there was one. -/
def integratedHead : Option String := (integrations done).getLast?.map FinishedTransaction.head

end Histories

/-- An integration records its feature, the two commits and the clean milestone branch. -/
structure RecordsIntegration (P : Platform) (branch : String) (finished : FinishedTransaction) :
    Prop where
  branch : finished.branch = branch
  classification :
    terminalClassification finished.call.kernel finished.call.completion =
      "INTEGRATED"
  clean : finished.call.snapshot.clean = true
  operations : ∀ operation ∈ finished.call.snapshot.gitOperations,
    isSensitiveKey P operation.1 = false ∧ operation.2 = false
  named : ∀ key ∈ ["feature_id", "accepted_feature_commit", "integrated_commit"],
    isText (finished.event.payload.get key) = true

/-- The kernel completed the transaction on a milestone branch with this head, or on another
    branch. -/
structure Finishes (P : Platform) (branch current : String) (finished : FinishedTransaction) :
    Prop where
  platform : finished.call.platform = P
  recorded : finished.call.Records .completed finished.event
  reserved : KeepsReserved finished.call.completion.evidence
  commit : finished.call.kernel.finalCommit = some finished.head
  hex : finished.head ≠ "" ∧ ∀ c ∈ finished.head.toList, Platform.isHexLower c = true
  starts : finished.branch = branch → finished.call.transaction.startingBranch = branch ∧
    finished.call.transaction.startingHead = current
  selects : ∀ value ∈ finished.selectedStart, value = .null ∨ value = .str finished.head
  integrates : finished.workflow = .milestoneIntegration → RecordsIntegration P branch finished

/-- The kernel completed the transactions one after the other, from a milestone branch with this
    head. -/
def FinishesAll (P : Platform) (branch : String) : String → List FinishedTransaction → Prop
  | _, [] => True
  | current, finished :: rest =>
      Finishes P branch current finished ∧
        FinishesAll P branch (if finished.branch = branch then finished.head else current) rest

/-- What the kernel records of a transaction after its completion. -/
def AFTER_COMPLETION : List EventType :=
  [leaseReleased, projectionUpdated, checkpointRecorded, recoveryApplied]

def completes (transactionId : String) (event : LedgerEvent) : Bool :=
  event.eventType = transactionCompleted && event.transactionId = transactionId

/-- No other transaction starts between the start at the head of the list and its completion. -/
def runsAlone : List LedgerEvent → Bool
  | [] => true
  | event :: rest =>
      event.eventType ≠ transactionStarted || !rest.any (completes event.transactionId) ||
        (rest.takeWhile fun other => !completes event.transactionId other).all
          fun other => other.eventType ≠ transactionStarted

/-- The ledger of a project whose transactions ran one after the other, with those that the
    kernel completed. The milestone branch is at `start` before the first. -/
structure SerialLedger (P : Platform) (branch start : String) (events : List LedgerEvent)
    (done : List FinishedTransaction) : Prop where
  canonical : ∀ event ∈ events, event.eventType = transactionStarted → isCanonicalStart event
  factless : ∀ event ∈ events, factsNamed event = []
  finished : events.filter (fun event => event.eventType = transactionCompleted) =
    done.map FinishedTransaction.event
  finishes : FinishesAll P branch start done
  feature : ∀ finished ∈ done,
    startFeature events finished.event.transactionId = finished.recordedFeature
  serial : ∀ suffix ∈ events.tails, runsAlone suffix = true
  closed : events.Pairwise fun completed event => completed.eventType = transactionCompleted →
    event.transactionId = completed.transactionId → event.eventType ∈ AFTER_COMPLETION

/-- The last transaction of the ledger is a completed one on the milestone branch. -/
structure EndsOnMilestone (branch : String) (events : List LedgerEvent)
    (done : List FinishedTransaction) (last : FinishedTransaction) : Prop where
  getLast : done.getLast? = some last
  branch : last.branch = branch
  ended : events.Pairwise fun completed event => completed = last.event →
    event.eventType ≠ transactionStarted

/-! ### The fold -/

section Fold

variable {s t : ProjectionState} {event : LedgerEvent} {events : List LedgerEvent}

/-- The start that a completion writes. -/
def startNamed (event : LedgerEvent) : Option Json :=
  if event.eventType = transactionCompleted then event.payload.get? START_FIELD else none

theorem rememberCommit_kept {view : TransactionView} {payload : Fields}
    (h : rememberCommit s view payload = .ok t) :
    ∃ commits, t = { s with featureCommits := commits } := by
  unfold rememberCommit at h
  split at h
  · simp only [bind_eq_ok, pure, Except.pure, Except.ok.injEq] at h
    obtain ⟨key, -, rfl⟩ := h
    exact ⟨_, rfl⟩
  · cases h
    exact ⟨_, rfl⟩

theorem recordIntegration_kept {view : TransactionView}
    (h : recordIntegration s view event = .ok t) : ∃ integrated outcomes, t = { s with
      integratedFeatures := integrated, historicalIntegrationOutcomes := outcomes } := by
  unfold recordIntegration at h
  split at h
  · simp only [bind_eq_ok, pure, Except.pure, Except.ok.injEq] at h
    obtain ⟨added, -, outcome, -, rfl⟩ := h
    exact ⟨_, _, rfl⟩
  · cases h
    exact ⟨_, _, rfl⟩

/-- A completion but for the commits and the integrations that it records. -/
theorem foldCompleted_kept {view : TransactionView} (h : foldCompleted s view event = .ok t) :
    ∃ commits integrated outcomes, t = { completeRouting (s.put { view with
        state := .str "completed"
        terminalClassification := event.payload.get "classification"
        terminalReference := event.payload.get "reference"
        terminalSnapshot := event.payload.get "terminal_snapshot" }) event.payload with
      featureCommits := commits, integratedFeatures := integrated
      historicalIntegrationOutcomes := outcomes } := by
  simp only [foldCompleted, bind_eq_ok] at h
  obtain ⟨u, hremember, hrecord⟩ := h
  obtain ⟨commits, rfl⟩ := rememberCommit_kept hremember
  obtain ⟨integrated, outcomes, rfl⟩ := recordIntegration_kept hrecord
  exact ⟨commits, integrated, outcomes, rfl⟩

theorem foldStarted_start {view : TransactionView} (h : foldStarted s view event = .ok t) :
    t.selectedFeatureStartingCommit = s.selectedFeatureStartingCommit := by
  simp only [foldStarted, pure, Except.pure] at h
  split at h
  · simp only [bind_eq_ok, Except.ok.injEq] at h
    obtain ⟨commit, -, integrated, -, rfl⟩ := h
    rfl
  · cases h
    rfl

theorem foldEvent_start (h : foldEvent s event = .ok t) :
    t.selectedFeatureStartingCommit =
      (startNamed event).getD s.selectedFeatureStartingCommit := by
  unfold foldEvent at h
  cases hkind : event.eventType <;> simp only [hkind] at h
  case transactionStarted =>
    rw [foldStarted_start h, startNamed, hkind]
    rfl
  case transactionCompleted =>
    obtain ⟨commits, integrated, outcomes, rfl⟩ := foldCompleted_kept h
    rw [startNamed, if_pos hkind]
    rfl
  all_goals
    cases h
    rw [startNamed, hkind]
    rfl

/-- The fold remembers the start that the last completion wrote. -/
theorem foldEvents_start (h : foldEvents events = .ok s) :
    s.selectedFeatureStartingCommit = lastWrite startNamed .null events :=
  foldlM_register (fun _ _ _ hstep => foldEvent_start hstep) h

/-- The entry that a pass leaves its transaction. -/
theorem foldEvent_entry (hkeyed : Keyed s) (h : foldEvent s event = .ok t) :
    ∃ view, t.transactions = s.transactions.insert event.transactionId view ∧
      view.workflowType = (viewOf s event).workflowType ∧
      (event.eventType = transactionCompleted → view = completedView s event) ∧
      (event.eventType ∈ AFTER_COMPLETION → view = viewOf s event) := by
  have hid : (viewOf s event).transactionId = event.transactionId :=
    viewOf_transactionId hkeyed event
  have honce (ht : t.transactions = (s.put (viewOf s event)).transactions) :
      t.transactions = s.transactions.insert event.transactionId (viewOf s event) := by
    rw [ht, ProjectionState.put, hid]
  have htwice (view : TransactionView)
      (ht : t.transactions = ((s.put (viewOf s event)).put view).transactions)
      (hview : view.transactionId = (viewOf s event).transactionId) :
      t.transactions = s.transactions.insert event.transactionId view := by
    rw [ht, ProjectionState.put, ProjectionState.put, hview, hid, Dict.insert_insert]
  unfold foldEvent at h
  cases hkind : event.eventType <;> simp only [hkind] at h
  case transactionStarted =>
    simp only [foldStarted, pure, Except.pure] at h
    refine ⟨startedView s event, htwice _ ?_ rfl, rfl, by simp, by simp [AFTER_COMPLETION]⟩
    split at h
    · simp only [bind_eq_ok, Except.ok.injEq] at h
      obtain ⟨commit, -, integrated, -, rfl⟩ := h
      rfl
    · cases h
      rfl
  case transactionCompleted =>
    obtain ⟨commits, integrated, outcomes, rfl⟩ := foldCompleted_kept h
    exact ⟨completedView s event, htwice _ rfl rfl, rfl, fun _ => rfl, by simp [AFTER_COMPLETION]⟩
  case humanGateResolved | validationFailed | changesDetected | legacyEvidenceImported
      | leaseReleased | recoveryApplied | checkpointRecorded | projectionUpdated =>
    cases h
    exact ⟨viewOf s event, honce rfl, rfl, by simp, fun _ => rfl⟩
  all_goals
    cases h
    exact ⟨_, htwice _ rfl rfl, rfl, by simp, by simp [AFTER_COMPLETION]⟩

/-- The entry shows the completion. -/
structure ShowsCompletion (event : LedgerEvent) (view : TransactionView) : Prop where
  state : view.state = .str "completed"
  classification : view.terminalClassification = event.payload.get "classification"
  reference : view.terminalReference = event.payload.get "reference"
  snapshot : view.terminalSnapshot = event.payload.get "terminal_snapshot"

/-- The entries of the loop in terms of the ledger. -/
structure Entered (events : List LedgerEvent) (s : ProjectionState) : Prop where
  order : s.transactions.keys =
    (events.filter fun event => event.eventType = transactionStarted).map
      fun event => event.transactionId
  workflow : ∀ transactionId view, s.transactions.get? transactionId = some view →
    workflowOf events transactionId = some view.workflowType
  completed : ∀ earlier event later, events = earlier ++ event :: later →
    event.eventType = transactionCompleted →
      (∀ other ∈ later, other.transactionId = event.transactionId →
        other.eventType ∈ AFTER_COMPLETION) →
      ∃ view, s.transactions.get? event.transactionId = some view ∧ ShowsCompletion event view
  outcomes : (events.filter fun event => isIntegration event).mapM integrationOutcome =
    .ok s.historicalIntegrationOutcomes

theorem entered_nil : Entered [] {} where
  order := rfl
  workflow transactionId view h := by simp at h
  completed earlier event later h := by simp at h
  outcomes := rfl

theorem mapM_snoc {α β : Type} {f : α → Result β} {items : List α} {found : List β} {item : α}
    {value : β} (h : items.mapM f = .ok found) (hitem : f item = .ok value) :
    (items ++ [item]).mapM f = .ok (found ++ [value]) := by
  rw [List.mapM_append, h, ok_bind, List.mapM_cons, hitem, ok_bind]
  rfl

theorem Entered.snoc (h : Entered events s) (hfolded : Folded events s)
    (hbegun : historyOf events event.transactionId = [] ↔ event.eventType = transactionStarted)
    (hstep : foldEvent s event = .ok t) :
    Entered (events ++ [event]) t := by
  obtain ⟨view, hentries, hworkflow, hcompleted, hafter⟩ := foldEvent_entry hfolded.keyed hstep
  have hget (transactionId : String) : t.transactions.get? transactionId =
      if transactionId = event.transactionId then some view
      else s.transactions.get? transactionId := by
    rw [hentries, Dict.get?_insert]
  have hknown : event.transactionId ∈ s.transactions.keys ↔
      event.eventType ≠ transactionStarted := by
    rw [← not_iff_not, ← Dict.get?_eq_none, hfolded.known, hbegun, not_not]
  refine ⟨?_, fun transactionId found hfound => ?_, ?_, ?_⟩
  · rw [hentries, Dict.keys_insert, h.order, List.filter_append, List.map_append]
    by_cases hkind : event.eventType = transactionStarted
    · rw [if_neg (h.order ▸ fun hmem => hknown.mp hmem hkind)]
      simp [hkind]
    · rw [if_pos (h.order ▸ hknown.mpr hkind)]
      simp [hkind]
  · rw [hget] at hfound
    rw [workflowOf_snoc]
    split at hfound
    · rename_i hid
      cases hfound
      subst hid
      rw [hworkflow, if_pos rfl]
      cases hentry : s.transactions.get? event.transactionId with
      | none =>
          have hnone : workflowOf events event.transactionId = none :=
            workflowOf_eq_none.mpr ((hfolded.known _).mp hentry)
          rw [hnone, viewOf, hentry]
          rfl
      | some found =>
          rw [h.workflow _ _ hentry, viewOf, hentry]
          rfl
    · rename_i hid
      rw [h.workflow _ _ hfound]
      rfl
  · intro earlier completed later hsplit hkind hlater
    rcases later.eq_nil_or_concat with rfl | ⟨rest, last, rfl⟩
    · obtain ⟨rfl, hlast⟩ := List.append_inj' hsplit rfl
      obtain rfl := List.singleton_inj.mp hlast
      refine ⟨view, by rw [hget, if_pos rfl], ?_⟩
      rw [hcompleted hkind]
      exact ⟨rfl, rfl, rfl, rfl⟩
    · rw [List.concat_eq_append, ← List.cons_append, ← List.append_assoc] at hsplit
      obtain ⟨hinit, hlast⟩ := List.append_inj' hsplit rfl
      obtain rfl := List.singleton_inj.mp hlast
      obtain ⟨found, hfound, hshows⟩ := h.completed earlier completed rest hinit hkind
        fun other hother => hlater other (by simp [hother])
      by_cases hid : completed.transactionId = event.transactionId
      · have hkept : view = viewOf s event := hafter (hlater event (by simp) hid.symm)
        refine ⟨view, by rw [hget, if_pos hid], ?_⟩
        rw [hkept, viewOf, ← hid, hfound]
        exact ⟨hshows.state, hshows.classification, hshows.reference, hshows.snapshot⟩
      · exact ⟨found, by rw [hget, if_neg hid, hfound], hshows⟩
  · rw [List.filter_append]
    rcases (foldEvent_step hfolded.keyed hstep).outcomes with
      ⟨hsame, hnone⟩ | ⟨outcome, houtcome, hintegration, hadded⟩
    · simp [hnone, hsame, h.outcomes]
    · have hlast : [event].filter (fun event => isIntegration event) = [event] := by
        simp [hintegration]
      rw [hlast, hadded]
      exact mapM_snoc h.outcomes houtcome

/-- The entries of an accepted ledger. -/
theorem foldEvents_entered {P : Platform} {L : LedgerIdentity} (hreplays : Replays P L events)
    (hbegun : Begun events) (h : foldEvents events = .ok s) : Entered events s := by
  induction hreplays generalizing s with
  | nil =>
      cases h
      exact entered_nil
  | @snoc events event prior record follows ih =>
      obtain ⟨u, hrest, hlast⟩ := foldlM_snoc_eq_ok.mp h
      have hfolded := foldEvents_folded prior hbegun.init hrest
      refine (ih hbegun.init hrest).snoc hfolded ⟨fun hnil => ?_, fun hkind => ?_⟩ hlast
      · have hhead := hbegun event.transactionId (by simp [historyOf_snoc])
        rw [historyOf_snoc_self, hnil] at hhead
        simpa using hhead
      · by_contra hne
        exact (follows.start hkind).1 (hbegun.init.mem hne)

end Fold

/-! ### What a completion records -/

section Recorded

variable {P : Platform} {branch current : String} {finished : FinishedTransaction}

theorem redactText_head (h : Finishes P branch current finished) :
    redactText P finished.head = finished.head :=
  redactText_eq_self_of_hex P h.hex.2

theorem isSensitiveKey_plain {key : String} (h : key ∈ [START_FIELD, "classification",
    "reference", "terminal_snapshot", "head", "branch", "clean", "git_operations"]) :
    isSensitiveKey P key = false := by
  simp only [START_FIELD, List.mem_cons, List.not_mem_nil, or_false] at h
  rcases h with rfl | rfl | rfl | rfl | rfl | rfl | rfl | rfl <;>
    exact isSensitiveKey_of_ascii P (by decide) (by decide)

/-- A plain field of the completion that its payload has under the same name. -/
theorem Finishes.get? (h : Finishes P branch current finished) {key : String}
    (hkey : isSensitiveKey P key = false) : ∃ nextState,
    finished.event.payload.get? key = ((completedPayload finished.call.transaction
      (some finished.head)
      (terminalClassification finished.call.kernel finished.call.completion)
      nextState finished.call.snapshot finished.call.completion.evidence).get? key).map
        (redactValue P) := by
  obtain ⟨nextState, identifier, hget⟩ := h.recorded.get? (h.platform ▸ hkey)
  refine ⟨nextState, ?_⟩
  rw [hget, h.platform, ← h.commit]
  rfl

/-- What the fold remembers of a completion is the start in its evidence. -/
theorem Finishes.startNamed (h : Finishes P branch current finished) :
    startNamed finished.event = finished.selectedStart := by
  have hplain : isSensitiveKey P START_FIELD = false := isSensitiveKey_plain (by simp)
  obtain ⟨nextState, hget⟩ := h.get? hplain
  have hkind : finished.event.eventType = transactionCompleted := h.recorded.eventType
  rw [Conveyor.startNamed, if_pos hkind, hget, completedPayload_get? (by decide)
    (by decide), terminalPayload_get?]
  change ((finished.selectedStart).or _).map _ = _
  have hselects := h.selects
  cases hstart : finished.selectedStart with
  | none => simp [Fields.get?_cons, START_FIELD]
  | some value =>
      rcases hselects value hstart with rfl | rfl
      · rfl
      · exact congrArg (fun text => some (Json.str text)) (redactText_head h)

theorem Finishes.reserved_get (h : Finishes P branch current finished) {key : String}
    (hkey : key ∈ RESERVED_TERMINAL_FIELDS) (hplain : isSensitiveKey P key = false) :
    ∃ nextState, finished.event.payload.get? key = (Fields.get?
      [("terminal_snapshot", .obj (terminalSnapshot finished.call.snapshot)),
        ("next_state", .str nextState),
        ("feature_id", .ofOption finished.call.transaction.featureId),
        ("reference", .str finished.head),
        ("classification", .str (terminalClassification finished.call.kernel
          finished.call.completion))] key).map (redactValue P) := by
  obtain ⟨nextState, hget⟩ := h.get? hplain
  exact ⟨nextState, by rw [hget, completedPayload_reserved h.reserved hkey]; rfl⟩

/-- The snapshot that a completion records. -/
def recordedSnapshot (P : Platform) (finished : FinishedTransaction) : Fields :=
  redactFields P (terminalSnapshot finished.call.snapshot)

theorem Finishes.snapshot (h : Finishes P branch current finished) :
    finished.event.payload.get "terminal_snapshot" = .obj (recordedSnapshot P finished) := by
  have hplain : isSensitiveKey P "terminal_snapshot" = false := isSensitiveKey_plain (by simp)
  obtain ⟨nextState, hget⟩ := h.reserved_get (by decide) hplain
  rw [Fields.get, hget]
  rfl

theorem Finishes.reference (h : Finishes P branch current finished) :
    finished.event.payload.get "reference" = .str finished.head := by
  have hplain : isSensitiveKey P "reference" = false := isSensitiveKey_plain (by simp)
  obtain ⟨nextState, hget⟩ := h.reserved_get (by decide) hplain
  rw [Fields.get, hget]
  exact congrArg Json.str (redactText_head h)

theorem get_recordedSnapshot {key : String} (hkey : isSensitiveKey P key = false) :
    Fields.get (recordedSnapshot P finished) key =
      redactValue P (Fields.get (terminalSnapshot finished.call.snapshot) key) :=
  get_redactFields P hkey _

theorem Finishes.recordedHead (h : Finishes P branch current finished) :
    Fields.get (recordedSnapshot P finished) "head" = .str finished.head := by
  rw [get_recordedSnapshot (isSensitiveKey_plain (by simp))]
  have hhead : Fields.get (terminalSnapshot finished.call.snapshot) "head" =
      .str finished.head := by
    rw [terminalSnapshot, Fields.get_set_of_ne (by decide), Fields.get,
      RepositorySnapshot.toFields, Fields.get?_ofPairs]
    rfl
  rw [hhead]
  exact congrArg Json.str (redactText_head h)

/-- The outcome that an integration adds to the history. -/
def outcomeFields (finished : FinishedTransaction) : Fields :=
  Fields.ofPairs
    [("transaction_id", .str finished.event.transactionId), ("classification", .str "INTEGRATED"),
     ("feature_id", finished.recordedFeature),
     ("accepted_commit", finished.event.payload.get "accepted_feature_commit"),
     ("integrated_commit", finished.event.payload.get "integrated_commit"),
     ("terminal_head", .str finished.head), ("terminal_repository_clean", .bool true),
     ("sequence", .int finished.event.sequence)]

theorem Finishes.classification (h : Finishes P branch current finished)
    (hintegration : RecordsIntegration P branch finished) :
    finished.event.payload.get "classification" = .str "INTEGRATED" := by
  have hplain : isSensitiveKey P "classification" = false := isSensitiveKey_plain (by simp)
  obtain ⟨nextState, hget⟩ := h.reserved_get (by decide) hplain
  rw [Fields.get, hget, hintegration.classification]
  exact congrArg Json.str (redactText_eq_self_of_wordless P (by decide +kernel))

theorem RecordsIntegration.recordedClean (h : RecordsIntegration P branch finished) :
    Fields.get (recordedSnapshot P finished) "clean" = .bool true := by
  rw [get_recordedSnapshot (isSensitiveKey_plain (by simp)), terminalSnapshot,
    Fields.get_set_self, h.clean]
  rfl

theorem RecordsIntegration.recordedBranch (h : RecordsIntegration P branch finished) :
    Fields.get (recordedSnapshot P finished) "branch" = .str (redactText P branch) := by
  have hbranch : Fields.get (terminalSnapshot finished.call.snapshot) "branch" =
      .str finished.branch := by
    rw [terminalSnapshot, Fields.get_set_of_ne (by decide), Fields.get,
      RepositorySnapshot.toFields, Fields.get?_ofPairs]
    rfl
  rw [get_recordedSnapshot (isSensitiveKey_plain (by simp)), hbranch, h.branch]
  rfl

/-- The recorded snapshot shows no Git operation under way. -/
theorem RecordsIntegration.recordedOperations (h : RecordsIntegration P branch finished) :
    ∃ operations, Fields.get (recordedSnapshot P finished) "git_operations" = .obj operations ∧
      operations.all (fun item => !item.2.truthy) = true := by
  have hfields : Fields.get (terminalSnapshot finished.call.snapshot) "git_operations" =
      .obj (Fields.ofPairs (finished.call.snapshot.gitOperations.map fun item =>
        (item.1, Json.bool item.2))) := by
    rw [terminalSnapshot, Fields.get_set_of_ne (by decide), Fields.get,
      RepositorySnapshot.toFields, Fields.get?_ofPairs]
    rfl
  refine ⟨_, by rw [get_recordedSnapshot (isSensitiveKey_plain (by simp)), hfields]; rfl, ?_⟩
  rw [List.all_eq_true]
  intro item hitem
  rw [redactFields_eq_map] at hitem
  obtain ⟨entry, hentry, rfl⟩ := List.mem_map.mp hitem
  rcases Fields.mem_of_mem_update hentry with hentry | hentry
  · obtain ⟨operation, hoperation, rfl⟩ := List.mem_map.mp hentry
    obtain ⟨hplain, hfalse⟩ := h.operations operation hoperation
    simp only [redactEntry, hplain, Bool.false_eq_true, if_false, hfalse]
    rfl
  · cases hentry

theorem Finishes.outcome (h : Finishes P branch current finished)
    (hintegration : RecordsIntegration P branch finished) :
    integrationOutcome finished.event = .ok (.obj (outcomeFields finished)) := by
  rw [integrationOutcome, h.snapshot]
  simp only [snapshotField, h.recordedHead, hintegration.recordedClean, ok_bind,
    h.classification hintegration]
  rfl

end Recorded

section Sequences

/-- Of outcomes in the order of their sequences the latest is the last. -/
theorem latestOutcome_of_increasing {items : List (Int × Fields)}
    (h : items.Pairwise fun first second => first.1 < second.1) :
    latestOutcome items = items.getLast?.map Prod.snd := by
  refine congrArg (Option.map Prod.snd) ?_
  induction items using List.reverseRecOn with
  | nil => rfl
  | append_singleton rest item ih =>
      rw [List.pairwise_append] at h
      obtain ⟨hrest, -, hlast⟩ := h
      rw [List.foldl_append, ih hrest, List.getLast?_append]
      cases hfound : rest.getLast? with
      | none => rfl
      | some found =>
          have hlt : found.1 < item.1 :=
            hlast found (List.mem_of_getLast? hfound) item List.mem_cons_self
          simp [hlt]

/-- The sequences of a replayed ledger increase. -/
theorem Replays.sequences {P : Platform} {L : LedgerIdentity} {events : List LedgerEvent}
    (h : Replays P L events) :
    (events.Pairwise fun first second => first.sequence < second.sequence) ∧
      ∀ event ∈ events, event.sequence ≤ events.length := by
  induction h with
  | nil => simp
  | @snoc events event prior record follows ih =>
      obtain ⟨hpairs, hbound⟩ := ih
      have hsequence : event.sequence = events.length + 1 := record.sequence
      rw [List.pairwise_append]
      refine ⟨⟨hpairs, List.pairwise_singleton _ _, fun first hfirst second hsecond => ?_⟩,
        fun other hother => ?_⟩
      · rw [List.mem_singleton.mp hsecond, hsequence]
        have := hbound first hfirst
        omega
      · rw [List.length_append, List.length_singleton]
        rcases List.mem_append.mp hother with hother | hother
        · have := hbound other hother
          omega
        · rw [List.mem_singleton.mp hother, hsequence]

end Sequences

/-! ### The fold over a serial ledger -/

section Ledgers

variable {P : Platform} {L : LedgerIdentity} {branch start : String} {events : List LedgerEvent}
  {done : List FinishedTransaction} {finished last : FinishedTransaction} {s : ProjectionState}

theorem FinishesAll.mem {current : String} (h : FinishesAll P branch current done)
    (hmem : finished ∈ done) : ∃ current, Finishes P branch current finished := by
  induction done generalizing current with
  | nil => cases hmem
  | cons head rest ih =>
      obtain ⟨hhead, hrest⟩ := h
      rcases List.mem_cons.mp hmem with rfl | hmem
      · exact ⟨current, hhead⟩
      · exact ih hrest hmem

theorem SerialLedger.mem_events (h : SerialLedger P branch start events done)
    (hmem : finished ∈ done) : finished.event ∈ events := by
  have hevent : finished.event ∈ done.map FinishedTransaction.event := List.mem_map_of_mem hmem
  rw [← h.finished] at hevent
  exact List.mem_of_mem_filter hevent

/-- The fold remembers the start of the last selection that has one. -/
theorem SerialLedger.start_eq (h : SerialLedger P branch start events done) :
    lastWrite startNamed .null events = rememberedStart done := by
  have hfilter : lastWrite startNamed .null
      (events.filter fun event => event.eventType = transactionCompleted) =
        lastWrite startNamed .null events :=
    lastWrite_filter fun event _ hkind => if_neg (by simpa using hkind)
  rw [← hfilter, h.finished, lastWrite_map]
  refine lastWrite_congr fun finished hmem => ?_
  obtain ⟨current, hfinishes⟩ := h.finishes.mem hmem
  exact hfinishes.startNamed

theorem SerialLedger.integrations_eq (h : SerialLedger P branch start events done) :
    events.filter (fun event => isIntegration event) =
      (integrations done).map FinishedTransaction.event := by
  have hsplit : events.filter (fun event => isIntegration event) =
      (events.filter fun event => event.eventType = transactionCompleted).filter
        fun event => event.workflowType = .milestoneIntegration := by
    rw [List.filter_filter]
    refine List.filter_congr fun event _ => ?_
    rw [← Bool.decide_and, decide_eq_decide]
    exact and_comm
  rw [hsplit, h.finished, List.filter_map, integrations]
  congr 1
  refine List.filter_congr fun finished hmem => ?_
  obtain ⟨current, hfinishes⟩ := h.finishes.mem hmem
  have hworkflow : finished.event.workflowType = finished.workflow :=
    hfinishes.recorded.workflowType
  simp [hworkflow]

theorem mapM_map_ok {α β γ : Type} {items : List α} {f : α → β} {g : β → Result γ} {k : α → γ}
    (h : ∀ item ∈ items, g (f item) = .ok (k item)) : (items.map f).mapM g = .ok (items.map k) := by
  induction items with
  | nil => rfl
  | cons item rest ih =>
      rw [List.forall_mem_cons] at h
      rw [List.map_cons, List.mapM_cons, h.1, ok_bind, ih h.2]
      rfl

theorem mem_integrations (h : finished ∈ integrations done) :
    finished ∈ done ∧ finished.workflow = .milestoneIntegration := by
  obtain ⟨hmem, hworkflow⟩ := List.mem_filter.mp h
  exact ⟨hmem, of_decide_eq_true hworkflow⟩

/-- The history lists the completed integrations in their order. -/
theorem SerialLedger.outcomes (h : SerialLedger P branch start events done)
    (hentered : Entered events s) :
    s.historicalIntegrationOutcomes =
      (integrations done).map fun finished => .obj (outcomeFields finished) := by
  have hmapped := hentered.outcomes
  rw [h.integrations_eq,
    mapM_map_ok (k := fun finished => .obj (outcomeFields finished))] at hmapped
  · exact (Except.ok.inj hmapped).symm
  · intro finished hmem
    obtain ⟨hmem, hworkflow⟩ := mem_integrations hmem
    obtain ⟨current, hfinishes⟩ := h.finishes.mem hmem
    exact hfinishes.outcome (hfinishes.integrates hworkflow)

theorem Replays.workflow_of_mem (h : Replays P L events) {event : LedgerEvent}
    (hmem : event ∈ events) : workflowOf events event.transactionId = some event.workflowType := by
  induction h with
  | nil => cases hmem
  | @snoc events last prior record follows ih =>
      rw [workflowOf_snoc]
      rcases List.mem_append.mp hmem with hmem | hmem
      · rw [ih hmem]
        rfl
      · obtain rfl := List.mem_singleton.mp hmem
        rw [if_pos rfl]
        cases hknown : workflowOf events event.transactionId with
        | none => rfl
        | some known => rw [Option.some_or, follows.workflow known hknown]

/-- The entry of a completed transaction. -/
structure ShowsFinished (finished : FinishedTransaction) (view : TransactionView) : Prop where
  completion : ShowsCompletion finished.event view
  transactionId : view.transactionId = finished.event.transactionId
  featureId : view.featureId = finished.recordedFeature
  workflow : view.workflowType = finished.workflow

theorem SerialLedger.view (h : SerialLedger P branch start events done)
    (hreplays : Replays P L events) (hentered : Entered events s) (hfolded : Folded events s)
    (hmem : finished ∈ done) :
    ∃ view, s.transactions.get? finished.event.transactionId = some view ∧
      ShowsFinished finished view := by
  have hevent := h.mem_events hmem
  obtain ⟨current, hfinishes⟩ := h.finishes.mem hmem
  obtain ⟨earlier, later, hsplit⟩ := List.append_of_mem hevent
  have hclosed := h.closed
  rw [hsplit, List.pairwise_append] at hclosed
  have hlater := (List.pairwise_cons.mp hclosed.2.1).1
  obtain ⟨view, hview, hshows⟩ := hentered.completed earlier finished.event later hsplit
    hfinishes.recorded.eventType
    fun other hother => hlater other hother hfinishes.recorded.eventType
  obtain ⟨hid, hfeature, -⟩ := hfolded.views _ _ hview
  refine ⟨view, hview, hshows, hid, hfeature.trans (h.feature finished hmem), ?_⟩
  have hworkflow := hreplays.workflow_of_mem hevent
  rw [hentered.workflow _ _ hview] at hworkflow
  exact (Option.some.inj hworkflow).trans hfinishes.recorded.workflowType

/-- The last start is the one of the last completed transaction. -/
theorem EndsOnMilestone.last_start (h : EndsOnMilestone branch events done last)
    (hledger : SerialLedger P branch start events done) (hbegun : Begun events) :
    ((events.filter fun event => event.eventType = transactionStarted).map
      fun event => event.transactionId).getLast? = some last.event.transactionId := by
  have hmem : last ∈ done := List.mem_of_getLast? h.getLast
  have hevent := hledger.mem_events hmem
  obtain ⟨current, hfinishes⟩ := hledger.finishes.mem hmem
  have hkind : last.event.eventType = transactionCompleted := hfinishes.recorded.eventType
  obtain ⟨earlier, later, hsplit⟩ := List.append_of_mem hevent
  have hended := h.ended
  rw [hsplit, List.pairwise_append] at hended
  have hlater : ∀ other ∈ later, other.eventType ≠ transactionStarted := fun other hother =>
    (List.pairwise_cons.mp hended.2.1).1 other hother rfl
  have hhistory : historyOf events last.event.transactionId ≠ [] := by
    rw [ne_eq, historyOf_eq_nil]
    exact fun hnone => hnone last.event hevent rfl
  obtain ⟨started, hstarted, hid, hstart⟩ := mem_historyOf.mp (hbegun.mem hhistory)
  have hearlier : started ∈ earlier := by
    rw [hsplit] at hstarted
    rcases List.mem_append.mp hstarted with hstarted | hstarted
    · exact hstarted
    · rcases List.mem_cons.mp hstarted with rfl | hstarted
      · rw [hkind] at hstart
        cases hstart
      · exact absurd hstart (hlater started hstarted)
  obtain ⟨before, middle, hbefore⟩ := List.append_of_mem hearlier
  -- the transaction completes once, so what lies between is before its completion
  have hmiddle : ∀ other ∈ middle, completes started.transactionId other = false := by
    intro other hother
    by_contra hcompletes
    simp only [completes, Bool.not_eq_false, Bool.and_eq_true, decide_eq_true_eq] at hcompletes
    have hclosed := hledger.closed
    rw [hsplit, hbefore, List.pairwise_append] at hclosed
    have hafter := hclosed.2.2 other (by simp [hother]) last.event List.mem_cons_self
      hcompletes.1 (hid.symm.trans hcompletes.2.symm)
    rw [hkind] at hafter
    exact absurd hafter (by decide)
  have halone := hledger.serial (started :: middle ++ last.event :: later)
    ((List.mem_tails _ _).mpr ⟨before, by rw [hsplit, hbefore]; simp⟩)
  have hlast : completes started.transactionId last.event = true := by
    simp [completes, hkind, hid]
  have hany : (middle ++ last.event :: later).any (completes started.transactionId) = true := by
    simp [hlast]
  have htake : (middle ++ last.event :: later).takeWhile
      (fun other => !completes started.transactionId other) = middle := by
    rw [List.takeWhile_append_of_pos fun other hother => by simp [hmiddle other hother]]
    simp [hlast]
  have hquiet : ∀ other ∈ middle, other.eventType ≠ transactionStarted := by
    rw [List.cons_append, runsAlone, hany, htake] at halone
    simpa [hstart] using halone
  have hfilter : events.filter (fun event => event.eventType = transactionStarted) =
      before.filter (fun event => event.eventType = transactionStarted) ++ [started] := by
    have hnone (items : List LedgerEvent)
        (hitems : ∀ other ∈ items, other.eventType ≠ transactionStarted) :
        items.filter (fun event => event.eventType = transactionStarted) = [] := by
      rw [List.filter_eq_nil_iff]
      exact fun other hother => by simpa using hitems other hother
    rw [hsplit, hbefore, List.filter_append, List.filter_append, List.filter_cons_of_pos (by simpa),
      hnone middle hquiet, List.filter_cons_of_neg (by simp [hkind]), hnone later hlater,
      List.append_nil]
  rw [hfilter, List.map_append, List.getLast?_append]
  simp [hid]

/-- The last entry is the one of the last completed transaction. -/
theorem EndsOnMilestone.last_entry (h : EndsOnMilestone branch events done last)
    (hledger : SerialLedger P branch start events done) (hbegun : Begun events)
    (hentered : Entered events s) (hfolded : Folded events s) {view : TransactionView}
    (hview : s.transactions.get? last.event.transactionId = some view) :
    (s.transactions.map Prod.snd).getLast? = some view := by
  have hkeys := h.last_start hledger hbegun
  rw [← hentered.order, Dict.keys, List.getLast?_map] at hkeys
  obtain ⟨⟨id, found⟩, hfound, hid⟩ := Option.map_eq_some_iff.mp hkeys
  change id = _ at hid
  subst hid
  have hget := Dict.get?_of_mem hfolded.distinct (List.mem_of_getLast? hfound)
  rw [hget] at hview
  rw [List.getLast?_map, hfound, ← Option.some.inj hview]
  rfl

end Ledgers

end Conveyor
