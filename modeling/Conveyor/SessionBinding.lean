import Conveyor.IntegratedFeatures
import Conveyor.KernelReturns

/-!
# Session bindings

Three records name the session a transaction runs: the last of the kernel's `session_ids`, the
lease, and the ledger, from which `restore` rebuilds the list (`kernel.py`, `workflow_lease.py`).
`session_launched` writes all three, the list without repeating an entry. `session_bound_iff` says
after which of the calls the three agree.
-/

namespace Conveyor

open Library EventType KernelCall

namespace SessionBinding

open WorkflowKernel

/-! ### What a launch writes -/

/-- `if session_id not in transaction.session_ids: transaction.session_ids.append(session_id)`. -/
def listed (sessionIds : List String) (sessionId : String) : List String :=
  if sessionId ∈ sessionIds then sessionIds else sessionIds ++ [sessionId]

/-- The world after the lease is bound and the transaction waits for the session's result. -/
def bound (e : Environment) (w : World) (transaction : PhaseTransaction)
    (record : WorkflowLeaseRecord) (sessionId : String) : World :=
  { w with
    clock := w.clock + 3
    lease := some { record with
      sessionId := some sessionId, lastHeartbeat := (e.drawn (w.clock + 2)).utcNow }
    kernel := { w.kernel with transaction := some { transaction with
      sessionIds := listed transaction.sessionIds sessionId, currentState := .resultPending } } }

def launchRequest (transaction : PhaseTransaction) (sessionId : String) : AppendRequest where
  eventType := EventType.sessionLaunched
  transactionId := transaction.transactionId
  workflowType := transaction.workflowType
  payload := [("session_id", .str sessionId)]

/-- The world after a launch. -/
def launched (e : Environment) (w : World) (transaction : PhaseTransaction)
    (record : WorkflowLeaseRecord) (sessionId : String) : World :=
  let w := bound e w transaction record sessionId
  ((w.push (builtEvent e w (launchRequest transaction sessionId))).tick).tick

variable {e : Environment} {w t : World} {transaction : PhaseTransaction}
  {record : WorkflowLeaseRecord} {sessionId : String}

/-- What a launch that returns found. -/
structure Launches (e : Environment) (w : World) (transaction : PhaseTransaction)
    (record : WorkflowLeaseRecord) (sessionId : String) : Prop where
  begun : w.kernel.transaction = some transaction
  held : w.lease = some record
  owned : revalidate e.site.resolve e.process (leaseExpectation e.project transaction) record =
    .ok ()
  paths : Inspector.firstProblem e (w.clock + 1) transaction.allowedMutationPolicy.allowedPaths =
    none
  running : transaction.currentState = .active ∨ transaction.currentState = .resultPending
  checked : checkUncached e (bound e w transaction record sessionId) = .ok ()
  admitted : validateAppend w.events (builtEvent e (bound e w transaction record sessionId)
    (launchRequest transaction sessionId)) = .ok ()

/-- The arguments of `bind_session`. -/
def bindExpectation (transaction : PhaseTransaction) : LeaseExpectation where
  transactionId := transaction.transactionId
  workflowType := transaction.workflowType
  repositoryIdentity := transaction.repositoryIdentity
  projectId := transaction.projectId

/-- `bind_session` checks less than `_revalidate_lease`. -/
theorem bind_owned {project : Project} {resolve : String → String} {caller : ProcessIdentity}
    (h : revalidate resolve caller (leaseExpectation project transaction) record = .ok ()) :
    revalidate resolve caller (bindExpectation transaction) record = .ok () := by
  rw [revalidate, require_eq_ok, List.map_eq_nil_iff, List.filter_eq_nil_iff] at h ⊢
  simp only [revalidateChecks, leaseExpectation, bindExpectation, List.forall_mem_cons,
    Option.map_none, Option.getD_none, Option.getD_some] at h ⊢
  obtain ⟨h1, h2, h3, h4, h5, -, -, -, -, -, -, -, -, -, -, howner⟩ := h
  have hfree {α : Type} [DecidableEq α] (value : α) : ¬(!givenIs none value) = true := by
    simp [givenIs]
  exact ⟨h1, h2, h3, h4, h5, hfree _, hfree _, hfree _, hfree _, hfree _, hfree _, hfree _,
    hfree _, hfree _, hfree _, howner⟩

theorem resultPending_of_running
    (h : transaction.currentState = .active ∨ transaction.currentState = .resultPending) :
    transaction.transition .resultPending =
      .ok { transaction with currentState := .resultPending } := by
  unfold PhaseTransaction.transition
  rcases h with hactive | hpending
  · rw [if_neg (by rw [hactive]; decide), hactive]
    rfl
  · rw [if_pos hpending.symm, ← hpending]

/-- A launch returns exactly when its checks pass, and this is what it leaves. -/
theorem returns_sessionLaunched :
    (WorkflowKernel.sessionLaunched sessionId).Returns e w () t ↔
      (∀ n < 5, e.fault (w.clock + n) = .none) ∧
        ∃ transaction record, Launches e w transaction record sessionId ∧
          t = launched e w transaction record sessionId := by
  constructor
  · intro h0
    unfold WorkflowKernel.sessionLaunched at h0
    obtain ⟨transaction, _, htransaction, h1⟩ := Call.returns_bind.mp h0
    obtain ⟨hbegun, rfl⟩ := returns_requireTransaction.mp htransaction
    obtain ⟨record, _, hlease, h2⟩ := Call.returns_bind.mp h1
    obtain ⟨transaction', hbegun', hfault0, hheld, howned, rfl⟩ := returns_revalidateLease.mp hlease
    obtain rfl := Option.some.inj (hbegun.symm.trans hbegun')
    obtain ⟨_, _, hpaths, h3⟩ := Call.returns_bind.mp h2
    obtain ⟨hfault1, hclear, rfl⟩ := returns_validateMutationPaths.mp hpaths
    obtain ⟨_, _, hrunning, h4⟩ := Call.returns_bind.mp h3
    obtain ⟨hopen, rfl⟩ := Call.returns_check.mp hrunning
    obtain ⟨_, _, hbind, h5⟩ := Call.returns_bind.mp h4
    obtain ⟨hfault2, record', hheld', -, rfl⟩ := returns_bindSession.mp hbind
    obtain rfl : record = record' := Option.some.inj (hheld.symm.trans hheld')
    obtain ⟨_, _, hset, h6⟩ := Call.returns_bind.mp h5
    obtain rfl := returns_setTransaction.mp hset
    obtain ⟨_, _, hmove, h7⟩ := Call.returns_bind.mp h6
    obtain ⟨_, moved, ⟨⟩, hmoved, rfl⟩ := returns_transition.mp hmove
    obtain rfl := PhaseTransaction.transition_eq_ok hmoved
    obtain ⟨_, _, hrecord, h8⟩ := Call.returns_bind.mp h7
    obtain ⟨_, ⟨⟩, hrecord⟩ := returns_record.mp hrecord
    obtain ⟨hfault3, hchecked, hadmitted, rfl⟩ := returns_appendLedger.mp hrecord
    obtain ⟨hfault4, rfl⟩ := returns_interrupt.mp h8
    refine ⟨fun n hn => ?_, transaction, record, ?_, rfl⟩
    · match n with
      | 0 => exact hfault0
      | 1 => exact hfault1
      | 2 => exact hfault2
      | 3 => exact hfault3
      | 4 => exact hfault4
    · exact ⟨hbegun, hheld, howned, hclear, hopen, hchecked, hadmitted⟩
  · rintro ⟨hfault, transaction, record, h, rfl⟩
    unfold WorkflowKernel.sessionLaunched
    have hmoved : PhaseTransaction.transition { transaction with
        sessionIds := listed transaction.sessionIds sessionId } .resultPending = .ok _ :=
      resultPending_of_running h.running
    refine Call.returns_bind.mpr ⟨transaction, w,
      returns_requireTransaction.mpr ⟨h.begun, rfl⟩, ?_⟩
    refine Call.returns_bind.mpr ⟨record, w.tick, returns_revalidateLease.mpr
      ⟨transaction, h.begun, hfault 0 (by decide), h.held, h.owned, rfl⟩, ?_⟩
    refine Call.returns_bind.mpr ⟨(), w.tick.tick, returns_validateMutationPaths.mpr
      ⟨hfault 1 (by decide), h.paths, rfl⟩, ?_⟩
    refine Call.returns_bind.mpr ⟨(), w.tick.tick, Call.returns_check.mpr ⟨h.running, rfl⟩, ?_⟩
    refine Call.returns_bind.mpr ⟨(), _, returns_bindSession.mpr
      ⟨hfault 2 (by decide), record, h.held, bind_owned h.owned, rfl⟩, ?_⟩
    refine Call.returns_bind.mpr ⟨(), _, returns_setTransaction.mpr rfl, ?_⟩
    refine Call.returns_bind.mpr ⟨(), _, returns_transition.mpr ⟨_, _, rfl, hmoved, rfl⟩, ?_⟩
    refine Call.returns_bind.mpr ⟨(), _, returns_record.mpr ⟨_, rfl, returns_appendLedger.mpr
      ⟨hfault 3 (by decide), h.checked, h.admitted, rfl⟩⟩, ?_⟩
    exact returns_interrupt.mpr ⟨hfault 4 (by decide), rfl⟩

/-! ### The three records -/

/-- The sessions of a transaction that `restore` finds in the ledger. -/
def restoredSessions (events : List LedgerEvent) (transactionId : String) : List String :=
  launchedSessions (transactionEvents events transactionId)

theorem sessionIds_of_withRecordedState {events : List LedgerEvent} {restored : PhaseTransaction}
    (h : withRecordedState events transaction = .ok restored) :
    restored.sessionIds = transaction.sessionIds := by
  unfold withRecordedState at h
  split at h
  · simp only [bind_eq_ok, pure, Except.pure, Except.ok.injEq] at h
    obtain ⟨_, _, _, _, _, _, rfl⟩ := h
    rfl
  · simp only [bind_eq_ok, pure, Except.pure, Except.ok.injEq] at h
    obtain ⟨_, _, rfl⟩ := h
    rfl

theorem sessionIds_of_restoredTransaction {P : Platform} {projectId : String} {L : LedgerIdentity}
    {start : LedgerEvent} {events : List LedgerEvent} {restored : PhaseTransaction}
    (h : restoredTransaction P projectId L start events = .ok restored) :
    restored.sessionIds = launchedSessions events := by
  simp only [restoredTransaction, bind_eq_ok] at h
  obtain ⟨_, _, _, _, _, _, _, _, _, _, _, _, _, _, _, _, _, _, _, _, h⟩ := h
  exact sessionIds_of_withRecordedState h

theorem transaction_of_restoredKernel {accepts : Json → Bool} {P : Platform} {projectId : String}
    {L : LedgerIdentity} {kernel restored : Kernel} {events : List LedgerEvent}
    {transactionId : String}
    (h : restoredKernel accepts P projectId L kernel events transactionId = .ok restored) :
    ∃ transaction, restored.transaction = some transaction ∧
      transaction.sessionIds = restoredSessions events transactionId := by
  unfold restoredKernel at h
  dsimp only at h
  split at h
  · cases h
  · obtain ⟨-, h⟩ := require_bind_eq_ok.mp h
    obtain ⟨transaction, htransaction, h⟩ := bind_eq_ok.mp h
    refine ⟨transaction, ?_, sessionIds_of_restoredTransaction htransaction⟩
    simp only [bind_eq_ok] at h
    obtain ⟨_, _, _, _, _, _, h⟩ := h
    split at h <;> simp only [bind_eq_ok] at h <;> obtain ⟨_, _, h⟩ := h <;> split at h <;>
      simp only [bind_eq_ok, pure, Except.pure, Except.ok.injEq] at h <;>
      obtain ⟨_, _, rfl⟩ := h <;> rfl

/-- A restored transaction has the sessions that the ledger has launched for it. -/
theorem sessionIds_of_restore {accepts : Json → Bool} {transactionId : String}
    (h : (restore accepts transactionId).Returns e w transaction t) :
    transaction.sessionIds = restoredSessions w.events transactionId := by
  unfold restore at h
  obtain ⟨events, _, hread, h1⟩ := Call.returns_bind.mp h
  obtain ⟨rfl, rfl⟩ := events_of_readLedger hread
  obtain ⟨kernel, _, hmemory, h2⟩ := Call.returns_bind.mp h1
  obtain ⟨rfl, rfl⟩ := returns_memory.mp hmemory
  obtain ⟨restored, _, hreads, h3⟩ := Call.returns_bind.mp h2
  obtain ⟨hrestored, rfl⟩ := Call.returns_reads.mp hreads
  obtain ⟨_, _, hremember, h4⟩ := Call.returns_bind.mp h3
  obtain rfl := returns_remember.mp hremember
  obtain ⟨hbegun, rfl⟩ := returns_requireTransaction.mp h4
  obtain ⟨found, hfound, hsessions⟩ := transaction_of_restoredKernel hrestored
  obtain rfl := Option.some.inj (hfound.symm.trans hbegun)
  exact hsessions

/-- The kernel, its lease and a kernel restored from the ledger name the same session. -/
def SessionAgrees (w : World) : Prop :=
  ∃ transaction record, w.kernel.transaction = some transaction ∧ w.lease = some record ∧
    transaction.sessionIds.getLast? = record.sessionId ∧
    (restoredSessions w.events transaction.transactionId).getLast? = record.sessionId

/-- The session is new to the transaction or already its last one, and the ledger keeps its
    name. -/
def Bindable (P : Platform) (transaction : PhaseTransaction) (sessionId : String) : Prop :=
  (sessionId ∉ transaction.sessionIds ∨ transaction.sessionIds.getLast? = some sessionId) ∧
    sessionId ≠ "" ∧ redactText P sessionId = sessionId

theorem getLast?_listed {sessionIds : List String} :
    (listed sessionIds sessionId).getLast? = some sessionId ↔
      sessionId ∉ sessionIds ∨ sessionIds.getLast? = some sessionId := by
  unfold listed
  split
  · rename_i hmem
    simp [hmem]
  · rename_i hnew
    simp [hnew]

/-- The session that an event of a launch records. -/
theorem restoredSessions_launched {events : List LedgerEvent} {event : LedgerEvent}
    (hkind : event.eventType = EventType.sessionLaunched)
    (hpayload : event.payload = [("session_id", .str (redactText e.platform sessionId))]) :
    (restoredSessions (events ++ [event]) event.transactionId).getLast? = some sessionId ↔
      sessionId ≠ "" ∧ redactText e.platform sessionId = sessionId := by
  have hevents : transactionEvents (events ++ [event]) event.transactionId =
      transactionEvents events event.transactionId ++ [event] := by
    simp [transactionEvents]
  have hpresent : some "" ≠ (launchedSessions (transactionEvents events
      event.transactionId)).getLast? := by
    intro hlast
    obtain ⟨found, -, hfound⟩ := List.mem_filterMap.mp (List.mem_of_getLast? hlast.symm)
    split at hfound
    · split at hfound
      · cases hfound
      · rename_i hne
        exact hne (Option.some.inj hfound)
    · cases hfound
  unfold restoredSessions
  rw [hevents, launchedSessions, List.filter_append, List.filterMap_append,
    List.filter_singleton, decide_eq_true hkind]
  change (launchedSessions _ ++ _).getLast? = _ ↔ _
  by_cases hempty : sessionId = ""
  · subst hempty
    have hkept : redactText e.platform "" = "" :=
      redactText_eq_self_of_hex e.platform (by simp)
    simpa [hpayload, Fields.get, Fields.get?, hkept] using hpresent.symm
  · have hkept := redactText_ne_empty e.platform hempty
    simp [hpayload, Fields.get, Fields.get?, hkept, hempty]

theorem agrees_launched :
    SessionAgrees (launched e w transaction record sessionId) ↔
      Bindable e.platform transaction sessionId := by
  let event := builtEvent e (bound e w transaction record sessionId)
    (launchRequest transaction sessionId)
  have hplain : isSensitiveKey e.platform "session_id" = false :=
    isSensitiveKey_of_ascii e.platform (by decide) (by decide)
  have hpayload : event.payload = [("session_id", .str (redactText e.platform sessionId))] := by
    simp [event, launchRequest, redactFields, redactValue, hplain]
  have hrestored : (restoredSessions (w.events ++ [event]) event.transactionId).getLast? =
      some sessionId ↔ sessionId ≠ "" ∧ redactText e.platform sessionId = sessionId :=
    restoredSessions_launched rfl hpayload
  unfold SessionAgrees Bindable
  rw [← getLast?_listed, ← hrestored]
  constructor
  · rintro ⟨_, _, ⟨⟩, ⟨⟩, hkernel, hledger⟩
    exact ⟨hkernel, hledger⟩
  · rintro ⟨hkernel, hledger⟩
    exact ⟨_, _, rfl, rfl, hkernel, hledger⟩

/-! ### Sequences of launches -/

/-- A call of `session_launched` that returned, with the worlds before and after it. -/
structure Launch where
  before : World
  sessionId : String
  after : World

/-- The calls of a sequence that returned. A call that raised is followed by the next one, a
    process that died makes no further call. -/
def successful (e : Environment) : World → List String → List Launch
  | _, [] => []
  | w, sessionId :: rest =>
      match WorkflowKernel.sessionLaunched sessionId e w with
      | (.returned _, t) => ⟨w, sessionId, t⟩ :: successful e t rest
      | (.raised _, t) => successful e t rest
      | (.died, _) => []

theorem returns_of_successful {sessionIds : List String} {launch : Launch}
    (h : launch ∈ successful e w sessionIds) :
    (WorkflowKernel.sessionLaunched launch.sessionId).Returns e launch.before () launch.after := by
  induction sessionIds generalizing w with
  | nil => cases h
  | cons sessionId rest ih =>
      unfold successful at h
      split at h
      · rename_i t hcall
        rcases List.mem_cons.mp h with rfl | h
        · exact hcall
        · exact ih h
      · exact ih h
      · cases h

/-- In every sequence of launches, kernel, lease and ledger name the same session after each
    launch that returned exactly when each of them binds a session that is new or the last one,
    under a name that redaction keeps. What `restore` reads from a ledger are its launches. -/
theorem session_bound_iff (e : Environment) (w : World) (sessionIds : List String) :
    ((∀ launch ∈ successful e w sessionIds, SessionAgrees launch.after) ↔
      ∀ launch ∈ successful e w sessionIds, ∀ transaction,
        launch.before.kernel.transaction = some transaction →
          Bindable e.platform transaction launch.sessionId) ∧
    ∀ accepts transactionId restored found t,
      (restore accepts transactionId).Returns e found restored t →
        restored.sessionIds = restoredSessions found.events transactionId := by
  refine ⟨forall₂_congr fun launch hlaunch => ?_, fun _ _ _ _ _ h => sessionIds_of_restore h⟩
  obtain ⟨-, transaction, record, h, hafter⟩ :=
    returns_sessionLaunched.mp (returns_of_successful hlaunch)
  rw [hafter, agrees_launched]
  constructor
  · intro hbindable transaction' hbegun
    obtain rfl := Option.some.inj (h.begun.symm.trans hbegun)
    exact hbindable
  · intro hbindable
    exact hbindable transaction h.begun

/-! ### A repair that returns to its first session -/

/-- The sample process, whose appends trust their cache. -/
def repairProcess : Environment := { sampleProcess with cached := fun _ => true }

def repairPolicy : MutationPolicy where
  allowedPaths := ["README.md"]

def repairTransaction (sessionIds : List String) (state : TransactionState) :
    PhaseTransaction where
  transactionId := "transaction-1"
  workflowType := .featureExecution
  projectId := "project"
  repositoryIdentity := sampleIdentity.repositoryIdentity
  repositoryPathFingerprint := sampleIdentity.repositoryPathFingerprint
  milestone := some "M001"
  featureId := some "F001"
  runId := "run-1"
  sessionIds := sessionIds
  startingBranch := "feature/F001"
  startingHead := sampleHead
  startingQueueFingerprint := none
  startingTrackedDiffFingerprint := ""
  startingUntrackedFingerprint := ""
  allowedMutationPolicy := repairPolicy
  leaseIdentity := some "lease-1"
  currentState := state

def repairLease (sessionId : Option String) : WorkflowLeaseRecord where
  leaseId := "lease-1"
  leaseType := WORKFLOW_LEASE .featureExecution
  repositoryIdentity := sampleIdentity.repositoryIdentity
  repositoryPathFingerprint := sampleIdentity.repositoryPathFingerprint
  repositoryPath := "/repository"
  projectId := "project"
  controllerProjectId := none
  adapterProjectId := none
  transactionId := "transaction-1"
  workflowType := .featureExecution
  milestone := some "M001"
  featureId := some "F001"
  featureBranch := none
  acceptedCommit := none
  startingBranch := "feature/F001"
  startingHead := sampleHead
  runId := "run-1"
  sessionId := sessionId
  ownerPid := 100
  ownerProcessStart := "Thu Jan  1 00:00:00 2026"
  ownerHost := "host"
  createdAt := "2026-01-01T00:00:00+00:00"
  lastHeartbeat := "2026-01-01T00:00:00+00:00"
  allowedMutations := repairPolicy.toFields

def repairEntry (eventId : String) (kind : EventType) (payload : Fields) : LedgerEntry :=
  ⟨eventId, kind, "transaction-1", .featureExecution, payload⟩

/-- What `begin` has recorded. -/
def begunEntries : List LedgerEntry :=
  [repairEntry "u" transactionStarted (Fields.ofPairs
     [("run_id", .str "run-1"), ("milestone", .str "M001"), ("feature_id", .str "F001"),
      ("starting_branch", .str "feature/F001"), ("starting_head", .str sampleHead),
      ("allowed_mutation_policy", .obj repairPolicy.toFields)]),
   repairEntry "ua" leaseAcquired
     (Fields.ofPairs [("lease_id", .str "lease-1"), ("lease_type", .str "feature-execution")]),
   repairEntry "uaa" snapshotCaptured [("snapshot", .obj [])]]

def launchEntry (time : Nat) (sessionId : String) : LedgerEntry :=
  repairEntry (repairProcess.drawn time).uuid4 EventType.sessionLaunched
    [("session_id", .str sessionId)]

def repairWorld (time : Nat) (entries : List LedgerEntry) (sessionIds : List String)
    (state : TransactionState) : World :=
  { sampleFiles.world with
    clock := time
    events := ledgerOf Platform.reference sampleIdentity entries
    lease := some (repairLease sessionIds.getLast?)
    kernel := { transaction := some (repairTransaction sessionIds state) } }

set_option maxRecDepth 100000 in
theorem begunEntries_checked : EntriesValid begunEntries ∧ EntriesAppend begunEntries
    [launchEntry 6 "first", launchEntry 11 "second", launchEntry 16 "first"] :=
  ⟨by decide +kernel, by decide +kernel⟩

theorem repairLease_owned (sessionIds : List String) (state : TransactionState) :
    revalidate repairProcess.site.resolve repairProcess.process
      (leaseExpectation repairProcess.project (repairTransaction sessionIds state))
      (repairLease sessionIds.getLast?) = .ok () := by
  have hsame {α : Type} [DecidableEq α] (value : α) : ¬(!decide (value = value)) = true := by simp
  have hgiven {α : Type} [DecidableEq α] (value : α) :
      ¬(!givenIs (some value) value) = true := by simp [givenIs]
  rw [revalidate, require_eq_ok, List.map_eq_nil_iff, List.filter_eq_nil_iff]
  simp only [revalidateChecks, List.forall_mem_cons]
  exact ⟨hsame _, hsame _, hsame _, hsame _, hsame _, hgiven _, hgiven _, hgiven _, hgiven _,
    hgiven _, hgiven _, hgiven _, hgiven _, hgiven _, hgiven _, hsame _, hsame _, hsame _,
    List.forall_mem_nil _⟩

theorem repairEvent {time : Nat} {entries : List LedgerEntry} {sessionIds : List String}
    {state : TransactionState} (hkept : redactText Platform.reference sessionId = sessionId) :
    builtEvent repairProcess (bound repairProcess
        (repairWorld time entries sessionIds state) (repairTransaction sessionIds state)
        (repairLease sessionIds.getLast?) sessionId)
      (launchRequest (repairTransaction sessionIds state) sessionId) =
        (launchEntry (time + 3) sessionId).event Platform.reference sampleIdentity
          (ledgerOf Platform.reference sampleIdentity entries) := by
  have hplain : isSensitiveKey repairProcess.platform "session_id" = false :=
    isSensitiveKey_of_ascii _ (by decide) (by decide)
  have hpayload : redactFields repairProcess.platform [("session_id", .str sessionId)] =
      [("session_id", .str sessionId)] := by
    simp only [redactFields, redactValue, hplain]
    exact congrArg (fun text => [("session_id", Json.str text)]) hkept
  rw [builtEvent, newEvent, LedgerEntry.event, chainEvent]
  simp only [launchRequest, hpayload]
  rfl

theorem repairLaunch {time : Nat} {entries : List LedgerEntry} {sessionIds : List String}
    {state : TransactionState} (hstate : state = .active ∨ state = .resultPending)
    (h : EntryAppends entries (launchEntry (time + 3) sessionId))
    (hkept : redactText Platform.reference sessionId = sessionId) :
    Launches repairProcess (repairWorld time entries sessionIds state)
      (repairTransaction sessionIds state) (repairLease sessionIds.getLast?) sessionId := by
  refine
    { begun := rfl, held := rfl, owned := repairLease_owned sessionIds state, paths := rfl
      running := hstate, checked := rfl, admitted := ?_ }
  rw [repairEvent hkept]
  exact validateAppend_eq_ok.mpr (admitted_entry h)

/-- A new session leaves such a world. -/
theorem repairWorld_launched {time : Nat} {entries : List LedgerEntry} {sessionIds : List String}
    {state : TransactionState} (hnew : sessionId ∉ sessionIds)
    (hkept : redactText Platform.reference sessionId = sessionId) :
    launched repairProcess (repairWorld time entries sessionIds state)
        (repairTransaction sessionIds state) (repairLease sessionIds.getLast?) sessionId =
      repairWorld (time + 5) (entries ++ [launchEntry (time + 3) sessionId])
        (sessionIds ++ [sessionId]) .resultPending := by
  have hlisted : listed sessionIds sessionId = sessionIds ++ [sessionId] := if_neg hnew
  have hafter : repairWorld (time + 5) (entries ++ [launchEntry (time + 3) sessionId])
      (sessionIds ++ [sessionId]) .resultPending =
        { sampleFiles.world with
          clock := time + 5
          events := ledgerOf Platform.reference sampleIdentity entries ++
            [(launchEntry (time + 3) sessionId).event Platform.reference sampleIdentity
              (ledgerOf Platform.reference sampleIdentity entries)]
          lease := some (repairLease (some sessionId))
          kernel :=
            { transaction :=
                some (repairTransaction (sessionIds ++ [sessionId]) .resultPending) } } := by
    rw [repairWorld, ledgerOf_snoc, List.getLast?_concat]
  rw [launched, repairEvent hkept, hafter, ← hlisted]
  rfl

theorem successful_launches {rest : List String} (hfault : ∀ time, e.fault time = .none)
    (h : Launches e w transaction record sessionId) :
    successful e w (sessionId :: rest) =
      ⟨w, sessionId, launched e w transaction record sessionId⟩ ::
        successful e (launched e w transaction record sessionId) rest := by
  have hreturns : (WorkflowKernel.sessionLaunched sessionId).Returns e w ()
      (launched e w transaction record sessionId) :=
    returns_sessionLaunched.mpr ⟨fun _ _ => hfault _, transaction, record, h, rfl⟩
  rw [successful, hreturns]

/-- A transaction launches a session, another one, and the first one again: the lease names the
    first, the kernel the second. -/
theorem returning_session_unbound :
    ∃ e w, Valid e.platform e.identity w.events ∧
      ∃ launch ∈ successful e w ["first", "second", "first"], ¬SessionAgrees launch.after := by
  have hfirst : redactText Platform.reference "first" = "first" :=
    redactText_eq_self_of_wordless _ (by decide +kernel)
  have hsecond : redactText Platform.reference "second" = "second" :=
    redactText_eq_self_of_wordless _ (by decide +kernel)
  obtain ⟨hvalid, happend1, happend2, happend3, -⟩ := begunEntries_checked
  have h1 : Launches repairProcess (repairWorld 3 begunEntries [] .active) _ _ "first" :=
    repairLaunch (.inl rfl) happend1 hfirst
  have h2 : Launches repairProcess (repairWorld 8 _ ["first"] .resultPending) _ _ "second" :=
    repairLaunch (.inr rfl) happend2 hsecond
  let repaired := repairWorld 13 (begunEntries ++ [launchEntry 6 "first"] ++
    [launchEntry 11 "second"]) ["first", "second"] .resultPending
  have h3 : Launches repairProcess repaired _ _ "first" := repairLaunch (.inr rfl) happend3 hfirst
  have hnext1 : launched repairProcess (repairWorld 3 begunEntries [] .active) _ _ "first" =
      repairWorld 8 _ ["first"] .resultPending := repairWorld_launched (by decide) hfirst
  have hnext2 : launched repairProcess (repairWorld 8 _ ["first"] .resultPending) _ _ "second" =
      repaired := repairWorld_launched (by decide) hsecond
  refine ⟨repairProcess, repairWorld 3 begunEntries [] .active,
    valid_ledgerOf sampleIdentity_ok hvalid, ⟨repaired, "first", launched repairProcess repaired
      (repairTransaction ["first", "second"] .resultPending) (repairLease (some "second")) "first"⟩,
    ?_, fun hagrees => ?_⟩
  · rw [successful_launches (fun _ => rfl) h1, hnext1, successful_launches (fun _ => rfl) h2,
      hnext2]
    refine List.mem_cons_of_mem _ (List.mem_cons_of_mem _ ?_)
    exact successful_launches (fun _ => rfl) h3 ▸ List.mem_cons_self
  · have hbound := (agrees_launched.mp hagrees).1
    exact absurd hbound (by decide)

end SessionBinding

end Conveyor
