import Conveyor.LegacyTransition
import Conveyor.ProjectionFold

/-!
# Transitions of a project

`_transition_project` of `cycle_engine.py` for a move that no kernel owns: the machine of the
project states accepts it, the caller's document is updated, and the legacy adapter writes the
document inside its transaction. `transitionProject_runs` says what such a call leaves when its
transaction is new: nothing, an open transaction, or a completed one with the document written.
-/

namespace Conveyor

open Library EventType KernelCall LegacyAdapter

/-- The arguments of `_transition_project`, with the project's active milestone. -/
structure ProjectCall where
  document : Fields
  target : String
  runId : String
  checkpoint : String
  milestone : Option String
  feature : Option String := none
  stopReason : Option String := none
  humanGate : Json := .null
  stateEvidence : Json := .null

namespace ProjectCall

variable (call : ProjectCall)

/-- `document["current_state"]`. -/
def currentState : Result String :=
  match call.document.get? "current_state" with
  | none => .error ⟨.keyError, "'current_state'"⟩
  | some (.str state) => .ok state
  | some _ => .error ⟨.invalidTransition, "unknown current state"⟩

/-- The document of the call. -/
def updated (stamp : String) : Fields :=
  call.document.update
    [("run_id", .str call.runId), ("current_state", .str call.target),
     ("current_feature", .ofOption call.feature), ("last_checkpoint", .str call.checkpoint),
     ("stop_reason", .ofOption call.stopReason), ("human_decision_required", call.humanGate),
     ("state_evidence", call.stateEvidence), ("updated_at", .str stamp)]

def planningEvidence : Json :=
  match call.stateEvidence with
  | .obj fields => Fields.get fields "planning_transaction"
  | _ => .null

/-- The terminal evidence that a recovered planning commit passes on. -/
def terminalEvidence : Option Fields :=
  match call.planningEvidence with
  | .obj planning =>
      if call.checkpoint = "planning_recovery_committed" then some
        [("original_transaction_id", Fields.get planning "original_transaction_id"),
         ("original_run_id", Fields.get planning "run_id"),
         ("original_session_id", Fields.get planning "session_id"),
         ("planning_result_commit", Fields.get planning "planning_result_commit"),
         ("queue_fingerprint", Fields.get planning "queue_fingerprint"),
         ("selected_feature", Fields.get planning "selected_feature"),
         ("selected_feature_starting_commit",
           Fields.get planning "selected_feature_starting_commit"),
         ("recovery_evidence_fingerprint", Fields.get planning "recovery_evidence_fingerprint")]
      else none
  | _ => none

def projectionFacts : Option Fields :=
  call.terminalEvidence.map fun evidence =>
    [("selected_feature_starting_commit", evidence.get "selected_feature_starting_commit")]

def request (transition : Transition) : Request where
  runId := call.runId
  featureId := call.feature
  milestone := call.milestone
  previousState := transition.previous
  nextState := transition.current
  checkpoint := call.checkpoint
  terminalEvidence := call.terminalEvidence
  projectionFacts := call.projectionFacts

/-- The move of the call, if the machine accepts it. -/
def move : Result Transition := do
  let current ← call.currentState
  PORTFOLIO_MACHINE.transition current call.target

/-- `_transition_project` without kernel ownership. The last attempt appends the run event. -/
def run (site : AdapterSite) : AdapterCall Fields := do
  let transition ← Call.reads fun _ _ => call.move
  let stamp ← Call.reads fun e s => .ok (e.drawn s.world.clock).utcNow
  LegacyAdapter.transition site (call.request transition)
    (writePreservingPause site (call.updated stamp))
  onWorld (interrupt "run_event")
  return call.updated stamp

end ProjectCall

/-- A call that returned moved to its target. -/
theorem StateMachine.transition_eq_ok {State : Type} [DecidableEq State]
    {machine : StateMachine State} {current target : String} {transition : Transition}
    (h : machine.transition current target = .ok transition) :
    transition.previous = current ∧ transition.current = target ∧
      ∃ state, machine.ofName? target = some state := by
  unfold StateMachine.transition at h
  cases hcurrent : machine.ofName? current with
  | none => rw [hcurrent] at h; cases h
  | some state =>
      cases htarget : machine.ofName? target with
      | none => rw [hcurrent, htarget] at h; cases h
      | some next =>
          rw [hcurrent, htarget] at h
          simp only at h
          split at h
          · cases h
            exact ⟨rfl, rfl, next, rfl⟩
          · split at h
            · cases h
            · cases h
              exact ⟨rfl, rfl, next, rfl⟩

/-! ### What a transition records -/

namespace LegacyAdapter

/-- The event starts the transaction of the request. -/
def IsStart (P : Platform) (request : Request) (transactionId : String) (event : LedgerEvent) :
    Prop :=
  event.eventType = transactionStarted ∧ event.transactionId = transactionId ∧
    ∃ branch head, event.payload = redactFields P (startedPayload request branch head)

/-- The event is a later one of that transaction. -/
def FollowsStart (P : Platform) (request : Request) (transactionId : String)
    (event : LedgerEvent) : Prop :=
  event.transactionId = transactionId ∧ event.workflowType = request.workflow ∧
    match event.eventType with
    | leaseAcquired | snapshotCaptured | validationStarted | validationPassed | leaseReleased =>
        True
    | transactionCompleted => ∃ branch head clean,
        event.payload = redactFields P (completedPayload request branch head clean)
    | projectionUpdated => event.payload = redactFields P (projectedPayload request)
    | _ => False

/-- The ledger after some of the transaction is on record; `completed` tells whether its
    terminal event is. -/
def Recorded (P : Platform) (request : Request) (transactionId : String) (completed : Prop)
    (before after : List LedgerEvent) : Prop :=
  ∃ start later, after = before ++ start :: later ∧ IsStart P request transactionId start ∧
    (∀ event ∈ later, FollowsStart P request transactionId event) ∧
    (completed ↔ ∃ event ∈ later, event.eventType = transactionCompleted)

section Recording

variable {P : Platform} {request : Request} {transactionId : String} {completed : Prop}
  {before after : List LedgerEvent} {event : LedgerEvent}

theorem recorded_start (h : IsStart P request transactionId event) :
    Recorded P request transactionId False before (before ++ [event]) :=
  ⟨event, [], rfl, h, by simp, by simp⟩

theorem Recorded.snoc (h : Recorded P request transactionId completed before after)
    (hevent : FollowsStart P request transactionId event) :
    Recorded P request transactionId (completed ∨ event.eventType = transactionCompleted) before
      (after ++ [event]) := by
  obtain ⟨start, later, rfl, hstart, hlater, hcompleted⟩ := h
  refine ⟨start, later ++ [event], by simp, hstart, fun other hother => ?_, ?_⟩
  · rcases List.mem_append.mp hother with hearlier | hlast
    · exact hlater other hearlier
    · rw [List.mem_singleton.mp hlast]
      exact hevent
  · rw [hcompleted]
    constructor
    · rintro (⟨other, hother, hkind⟩ | hkind)
      · exact ⟨other, List.mem_append_left _ hother, hkind⟩
      · exact ⟨event, List.mem_append_right _ List.mem_cons_self, hkind⟩
    · rintro ⟨other, hother, hkind⟩
      rcases List.mem_append.mp hother with hearlier | hlast
      · exact Or.inl ⟨other, hearlier, hkind⟩
      · rw [List.mem_singleton.mp hlast] at hkind
        exact Or.inr hkind

theorem Recorded.congr {completed' : Prop}
    (h : Recorded P request transactionId completed before after) (hiff : completed ↔ completed') :
    Recorded P request transactionId completed' before after := by
  obtain ⟨start, later, hevents, hstart, hlater, hcompleted⟩ := h
  exact ⟨start, later, hevents, hstart, hlater, hiff.symm.trans hcompleted⟩

end Recording

/-! ### One attempt of a transition -/

/-- The ledger and the document are the same. -/
structure Untouched (s t : AdapterWorld) : Prop where
  events : t.world.events = s.world.events
  document : t.document = s.document

/-- A kernel's call recorded nothing. -/
def SameLedger (w t : World) : Prop := t.events = w.events

instance : IsPreorder AdapterWorld Untouched where
  refl _ := ⟨rfl, rfl⟩
  trans _ _ _ h h' := ⟨h'.events.trans h.events, h'.document.trans h.document⟩

section Attempts

variable {α : Type} {e : Environment} {s t : AdapterWorld} {request : Request}
  {transactionId : String} {completed : Prop} {before : List LedgerEvent}

theorem sameLedger_act {f : Environment → World → Result (α × World)}
    (h : ∀ e w value t, f e w = .ok (value, t) → SameLedger w t) :
    Call.Respects SameLedger (act f) where
  related r w := by
    have hsame : (act f).Ends r w (SameLedger w) :=
      Call.ends_attempt (rfl : SameLedger w w.tick) fun value t hf => h r w value t hf
    exact hsame

theorem untouched_onWorld {call : KernelCall α} [hcall : Call.Respects SameLedger call] :
    Call.Respects Untouched (onWorld call) :=
  ⟨fun r s => ⟨hcall.related r s.world, rfl⟩⟩

theorem untouched_onWriter {call : KernelCall α} [hcall : Call.Respects SameLedger call] :
    Call.Respects Untouched (onWriter call) :=
  ⟨fun r s => ⟨hcall.related r s.writerWorld, rfl⟩⟩

instance untouched_look (f : Environment → World → Result α) :
    Call.Respects Untouched (onWorld (look f)) := by
  have : Call.Respects SameLedger (look f) := by
    refine sameLedger_act fun e w value t h => ?_
    cases hf : f e w with
    | error failure => simp [hf, Except.map] at h
    | ok found =>
        simp only [hf, Except.map, Except.ok.injEq, Prod.mk.injEq] at h
        exact h.2 ▸ rfl
  exact untouched_onWorld

instance : Call.Respects Untouched (onWorld readLedger) := untouched_look _

instance : Call.Respects Untouched (onWorld Inspector.currentBranch) := untouched_look _
instance : Call.Respects Untouched (onWorld Inspector.head) := untouched_look _
instance : Call.Respects Untouched (onWorld Inspector.isClean) := untouched_look _
instance : Call.Respects Untouched (onWorld Inspector.planningDiffFingerprint) := untouched_look _
instance : Call.Respects Untouched (onWorld Inspector.untrackedFileHashes) := untouched_look _
instance : Call.Respects Untouched (onWorld Inspector.gitOperationState) := untouched_look _
instance (boundary : String) : Call.Respects Untouched (onWorld (interrupt boundary)) :=
  untouched_look _

instance (request : AcquireRequest) :
    Call.Respects Untouched (onWriter (acquireLeaseFile request)) := by
  have : Call.Respects SameLedger (acquireLeaseFile request) := by
    refine sameLedger_act fun e w value t h => ?_
    simp only [bind_eq_ok, pure, Except.pure, Except.ok.injEq, Prod.mk.injEq] at h
    obtain ⟨-, -, record, -, rfl, rfl⟩ := h
    rfl
  exact untouched_onWriter

instance (expectation : LeaseExpectation) :
    Call.Respects Untouched (onWriter (releaseLease expectation)) := by
  have : Call.Respects SameLedger (releaseLease expectation) := by
    refine sameLedger_act fun e w value t h => ?_
    split at h
    · cases h
    · simp only [bind_eq_ok, pure, Except.pure, Except.ok.injEq, Prod.mk.injEq] at h
      obtain ⟨-, -, -, -, -, rfl⟩ := h
      rfl
  exact untouched_onWriter

instance (persistCache : Bool) :
    Call.Respects Untouched (onWorld (rebuildProjection persistCache)) := by
  have : Call.Respects SameLedger
      (rebuildProjection persistCache) := by
    refine sameLedger_act fun e w value t h => ?_
    simp only [bind_eq_ok, Prod.exists, pure, Except.pure, Except.ok.injEq, Prod.mk.injEq] at h
    obtain ⟨_, _, _, _, _, _, rfl⟩ := h
    rfl
  exact untouched_onWorld

instance (site : AdapterSite) : Call.Respects Untouched (loadProjectState site) := by
  refine Call.respects_attempt (fun s => ⟨rfl, rfl⟩) fun e s value t h => ?_
  cases hdocument : s.document with
  | none =>
      rw [hdocument] at h
      cases h
      exact ⟨rfl, hdocument.symm⟩
  | some found =>
      simp only [hdocument, pure, Except.pure, Except.map] at h
      cases hstate : site.validateState found with
      | error failure => rw [hstate] at h; cases h
      | ok _ =>
          rw [hstate] at h
          cases h
          exact ⟨rfl, hdocument.symm⟩

/-- One more event of these is on record. -/
def Pushed (P : Platform) (request : Request) (transactionId : String) (kind : EventType)
    (payload : Fields) (s t : AdapterWorld) : Prop :=
  ∃ event : LedgerEvent, t.world.events = s.world.events ++ [event] ∧ t.document = s.document ∧
    event.eventType = kind ∧ event.transactionId = transactionId ∧
    event.workflowType = request.workflow ∧ event.payload = redactFields P payload ∧
    Admitted s.world.events event

theorem record_runs {kind : EventType} {payload : Fields} :
    (record request transactionId kind payload).Runs e s
      (fun _ t => Pushed e.platform request transactionId kind payload s t)
      (fun t => Untouched s t ∨ Pushed e.platform request transactionId kind payload s t) := by
  have hpushed : ∀ u t, (do
      checkUncached e s.world
      let event := builtEvent e s.world
        { eventType := kind, transactionId := transactionId
          workflowType := request.workflow, payload := payload }
      validateAppend s.world.events event
      return ((), s.world.push event) : Result (Unit × World)) = .ok (u, t) →
      Pushed e.platform request transactionId kind payload s (s.withWorld t.tick) := by
    intro u t h
    simp only [bind_eq_ok, pure, Except.pure, Except.ok.injEq, Prod.mk.injEq] at h
    obtain ⟨_, -, _, hadmitted, -, rfl⟩ := h
    exact ⟨_, rfl, rfl, rfl, rfl, rfl, rfl, validateAppend_eq_ok.mp hadmitted⟩
  constructor
  · refine Call.ends_zoom (Call.ends_attempt (Or.inl ⟨rfl, rfl⟩) fun u t h => ?_)
    exact Or.inr (hpushed u t h)
  · intro u t h
    obtain ⟨w, hw, rfl⟩ := Call.returns_zoom.mp h
    obtain ⟨-, v, hdone, rfl⟩ := returns_act.mp hw
    exact hpushed u v hdone

/-- The transaction is on record, and the document is as it should be by then. -/
structure Stage (P : Platform) (request : Request) (transactionId : String) (completed : Prop)
    (written : Option Json → Prop) (before : List LedgerEvent) (t : AdapterWorld) : Prop where
  recorded : Recorded P request transactionId completed before t.world.events
  document : written t.document

variable {written : Option Json → Prop}

theorem Stage.untouched {call : AdapterCall α} [hcall : Call.Respects Untouched call]
    (h : Stage e.platform request transactionId completed written before s) :
    call.Ends e s (Stage e.platform request transactionId completed written before) := by
  have hsame := hcall.related e s
  have hafter : Stage e.platform request transactionId completed written before (call e s).2 := by
    refine ⟨?_, ?_⟩
    · rw [hsame.events]
      exact h.recorded
    · rw [hsame.document]
      exact h.document
  exact hafter

/-- A later event of the transaction that is not its terminal one. -/
theorem Stage.follow {kind : EventType} {payload : Fields}
    (h : Stage e.platform request transactionId completed written before s)
    (hkind : kind ∈ [leaseAcquired, snapshotCaptured, validationStarted, validationPassed,
      leaseReleased] ∨ kind = projectionUpdated ∧ payload = projectedPayload request) :
    (record request transactionId kind payload).Ends e s
      (Stage e.platform request transactionId completed written before) := by
  have hrun : (record request transactionId kind payload).Runs e s _ _ := record_runs
  have hcut := hrun.1
  rcases hcut with hsame | ⟨event, hevents, hdocument, hevent, hid, hworkflow, hpayload, -⟩
  · exact ⟨hsame.events ▸ h.recorded, hsame.document ▸ h.document⟩
  · refine ⟨?_, hdocument ▸ h.document⟩
    rw [hevents]
    have hfollows : FollowsStart e.platform request transactionId event := by
      refine ⟨hid, hworkflow, ?_⟩
      rw [hevent]
      rcases hkind with hkind | ⟨rfl, rfl⟩
      · simp only [List.mem_cons, List.not_mem_nil, or_false] at hkind
        rcases hkind with rfl | rfl | rfl | rfl | rfl <;> trivial
      · exact hpayload
    refine (h.recorded.snoc hfollows).congr (or_iff_left ?_)
    rw [hevent]
    rcases hkind with hkind | ⟨rfl, -⟩
    · rintro rfl
      simp at hkind
    · decide

/-- Parts that stay at one stage. -/
theorem ends_bind_same {β : Type} {call : AdapterCall α} {rest : α → AdapterCall β}
    {post : AdapterWorld → Prop} (hcall : call.Ends e s post)
    (hrest : ∀ value t, post t → (rest value).Ends e t post) : (call >>= rest).Ends e s post :=
  hcall.bind fun value t hvalue => hrest value t (hcall.of_returns hvalue)

end Attempts

/-! ### Where a transition is cut off -/

/-- `rebuild` without its cache. -/
def rebuiltFrom (P : Platform) (L : LedgerIdentity) (events : List LedgerEvent) :
    Result Fields := do
  let (integrity, found) ← validate P L (events.map LedgerEvent.toObject)
  project P L integrity.sequence integrity.fingerprint found none

/-- The projection can be rebuilt from the ledger. -/
def Rebuilds (P : Platform) (L : LedgerIdentity) (events : List LedgerEvent) : Prop :=
  ∃ value, rebuiltFrom P L events = .ok value

/-- What a transition of a new transaction leaves, with `written` for its document. -/
inductive Fate (P : Platform) (request : Request) (transactionId : String)
    (written : Option Json → Prop) (s t : AdapterWorld) : Prop where
  | untouched (h : t.world.events = s.world.events)
  | started (hnew : historyOf s.world.events transactionId = [])
      (h : Stage P request transactionId False (fun _ => True) s.world.events t)
  | completed (hnew : historyOf s.world.events transactionId = [])
      (h : Stage P request transactionId True written s.world.events t)

section Parts

variable {e : Environment} {s t : AdapterWorld} {request : Request} {transactionId : String}
  {before : List LedgerEvent} {written : Option Json → Prop} {branch head : String}

/-- `prepare` on a ledger without the transaction. -/
theorem prepare_opens :
    (prepare request transactionId branch head).Runs e s
      (fun _ t => historyOf s.world.events transactionId = [] ∧
        Stage e.platform request transactionId False (fun _ => True) s.world.events t)
      (Fate e.platform request transactionId written s) := by
  unfold prepare
  refine Call.Runs.step (Call.ends_reads (.untouched rfl)) fun L v hread => ?_
  obtain ⟨-, rfl⟩ := Call.returns_reads.mp hread
  refine Call.Runs.step (Call.ends_reads (.untouched rfl)) fun projectId v hread => ?_
  obtain ⟨-, rfl⟩ := Call.returns_reads.mp hread
  have hpushed : ∀ t, Pushed e.platform request transactionId transactionStarted
      (startedPayload request branch head) v t →
        historyOf v.world.events transactionId = [] ∧
          Stage e.platform request transactionId False (fun _ => True) v.world.events t := by
    rintro t ⟨event, hevents, -, hkind, hid, -, hpayload, hadmitted⟩
    refine ⟨hid ▸ hadmitted.start hkind, ?_, trivial⟩
    rw [hevents]
    exact recorded_start ⟨hkind, hid, branch, head, hpayload⟩
  refine Call.Runs.bind (record_runs.mono (fun _ t h => hpushed t h) ?_) fun _ t hopen => ?_
  · rintro t (hsame | h)
    · exact .untouched hsame.events
    · exact .started (hpushed t h).1 (hpushed t h).2
  obtain ⟨hnew, hopen⟩ := hopen
  -- from the start on, a cut leaves the transaction open
  have hrest : ∀ {α : Type} {call : AdapterCall α},
      call.Ends e t (Stage e.platform request transactionId False (fun _ => True) v.world.events) →
        call.Runs e t (fun _ u => historyOf v.world.events transactionId = [] ∧
          Stage e.platform request transactionId False (fun _ => True) v.world.events u)
          (Fate e.platform request transactionId written v) := by
    intro α call h
    exact ⟨.started hnew h, fun value u hvalue => ⟨hnew, h.of_returns hvalue⟩⟩
  apply hrest
  apply ends_bind_same hopen.untouched
  intro lease u hopen
  apply ends_bind_same (hopen.follow (Or.inl (by simp)))
  intro _ u hopen
  apply ends_bind_same hopen.untouched
  intro diff u hopen
  apply ends_bind_same hopen.untouched
  intro untracked u hopen
  apply ends_bind_same hopen.untouched
  intro operations u hopen
  apply ends_bind_same (hopen.follow (Or.inl (by simp)))
  intro _ u hopen
  apply ends_bind_same (hopen.follow (Or.inl (by simp)))
  intro _ u hopen
  apply ends_bind_same (hopen.follow (Or.inl (by simp)))
  intro _ u hopen
  exact Call.ends_pure hopen

/-- `finish` on a written document. -/
theorem finish_runs
    (h : Stage e.platform request transactionId False written before s) :
    (finish request transactionId).Runs e s
      (fun _ t => Stage e.platform request transactionId True written before t)
      (fun t => Stage e.platform request transactionId False written before t ∨
        Stage e.platform request transactionId True written before t) := by
  unfold finish
  have hlook : ∀ {α : Type} {call : AdapterCall α} [hcall : Call.Respects Untouched call] {u},
      Stage e.platform request transactionId False written before u →
        call.Runs e u
          (fun _ t => Stage e.platform request transactionId False written before t)
          (fun t => Stage e.platform request transactionId False written before t ∨
            Stage e.platform request transactionId True written before t) := by
    intro α call hcall u hu
    exact ⟨Or.inl hu.untouched, fun value t hvalue => hu.untouched.of_returns hvalue⟩
  refine Call.Runs.bind (hlook h) fun branch u h => ?_
  refine Call.Runs.bind (hlook h) fun head u h => ?_
  refine Call.Runs.bind (hlook h) fun clean u h => ?_
  have hpushed : ∀ t, Pushed e.platform request transactionId transactionCompleted
      (completedPayload request branch head clean) u t →
        Stage e.platform request transactionId True written before t := by
    rintro t ⟨event, hevents, hdocument, hkind, hid, hworkflow, hpayload, -⟩
    refine ⟨?_, hdocument ▸ h.document⟩
    rw [hevents]
    refine (h.recorded.snoc ⟨hid, hworkflow, ?_⟩).congr (by simp [hkind])
    rw [hkind]
    exact ⟨branch, head, clean, hpayload⟩
  refine record_runs.mono (fun _ t ht => hpushed t ht) ?_
  rintro t (hsame | ht)
  · exact Or.inl ⟨hsame.events ▸ h.recorded, hsame.document ▸ h.document⟩
  · exact Or.inr (hpushed t ht)

/-- `release`, whose last step rebuilds the projection. -/
theorem release_runs {lease : WorkflowLeaseRecord}
    (h : Stage e.platform request transactionId True written before s) :
    (release request transactionId lease).Runs e s
      (fun _ t => Stage e.platform request transactionId True written before t ∧
        Rebuilds e.platform e.identity t.world.events)
      (Stage e.platform request transactionId True written before) := by
  unfold release
  refine Call.Runs.step h.untouched fun L v hread => ?_
  have h := h.untouched.of_returns hread
  refine Call.Runs.step h.untouched fun projectId u hread => ?_
  have h := h.untouched.of_returns hread
  refine Call.Runs.step h.untouched fun _ v hrelease => ?_
  have h := h.untouched.of_returns hrelease
  refine Call.Runs.step (h.follow (Or.inl (by simp))) fun _ u hrecord => ?_
  have h := (h.follow (Or.inl (by simp))).of_returns hrecord
  refine Call.Runs.step (h.follow (Or.inr ⟨rfl, rfl⟩)) fun _ v hrecord => ?_
  have h := (h.follow (Or.inr ⟨rfl, rfl⟩)).of_returns hrecord
  refine Call.Runs.step h.untouched fun projection u hrebuild => ?_
  refine Call.runs_pure (h.untouched.of_returns hrebuild) ⟨h.untouched.of_returns hrebuild, ?_⟩
  obtain ⟨w, hw, rfl⟩ := Call.returns_zoom.mp hrebuild
  obtain ⟨-, after, hdone, rfl⟩ := returns_act.mp hw
  simp only [bind_eq_ok, Prod.exists, pure, Except.pure, Except.ok.injEq, Prod.mk.injEq] at hdone
  obtain ⟨integrity, found, hvalidate, value, hvalue, -, rfl⟩ := hdone
  refine ⟨value, ?_⟩
  simp only [rebuiltFrom, bind_eq_ok, Prod.exists]
  exact ⟨integrity, found, hvalidate, hvalue⟩

/-- A transition whose transaction the ledger does not show as completed. -/
theorem perform_runs {mutate : AdapterCall Unit}
    (hmutate : ∀ s, mutate.Runs e s
      (fun _ t => t.world.events = s.world.events ∧ written t.document)
      (fun t => t.world.events = s.world.events)) :
    (perform request transactionId mutate).Runs e s
      (fun _ t => historyOf s.world.events transactionId = [] ∧
        Stage e.platform request transactionId True written s.world.events t ∧
          Rebuilds e.platform e.identity t.world.events)
      (Fate e.platform request transactionId written s) := by
  unfold perform
  have hlook : ∀ {α : Type} {call : AdapterCall α} [hcall : Call.Respects Untouched call]
      {u : AdapterWorld}, u.world.events = s.world.events →
        call.Ends e u (fun t => t.world.events = s.world.events) := by
    intro α call hcall u hu
    exact (hcall.related e u).events.trans hu
  have hcut : ∀ t : AdapterWorld, t.world.events = s.world.events →
      Fate e.platform request transactionId written s t := fun t ht => .untouched ht
  refine Call.Runs.step (hcut _ (hlook rfl)) fun branch u hread => ?_
  have hu := (hlook rfl).of_returns hread
  refine Call.Runs.step (hcut _ (hlook hu)) fun head v hread => ?_
  have hv := (hlook hu).of_returns hread
  have hprepare : (prepare request transactionId (givenOr branch "DETACHED") head).Runs e v _
      (Fate e.platform request transactionId written v) := prepare_opens
  rw [hv] at hprepare
  refine Call.Runs.bind (hprepare.mono (fun _ _ h => h) fun t ht => ?_) fun lease t hopen => ?_
  · cases ht with
    | untouched h => exact .untouched (h.trans hv)
    | started hnew h => exact .started (hv ▸ hnew) (hv ▸ h)
    | completed hnew h => exact .completed (hv ▸ hnew) (hv ▸ h)
  obtain ⟨hnew, hopen⟩ := hopen
  refine Call.Runs.bind ((hmutate t).mono (fun _ _ h => h) fun u hu => ?_) fun _ u hu => ?_
  · refine .started hnew ⟨?_, trivial⟩
    rw [hu]
    exact hopen.recorded
  have hwritten : Stage e.platform request transactionId False written s.world.events u := by
    refine ⟨?_, hu.2⟩
    rw [hu.1]
    exact hopen.recorded
  refine Call.Runs.bind ((finish_runs hwritten).mono (fun _ _ h => h) fun v hv => ?_)
    fun _ v hdone => ?_
  · rcases hv with h | h
    · exact .started hnew ⟨h.recorded, trivial⟩
    · exact .completed hnew h
  exact (release_runs hdone).mono (fun _ _ h => ⟨hnew, h⟩) fun v hv => .completed hnew hv

/-- What is read from the ledger are its events. -/
theorem readLedger_eq {events : List LedgerEvent}
    (h : (onWorld readLedger).Returns e s events t) : events = s.world.events := by
  obtain ⟨w, hw, -⟩ := Call.returns_zoom.mp h
  obtain ⟨-, hread, -⟩ := returns_look.mp hw
  simp only [bind_eq_ok, Prod.exists, pure, Except.pure, Except.ok.injEq] at hread
  obtain ⟨integrity, found, hvalidate, rfl⟩ := hread
  exact (List.map_injective_iff.mpr LedgerEvent.toObject_injective
    (validate_eq_ok hvalidate).1).symm

/-- What a transition leaves, whatever its outcome. -/
def Leaves (P : Platform) (request : Request) (transactionId : String)
    (written : Option Json → Prop) (s t : AdapterWorld) : Prop :=
  HasCompleted s.world.events transactionId ∧ Untouched s t ∨
    ¬HasCompleted s.world.events transactionId ∧ Fate P request transactionId written s t

/-- What a transition that returned leaves. -/
def Delivers (P : Platform) (L : LedgerIdentity) (request : Request) (transactionId : String)
    (written : Option Json → Prop) (s t : AdapterWorld) : Prop :=
  HasCompleted s.world.events transactionId ∧ Untouched s t ∨
    historyOf s.world.events transactionId = [] ∧
      Stage P request transactionId True written s.world.events t ∧ Rebuilds P L t.world.events

theorem Leaves.of_untouched (h : Untouched s t) :
    Leaves e.platform request transactionId written s t := by
  by_cases hcompleted : HasCompleted s.world.events transactionId
  · exact Or.inl ⟨hcompleted, h⟩
  · exact Or.inr ⟨hcompleted, .untouched h.events⟩

theorem transition_runs {site : AdapterSite} {mutate : AdapterCall Unit}
    (hid : site.uuid5 (request.key e.project.projectId) = transactionId)
    (hmutate : ∀ s, mutate.Runs e s
      (fun _ t => t.world.events = s.world.events ∧ written t.document)
      (fun t => t.world.events = s.world.events)) :
    (transition site request mutate).Runs e s
      (fun _ t => Delivers e.platform e.identity request transactionId written s t)
      (Leaves e.platform request transactionId written s) := by
  unfold transition
  refine Call.Runs.step (Call.ends_reads (.of_untouched (refl_of _ s))) fun projectId v hread => ?_
  obtain ⟨hproject, rfl⟩ := Call.returns_reads.mp hread
  have hsame : projectId = e.project.projectId := (Except.ok.inj hproject).symm
  subst hsame
  rw [hid]
  have hread : Call.Respects Untouched (onWorld readLedger) := inferInstance
  refine Call.Runs.step (.of_untouched (hread.related e v)) fun events u hevents => ?_
  have huntouched : Untouched v u := Call.Respects.of_returns hevents
  obtain rfl := readLedger_eq hevents
  refine Call.runs_ite (fun hcompleted => ?_) fun hopen => ?_
  · exact Call.runs_pure (.of_untouched huntouched) (Or.inl ⟨hcompleted, huntouched⟩)
  · have hperform : (perform request transactionId mutate).Runs e u _ _ := perform_runs hmutate
    refine hperform.mono (fun _ t h => Or.inr ?_) fun t h => Or.inr ⟨hopen, ?_⟩
    · rw [huntouched.events] at h
      exact h
    · cases h with
      | untouched h => exact .untouched (h.trans huntouched.events)
      | started hnew h => exact .started (huntouched.events ▸ hnew) (huntouched.events ▸ h)
      | completed hnew h => exact .completed (huntouched.events ▸ hnew) (huntouched.events ▸ h)

theorem Stage.of_untouched {completed : Prop} {u : AdapterWorld}
    (h : Stage e.platform request transactionId completed written before t)
    (hsame : Untouched t u) :
    Stage e.platform request transactionId completed written before u := by
  refine ⟨?_, ?_⟩
  · rw [hsame.events]
    exact h.recorded
  · rw [hsame.document]
    exact h.document

theorem Delivers.of_untouched {u : AdapterWorld}
    (h : Delivers e.platform e.identity request transactionId written s t)
    (hsame : Untouched t u) :
    Delivers e.platform e.identity request transactionId written s u := by
  rcases h with ⟨hcompleted, hst⟩ | ⟨hnew, hstage, hrebuilds⟩
  · exact Or.inl ⟨hcompleted, trans_of Untouched hst hsame⟩
  · exact Or.inr ⟨hnew, hstage.of_untouched hsame, hsame.events ▸ hrebuilds⟩

theorem not_hasCompleted_of_new {events : List LedgerEvent}
    (h : historyOf events transactionId = []) : ¬HasCompleted events transactionId := by
  rintro ⟨event, hevent, hid, -⟩
  exact historyOf_eq_nil.mp h event hevent hid

theorem Delivers.leaves (h : Delivers e.platform e.identity request transactionId written s t) :
    Leaves e.platform request transactionId written s t := by
  rcases h with hearly | ⟨hnew, hstage, -⟩
  · exact Or.inl hearly
  · exact Or.inr ⟨not_hasCompleted_of_new hnew, .completed hnew hstage⟩

end Parts

end LegacyAdapter

/-! ### A call -/

namespace ProjectCall

/-- The state that the document of the call names. -/
def origin (call : ProjectCall) : String :=
  match call.currentState with
  | .ok state => state
  | .error _ => ""

/-- The request of the call, when the machine accepts the move. -/
def accepted (call : ProjectCall) : Request := call.request ⟨call.origin, call.target, true⟩

/-- The identifier of the call's transaction. -/
def transactionId (call : ProjectCall) (site : AdapterSite) (projectId : String) : String :=
  site.uuid5 (call.accepted.key projectId)

/-- The document of the call, written at some time with the pause of some other document. -/
def Written (call : ProjectCall) (P : Platform) (document : Option Json) : Prop :=
  ∃ stamp latest, document =
    some (atomicWriteJson P (.obj (preservePause latest (call.updated stamp))))

variable {call : ProjectCall} {e : Environment} {s : AdapterWorld} {site : AdapterSite}

theorem move_eq_ok {transition : Transition} (h : call.move = .ok transition) :
    call.request transition = call.accepted ∧
      ∃ state, PORTFOLIO_MACHINE.ofName? call.target = some state := by
  unfold move at h
  obtain ⟨current, hcurrent, hmove⟩ := bind_eq_ok.mp h
  obtain ⟨hprevious, htarget, hknown⟩ := StateMachine.transition_eq_ok hmove
  refine ⟨?_, hknown⟩
  simp only [accepted, request, origin, hcurrent, hprevious, htarget]

theorem write_runs (stamp : String) :
    (writePreservingPause site (call.updated stamp)).Runs e s
      (fun _ t => t.world.events = s.world.events ∧ call.Written e.platform t.document)
      (fun t => t.world.events = s.world.events) := by
  unfold writePreservingPause
  have hload : Call.Respects Untouched (loadProjectState site) := inferInstance
  refine Call.Runs.step (hload.related e s).events fun latest u hu => ?_
  have hsame : Untouched s u := Call.Respects.of_returns hu
  refine Call.runs_attempt hsame.events fun value t hdone => ?_
  cases hstate : site.validateState (.obj (preservePause latest (call.updated stamp))) with
  | error failure =>
      simp only [hstate] at hdone
      cases hdone
  | ok _ =>
      simp only [hstate] at hdone
      cases hdone
      exact ⟨hsame.events, hsame.events, stamp, latest, rfl⟩

/-- What a call leaves: nothing new, when the machine refuses the move, or else what its
    transition leaves. -/
theorem run_runs :
    (call.run site).Runs e s
      (fun _ t => Delivers e.platform e.identity call.accepted
        (call.transactionId site e.project.projectId) (call.Written e.platform) s t ∧
          ∃ state, PORTFOLIO_MACHINE.ofName? call.target = some state)
      (fun t => Leaves e.platform call.accepted (call.transactionId site e.project.projectId)
        (call.Written e.platform) s t ∧
          (Untouched s t ∨ ∃ state, PORTFOLIO_MACHINE.ofName? call.target = some state)) := by
  unfold run
  have hstart := refl_of Untouched s
  refine Call.Runs.step (Call.ends_reads ⟨.of_untouched hstart, Or.inl hstart⟩)
    fun transition v hread => ?_
  obtain ⟨hmove, rfl⟩ := Call.returns_reads.mp hread
  obtain ⟨haccepted, hknown⟩ := move_eq_ok hmove
  refine Call.Runs.step (Call.ends_reads ⟨.of_untouched hstart, Or.inl hstart⟩)
    fun stamp u hread => ?_
  obtain ⟨-, rfl⟩ := Call.returns_reads.mp hread
  rw [haccepted]
  have htransition : (LegacyAdapter.transition site call.accepted
        (writePreservingPause site (call.updated stamp))).Runs e u _
      (Leaves e.platform call.accepted (call.transactionId site e.project.projectId)
        (call.Written e.platform) u) := transition_runs rfl fun _ => write_runs stamp
  refine Call.Runs.bind (htransition.mono (fun _ _ h => h) fun t h => ⟨h, Or.inr hknown⟩)
    fun _ t hdelivers => ?_
  have hlast : Call.Respects Untouched (onWorld (interrupt "run_event")) := inferInstance
  refine Call.Runs.step
    ⟨(hdelivers.of_untouched (hlast.related e t)).leaves, Or.inr hknown⟩ fun _ v hv => ?_
  have hdelivers := hdelivers.of_untouched (Call.Respects.of_returns hv)
  exact Call.runs_pure ⟨hdelivers.leaves, Or.inr hknown⟩ ⟨hdelivers, hknown⟩

end ProjectCall

end Conveyor
