import Conveyor.KernelCompletion

/-!
# What a kernel call leaves alone

However a call of the kernel ends, the ledger and the commits only grow. `Grows excluded`
says so of two worlds, and that none of the events between them is of an excluded type;
every operation has its instance, under the condition that the types it records are not
excluded.
-/

namespace Conveyor

open Library EventType KernelCall WorkflowKernel

-- the size of an instance doubles with every part of a call, the time to find it does not
set_option synthInstance.maxSize 1000000000

/-- The commits of a repository are the later one's too. -/
def Repository.Keeps (before after : Repository) : Prop :=
  ∀ name commit, before.commits.get? name = some commit → after.commits.get? name = some commit

/-- The ledger grew by events of other types only, and no commit was lost. -/
structure Grows (excluded : List EventType) (before after : World) : Prop where
  events : ∃ recorded, after.events = before.events ++ recorded ∧
    ∀ event ∈ recorded, event.eventType ∉ excluded
  commits : before.repository.Keeps after.repository

variable {excluded : List EventType} {α : Type} {before after : World}

theorem Grows.of_events_eq (hevents : after.events = before.events)
    (hcommits : before.repository.Keeps after.repository) : Grows excluded before after :=
  ⟨⟨[], by simp [hevents], by simp⟩, hcommits⟩

/-- The world differs in nothing that `Grows` speaks of. -/
theorem Grows.of_same (hevents : after.events = before.events)
    (hrepository : after.repository = before.repository) : Grows excluded before after :=
  .of_events_eq hevents fun _ _ h => hrepository ▸ h

instance : IsPreorder World (Grows excluded) where
  refl _ := .of_same rfl rfl
  trans first second third h h' := by
    obtain ⟨⟨recorded, hrecorded, hkinds⟩, hcommits⟩ := h
    obtain ⟨⟨recorded', hrecorded', hkinds'⟩, hcommits'⟩ := h'
    refine ⟨⟨recorded ++ recorded', ?_, fun event hevent => ?_⟩,
      fun name commit hcommit => hcommits' _ _ (hcommits _ _ hcommit)⟩
    · rw [hrecorded', hrecorded, List.append_assoc]
    · exact (List.mem_append.mp hevent).elim (hkinds event) (hkinds' event)

/-! ### Attempts -/

theorem grows_tick (w : World) : Grows excluded w w.tick := .of_same rfl rfl

theorem grows_act {f : Environment → World → Result (α × World)}
    (h : ∀ e w value t, f e w = .ok (value, t) → Grows excluded w t) :
    Call.Respects (Grows excluded) (act f) :=
  Call.respects_attempt grows_tick h

instance grows_look (f : Environment → World → Result α) :
    Call.Respects (Grows excluded) (look f) := by
  refine grows_act fun e w value t h => ?_
  cases hf : f e w with
  | error failure => simp [hf, Except.map] at h
  | ok found =>
      simp only [hf, Except.map, Except.ok.injEq, Prod.mk.injEq] at h
      exact h.2 ▸ refl_of _ w

instance grows_lift (result : Result α) : Call.Respects (Grows excluded) (lift result) :=
  Call.respects_reads _

instance grows_memory : Call.Respects (Grows excluded) memory := Call.respects_reads _

instance grows_remember (change : Kernel → Kernel) :
    Call.Respects (Grows excluded) (remember change) := by
  refine Call.respects_update fun e w value t h => ?_
  simp only [Except.ok.injEq, Prod.mk.injEq] at h
  exact h.2 ▸ .of_same rfl rfl

instance grows_interrupt (boundary : String) :
    Call.Respects (Grows excluded) (interrupt boundary) := grows_look _

instance grows_readLedger : Call.Respects (Grows excluded) readLedger := grows_look _

theorem appendLedger_eq_ok {e : Environment} {w t : World} {request : AppendRequest} {u : Unit}
    (h : (appendLedger request).Returns e w u t) :
    t = (w.push (builtEvent e w request)).tick ∧
      validateAppend w.events (builtEvent e w request) = .ok () := by
  simp only [appendLedger, returns_act, bind_eq_ok, pure, Except.pure, Except.ok.injEq,
    Prod.mk.injEq] at h
  obtain ⟨-, pushed, ⟨-, -, checked, hadmitted, -, rfl⟩, rfl⟩ := h
  exact ⟨rfl, hadmitted⟩

theorem grows_push {w : World} {event : LedgerEvent} (h : event.eventType ∉ excluded) :
    Grows excluded w (w.push event) :=
  ⟨⟨[event], rfl, by simpa using h⟩, fun _ _ hcommit => hcommit⟩

theorem grows_appendLedger {request : AppendRequest} (h : request.eventType ∉ excluded) :
    Call.Respects (Grows excluded) (appendLedger request) := by
  refine grows_act fun e w value t hdone => ?_
  simp only [bind_eq_ok, pure, Except.pure, Except.ok.injEq, Prod.mk.injEq] at hdone
  obtain ⟨-, -, -, -, -, rfl⟩ := hdone
  exact grows_push h

/-! ### The lease file, the repository and the projection -/

instance grows_acquireLeaseFile (request : AcquireRequest) :
    Call.Respects (Grows excluded) (acquireLeaseFile request) := by
  refine grows_act fun e w value t h => ?_
  simp only [bind_eq_ok, pure, Except.pure, Except.ok.injEq, Prod.mk.injEq] at h
  obtain ⟨-, -, record, -, rfl, rfl⟩ := h
  exact .of_same rfl rfl

instance grows_readLease : Call.Respects (Grows excluded) readLease := grows_look _

instance grows_bindSession (expectation : LeaseExpectation) (sessionId : String) :
    Call.Respects (Grows excluded) (bindSession expectation sessionId) := by
  refine grows_act fun e w value t h => ?_
  simp only [bind_eq_ok, pure, Except.pure, Except.ok.injEq, Prod.mk.injEq] at h
  obtain ⟨record, -, -, rfl⟩ := h
  exact .of_same rfl rfl

instance grows_releaseLease (expectation : LeaseExpectation) :
    Call.Respects (Grows excluded) (releaseLease expectation) := by
  refine grows_act fun e w value t h => ?_
  split at h
  · cases h
  · simp only [bind_eq_ok, pure, Except.pure, Except.ok.injEq, Prod.mk.injEq] at h
    obtain ⟨-, -, -, -, -, rfl⟩ := h
    exact .of_same rfl rfl

section Inspector

open Inspector

instance : Call.Respects (Grows excluded) Inspector.currentBranch := grows_look _
instance : Call.Respects (Grows excluded) Inspector.head := grows_look _
instance (value : String) : Call.Respects (Grows excluded) (Inspector.revParse value) :=
  grows_look _
instance (commit : String) : Call.Respects (Grows excluded) (Inspector.parentOf commit) :=
  grows_look _
instance (branch : String) : Call.Respects (Grows excluded) (Inspector.refExists branch) :=
  grows_look _
instance (ancestor descendant : String) :
    Call.Respects (Grows excluded) (Inspector.isAncestor ancestor descendant) := grows_look _
instance (commit : String) : Call.Respects (Grows excluded) (Inspector.changedPaths commit) :=
  grows_look _
instance (commit : String) : Call.Respects (Grows excluded) (Inspector.patchFingerprint commit) :=
  grows_look _
instance : Call.Respects (Grows excluded) Inspector.gitOperationState := grows_look _
instance : Call.Respects (Grows excluded) Inspector.isClean := grows_look _
instance : Call.Respects (Grows excluded) Inspector.trackedChangedPaths := grows_look _
instance : Call.Respects (Grows excluded) Inspector.stagedChangedPaths := grows_look _
instance : Call.Respects (Grows excluded) Inspector.untrackedFileHashes := grows_look _
instance : Call.Respects (Grows excluded) Inspector.planningDiffFingerprint := grows_look _
instance (paths : List String) :
    Call.Respects (Grows excluded) (Inspector.contentDiffFingerprint paths) := grows_look _
instance : Call.Respects (Grows excluded) Inspector.queueFingerprint := grows_look _
instance (commit : String) :
    Call.Respects (Grows excluded) (Inspector.committedQueueFingerprint commit) := grows_look _
instance (commit : String) : Call.Respects (Grows excluded) (Inspector.revList commit) :=
  grows_look _

instance (paths : List String) : Call.Respects (Grows excluded) (gitAdd paths) := by
  refine grows_act fun e w value t h => ?_
  simp only [Except.ok.injEq, Prod.mk.injEq] at h
  obtain ⟨-, rfl⟩ := h
  exact .of_events_eq rfl fun _ _ hcommit => hcommit

/-- A commit keeps every other commit: its name is new, or already the name of its content. -/
theorem Repository.commit_keeps {git : Git} {repository after : Repository}
    {subject name : String} {entries : List Entry}
    (h : repository.commit git subject entries = .ok (name, after)) : repository.Keeps after := by
  simp only [Repository.commit, bind_eq_ok, require_eq_ok, exists_const, pure, Except.pure,
    Except.ok.injEq, Prod.mk.injEq] at h
  obtain ⟨-, hknown, rfl, rfl⟩ := h
  intro other commit hother
  rw [Dict.get?_insert]
  split
  · rename_i heq
    subst heq
    rw [hknown commit hother]
  · exact hother

instance (subject : String) (paths : List String) :
    Call.Respects (Grows excluded) (gitCommit subject paths) := by
  refine grows_act fun e w value t h => ?_
  simp only [bind_eq_ok, Prod.exists, pure, Except.pure, Except.ok.injEq, Prod.mk.injEq] at h
  obtain ⟨name, repository, hcommit, -, rfl⟩ := h
  exact .of_events_eq rfl (Repository.commit_keeps hcommit)

instance (branch : String) : Call.Respects (Grows excluded) (gitSwitch branch) := by
  refine grows_act fun e w value t h => ?_
  simp only [Repository.switch, bind_eq_ok, pure, Except.pure, Except.ok.injEq, Prod.mk.injEq] at h
  obtain ⟨repository, hswitch, -, rfl⟩ := h
  split at hswitch
  · cases hswitch
  · cases hswitch
    exact .of_events_eq rfl fun _ _ hcommit => hcommit

instance (branch start : String) : Call.Respects (Grows excluded) (gitSwitchCreate branch start) := by
  refine grows_act fun e w value t h => ?_
  simp only [Repository.switchCreate, bind_eq_ok, pure, Except.pure, Except.ok.injEq,
    Prod.mk.injEq] at h
  obtain ⟨repository, ⟨-, -, rfl⟩, -, rfl⟩ := h
  exact .of_events_eq rfl fun _ _ hcommit => hcommit

instance (commit : String) : Call.Respects (Grows excluded) (gitCherryPick commit) := by
  refine grows_act fun e w value t h => ?_
  simp only [Repository.cherryPick, bind_eq_ok, pure, Except.pure, Except.ok.injEq,
    Prod.mk.injEq] at h
  obtain ⟨repository, hpick, -, rfl⟩ := h
  split at hpick
  · cases hpick
  · cases hpick
    exact .of_events_eq rfl fun _ _ hcommit => hcommit

end Inspector

instance grows_captureRepositorySnapshot :
    Call.Respects (Grows excluded) captureRepositorySnapshot := by
  unfold captureRepositorySnapshot
  infer_instance

instance grows_rebuildProjection (persistCache : Bool) :
    Call.Respects (Grows excluded) (rebuildProjection persistCache) := by
  refine grows_act fun e w value t h => ?_
  simp only [bind_eq_ok, Prod.exists, pure, Except.pure, Except.ok.injEq, Prod.mk.injEq] at h
  obtain ⟨-, -, -, -, -, -, rfl⟩ := h
  exact .of_same rfl rfl

/-! ### The operations -/

namespace WorkflowKernel

instance : Call.Respects (Grows excluded) requireTransaction := Call.respects_reads _

instance (condition : Prop) [Decidable condition] (failure : Platform → Failure) :
    Call.Respects (Grows excluded) (checkWith condition failure) := Call.respects_reads _

instance (transaction : PhaseTransaction) :
    Call.Respects (Grows excluded) (setTransaction transaction) := grows_remember _

instance (target : TransactionState) : Call.Respects (Grows excluded) (transition target) := by
  unfold transition
  infer_instance

instance : Call.Respects (Grows excluded) revalidateLease := by
  unfold revalidateLease
  infer_instance

instance : Call.Respects (Grows excluded) releaseOwnedLease := by
  unfold releaseOwnedLease
  infer_instance

instance : Call.Respects (Grows excluded) acquireOwnLease := by
  unfold acquireOwnLease
  infer_instance

instance (record : WorkflowLeaseRecord) :
    Call.Respects (Grows excluded) (setLeaseIdentity record) := by
  unfold setLeaseIdentity
  infer_instance

instance (record : Option WorkflowLeaseRecord) :
    Call.Respects (Grows excluded) (setPreacquired record) := grows_remember _

instance : Call.Respects (Grows excluded) preacquireLease := by
  unfold preacquireLease
  refine Call.Respects.bind inferInstance fun kernel => ?_
  split <;> infer_instance

instance : Call.Respects (Grows excluded) releasePreacquiredLease := by
  unfold releasePreacquiredLease
  refine Call.Respects.bind inferInstance fun kernel => ?_
  split <;> infer_instance

instance (kind : EventType) (payload : Fields) [hkind : Fact (kind ∉ excluded)] :
    Call.Respects (Grows excluded) (record kind payload) := by
  unfold record
  have : ∀ transaction : PhaseTransaction, Call.Respects (Grows excluded)
      (appendLedger { eventType := kind, transactionId := transaction.transactionId,
                      workflowType := transaction.workflowType, payload := payload }) :=
    fun _ => grows_appendLedger hkind.out
  infer_instance

instance (request : PhaseTransaction.Request) (snapshot : RepositorySnapshot) :
    Call.Respects (Grows excluded) (createTransaction request snapshot) := grows_look _

section Beginning

variable [Fact (transactionStarted ∉ excluded)]

instance (startEvidence : Fields) : Call.Respects (Grows excluded) (beginLeased startEvidence) := by
  unfold beginLeased
  infer_instance

instance (failure : Failure) : Call.Respects (Grows excluded) (abandonBegin failure) := by
  unfold abandonBegin
  infer_instance

instance (request : PhaseTransaction.Request) (startEvidence : Fields)
    (expectedBranch expectedHead : Option String) :
    Call.Respects (Grows excluded) (begin request startEvidence expectedBranch expectedHead) := by
  unfold begin
  infer_instance

instance (live : RepositorySnapshot) (targetBranch : String) :
    Call.Respects (Grows excluded) (beginBranchLeased live targetBranch) := by
  unfold beginBranchLeased
  infer_instance

instance (request : PhaseTransaction.Request) (targetBranch : String)
    (expectedBranch expectedHead : Option String) :
    Call.Respects (Grows excluded)
      (beginForBranch request targetBranch expectedBranch expectedHead) := by
  unfold beginForBranch
  infer_instance

end Beginning

instance (transaction : PhaseTransaction) (current : Option String) :
    Call.Respects (Grows excluded) (switchToStart transaction current) := by
  unfold switchToStart
  infer_instance

instance : Call.Respects (Grows excluded) prepareStartingBranch := by
  unfold prepareStartingBranch
  infer_instance

instance (name : String) (payload : Fields) [Fact (checkpointRecorded ∉ excluded)] :
    Call.Respects (Grows excluded) (checkpoint name payload) := by
  unfold checkpoint
  infer_instance

instance : Call.Respects (Grows excluded) leaseForTransaction := by
  unfold leaseForTransaction
  refine Call.Respects.bind inferInstance fun kernel => ?_
  split <;> infer_instance

instance [Fact (leaseAcquired ∉ excluded)] : Call.Respects (Grows excluded) acquireLease := by
  unfold acquireLease
  infer_instance

instance [Fact (snapshotCaptured ∉ excluded)] :
    Call.Respects (Grows excluded) WorkflowKernel.captureSnapshot := by
  unfold WorkflowKernel.captureSnapshot
  infer_instance

instance : Call.Respects (Grows excluded) observationOnlyBaselineUnchanged := by
  unfold observationOnlyBaselineUnchanged
  infer_instance

instance (tracked untracked : List String) :
    Call.Respects (Grows excluded) (changedFromBaseline tracked untracked) := by
  unfold changedFromBaseline
  infer_instance

instance : Call.Respects (Grows excluded) WorkflowKernel.changedPaths := by
  unfold WorkflowKernel.changedPaths
  infer_instance

instance (paths : List String) : Call.Respects (Grows excluded) (validateMutationPaths paths) :=
  grows_look _

instance : Call.Respects (Grows excluded) validateUntrackedPolicy := by
  unfold validateUntrackedPolicy
  infer_instance

instance : Call.Respects (Grows excluded) diffPaths := by
  unfold diffPaths
  infer_instance

instance : Call.Respects (Grows excluded) diffFingerprint := by
  unfold diffFingerprint
  infer_instance

instance (paths : List String) (fingerprint : String) :
    Call.Respects (Grows excluded) (assertDurableMutationBoundary paths fingerprint) := by
  unfold assertDurableMutationBoundary
  infer_instance

instance (paths : List String) : Call.Respects (Grows excluded) (validatePolicy paths) := by
  unfold validatePolicy
  infer_instance

instance (sessionId : String) [Fact (EventType.sessionLaunched ∉ excluded)] :
    Call.Respects (Grows excluded) (WorkflowKernel.sessionLaunched sessionId) := by
  unfold WorkflowKernel.sessionLaunched
  infer_instance

instance (transaction : PhaseTransaction) (envelope : SessionResultEnvelope) :
    Call.Respects (Grows excluded) (currentAtHead transaction envelope) := by
  unfold currentAtHead
  infer_instance

instance (envelope : SessionResultEnvelope) (observed : List String) :
    Call.Respects (Grows excluded) (observedDiffFingerprint envelope observed) := by
  unfold observedDiffFingerprint
  infer_instance

instance (envelope : SessionResultEnvelope) [Fact (sessionResultAccepted ∉ excluded)] :
    Call.Respects (Grows excluded) (acceptResult envelope) := by
  unfold acceptResult
  infer_instance

instance (sourcePaths normalizationPaths : List String) (expected : String)
    [Fact (checkpointRecorded ∉ excluded)] :
    Call.Respects (Grows excluded)
      (authorizeNormalization sourcePaths normalizationPaths expected) := by
  unfold authorizeNormalization
  infer_instance

instance [Fact (changesDetected ∉ excluded)] :
    Call.Respects (Grows excluded) recordFileMutationBoundary := by
  unfold recordFileMutationBoundary
  infer_instance

instance (featureId : Option String) :
    Call.Respects (Grows excluded) (checkQueueIntegration featureId) := by
  unfold checkQueueIntegration
  split <;> infer_instance

instance (accepted commit : String) :
    Call.Respects (Grows excluded) (checkHistoricalPatch accepted commit) := by
  unfold checkHistoricalPatch
  refine Call.Respects.bind inferInstance fun parent => ?_
  split <;> infer_instance

instance (acceptedCommit : String) [Fact (checkpointRecorded ∉ excluded)] :
    Call.Respects (Grows excluded) (prepareIntegrationChanges acceptedCommit) := by
  unfold prepareIntegrationChanges
  infer_instance

instance (envelope : SessionResultEnvelope) [Fact (validationStarted ∉ excluded)] :
    Call.Respects (Grows excluded) (startValidation envelope) := by
  unfold startValidation
  infer_instance

instance (failure : Failure) [Fact (validationFailed ∉ excluded)] :
    Call.Respects (Grows excluded) (validationRejected failure) := by
  unfold validationRejected
  infer_instance

instance : Call.Respects (Grows excluded) finalizeDiff := by
  unfold finalizeDiff
  infer_instance

instance (paths diffed : List String) :
    Call.Respects (Grows excluded) (finalizeCheck paths diffed) := by
  unfold finalizeCheck
  infer_instance

instance : Call.Respects (Grows excluded) readOnlyAcceptance := by
  unfold readOnlyAcceptance
  refine Call.Respects.bind inferInstance fun transaction => ?_
  refine Call.Respects.bind inferInstance fun kernel => ?_
  split <;> infer_instance

instance (paths : List String) : Call.Respects (Grows excluded) (stageCommit paths) := by
  unfold stageCommit
  infer_instance

instance (commit : String) : Call.Respects (Grows excluded) (checkIntegrationCommit commit) := by
  unfold checkIntegrationCommit
  infer_instance

instance (branch startingHead : String) :
    Call.Respects (Grows excluded) (switchToFeature branch startingHead) := by
  unfold switchToFeature
  infer_instance

instance : Call.Respects (Grows excluded) checkClean := by
  unfold checkClean
  infer_instance

instance (payload : Fields) (head : String) :
    Call.Respects (Grows excluded) (checkFinalCommit payload head) := by
  unfold checkFinalCommit
  infer_instance

instance (transaction : PhaseTransaction) (payload : Fields) (head resulting : String) :
    Call.Respects (Grows excluded) (expectedFeatureParent transaction payload head resulting) := by
  unfold expectedFeatureParent recoveredParent
  infer_instance

instance (transaction : PhaseTransaction) (payload : Fields) (head accepted : String) :
    Call.Respects (Grows excluded) (checkControllerPlan transaction payload head accepted) := by
  unfold checkControllerPlan
  infer_instance

instance (transaction : PhaseTransaction) (head accepted : String) :
    Call.Respects (Grows excluded) (checkKernelIntegration transaction head accepted) := by
  unfold checkKernelIntegration
  infer_instance

instance (payload : Fields) (head : String) :
    Call.Respects (Grows excluded) (checkIntegration payload head) := by
  unfold checkIntegration
  infer_instance

instance : Call.Respects (Grows excluded) revalidateTerminalRepository := by
  unfold revalidateTerminalRepository
  infer_instance

instance (completion : Completion) (terminal : Option LedgerEvent) (events : List LedgerEvent)
    [Fact (checkpointRecorded ∉ excluded)] :
    Call.Respects (Grows excluded) (settleMaterialization completion terminal events) := by
  unfold settleMaterialization
  refine Call.Respects.bind inferInstance fun transaction => ?_
  refine Call.Respects.bind inferInstance fun given => ?_
  refine Call.Respects.bind inferInstance fun _ => ?_
  split <;> infer_instance

instance (completion : Completion) (materialization : Materialization)
    [Fact (checkpointRecorded ∉ excluded)] :
    Call.Respects (Grows excluded) (materialize completion materialization) := by
  unfold materialize
  infer_instance

instance [Fact (leaseReleased ∉ excluded)] :
    Call.Respects (Grows excluded) releaseAfterTerminal := by
  unfold releaseAfterTerminal
  refine Call.Respects.bind inferInstance fun _ => ?_
  refine Call.Respects.bind inferInstance fun lease => ?_
  split <;> infer_instance

instance (nextState : String) (selected : Json) [Fact (projectionUpdated ∉ excluded)] :
    Call.Respects (Grows excluded) (projectCompleted nextState selected) := by
  unfold projectCompleted
  infer_instance

instance (blocking : Blocking) : Call.Respects (Grows excluded) (boundBlockGate blocking) := by
  unfold boundBlockGate
  infer_instance

instance (blocking : Blocking) [Fact (blockEventType blocking.state ∉ excluded)]
    [Fact (leaseReleased ∉ excluded)] [Fact (projectionUpdated ∉ excluded)] :
    Call.Respects (Grows excluded) (block blocking) := by
  unfold block
  infer_instance

end WorkflowKernel

end Conveyor
