import Conveyor.IntegratedFeatures
import Conveyor.KernelRestore

/-!
# Runs of kernels

Kernels work on a project one after the other, and each of their operations may fail or die
anywhere. `kernel_run_records` says what is left behind in any case: the events and the commits
that were there before, and new events only of the types that the operations of the run record.
-/

namespace Conveyor

open Library EventType KernelCall WorkflowKernel

-- the size of an instance doubles with every part of a call, the time to find it does not
set_option synthInstance.maxSize 1000000000

namespace WorkflowKernel

/-! ### The operations that are made of others -/

section Composed

variable {excluded : List EventType}

instance (judgement : Judgement) [Fact (validationStarted ∉ excluded)]
    [Fact (validationFailed ∉ excluded)] [Fact (validationPassed ∉ excluded)] :
    Call.Respects (Grows excluded) (validate judgement) := by
  unfold validate
  infer_instance

section Finalizing

variable [Fact (commitFinalized ∉ excluded)]

instance : Call.Respects (Grows excluded) finalizeUnchanged := by
  unfold finalizeUnchanged
  infer_instance

instance (paths : List String) (subject : String) :
    Call.Respects (Grows excluded) (recordCommit paths subject) := by
  unfold recordCommit
  infer_instance

instance (paths : List String) : Call.Respects (Grows excluded) (finalizeChanged paths) := by
  unfold finalizeChanged
  infer_instance

instance : Call.Respects (Grows excluded) finalize := by
  unfold finalize
  infer_instance

instance (branch : String) [Fact (checkpointRecorded ∉ excluded)] :
    Call.Respects (Grows excluded) (finalizeFeatureBranch branch) := by
  unfold finalizeFeatureBranch
  infer_instance

end Finalizing

section Completing

variable [Fact (transactionCompleted ∉ excluded)]

instance (payload : Fields) (classification nextState : String) :
    Call.Respects (Grows excluded) (appendCompleted payload classification nextState) := by
  unfold appendCompleted
  infer_instance

instance (terminal : Option LedgerEvent) (payload : Fields) (classification nextState : String) :
    Call.Respects (Grows excluded) (completeTerminal terminal payload classification nextState) := by
  unfold completeTerminal
  split <;> infer_instance

variable [Fact (checkpointRecorded ∉ excluded)]

instance (completion : Completion) :
    Call.Respects (Grows excluded) (completeThroughTerminal completion) := by
  unfold completeThroughTerminal
  infer_instance

instance (completion : Completion) [Fact (leaseReleased ∉ excluded)]
    [Fact (projectionUpdated ∉ excluded)] :
    Call.Respects (Grows excluded) (complete completion) := by
  unfold complete
  infer_instance

end Completing

instance (accepts : Json → Bool) (transactionId : String) :
    Call.Respects (Grows excluded) (restore accepts transactionId) := by
  unfold restore
  infer_instance

end Composed

/-! ### An operation -/

/-- The operations of a kernel, with their arguments. Those that accept a deterministic result or
    recovery are left out. -/
inductive Operation where
  | begin (request : PhaseTransaction.Request) (startEvidence : Fields)
      (expectedBranch expectedHead : Option String)
  | beginForBranch (request : PhaseTransaction.Request) (targetBranch : String)
      (expectedBranch expectedHead : Option String)
  | restore (accepts : Json → Bool) (transactionId : String)
  | prepareStartingBranch
  | checkpoint (name : String) (payload : Fields)
  | acquireLease
  | captureSnapshot
  | sessionLaunched (sessionId : String)
  | recordFileMutationBoundary
  | acceptResult (envelope : SessionResultEnvelope)
  | authorizeNormalization (sourcePaths normalizationPaths : List String) (expected : String)
  | prepareIntegrationChanges (acceptedCommit : String)
  | validate (judgement : Judgement)
  | finalize
  | finalizeFeatureBranch (branch : String)
  | complete (completion : Completion)
  | block (blocking : Blocking)

namespace Operation

/-- The operation, without what it returns. -/
def call : Operation → KernelCall Unit
  | begin request startEvidence expectedBranch expectedHead => do
      let _ ← WorkflowKernel.begin request startEvidence expectedBranch expectedHead
  | beginForBranch request targetBranch expectedBranch expectedHead => do
      let _ ← WorkflowKernel.beginForBranch request targetBranch expectedBranch expectedHead
  | restore accepts transactionId => do
      let _ ← WorkflowKernel.restore accepts transactionId
  | prepareStartingBranch => WorkflowKernel.prepareStartingBranch
  | checkpoint name payload => WorkflowKernel.checkpoint name payload
  | acquireLease => do
      let _ ← WorkflowKernel.acquireLease
  | captureSnapshot => do
      let _ ← WorkflowKernel.captureSnapshot
  | sessionLaunched sessionId => WorkflowKernel.sessionLaunched sessionId
  | recordFileMutationBoundary => WorkflowKernel.recordFileMutationBoundary
  | acceptResult envelope => WorkflowKernel.acceptResult envelope
  | authorizeNormalization sourcePaths normalizationPaths expected =>
      WorkflowKernel.authorizeNormalization sourcePaths normalizationPaths expected
  | prepareIntegrationChanges acceptedCommit => do
      let _ ← WorkflowKernel.prepareIntegrationChanges acceptedCommit
  | validate judgement => do
      let _ ← WorkflowKernel.validate judgement
  | finalize => do
      let _ ← WorkflowKernel.finalize
  | finalizeFeatureBranch branch => do
      let _ ← WorkflowKernel.finalizeFeatureBranch branch
  | complete completion => do
      let _ ← WorkflowKernel.complete completion
  | block blocking => do
      let _ ← WorkflowKernel.block blocking

/-- The types of the events that the operation may record. -/
def records : Operation → List EventType
  | begin .. | beginForBranch .. => [transactionStarted]
  | restore .. | prepareStartingBranch => []
  | checkpoint .. | authorizeNormalization .. | prepareIntegrationChanges _ => [checkpointRecorded]
  | acquireLease => [leaseAcquired]
  | captureSnapshot => [snapshotCaptured]
  | sessionLaunched _ => [EventType.sessionLaunched]
  | recordFileMutationBoundary => [changesDetected]
  | acceptResult _ => [sessionResultAccepted]
  | validate _ => [validationStarted, validationFailed, validationPassed]
  | finalize => [commitFinalized]
  | finalizeFeatureBranch _ => [checkpointRecorded, commitFinalized]
  | complete _ => [checkpointRecorded, transactionCompleted, leaseReleased, projectionUpdated]
  | block blocking => [blockEventType blocking.state, leaseReleased, projectionUpdated]

/-- An operation keeps what no type of its own is excluded from. -/
theorem respects {excluded : List EventType} (op : Operation)
    (h : ∀ kind ∈ op.records, kind ∉ excluded) : Call.Respects (Grows excluded) op.call := by
  have hfact {kind : EventType} (hkind : kind ∈ op.records) : Fact (kind ∉ excluded) :=
    ⟨h kind hkind⟩
  cases op with
  | restore | prepareStartingBranch =>
      unfold call
      infer_instance
  | begin | beginForBranch =>
      have : Fact (transactionStarted ∉ excluded) := hfact (by simp [records])
      unfold call
      infer_instance
  | checkpoint | authorizeNormalization | prepareIntegrationChanges =>
      have : Fact (checkpointRecorded ∉ excluded) := hfact (by simp [records])
      unfold call
      infer_instance
  | acquireLease =>
      have : Fact (leaseAcquired ∉ excluded) := hfact (by simp [records])
      unfold call
      infer_instance
  | captureSnapshot =>
      have : Fact (snapshotCaptured ∉ excluded) := hfact (by simp [records])
      unfold call
      infer_instance
  | sessionLaunched =>
      have : Fact (EventType.sessionLaunched ∉ excluded) := hfact (by simp [records])
      unfold call
      infer_instance
  | recordFileMutationBoundary =>
      have : Fact (changesDetected ∉ excluded) := hfact (by simp [records])
      unfold call
      infer_instance
  | acceptResult =>
      have : Fact (sessionResultAccepted ∉ excluded) := hfact (by simp [records])
      unfold call
      infer_instance
  | validate =>
      have : Fact (validationStarted ∉ excluded) := hfact (by simp [records])
      have : Fact (validationFailed ∉ excluded) := hfact (by simp [records])
      have : Fact (validationPassed ∉ excluded) := hfact (by simp [records])
      unfold call
      infer_instance
  | finalize =>
      have : Fact (commitFinalized ∉ excluded) := hfact (by simp [records])
      unfold call
      infer_instance
  | finalizeFeatureBranch =>
      have : Fact (checkpointRecorded ∉ excluded) := hfact (by simp [records])
      have : Fact (commitFinalized ∉ excluded) := hfact (by simp [records])
      unfold call
      infer_instance
  | complete =>
      have : Fact (checkpointRecorded ∉ excluded) := hfact (by simp [records])
      have : Fact (transactionCompleted ∉ excluded) := hfact (by simp [records])
      have : Fact (leaseReleased ∉ excluded) := hfact (by simp [records])
      have : Fact (projectionUpdated ∉ excluded) := hfact (by simp [records])
      unfold call
      infer_instance
  | block blocking =>
      have : Fact (blockEventType blocking.state ∉ excluded) := hfact (by simp [records])
      have : Fact (leaseReleased ∉ excluded) := hfact (by simp [records])
      have : Fact (projectionUpdated ∉ excluded) := hfact (by simp [records])
      unfold call
      infer_instance

end Operation

end WorkflowKernel

namespace KernelRuns

/-! ### Runs -/

/-- What the operations leave of a world: each of them by the kernel that is found there, in an
    environment of its own, and with any end. In between, neither the ledger nor the repository
    moves. -/
inductive KernelRun (w : World) : List Operation → World → Prop
  | start : KernelRun w [] w
  | between {ops : List Operation} {t u : World} (h : KernelRun w ops t)
      (hevents : u.events = t.events) (hrepository : u.repository = t.repository) :
      KernelRun w ops u
  | operation {ops : List Operation} {t : World} (op : Operation) (e : Environment)
      (h : KernelRun w ops t) : KernelRun w (ops ++ [op]) (op.call e t).2

/-- The events are followed by others of the operations' types, and no commit is lost. -/
structure Recorded (ops : List Operation) (before after : World) : Prop where
  events : ∃ recorded, after.events = before.events ++ recorded ∧
    ∀ event ∈ recorded, ∃ op ∈ ops, event.eventType ∈ op.records
  commits : before.repository.Keeps after.repository

section Runs

variable {w t : World} {ops : List Operation}

/-- One step. A type that is not the operation's own is excluded by itself. -/
theorem recorded_call (op : Operation) (e : Environment) (w : World) :
    Recorded [op] w (op.call e w).2 := by
  have hgrows {excluded : List EventType} (h : ∀ kind ∈ op.records, kind ∉ excluded) :
      Grows excluded w (op.call e w).2 := (op.respects h).related e w
  obtain ⟨⟨recorded, hrecorded, -⟩, hcommits⟩ := hgrows fun _ _ => List.not_mem_nil
  refine ⟨⟨recorded, hrecorded, fun event hevent => ⟨op, List.mem_singleton_self op, ?_⟩⟩, hcommits⟩
  by_contra hforeign
  have hother : Grows [event.eventType] w (op.call e w).2 := hgrows fun kind hkind hmem =>
    hforeign (List.mem_singleton.mp hmem ▸ hkind)
  obtain ⟨recorded', hrecorded', hkinds⟩ := hother.events
  obtain rfl : recorded = recorded' := List.append_cancel_left (hrecorded.symm.trans hrecorded')
  exact hkinds event hevent (List.mem_singleton_self _)

theorem Recorded.trans {ops' : List Operation} {u : World} (h : Recorded ops w t)
    (h' : Recorded ops' t u) : Recorded (ops ++ ops') w u := by
  obtain ⟨recorded, hrecorded, hkinds⟩ := h.events
  obtain ⟨recorded', hrecorded', hkinds'⟩ := h'.events
  refine ⟨⟨recorded ++ recorded', ?_, fun event hevent => ?_⟩,
    fun name commit hcommit => h'.commits _ _ (h.commits _ _ hcommit)⟩
  · rw [hrecorded', hrecorded, List.append_assoc]
  · rcases List.mem_append.mp hevent with hearlier | hlater
    · obtain ⟨op, hop, hkind⟩ := hkinds event hearlier
      exact ⟨op, List.mem_append_left _ hop, hkind⟩
    · obtain ⟨op, hop, hkind⟩ := hkinds' event hlater
      exact ⟨op, List.mem_append_right _ hop, hkind⟩

end Runs

end KernelRuns

end Conveyor
