import Conveyor.KernelFrame
import Conveyor.KernelRestore

/-!
# The checks of a replay

A kernel that restored a transaction makes the checks of its completion again. `Observes` says
of a call that it changes nothing outside the process, and that in a steady environment it
returns the same value again for a transaction of the same identity. Every check of `complete`
observes.
-/

namespace Conveyor

open Library EventType KernelCall WorkflowKernel

/-- Nobody else writes to the repository, and no identifier is drawn twice. -/
class Steady (e : Environment) : Prop where
  worktree : ∀ time, e.worktree time = e.worktree 0
  ignored : ∀ time, e.ignored time = e.ignored 0
  pathProblem : ∀ time, e.pathProblem time = e.pathProblem 0
  gitOperations : ∀ time, e.gitOperations time = e.gitOperations 0
  drawn : Function.Injective fun time => (e.drawn time).uuid4

/-- The environment without its faults. -/
def Environment.calm (e : Environment) : Environment := { e with fault := fun _ => .none }

/-- The transactions differ in nothing that a check reads. -/
structure SameIdentity (transaction other : PhaseTransaction) : Prop where
  fields : other = { transaction with
    sessionIds := other.sessionIds, currentState := other.currentState
    terminalClassification := other.terminalClassification
    terminalReference := other.terminalReference, nextProjectState := other.nextProjectState }
  session : other.sessionIds.getLast? = transaction.sessionIds.getLast?

/-- The worlds agree in the repository, the lease and the identity of the transaction, and the
    second ledger is accepted and records the same final commits. -/
structure Alike (P : Platform) (L : LedgerIdentity) (w w' : World) : Prop where
  repository : w'.repository = w.repository
  lease : w'.lease = w.lease
  transaction : ∀ t ∈ w.kernel.transaction, ∃ t' ∈ w'.kernel.transaction, SameIdentity t t'
  valid : Valid P L w'.events
  finalized : ∀ transactionId,
    finalizedOf w'.events transactionId = finalizedOf w.events transactionId

/-- Only the clock and the projection cache moved. -/
structure Still (w t : World) : Prop where
  repository : t.repository = w.repository
  events : t.events = w.events
  lease : t.lease = w.lease
  kernel : t.kernel = w.kernel
  clock : w.clock ≤ t.clock

instance : IsPreorder World Still where
  refl _ := ⟨rfl, rfl, rfl, rfl, le_rfl⟩
  trans _ _ _ h h' := ⟨h'.repository.trans h.repository, h'.events.trans h.events,
    h'.lease.trans h.lease, h'.kernel.trans h.kernel, h.clock.trans h'.clock⟩

theorem still_tick (w : World) : Still w w.tick := ⟨rfl, rfl, rfl, rfl, Nat.le_succ _⟩

theorem Alike.tick {P : Platform} {L : LedgerIdentity} {w w' : World} (h : Alike P L w w') :
    Alike P L w.tick w'.tick :=
  ⟨h.repository, h.lease, h.transaction, h.valid, h.finalized⟩

/-- The call only observes, and in a steady environment it observes the same again. -/
class Observes {α : Type} (call : KernelCall α) : Prop where
  still : Call.Respects Still call
  repeated : ∀ (e : Environment) [Steady e],
    Call.Repeats (Alike e.platform e.identity) e e.calm call

attribute [instance] Observes.still Observes.repeated

variable {α β : Type}

/-! ### Parts -/

theorem still_look (f : Environment → World → Result α) : Call.Respects Still (look f) := by
  refine Call.respects_attempt still_tick fun e w value t h => ?_
  cases hf : f e w with
  | error failure => simp [hf, Except.map] at h
  | ok found =>
      simp only [hf, Except.map, Except.ok.injEq, Prod.mk.injEq] at h
      exact h.2 ▸ refl_of _ w

theorem observes_look {f : Environment → World → Result α}
    (h : ∀ (e : Environment) [Steady e] w w', Alike e.platform e.identity w w' →
      f e.calm w' = f e w) : Observes (look f) where
  still := still_look f
  repeated e _ := by
    refine ⟨fun w w' value t halike hreturns => ?_⟩
    obtain ⟨-, hvalue, rfl⟩ := returns_look.mp hreturns
    exact ⟨value, w'.tick, returns_look.mpr ⟨rfl, (h e w w' halike).trans hvalue, rfl⟩, rfl,
      halike.tick⟩

instance (value : α) : Observes (pure value : KernelCall α) := ⟨inferInstance, inferInstance⟩

instance (failure : Failure) : Observes (Call.raise failure : KernelCall α) :=
  ⟨inferInstance, inferInstance⟩

instance (condition : Prop) [Decidable condition] (failure : Failure) :
    Observes (Call.check condition failure : KernelCall Unit) := ⟨inferInstance, inferInstance⟩

instance (result : Result α) : Observes (lift result) :=
  ⟨Call.respects_reads _, fun _ _ => Call.repeats_reads fun _ _ _ => rfl⟩

instance observes_bind {call : KernelCall α} {rest : α → KernelCall β} [hcall : Observes call]
    [hrest : ∀ value, Observes (rest value)] : Observes (call >>= rest) :=
  ⟨inferInstance, fun _ _ => inferInstance⟩

instance {condition : Prop} [Decidable condition] {call other : KernelCall α}
    [hcall : Observes call] [hother : Observes other] :
    Observes (if condition then call else other) :=
  ⟨inferInstance, fun _ _ => inferInstance⟩

/-- A call on the transaction observes when it is the same call for transactions of the same
    identity. -/
theorem observes_transaction {rest : PhaseTransaction → KernelCall α}
    (hsame : ∀ transaction other, SameIdentity transaction other →
      rest other = rest transaction) (hrest : ∀ transaction, Observes (rest transaction)) :
    Observes (requireTransaction >>= rest) where
  still := by
    have : Call.Respects Still requireTransaction := Call.respects_reads _
    infer_instance
  repeated e _ := by
    refine ⟨fun w w' value t halike h => ?_⟩
    obtain ⟨transaction, u, htransaction, hvalue⟩ := Call.returns_bind.mp h
    rw [requireTransaction, Call.returns_reads] at htransaction
    obtain ⟨hfound, rfl⟩ := htransaction
    cases hkernel : u.kernel.transaction with
    | none => simp [hkernel] at hfound
    | some found =>
        simp only [hkernel, Except.ok.injEq] at hfound
        subst hfound
        obtain ⟨other, hother, hidentity⟩ := halike.transaction found hkernel
        have hrequired : (requireTransaction).Returns e.calm w' other w' := by
          rw [requireTransaction, Call.returns_reads, Option.mem_def.mp hother]
          exact ⟨rfl, rfl⟩
        obtain ⟨t', hagain, hafter⟩ :=
          ((hrest found).repeated e).returns halike hvalue
        refine ⟨value, t', Call.returns_bind.mpr ⟨other, w', hrequired, ?_⟩, rfl, hafter⟩
        rw [hsame found other hidentity]
        exact hagain

/-! ### The inspector -/

instance : Observes Inspector.currentBranch :=
  observes_look fun e _ w w' h => by rw [h.repository]
instance : Observes Inspector.head := observes_look fun e _ w w' h => by rw [h.repository]
instance (commit : String) : Observes (Inspector.parentOf commit) :=
  observes_look fun e _ w w' h => by rw [h.repository]
instance (ancestor descendant : String) : Observes (Inspector.isAncestor ancestor descendant) :=
  observes_look fun e _ w w' h => by rw [h.repository]
instance (commit : String) : Observes (Inspector.changedPaths commit) :=
  observes_look fun e _ w w' h => by rw [h.repository]
instance (commit : String) : Observes (Inspector.patchFingerprint commit) :=
  observes_look fun _ _ w w' h => by
    rw [h.repository]
    rfl

section Times

variable {e : Environment} [h : Steady e]

theorem worktree_calm (time other : Nat) : e.calm.worktree time = e.worktree other :=
  (h.worktree time).trans (h.worktree other).symm

theorem ignored_calm (time other : Nat) : e.calm.ignored time = e.ignored other :=
  (h.ignored time).trans (h.ignored other).symm

theorem pathProblem_calm (time other : Nat) : e.calm.pathProblem time = e.pathProblem other :=
  (h.pathProblem time).trans (h.pathProblem other).symm

theorem gitOperations_calm (time other : Nat) :
    e.calm.gitOperations time = e.gitOperations other :=
  (h.gitOperations time).trans (h.gitOperations other).symm

theorem readContents_calm (time other : Nat) (paths : List String) :
    Inspector.readContents e.calm time paths = Inspector.readContents e other paths := by
  simp only [Inspector.readContents, Inspector.firstProblem, Inspector.contentsAt,
    pathProblem_calm time other, worktree_calm time other]

end Times

instance : Observes Inspector.gitOperationState :=
  observes_look fun _ _ w w' _ => congrArg Except.ok (gitOperations_calm w'.clock w.clock)

instance : Observes Inspector.isClean := observes_look fun e _ w w' h => by
  rw [h.repository, ignored_calm w'.clock w.clock, worktree_calm w'.clock w.clock]

instance : Observes Inspector.trackedChangedPaths := observes_look fun e _ w w' h => by
  rw [h.repository, worktree_calm w'.clock w.clock]

instance : Observes Inspector.untrackedFileHashes := observes_look fun e _ w w' h => by
  simp only [h.repository, ignored_calm w'.clock w.clock, worktree_calm w'.clock w.clock,
    readContents_calm w'.clock w.clock]
  rfl

instance : Observes Inspector.planningDiffFingerprint := observes_look fun e _ w w' h => by
  rw [h.repository, worktree_calm w'.clock w.clock]
  rfl

instance : Observes Inspector.queueFingerprint := observes_look fun e _ w w' _ => by
  rw [worktree_calm w'.clock w.clock]
  rfl

instance observes_captureRepositorySnapshot : Observes captureRepositorySnapshot := by
  have hidentity : Observes (look fun _ w => .ok w.repository.identity) :=
    observes_look fun e _ w w' h => by rw [h.repository]
  have hpath : Observes (look fun _ w => .ok w.repository.pathFingerprint) :=
    observes_look fun e _ w w' h => by rw [h.repository]
  have hfingerprint : ∀ untracked : Dict String, Observes (look fun e _ =>
      .ok (e.platform.fingerprint (.obj (Fields.ofPairs (untracked.map fun item =>
        (item.1, .str item.2)))))) := fun _ => observes_look fun _ _ _ _ _ => rfl
  unfold captureRepositorySnapshot
  infer_instance

instance (boundary : String) : Observes (interrupt boundary) := observes_look fun _ _ _ _ _ => rfl

/-! ### The checks of a completion -/

namespace WorkflowKernel

/-- A lease is checked against the identity of the transaction only. -/
theorem leaseExpectation_same {project : Project} {transaction other : PhaseTransaction}
    (h : SameIdentity transaction other) :
    leaseExpectation project other = leaseExpectation project transaction := by
  rw [leaseExpectation, leaseExpectation, h.session, h.fields]

theorem snapshotIsStart_same {transaction other : PhaseTransaction} {snapshot : RepositorySnapshot}
    (h : SameIdentity transaction other) :
    SnapshotIsStart other snapshot ↔ SnapshotIsStart transaction snapshot := by
  rw [h.fields]
  rfl

instance : Observes revalidateLease := by
  unfold revalidateLease
  refine observes_transaction (fun transaction other h => ?_) fun transaction => ?_
  · simp only [leaseExpectation_same h]
  · exact observes_look fun e _ w w' h => by
      rw [h.lease]
      rfl

instance : Observes observationOnlyBaselineUnchanged := by
  unfold observationOnlyBaselineUnchanged
  refine observes_transaction (fun transaction other h => ?_) fun _ => inferInstance
  simp only [snapshotIsStart_same h]

instance : Observes checkClean := by
  unfold checkClean
  refine observes_transaction (fun transaction other h => ?_) fun _ => inferInstance
  rw [h.fields]

instance (payload : Fields) (head : String) : Observes (checkFinalCommit payload head) := by
  unfold checkFinalCommit
  infer_instance

instance (transaction : PhaseTransaction) (payload : Fields) (head resulting : String) :
    Observes (expectedFeatureParent transaction payload head resulting) := by
  unfold expectedFeatureParent recoveredParent
  infer_instance

instance (transaction : PhaseTransaction) (payload : Fields) (head accepted : String) :
    Observes (checkControllerPlan transaction payload head accepted) := by
  unfold checkControllerPlan
  infer_instance

instance (transaction : PhaseTransaction) (head accepted : String) :
    Observes (checkKernelIntegration transaction head accepted) := by
  unfold checkKernelIntegration
  infer_instance

theorem observes_text (value : Json) :
    Observes (Call.reads fun e _ => .ok (e.platform.str value) : KernelCall String) :=
  ⟨Call.respects_reads _, fun _ _ => Call.repeats_reads fun _ _ _ => rfl⟩

instance (payload : Fields) (head : String) : Observes (checkIntegration payload head) := by
  have := observes_text (payload.get "accepted_commit")
  unfold checkIntegration
  refine observes_transaction (fun transaction other h => ?_) fun _ => inferInstance
  rw [h.fields]
  rfl

theorem still_readLedger : Call.Respects Still readLedger := still_look _

/-- A call that reads only the final commit from the ledger observes. -/
theorem observes_finalized (rest : Option Fields → KernelCall α) (transactionId : String)
    (h : ∀ found, Observes (rest found)) :
    Observes (readLedger >>= fun events => rest (finalizedOf events transactionId)) where
  still := by
    have := still_readLedger
    infer_instance
  repeated e _ := by
    refine ⟨fun w w' value t halike hreturns => ?_⟩
    obtain ⟨events, u, hread, hvalue⟩ := Call.returns_bind.mp hreturns
    obtain ⟨-, hevents, rfl⟩ := returns_look.mp hread
    simp only [bind_eq_ok, Prod.exists, pure, Except.pure, Except.ok.injEq] at hevents
    obtain ⟨integrity, found, hvalidate, rfl⟩ := hevents
    obtain ⟨hmap, -⟩ := validate_eq_ok hvalidate
    have hsame : found = w.events := (List.map_injective_iff.mpr
      LedgerEvent.toObject_injective hmap).symm
    subst hsame
    obtain ⟨integrity', hagain, -⟩ := halike.valid.validate_ok
    obtain ⟨t', hvalue', hafter⟩ := ((h _).repeated e).returns halike.tick hvalue
    refine ⟨value, t', Call.returns_bind.mpr ⟨w'.events, w'.tick, ?_, ?_⟩, rfl, hafter⟩
    · refine returns_look.mpr ⟨rfl, ?_, rfl⟩
      simp only [bind_eq_ok, Prod.exists, pure, Except.pure, Except.ok.injEq]
      exact ⟨integrity', _, hagain, rfl⟩
    · rw [halike.finalized]
      exact hvalue'

instance : Observes revalidateTerminalRepository := by
  unfold revalidateTerminalRepository
  refine observes_transaction (fun transaction other h => ?_) fun transaction => ?_
  · rw [h.fields]
  · have := observes_finalized (fun found => do
      let payload ← lift (found.elim
        (.error (transactionError "completion requires durable commit-finalization evidence")) .ok)
      let expectedBranch := if transaction.workflowType = .featurePreparation then
          payload.get "branch_created"
        else .str transaction.startingBranch
      let branch ← Inspector.currentBranch
      let head ← Inspector.head
      Call.check (Json.ofOption branch = expectedBranch ∧ .str head = payload.get "commit")
        (transactionError "repository branch or HEAD changed before terminal evidence")
      checkFinalCommit payload head
      checkIntegration payload head) transaction.transactionId fun _ => inferInstance
    infer_instance

end WorkflowKernel

end Conveyor
