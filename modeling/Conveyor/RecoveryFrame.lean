import Conveyor.KernelReplay
import Conveyor.KernelReturns
import Conveyor.RecoveryApply

/-!
# What a recovery leaves alone

A kernel that owns a transaction whose policy allows no path records events of this transaction
only, and leaves the repository as it is: `Within recovery` says so of two worlds, and every
operation that a recovery calls has its instance.
-/

namespace Conveyor

open Library EventType KernelCall WorkflowKernel

namespace RecoveryPlanner

-- the size of an instance doubles with every part of a call, the time to find it does not
set_option synthInstance.maxSize 1000000000

/-- A transaction of this name that may change no path. -/
structure Confined (recovery : String) (transaction : PhaseTransaction) : Prop where
  name : transaction.transactionId = recovery
  paths : transaction.allowedMutationPolicy.allowedPaths = []
  prefixes : transaction.allowedMutationPolicy.allowedPrefixes = []

def Owned (recovery : String) (kernel : Kernel) : Prop :=
  ∀ transaction ∈ kernel.transaction, Confined recovery transaction

/-- The ledger grew by events of this transaction only, and the repository is the same. -/
structure Extends (recovery : String) (before after : World) : Prop where
  repository : after.repository = before.repository
  events : ∃ recorded, after.events = before.events ++ recorded ∧
    ∀ event ∈ recorded, event.transactionId = recovery

def Within (recovery : String) (before after : World) : Prop :=
  Owned recovery before.kernel → Owned recovery after.kernel ∧ Extends recovery before after

variable {recovery : String} {α : Type} {before after : World}

theorem Extends.of_same (hrepository : after.repository = before.repository)
    (hevents : after.events = before.events) : Extends recovery before after :=
  ⟨hrepository, [], by rw [hevents, List.append_nil], by simp⟩

theorem Extends.of_tick (h : Extends recovery before.tick after) : Extends recovery before after :=
  ⟨h.repository, h.events⟩

theorem Extends.trans {first second third : World} (h : Extends recovery first second)
    (h' : Extends recovery second third) : Extends recovery first third := by
  obtain ⟨recorded, hrecorded, hown⟩ := h.events
  obtain ⟨recorded', hrecorded', hown'⟩ := h'.events
  refine ⟨h'.repository.trans h.repository, recorded ++ recorded', ?_, fun event hevent => ?_⟩
  · rw [hrecorded', hrecorded, List.append_assoc]
  · exact (List.mem_append.mp hevent).elim (hown event) (hown' event)

instance : IsPreorder World (Within recovery) where
  refl _ howned := ⟨howned, .of_same rfl rfl⟩
  trans _ _ _ h h' howned :=
    ⟨(h' (h howned).1).1, (h howned).2.trans (h' (h howned).1).2⟩

/-! ### Calls that only look -/

instance within_of_still {call : KernelCall α} [hcall : Call.Respects Still call] :
    Call.Respects (Within recovery) call := by
  refine ⟨fun e w howned => ?_⟩
  have hstill := hcall.related e w
  exact ⟨hstill.kernel ▸ howned, .of_same hstill.repository hstill.events⟩

section Looking

instance : Call.Respects Still memory := Call.respects_reads _
instance : Call.Respects Still requireTransaction := Call.respects_reads _
instance (result : Result α) : Call.Respects Still (lift result) := Call.respects_reads _
instance (f : Environment → World → Result α) : Call.Respects Still (look f) := still_look f
instance : Call.Respects Still readLedger := still_look _
instance : Call.Respects Still readLease := still_look _
instance (condition : Prop) [Decidable condition] (failure : Platform → Failure) :
    Call.Respects Still (checkWith condition failure) := Call.respects_reads _
instance (value : String) : Call.Respects Still (Inspector.revParse value) := still_look _
instance (paths : List String) : Call.Respects Still (Inspector.contentDiffFingerprint paths) :=
  still_look _
instance (request : PhaseTransaction.Request) (snapshot : RepositorySnapshot) :
    Call.Respects Still (createTransaction request snapshot) := still_look _
instance (paths : List String) : Call.Respects Still (validateMutationPaths paths) := still_look _

instance (tracked untracked : List String) :
    Call.Respects Still (changedFromBaseline tracked untracked) := by
  unfold changedFromBaseline
  infer_instance

instance : Call.Respects Still WorkflowKernel.changedPaths := by
  unfold WorkflowKernel.changedPaths
  infer_instance

instance : Call.Respects Still validateUntrackedPolicy := by
  unfold validateUntrackedPolicy
  infer_instance

instance : Call.Respects Still diffPaths := by
  unfold diffPaths
  infer_instance

instance : Call.Respects Still diffFingerprint := by
  unfold diffFingerprint
  infer_instance

instance (paths : List String) (fingerprint : String) :
    Call.Respects Still (assertDurableMutationBoundary paths fingerprint) := by
  unfold assertDurableMutationBoundary
  infer_instance

instance (paths : List String) : Call.Respects Still (validatePolicy paths) := by
  unfold validatePolicy
  infer_instance

instance (transaction : PhaseTransaction) (envelope : SessionResultEnvelope) :
    Call.Respects Still (currentAtHead transaction envelope) := by
  unfold currentAtHead
  infer_instance

instance (envelope : SessionResultEnvelope) (observed : List String) :
    Call.Respects Still (observedDiffFingerprint envelope observed) := by
  unfold observedDiffFingerprint
  infer_instance

instance : Call.Respects Still finalizeDiff := by
  unfold finalizeDiff
  infer_instance

instance (paths diffed : List String) : Call.Respects Still (finalizeCheck paths diffed) := by
  unfold finalizeCheck
  infer_instance

instance : Call.Respects Still readOnlyAcceptance := by
  unfold readOnlyAcceptance
  refine Call.Respects.bind inferInstance fun transaction => ?_
  refine Call.Respects.bind inferInstance fun kernel => ?_
  split <;> infer_instance

end Looking

/-! ### The transaction of the kernel -/

abbrev ConfinedTransaction (recovery : String) :=
  { transaction : PhaseTransaction // Confined recovery transaction }

instance (transaction : ConfinedTransaction recovery) :
    Fact (Confined recovery transaction.1) := ⟨transaction.2⟩

/-- What follows a look at the transaction may count on its being confined. -/
instance (priority := high) within_transaction {rest : PhaseTransaction → KernelCall α}
    [hrest : ∀ transaction : ConfinedTransaction recovery,
      Call.Respects (Within recovery) (rest transaction.1)] :
    Call.Respects (Within recovery) (requireTransaction >>= rest) := by
  refine ⟨fun e w howned => ?_⟩
  have hlook : requireTransaction.Ends e w
      fun t => Owned recovery t.kernel ∧ Extends recovery w t :=
    within_of_still.related e w howned
  refine Call.Ends.bind hlook fun transaction t hreturns => ?_
  obtain ⟨hbegun, rfl⟩ := returns_requireTransaction.mp hreturns
  exact (hrest ⟨transaction, howned transaction hbegun⟩).related e t howned

/-- What follows a computation may count on its result. -/
theorem within_lift {β : Type} {result : Result β} {rest : β → KernelCall α}
    (hrest : ∀ value, result = .ok value → Call.Respects (Within recovery) (rest value)) :
    Call.Respects (Within recovery) (lift result >>= rest) := by
  refine ⟨fun e w howned => ?_⟩
  have hlift : (lift result).Ends e w fun t => Owned recovery t.kernel ∧ Extends recovery w t :=
    within_of_still.related e w howned
  refine Call.Ends.bind hlift fun value t hreturns => ?_
  obtain ⟨hvalue, rfl⟩ := returns_lift.mp hreturns
  exact (hrest value hvalue).related e t howned

/-- A change of the kernel's fields that keeps its transaction confined. -/
class KeepsOwned (recovery : String) (change : Kernel → Kernel) : Prop where
  kept : ∀ kernel, Owned recovery kernel → Owned recovery (change kernel)

section Fields

variable {envelope : Kernel → Option SessionResultEnvelope} {commands : Kernel → List Json}
  {commit validated accepted : Kernel → Option String}
  {prepared : Kernel → Option (List String)} {normalization : Kernel → Option Fields}
  {lease : Kernel → Option WorkflowLeaseRecord}

instance : KeepsOwned recovery fun kernel =>
    ⟨kernel.transaction, envelope kernel, commands kernel, commit kernel, validated kernel,
      prepared kernel, accepted kernel, normalization kernel, lease kernel⟩ :=
  ⟨fun _ howned => howned⟩

instance : KeepsOwned recovery fun kernel =>
    ⟨none, envelope kernel, commands kernel, commit kernel, validated kernel, prepared kernel,
      accepted kernel, normalization kernel, lease kernel⟩ :=
  ⟨fun _ _ => by simp [Owned]⟩

instance {transaction : PhaseTransaction} [hconfined : Fact (Confined recovery transaction)] :
    KeepsOwned recovery fun kernel =>
    ⟨some transaction, envelope kernel, commands kernel, commit kernel, validated kernel,
      prepared kernel, accepted kernel, normalization kernel, lease kernel⟩ :=
  ⟨fun _ _ => by simpa [Owned] using hconfined.out⟩

end Fields

instance within_remember {change : Kernel → Kernel} [hchange : KeepsOwned recovery change] :
    Call.Respects (Within recovery) (remember change) := by
  refine Call.respects_update fun e w value t h howned => ?_
  simp only [Except.ok.injEq, Prod.mk.injEq] at h
  obtain ⟨-, rfl⟩ := h
  exact ⟨hchange.kept _ howned, .of_same rfl rfl⟩

section Confined

variable {transaction : PhaseTransaction} [hconfined : Fact (Confined recovery transaction)]

instance (lease : Option String) :
    Fact (Confined recovery { transaction with leaseIdentity := lease }) :=
  ⟨⟨hconfined.out.name, hconfined.out.paths, hconfined.out.prefixes⟩⟩

instance (sessions : List String) :
    Fact (Confined recovery { transaction with sessionIds := sessions }) :=
  ⟨⟨hconfined.out.name, hconfined.out.paths, hconfined.out.prefixes⟩⟩

instance : Call.Respects (Within recovery) (setTransaction transaction) := by
  unfold setTransaction
  infer_instance

end Confined

theorem Confined.moved {transaction moved : PhaseTransaction} {target : TransactionState}
    (h : Confined recovery transaction) (hmoved : transaction.transition target = .ok moved) :
    Confined recovery moved := by
  rw [PhaseTransaction.transition_eq_ok hmoved]
  exact ⟨h.name, h.paths, h.prefixes⟩

instance (target : TransactionState) :
    Call.Respects (Within recovery) (WorkflowKernel.transition target) := by
  have hmove (transaction : ConfinedTransaction recovery) : Call.Respects (Within recovery)
      (lift (transaction.1.transition target) >>= fun moved => setTransaction moved) := by
    refine within_lift fun moved hmoved => ?_
    have : Fact (Confined recovery moved) := ⟨transaction.2.moved hmoved⟩
    infer_instance
  unfold WorkflowKernel.transition
  infer_instance

/-! ### Attempts -/

theorem within_act {f : Environment → World → Result (α × World)}
    (h : ∀ e w value t, f e w = .ok (value, t) → t.kernel = w.kernel ∧ Extends recovery w t) :
    Call.Respects (Within recovery) (act f) :=
  Call.respects_attempt (fun _ howned => ⟨howned, .of_same rfl rfl⟩)
    fun e w value t hdone howned => by
      obtain ⟨hkernel, hextends⟩ := h e w value t hdone
      exact ⟨hkernel ▸ howned, hextends⟩

theorem within_appendLedger {request : AppendRequest} (hown : request.transactionId = recovery) :
    Call.Respects (Within recovery) (appendLedger request) := by
  refine within_act fun e w value t h => ?_
  simp only [bind_eq_ok, pure, Except.pure, Except.ok.injEq, Prod.mk.injEq] at h
  obtain ⟨-, -, -, -, -, rfl⟩ := h
  exact ⟨rfl, rfl, [builtEvent e w request], rfl, by simpa using hown⟩

instance (kind : EventType) (payload : Fields) :
    Call.Respects (Within recovery) (record kind payload) := by
  have happend (transaction : ConfinedTransaction recovery) : Call.Respects (Within recovery)
      (appendLedger { eventType := kind, transactionId := transaction.1.transactionId,
                      workflowType := transaction.1.workflowType, payload := payload }) :=
    within_appendLedger transaction.2.name
  unfold record
  infer_instance

instance (request : AcquireRequest) :
    Call.Respects (Within recovery) (acquireLeaseFile request) := by
  refine within_act fun e w value t h => ?_
  simp only [bind_eq_ok, pure, Except.pure, Except.ok.injEq, Prod.mk.injEq] at h
  obtain ⟨-, -, record, -, rfl, rfl⟩ := h
  exact ⟨rfl, .of_same rfl rfl⟩

instance (expectation : LeaseExpectation) (sessionId : String) :
    Call.Respects (Within recovery) (bindSession expectation sessionId) := by
  refine within_act fun e w value t h => ?_
  simp only [bind_eq_ok, pure, Except.pure, Except.ok.injEq, Prod.mk.injEq] at h
  obtain ⟨record, -, -, rfl⟩ := h
  exact ⟨rfl, .of_same rfl rfl⟩

instance (expectation : LeaseExpectation) :
    Call.Respects (Within recovery) (releaseLease expectation) := by
  refine within_act fun e w value t h => ?_
  split at h
  · cases h
  · simp only [bind_eq_ok, pure, Except.pure, Except.ok.injEq, Prod.mk.injEq] at h
    obtain ⟨-, -, -, -, -, rfl⟩ := h
    exact ⟨rfl, .of_same rfl rfl⟩

instance (persistCache : Bool) :
    Call.Respects (Within recovery) (rebuildProjection persistCache) := by
  refine within_act fun e w value t h => ?_
  simp only [bind_eq_ok, Prod.exists, pure, Except.pure, Except.ok.injEq, Prod.mk.injEq] at h
  obtain ⟨-, -, -, -, -, -, rfl⟩ := h
  exact ⟨rfl, .of_same rfl rfl⟩

/-! ### Beginning -/

/-- A request for a transaction that may change no path. -/
structure Requests (recovery : String) (request : PhaseTransaction.Request) : Prop where
  named : recovery ≠ ""
  name : request.transactionId = some recovery
  paths : request.policy.allowedPaths = []
  prefixes : request.policy.allowedPrefixes = []

theorem Requests.confined {request : PhaseTransaction.Request} {projectId uuid4 : String}
    {snapshot : RepositorySnapshot} {transaction : PhaseTransaction}
    (h : Requests recovery request)
    (hcreated : PhaseTransaction.create request projectId snapshot uuid4 = .ok transaction) :
    Confined recovery transaction := by
  simp only [PhaseTransaction.create, require_bind_eq_ok, pure, Except.pure,
    Except.ok.injEq] at hcreated
  obtain ⟨-, -, rfl⟩ := hcreated
  exact ⟨by simp [h.name, h.named], h.paths, h.prefixes⟩

instance (priority := high) within_create {request : PhaseTransaction.Request}
    [hrequest : Fact (Requests recovery request)] {snapshot : RepositorySnapshot}
    {rest : PhaseTransaction → KernelCall α}
    [hrest : ∀ transaction : ConfinedTransaction recovery,
      Call.Respects (Within recovery) (rest transaction.1)] :
    Call.Respects (Within recovery) (createTransaction request snapshot >>= rest) := by
  refine ⟨fun e w howned => ?_⟩
  have hcreate : (createTransaction request snapshot).Ends e w
      fun t => Owned recovery t.kernel ∧ Extends recovery w t :=
    within_of_still.related e w howned
  refine Call.Ends.bind hcreate fun transaction t hreturns => ?_
  obtain ⟨-, hcreated, rfl⟩ := returns_look.mp hreturns
  have hafter := (hrest ⟨transaction, hrequest.out.confined hcreated⟩).related e w.tick howned
  exact ⟨hafter.1, hafter.2.of_tick⟩

section Operations

instance (lease : WorkflowLeaseRecord) : Call.Respects (Within recovery) (setLeaseIdentity lease) := by
  unfold setLeaseIdentity
  infer_instance

instance (lease : Option WorkflowLeaseRecord) :
    Call.Respects (Within recovery) (setPreacquired lease) := by
  unfold setPreacquired
  infer_instance

instance : Call.Respects (Within recovery) acquireOwnLease := by
  unfold acquireOwnLease
  infer_instance

instance : Call.Respects (Within recovery) releaseOwnedLease := by
  unfold releaseOwnedLease
  infer_instance

instance : Call.Respects (Within recovery) preacquireLease := by
  unfold preacquireLease
  refine Call.Respects.bind inferInstance fun kernel => ?_
  split <;> infer_instance

instance : Call.Respects (Within recovery) releasePreacquiredLease := by
  unfold releasePreacquiredLease
  refine Call.Respects.bind inferInstance fun kernel => ?_
  split <;> infer_instance

instance (startEvidence : Fields) :
    Call.Respects (Within recovery) (beginLeased startEvidence) := by
  unfold beginLeased
  infer_instance

instance (failure : Failure) : Call.Respects (Within recovery) (abandonBegin failure) := by
  unfold abandonBegin
  infer_instance

instance (request : PhaseTransaction.Request) [Fact (Requests recovery request)]
    (startEvidence : Fields) (expectedBranch expectedHead : Option String) :
    Call.Respects (Within recovery)
      (begin request startEvidence expectedBranch expectedHead) := by
  unfold begin
  infer_instance

instance : Call.Respects (Within recovery) leaseForTransaction := by
  unfold leaseForTransaction
  refine Call.Respects.bind inferInstance fun kernel => ?_
  split <;> infer_instance

instance : Call.Respects (Within recovery) WorkflowKernel.acquireLease := by
  unfold WorkflowKernel.acquireLease
  infer_instance

instance : Call.Respects (Within recovery) WorkflowKernel.captureSnapshot := by
  unfold WorkflowKernel.captureSnapshot
  infer_instance

instance (sessionId : String) :
    Call.Respects (Within recovery) (WorkflowKernel.sessionLaunched sessionId) := by
  unfold WorkflowKernel.sessionLaunched
  infer_instance

instance (envelope : SessionResultEnvelope) :
    Call.Respects (Within recovery) (acceptResult envelope) := by
  unfold acceptResult
  infer_instance

instance : Call.Respects (Within recovery) recordFileMutationBoundary := by
  unfold recordFileMutationBoundary
  infer_instance

instance (envelope : SessionResultEnvelope) :
    Call.Respects (Within recovery) (startValidation envelope) := by
  unfold startValidation
  infer_instance

instance (failure : Failure) : Call.Respects (Within recovery) (validationRejected failure) := by
  unfold validationRejected
  infer_instance

instance (judgement : Judgement) : Call.Respects (Within recovery) (WorkflowKernel.validate judgement) := by
  unfold WorkflowKernel.validate
  infer_instance

/-! ### The final commit -/

/-- A policy that allows nothing accepts the empty set of paths only. -/
theorem nil_of_validate {policy : MutationPolicy} {paths observed : List String}
    (hpaths : policy.allowedPaths = []) (hprefixes : policy.allowedPrefixes = [])
    (h : policy.validate paths = .ok observed) : paths = [] := by
  simp only [MutationPolicy.validate, bind_eq_ok, require_eq_ok, exists_const,
    List.filter_eq_nil_iff, mem_sortedSet] at h
  obtain ⟨-, -, -, hallowed, -⟩ := h
  rw [List.eq_nil_iff_forall_not_mem]
  intro path hpath
  have hrefused : policy.isAllowed path = false := by
    simp [MutationPolicy.isAllowed, coveredBy, hpaths, hprefixes]
  have haccepted := hallowed path hpath
  rw [hrefused] at haccepted
  exact absurd haccepted (by simp)

theorem nil_of_validatePolicy {e : Environment} {w t : World} {paths : List String} {u : Unit}
    (howned : Owned recovery w.kernel) (h : (validatePolicy paths).Returns e w u t) :
    paths = [] := by
  unfold validatePolicy at h
  simp only [Call.returns_bind, returns_requireTransaction, returns_lift] at h
  obtain ⟨transaction, _, ⟨hbegun, rfl⟩, observed, _, ⟨haccepted, -⟩, -⟩ := h
  have hconfined := howned transaction hbegun
  exact nil_of_validate hconfined.paths hconfined.prefixes haccepted

/-- A transaction that may change no path has no path to commit. -/
theorem nil_of_finalizeDiff {e : Environment} {w t : World} {found : List String × List String}
    (howned : Owned recovery w.kernel) (h : finalizeDiff.Returns e w found t) :
    found.1 = [] := by
  unfold finalizeDiff at h
  simp only [Call.returns_bind] at h
  obtain ⟨_, w₁, h₁, _, w₂, h₂, _, w₃, h₃, _, w₄, h₄, paths, w₅, h₅, _, w₆, h₆, _, w₇, h₇, _,
    w₈, h₈, _, w₉, h₉, _, w₁₀, hpolicy, diffed, w₁₁, -, hfound⟩ := h
  have hstill : Still w w₉ :=
    trans_of Still (Call.Respects.of_returns h₁) <| trans_of Still (Call.Respects.of_returns h₂) <|
    trans_of Still (Call.Respects.of_returns h₃) <| trans_of Still (Call.Respects.of_returns h₄) <|
    trans_of Still (Call.Respects.of_returns h₅) <| trans_of Still (Call.Respects.of_returns h₆) <|
    trans_of Still (Call.Respects.of_returns h₇) <| trans_of Still (Call.Respects.of_returns h₈)
      (Call.Respects.of_returns h₉)
  obtain ⟨rfl, rfl⟩ := Call.returns_pure.mp hfound
  exact nil_of_validatePolicy (hstill.kernel ▸ howned) hpolicy

instance : Call.Respects (Within recovery) finalizeUnchanged := by
  unfold finalizeUnchanged
  infer_instance

/-- The branch of `finalize` that creates a commit is not reached. -/
instance within_finalize : Call.Respects (Within recovery) finalize := by
  unfold finalize
  refine ⟨fun e w howned => ?_⟩
  have hdiff : finalizeDiff.Ends e w fun t => Owned recovery t.kernel ∧ Extends recovery w t :=
    within_of_still.related e w howned
  refine Call.Ends.bind hdiff fun found t hreturns => ?_
  have hpaths := nil_of_finalizeDiff howned hreturns
  have hbefore : Within recovery w t := Call.Respects.of_returns hreturns
  obtain ⟨paths, diffed⟩ := found
  obtain rfl : paths = [] := hpaths
  have hrest : Call.Respects (Within recovery)
      (finalizeCheck [] diffed >>= fun _ => finalizeUnchanged) := inferInstance
  exact trans_of (Within recovery) hbefore (hrest.related e t) howned

/-! ### Completion -/

instance (completion : Completion) (terminal : Option LedgerEvent) (events : List LedgerEvent) :
    Call.Respects (Within recovery) (settleMaterialization completion terminal events) := by
  unfold settleMaterialization
  refine @within_transaction _ _ _ fun transaction => ?_
  refine Call.Respects.bind inferInstance fun given => ?_
  refine Call.Respects.bind inferInstance fun _ => ?_
  split <;> infer_instance

theorem Confined.terminated {transaction after : PhaseTransaction} {state : TransactionState}
    {classification : String} {reference nextState : Option String}
    (h : Confined recovery transaction)
    (hafter : transaction.terminate state classification reference = .ok after) :
    Confined recovery { after with nextProjectState := nextState } := by
  rw [PhaseTransaction.terminate_eq_ok hafter]
  exact ⟨h.name, h.paths, h.prefixes⟩

instance (payload : Fields) (classification nextState : String) :
    Call.Respects (Within recovery) (appendCompleted payload classification nextState) := by
  have hterminate (transaction : ConfinedTransaction recovery) (reference : Option String) :
      Call.Respects (Within recovery)
        (lift (transaction.1.terminate .completed classification reference) >>=
          fun terminated => do
            setTransaction { terminated with nextProjectState := some nextState }
            interrupt "after_terminal_event") := by
    refine within_lift fun terminated hterminated => ?_
    have : Fact (Confined recovery { terminated with nextProjectState := some nextState }) :=
      ⟨transaction.2.terminated hterminated⟩
    infer_instance
  unfold appendCompleted
  infer_instance

instance (terminal : Option LedgerEvent) (payload : Fields) (classification nextState : String) :
    Call.Respects (Within recovery)
      (completeTerminal terminal payload classification nextState) := by
  unfold completeTerminal
  split <;> infer_instance

instance (completion : Completion) (materialization : Materialization) :
    Call.Respects (Within recovery) (materialize completion materialization) := by
  unfold materialize
  infer_instance

instance : Call.Respects (Within recovery) releaseAfterTerminal := by
  unfold releaseAfterTerminal
  refine Call.Respects.bind inferInstance fun _ => ?_
  refine Call.Respects.bind inferInstance fun lease => ?_
  split <;> infer_instance

instance (nextState : String) (selected : Json) :
    Call.Respects (Within recovery) (projectCompleted nextState selected) := by
  unfold projectCompleted
  infer_instance

instance (completion : Completion) :
    Call.Respects (Within recovery) (completeThroughTerminal completion) := by
  unfold completeThroughTerminal
  infer_instance

instance (completion : Completion) : Call.Respects (Within recovery) (complete completion) := by
  unfold complete
  infer_instance

instance (transaction : PhaseTransaction) (name : String) (evidence : Fields) (nextState : Json) :
    Call.Respects (Within recovery) (runRecovery transaction name evidence nextState) := by
  unfold runRecovery
  infer_instance

end Operations

end RecoveryPlanner

end Conveyor
