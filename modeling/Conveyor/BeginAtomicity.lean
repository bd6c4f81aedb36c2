import Conveyor.KernelReplay
import Conveyor.SessionBinding
import Conveyor.Library.Cleanup

/-!
# Beginning all or nothing

`begin` and `begin_for_branch` (`kernel.py`) plan a transaction, set it in the kernel, take the
writer lease and only then write to the ledger. The handler that gives everything back stands
around the last part alone, and makes two calls on the lease file itself. `begin_clean_iff` says
after which failures nothing is left behind.
-/

namespace Conveyor

open Library EventType KernelCall WorkflowKernel SessionBinding

namespace BeginAtomicity

-- the size of an instance doubles with every part of a call, the time to find it does not
set_option synthInstance.maxSize 1000000000

/-! ### The two ways to begin -/

/-- A call of `begin` or `begin_for_branch` with its arguments. -/
inductive Start where
  | begin (request : PhaseTransaction.Request) (startEvidence : Fields)
      (expectedBranch expectedHead : Option String)
  | forBranch (request : PhaseTransaction.Request) (targetBranch : String)
      (expectedBranch expectedHead : Option String)

namespace Start

def run : Start → KernelCall PhaseTransaction
  | .begin request startEvidence expectedBranch expectedHead =>
      WorkflowKernel.begin request startEvidence expectedBranch expectedHead
  | .forBranch request targetBranch expectedBranch expectedHead =>
      beginForBranch request targetBranch expectedBranch expectedHead

/-- `begin` up to `self.transaction = transaction`. -/
def beginPlanned (request : PhaseTransaction.Request)
    (expectedBranch expectedHead : Option String) :
    KernelCall (RepositorySnapshot × PhaseTransaction) := do
  let kernel ← memory
  Call.check (kernel.transaction = none)
    (transactionError "kernel instance already owns a transaction")
  let provisional ← captureRepositorySnapshot
  let _ ← createTransaction request provisional
  interrupt "before_lease"
  let snapshot ← captureRepositorySnapshot
  Call.check (snapshot.operating = false)
    (transactionError "cannot begin a transaction during an active Git operation")
  Call.check (request.policy.requireCleanStart = true → snapshot.clean = true)
    (transactionError "new transaction requires a clean repository snapshot")
  Call.check (expectedStart expectedBranch snapshot.branch ∧
      expectedStart expectedHead snapshot.head)
    (transactionError "repository snapshot differs from the planned transaction start")
  let transaction ← createTransaction request snapshot
  return (snapshot, transaction)

/-- `begin_for_branch` up to `self.transaction = transaction`. -/
def branchPlanned (request : PhaseTransaction.Request) (targetBranch : String)
    (expectedBranch expectedHead : Option String) :
    KernelCall (RepositorySnapshot × PhaseTransaction) := do
  let kernel ← memory
  Call.check (kernel.transaction = none)
    (transactionError "kernel instance already owns a transaction")
  let live ← captureRepositorySnapshot
  let found ← Inspector.revParse targetBranch
  let targetHead ← lift (found.elim
    (.error (transactionError "target workflow branch does not exist")) .ok)
  Call.check (expectedStart expectedBranch targetBranch ∧ expectedStart expectedHead targetHead)
    (transactionError "target branch differs from the planned transaction start")
  Call.check (live.clean = true ∧ live.operating = false)
    (transactionError "target-branch workflow requires a clean repository")
  let targetQueue ← Inspector.committedQueueFingerprint targetHead
  let transaction ← createTransaction request
    { live with branch := targetBranch, head := targetHead, queueFingerprint := targetQueue }
  interrupt "before_lease"
  return (live, transaction)

def planned : Start → KernelCall (RepositorySnapshot × PhaseTransaction)
  | .begin request _ expectedBranch expectedHead =>
      beginPlanned request expectedBranch expectedHead
  | .forBranch request targetBranch expectedBranch expectedHead =>
      branchPlanned request targetBranch expectedBranch expectedHead

/-- The part under the handler. -/
def leased : Start → RepositorySnapshot → KernelCall Unit
  | .begin _ startEvidence _ _, _ => beginLeased startEvidence
  | .forBranch _ targetBranch _ _, live => beginBranchLeased live targetBranch

end Start

/-- From `self.transaction = transaction` on. -/
def owning (leased : KernelCall Unit) (transaction : PhaseTransaction) :
    KernelCall PhaseTransaction := do
  setTransaction transaction
  preacquireLease
  Call.handle leased abandonBegin
  WorkflowKernel.transition .leasePending
  requireTransaction

theorem bind_assoc {α β γ : Type} (call : KernelCall α) (rest : α → KernelCall β)
    (last : β → KernelCall γ) :
    (call >>= rest) >>= last = call >>= fun value => rest value >>= last := by
  funext e w
  change Call.bind (Call.bind call rest) last e w = Call.bind call _ e w
  unfold Call.bind
  rcases call e w with ⟨outcome, t⟩
  cases outcome <;> rfl

theorem run_eq (start : Start) :
    start.run = start.planned >>= fun plan => owning (start.leased plan.1) plan.2 := by
  cases start with
  | begin request startEvidence expectedBranch expectedHead =>
      simp only [Start.run, Start.planned, Start.beginPlanned, bind_assoc, pure_bind]
      rfl
  | forBranch request targetBranch expectedBranch expectedHead =>
      simp only [Start.run, Start.planned, Start.branchPlanned, bind_assoc, pure_bind]
      rfl

/-! ### What the parts leave alone -/

instance still_planned (start : Start) : Call.Respects Still start.planned := by
  have hlook {α : Type} (f : Environment → World → Result α) := still_look f
  cases start with
  | begin request startEvidence expectedBranch expectedHead =>
      unfold Start.planned Start.beginPlanned memory interrupt createTransaction
      infer_instance
  | forBranch request targetBranch expectedBranch expectedHead =>
      unfold Start.planned Start.branchPlanned memory interrupt createTransaction
        Inspector.revParse Inspector.committedQueueFingerprint
      infer_instance

/-- The kernel's fields and the lease stay, the ledger may grow. -/
structure Recording (w t : World) : Prop where
  kernel : t.kernel = w.kernel
  lease : t.lease = w.lease

instance : IsPreorder World Recording where
  refl _ := ⟨rfl, rfl⟩
  trans _ _ _ h h' := ⟨h'.kernel.trans h.kernel, h'.lease.trans h.lease⟩

theorem recording_of_still {α : Type} (call : KernelCall α) [h : Call.Respects Still call] :
    Call.Respects Recording call :=
  ⟨fun e w => ⟨(h.related e w).kernel, (h.related e w).lease⟩⟩

theorem recording_appendLedger (request : AppendRequest) :
    Call.Respects Recording (appendLedger request) := by
  refine Call.respects_attempt (fun w => ⟨rfl, rfl⟩) fun e w value t h => ?_
  simp only [bind_eq_ok, pure, Except.pure, Except.ok.injEq, Prod.mk.injEq] at h
  obtain ⟨-, -, -, -, -, rfl⟩ := h
  exact ⟨rfl, rfl⟩

instance recording_record (kind : EventType) (payload : Fields) :
    Call.Respects Recording (WorkflowKernel.record kind payload) := by
  have happend := recording_appendLedger
  unfold WorkflowKernel.record requireTransaction
  infer_instance

instance recording_leased (start : Start) (live : RepositorySnapshot) :
    Call.Respects Recording (start.leased live) := by
  have hlook {α : Type} (f : Environment → World → Result α) := still_look f
  have hread {α : Type} (f : Environment → World → Result α) :=
    recording_of_still (look f)
  have hsnapshot := recording_of_still captureRepositorySnapshot
  cases start with
  | begin request startEvidence expectedBranch expectedHead =>
      unfold Start.leased beginLeased requireTransaction
      infer_instance
  | forBranch request targetBranch expectedBranch expectedHead =>
      unfold Start.leased beginBranchLeased requireTransaction Inspector.revParse
        Inspector.committedQueueFingerprint
      infer_instance

/-- A kernel that owns a transaction still owns one. -/
def KeepsOwning (w t : World) : Prop :=
  w.kernel.transaction ≠ none → t.kernel.transaction ≠ none

instance : IsPreorder World KeepsOwning where
  refl _ := id
  trans _ _ _ h h' := h' ∘ h

theorem owning_of_recording {α : Type} (call : KernelCall α) [h : Call.Respects Recording call] :
    Call.Respects KeepsOwning call :=
  ⟨fun e w howning => (h.related e w).kernel ▸ howning⟩

theorem owning_act {α : Type} {f : Environment → World → Result (α × World)}
    (h : ∀ e w value t, f e w = .ok (value, t) → t.kernel = w.kernel) :
    Call.Respects KeepsOwning (act f) :=
  Call.respects_attempt (fun _ => id) fun e w value t hdone => by
    intro howning
    rwa [h e w value t hdone]

theorem owning_remember {change : Kernel → Kernel}
    (h : ∀ kernel, kernel.transaction ≠ none → (change kernel).transaction ≠ none) :
    Call.Respects KeepsOwning (remember change) :=
  ⟨fun _ w => h w.kernel⟩

theorem owning_acquireLeaseFile (request : AcquireRequest) :
    Call.Respects KeepsOwning (acquireLeaseFile request) := by
  refine owning_act fun e w value t h => ?_
  simp only [bind_eq_ok, pure, Except.pure, Except.ok.injEq, Prod.mk.injEq] at h
  obtain ⟨-, -, _, -, -, rfl⟩ := h
  rfl

theorem owning_releaseLease (expectation : LeaseExpectation) :
    Call.Respects KeepsOwning (releaseLease expectation) := by
  refine owning_act fun e w value t h => ?_
  split at h
  · cases h
  · simp only [bind_eq_ok, pure, Except.pure, Except.ok.injEq, Prod.mk.injEq] at h
    obtain ⟨-, -, -, -, -, rfl⟩ := h
    rfl

theorem owning_revalidateLease : Call.Respects KeepsOwning revalidateLease := by
  have hrecording := recording_of_still revalidateLease
  exact owning_of_recording _

instance owning_preacquire : Call.Respects KeepsOwning preacquireLease := by
  have hset (transaction : PhaseTransaction) : Call.Respects KeepsOwning
      (setTransaction transaction) := owning_remember fun _ _ => by simp
  have hkept (record : Option WorkflowLeaseRecord) : Call.Respects KeepsOwning
      (setPreacquired record) := owning_remember fun _ => id
  have hacquire := owning_acquireLeaseFile
  have hrevalidate := owning_revalidateLease
  unfold preacquireLease memory setLeaseIdentity acquireOwnLease requireTransaction
  refine @Call.respects_bind _ _ _ _ _ _ _ _ _ inferInstance fun kernel => ?_
  cases kernel.preacquiredLeaseRecord with
  | none => infer_instance
  | some record => infer_instance

instance owning_release : Call.Respects KeepsOwning releasePreacquiredLease := by
  have hkept (record : Option WorkflowLeaseRecord) : Call.Respects KeepsOwning
      (setPreacquired record) := owning_remember fun _ => id
  have hrelease := owning_releaseLease
  have hrevalidate := owning_revalidateLease
  unfold releasePreacquiredLease memory releaseOwnedLease requireTransaction
  refine @Call.respects_bind _ _ _ _ _ _ _ _ _ inferInstance fun kernel => ?_
  cases kernel.preacquiredLeaseRecord with
  | none => infer_instance
  | some record => infer_instance

/-! ### Taking the lease and giving it back -/

/-- The lease of the planned transaction can be taken, or it is the one that the kernel holds
    already. -/
structure Acquires (e : Environment) (w : World) (transaction : PhaseTransaction)
    (record : WorkflowLeaseRecord) : Prop where
  fault : e.fault w.clock = .none
  record :
    match w.kernel.preacquiredLeaseRecord with
    | none => w.lease = none ∧
        acquireRecord e.platform e.site e.process (leaseRequest e.project transaction)
          (e.drawn w.clock).uuid4 (e.drawn w.clock).utcNow = .ok record
    | some _ => w.lease = some record ∧
        revalidate e.site.resolve e.process (leaseExpectation e.project transaction) record = .ok ()

def withLease (transaction : PhaseTransaction) (record : WorkflowLeaseRecord) : PhaseTransaction :=
  { transaction with leaseIdentity := some record.leaseId }

/-- The world in which the kernel owns the transaction and its lease. -/
def acquired (w : World) (transaction : PhaseTransaction) (record : WorkflowLeaseRecord) : World :=
  { w with
    clock := w.clock + 1
    lease := some record
    kernel := { w.kernel with
      transaction := some (withLease transaction record)
      preacquiredLeaseRecord := some (w.kernel.preacquiredLeaseRecord.getD record) } }

variable {e : Environment} {w t : World} {transaction : PhaseTransaction}
  {record : WorkflowLeaseRecord}

theorem returns_acquireLeaseFile {request : AcquireRequest} :
    (acquireLeaseFile request).Returns e w record t ↔
      e.fault w.clock = .none ∧ w.lease = none ∧
        acquireRecord e.platform e.site e.process request (e.drawn w.clock).uuid4
          (e.drawn w.clock).utcNow = .ok record ∧
        t = World.tick { w with lease := some record } := by
  unfold acquireLeaseFile
  simp only [returns_act, bind_eq_ok, require_eq_ok, pure, Except.pure, Except.ok.injEq,
    Prod.mk.injEq, exists_const]
  constructor
  · rintro ⟨hfault, _, ⟨hfree, found, hrecord, rfl, rfl⟩, rfl⟩
    exact ⟨hfault, hfree, hrecord, rfl⟩
  · rintro ⟨hfault, hfree, hrecord, rfl⟩
    exact ⟨hfault, _, ⟨hfree, record, hrecord, rfl, rfl⟩, rfl⟩

theorem returns_acquireOwnLease (hplanned : w.kernel.transaction = some transaction) :
    acquireOwnLease.Returns e w record t ↔
      e.fault w.clock = .none ∧ w.lease = none ∧
        acquireRecord e.platform e.site e.process (leaseRequest e.project transaction)
          (e.drawn w.clock).uuid4 (e.drawn w.clock).utcNow = .ok record ∧
        t = World.tick { w with lease := some record } := by
  unfold acquireOwnLease
  rw [Call.returns_bind]
  simp only [returns_requireTransaction, Call.returns_bind, Call.returns_reads]
  constructor
  · rintro ⟨_, _, ⟨hbegun, rfl⟩, _, _, ⟨⟨⟩, rfl⟩, h⟩
    obtain rfl := Option.some.inj (hplanned.symm.trans hbegun)
    exact returns_acquireLeaseFile.mp h
  · intro h
    exact ⟨transaction, w, ⟨hplanned, rfl⟩, e.project, w, ⟨rfl, rfl⟩,
      returns_acquireLeaseFile.mpr h⟩

theorem returns_setLeaseIdentity (hplanned : w.kernel.transaction = some transaction) :
    (setLeaseIdentity record).Returns e w () t ↔
      t = { w with kernel := { w.kernel with
        transaction := some (withLease transaction record) } } := by
  unfold setLeaseIdentity
  simp only [Call.returns_bind, returns_requireTransaction, returns_setTransaction]
  constructor
  · rintro ⟨_, _, ⟨hbegun, rfl⟩, rfl⟩
    obtain rfl := Option.some.inj (hplanned.symm.trans hbegun)
    rfl
  · rintro rfl
    exact ⟨transaction, w, ⟨hplanned, rfl⟩, rfl⟩

/-- A kernel takes a lease and remembers it, or checks the one it remembers. -/
theorem returns_preacquireLease (hplanned : w.kernel.transaction = some transaction) :
    preacquireLease.Returns e w () t ↔
      ∃ record, Acquires e w transaction record ∧ t = acquired w transaction record := by
  have hmemory : memory.Returns e w w.kernel w := returns_memory.mpr ⟨rfl, rfl⟩
  rw [Call.Returns, preacquireLease, Call.bind_of_returns hmemory, ← Call.Returns]
  cases hremembered : w.kernel.preacquiredLeaseRecord with
  | some kept =>
      simp only [Call.returns_bind]
      constructor
      · rintro ⟨record, _, hrevalidate, hset⟩
        obtain ⟨_, hbegun, hfault, hheld, howned, rfl⟩ := returns_revalidateLease.mp hrevalidate
        obtain rfl := Option.some.inj (hplanned.symm.trans hbegun)
        obtain rfl := (returns_setLeaseIdentity (w := w.tick) hplanned).mp hset
        refine ⟨record, ⟨hfault, by rw [hremembered]; exact ⟨hheld, howned⟩⟩, ?_⟩
        simp only [acquired, World.tick, hremembered, ← hheld, Option.getD_some]
      · rintro ⟨record, ⟨hfault, hrecord⟩, rfl⟩
        rw [hremembered] at hrecord
        refine ⟨record, w.tick, returns_revalidateLease.mpr
          ⟨transaction, hplanned, hfault, hrecord.1, hrecord.2, rfl⟩, ?_⟩
        refine (returns_setLeaseIdentity (w := w.tick) hplanned).mpr ?_
        simp only [acquired, World.tick, hremembered, ← hrecord.1, Option.getD_some]
  | none =>
      simp only [Call.returns_bind, returns_acquireOwnLease hplanned]
      constructor
      · rintro ⟨record, _, ⟨hfault, hfree, hrecord, rfl⟩, _, _, hidentity, hset⟩
        have hheld : (World.tick { w with lease := some record }).kernel.transaction =
            some transaction := hplanned
        obtain rfl := (returns_setLeaseIdentity hheld).mp hidentity
        obtain rfl := returns_remember.mp hset
        refine ⟨record, ⟨hfault, by rw [hremembered]; exact ⟨hfree, hrecord⟩⟩, ?_⟩
        simp only [acquired, hremembered, Option.getD_none]
        rfl
      · rintro ⟨record, ⟨hfault, hrecord⟩, rfl⟩
        rw [hremembered] at hrecord
        have hheld : (World.tick { w with lease := some record }).kernel.transaction =
            some transaction := hplanned
        refine ⟨record, World.tick { w with lease := some record },
          ⟨hfault, hrecord.1, hrecord.2, rfl⟩, (), _,
          (returns_setLeaseIdentity hheld).mpr rfl, returns_remember.mpr ?_⟩
        simp only [acquired, hremembered, Option.getD_none]
        rfl

theorem returns_releaseLease {expectation : LeaseExpectation} :
    (releaseLease expectation).Returns e w () t ↔
      e.fault w.clock = .none ∧ ∃ record, w.lease = some record ∧
        releaseCheck e.site expectation record = .ok () ∧
        revalidate e.site.resolve e.process expectation record = .ok () ∧
        t = World.tick { w with lease := none } := by
  unfold releaseLease
  rw [returns_act]
  cases w.lease with
  | none => simp
  | some record =>
      simp only [bind_eq_ok, pure, Except.pure, Except.ok.injEq, Prod.mk.injEq, true_and,
        Option.some.injEq]
      constructor
      · rintro ⟨hfault, _, ⟨_, hchecked, _, howned, rfl⟩, rfl⟩
        exact ⟨hfault, record, rfl, hchecked, howned, rfl⟩
      · rintro ⟨hfault, _, rfl, hchecked, howned, rfl⟩
        exact ⟨hfault, _, ⟨_, hchecked, _, howned, rfl⟩, rfl⟩

/-- The handler gives the lease back when its two calls on the lease file come through. -/
theorem returns_releasePreacquiredLease {kept : WorkflowLeaseRecord}
    (hbegun : w.kernel.transaction = some transaction) (hheld : w.lease = some record)
    (hremembered : w.kernel.preacquiredLeaseRecord = some kept) :
    releasePreacquiredLease.Returns e w () t ↔
      (e.fault w.clock = .none ∧ e.fault (w.clock + 1) = .none ∧
        revalidate e.site.resolve e.process (leaseExpectation e.project transaction) record =
          .ok ()) ∧
        t = { w with
          clock := w.clock + 2
          lease := none
          kernel := { w.kernel with preacquiredLeaseRecord := none } } := by
  have hmemory : memory.Returns e w w.kernel w := returns_memory.mpr ⟨rfl, rfl⟩
  rw [Call.Returns, releasePreacquiredLease, Call.bind_of_returns hmemory, hremembered,
    ← Call.Returns]
  constructor
  · intro h0
    obtain ⟨_, _, hrevalidate, h1⟩ := Call.returns_bind.mp h0
    obtain ⟨_, hbegun', hfault0, hheld', howned, rfl⟩ := returns_revalidateLease.mp hrevalidate
    obtain rfl := Option.some.inj (hbegun.symm.trans hbegun')
    obtain rfl := Option.some.inj (hheld.symm.trans hheld')
    obtain ⟨_, _, hrelease, h2⟩ := Call.returns_bind.mp h1
    unfold releaseOwnedLease at hrelease
    obtain ⟨_, _, hrequire, hrelease1⟩ := Call.returns_bind.mp hrelease
    obtain ⟨hbegun', rfl⟩ := returns_requireTransaction.mp hrequire
    obtain rfl := Option.some.inj (hbegun.symm.trans hbegun')
    obtain ⟨_, _, hproject, hrelease2⟩ := Call.returns_bind.mp hrelease1
    obtain ⟨⟨⟩, rfl⟩ := Call.returns_reads.mp hproject
    obtain ⟨hfault1, _, -, -, -, rfl⟩ := returns_releaseLease.mp hrelease2
    obtain rfl := returns_remember.mp h2
    exact ⟨⟨hfault0, hfault1, howned⟩, rfl⟩
  · rintro ⟨⟨hfault0, hfault1, howned⟩, rfl⟩
    have hchecked : releaseCheck e.site (leaseExpectation e.project transaction) record = .ok () :=
      require_eq_ok.mpr (Or.inr ⟨Option.some_ne_none _, Option.some_ne_none _,
        Option.some_ne_none _⟩)
    refine Call.returns_bind.mpr ⟨record, w.tick, returns_revalidateLease.mpr
      ⟨_, hbegun, hfault0, hheld, howned, rfl⟩, ?_⟩
    refine Call.returns_bind.mpr ⟨(), World.tick { w.tick with lease := none }, ?_,
      returns_remember.mpr rfl⟩
    unfold releaseOwnedLease
    refine Call.returns_bind.mpr ⟨_, w.tick, returns_requireTransaction.mpr ⟨hbegun, rfl⟩, ?_⟩
    refine Call.returns_bind.mpr ⟨e.project, w.tick, Call.returns_reads.mpr ⟨rfl, rfl⟩, ?_⟩
    exact returns_releaseLease.mpr ⟨hfault1, record, hheld, hchecked, howned, rfl⟩

/-! ### What a failed beginning leaves -/

/-- The kernel owns no transaction, no lease file is there that was not there before, and the
    ledger is as before. -/
structure NothingLeft (w t : World) : Prop where
  transaction : t.kernel.transaction = none
  lease : ∀ record, t.lease = some record → w.lease = some record
  events : t.events = w.events

/-- The planned transaction takes its lease, the part under the handler fails before it has written
    to the ledger, and the handler's two calls on the lease file come through. -/
def GivenBack (e : Environment) (u : World) (leased : KernelCall Unit)
    (transaction : PhaseTransaction) : Prop :=
  ∃ record failure v, Acquires e u transaction record ∧
    leased e (acquired u transaction record) = (.raised failure, v) ∧ v.events = u.events ∧
    e.fault v.clock = .none ∧ e.fault (v.clock + 1) = .none ∧
    revalidate e.site.resolve e.process (leaseExpectation e.project (withLease transaction record))
      record = .ok ()

/-- The call fails before it owns a transaction, or it gives back what it took. -/
def Undone (e : Environment) (w : World) (start : Start) : Prop :=
  (∃ failure t, start.planned e w = (.raised failure, t)) ∨
    ∃ live transaction u, start.planned.Returns e w (live, transaction) u ∧
      GivenBack e u (start.leased live) transaction

instance owning_transition (target : TransactionState) :
    Call.Respects KeepsOwning (WorkflowKernel.transition target) := by
  have hset (transaction : PhaseTransaction) : Call.Respects KeepsOwning
      (setTransaction transaction) := owning_remember fun _ _ => by simp
  unfold WorkflowKernel.transition requireTransaction lift
  infer_instance

instance owning_requireTransaction : Call.Respects KeepsOwning requireTransaction :=
  Call.respects_reads _

/-- What remains after the part under the handler. -/
theorem handled_clean_iff {leased : KernelCall Unit} [hleased : Call.Respects Recording leased]
    {u : World} {failure : Failure}
    (h : (do
      Call.handle leased abandonBegin
      WorkflowKernel.transition .leasePending
      requireTransaction : KernelCall PhaseTransaction) e (acquired u transaction record) =
        (.raised failure, t)) :
    NothingLeft u t ↔ ∃ failure v,
      leased e (acquired u transaction record) = (.raised failure, v) ∧ v.events = u.events ∧
        e.fault v.clock = .none ∧ e.fault (v.clock + 1) = .none ∧
        revalidate e.site.resolve e.process
          (leaseExpectation e.project (withLease transaction record)) record = .ok () := by
  rcases hresult : leased e (acquired u transaction record) with ⟨outcome, v⟩
  have hv : Recording (acquired u transaction record) v := Call.Respects.of_eq hresult
  have hbegun : v.kernel.transaction = some (withLease transaction record) := by
    rw [hv.kernel]
    rfl
  have hkeeps {x : World} (hx : KeepsOwning v x) : ¬NothingLeft u x :=
    fun hnothing => hx (hbegun ▸ Option.some_ne_none _) hnothing.transaction
  cases outcome with
  | died =>
      have hhandle : Call.handle leased abandonBegin e (acquired u transaction record) =
          (.died, v) := Call.handle_of_died hresult
      rw [Call.bind_of_died hhandle] at h
      cases congrArg Prod.fst h
  | returned done =>
      have hhandle : (Call.handle leased abandonBegin).Returns e
          (acquired u transaction record) done v := Call.returns_handle.mpr (.inl hresult)
      rw [Call.bind_of_returns hhandle] at h
      refine iff_of_false (hkeeps (Call.Respects.of_eq h)) ?_
      rintro ⟨other, _, hraised, -⟩
      cases congrArg Prod.fst hraised
  | raised other =>
      have hhandle : Call.handle leased abandonBegin e (acquired u transaction record) =
          abandonBegin other e v := Call.handle_of_raised hresult
      have hreleases {x : World} := returns_releasePreacquiredLease (e := e) (t := x) hbegun
        hv.lease (by rw [hv.kernel]; rfl)
      rcases hrelease : releasePreacquiredLease e v with ⟨outcome, x⟩
      cases outcome with
      | died =>
          have habandon : abandonBegin other e v = (.died, x) := Call.bind_of_died hrelease
          rw [Call.bind_of_died (hhandle.trans habandon)] at h
          cases congrArg Prod.fst h
      | raised second =>
          have habandon : abandonBegin other e v = (.raised second, x) :=
            Call.bind_of_raised hrelease
          rw [Call.bind_of_raised (hhandle.trans habandon)] at h
          obtain ⟨-, rfl⟩ := Prod.mk.inj h
          refine iff_of_false (hkeeps (Call.Respects.of_eq hrelease)) ?_
          rintro ⟨_, _, ⟨⟩, -, hcomesThrough⟩
          have hreturns := hreleases.mpr ⟨hcomesThrough, rfl⟩
          rw [Call.Returns, hrelease] at hreturns
          cases congrArg Prod.fst hreturns
      | returned done =>
          obtain ⟨hcomesThrough, rfl⟩ := hreleases.mp hrelease
          have habandon : abandonBegin other e v = (.raised other, { v with
              clock := v.clock + 2
              lease := none
              kernel := { v.kernel with
                transaction := none, preacquiredLeaseRecord := none } }) := by
            unfold abandonBegin
            rw [Call.bind_of_returns hrelease]
            rfl
          rw [Call.bind_of_raised (hhandle.trans habandon)] at h
          obtain ⟨-, rfl⟩ := Prod.mk.inj h
          constructor
          · intro hnothing
            exact ⟨other, v, rfl, hnothing.events, hcomesThrough⟩
          · rintro ⟨_, _, ⟨⟩, hevents, -⟩
            exact ⟨rfl, fun _ hlease => (Option.some_ne_none _ hlease.symm).elim, hevents⟩

/-- What remains of a transaction whose beginning raised after it was planned. -/
theorem owning_clean_iff {leased : KernelCall Unit} [hleased : Call.Respects Recording leased]
    {u : World} {failure : Failure}
    (h : owning leased transaction e u = (.raised failure, t)) :
    NothingLeft u t ↔ GivenBack e u leased transaction := by
  let planned : World := { u with kernel := { u.kernel with transaction := some transaction } }
  have hpreacquire {x : World} := returns_preacquireLease (e := e) (w := planned) (t := x) rfl
  unfold owning at h
  rw [Call.bind_of_returns (returns_setTransaction.mpr rfl)] at h
  rcases hpre : preacquireLease e planned with ⟨outcome, x⟩
  cases outcome with
  | died =>
      rw [Call.bind_of_died hpre] at h
      cases congrArg Prod.fst h
  | raised other =>
      rw [Call.bind_of_raised hpre] at h
      obtain ⟨-, rfl⟩ := Prod.mk.inj h
      have hx : KeepsOwning planned x := Call.Respects.of_eq hpre
      refine iff_of_false (fun hnothing => hx (Option.some_ne_none transaction)
        hnothing.transaction) ?_
      rintro ⟨record, -, -, hacquires, -⟩
      have hreturns : preacquireLease.Returns e planned () (acquired u transaction record) :=
        hpreacquire.mpr ⟨record, ⟨hacquires.fault, hacquires.record⟩, rfl⟩
      rw [Call.Returns, hpre] at hreturns
      cases congrArg Prod.fst hreturns
  | returned value =>
      obtain ⟨record, hacquires, rfl⟩ := hpreacquire.mp hpre
      rw [Call.bind_of_returns hpre] at h
      rw [handled_clean_iff (u := u) h]
      constructor
      · rintro ⟨failure', v, hrest⟩
        exact ⟨record, failure', v, ⟨hacquires.fault, hacquires.record⟩, hrest⟩
      · rintro ⟨record', failure', v, hacquires', hrest⟩
        have hsame : (acquired u transaction record').lease =
            (acquired u transaction record).lease := by
          have hreturns : preacquireLease.Returns e planned () (acquired u transaction record') :=
            hpreacquire.mpr ⟨record', ⟨hacquires'.fault, hacquires'.record⟩, rfl⟩
          rw [Call.Returns, hpre] at hreturns
          exact congrArg World.lease (Prod.mk.inj hreturns).2.symm
        obtain rfl := Option.some.inj hsame
        exact ⟨failure', v, hrest⟩

/-- A beginning that raised left nothing behind exactly when it was undone. -/
theorem begin_clean_iff (start : Start) (w t : World) (e : Environment) (failure : Failure)
    (hopen : w.kernel.transaction = none) (h : start.run e w = (.raised failure, t)) :
    NothingLeft w t ↔ Undone e w start := by
  rw [run_eq] at h
  rcases hplan : start.planned e w with ⟨outcome, u⟩
  have hstill : Still w u := Call.Respects.of_eq hplan
  cases outcome with
  | died =>
      rw [Call.bind_of_died hplan] at h
      cases congrArg Prod.fst h
  | raised other =>
      rw [Call.bind_of_raised hplan] at h
      obtain ⟨-, rfl⟩ := Prod.mk.inj h
      refine iff_of_true ⟨?_, fun _ hlease => ?_, hstill.events⟩ (Or.inl ⟨other, u, hplan⟩)
      · rw [hstill.kernel, hopen]
      · rwa [hstill.lease] at hlease
  | returned plan =>
      obtain ⟨live, transaction⟩ := plan
      rw [Call.bind_of_returns hplan] at h
      have hnothing : NothingLeft w t ↔ NothingLeft u t := by
        constructor
        · rintro ⟨htransaction, hlease, hevents⟩
          rw [← hstill.lease, ← hstill.events] at *
          exact ⟨htransaction, hlease, hevents⟩
        · rintro ⟨htransaction, hlease, hevents⟩
          rw [hstill.lease, hstill.events] at *
          exact ⟨htransaction, hlease, hevents⟩
      rw [hnothing, owning_clean_iff h]
      constructor
      · intro hback
        exact Or.inr ⟨live, transaction, u, hplan, hback⟩
      · rintro (⟨other, v, hraised⟩ | ⟨live', transaction', u', hreturns, hback⟩)
        · rw [hplan] at hraised
          cases congrArg Prod.fst hraised
        · rw [Call.Returns, hplan] at hreturns
          obtain ⟨hvalue, rfl⟩ := Prod.mk.inj hreturns
          cases hvalue
          exact hback

/-! ### A lease that another process holds -/

def takenRequest : PhaseTransaction.Request where
  workflowType := .featureExecution
  milestone := some "M001"
  featureId := some "F001"
  runId := "run-2"
  policy := { allowedPaths := ["README.md"], requireCleanStart := false }

/-- A repository whose writer lease another process holds. -/
def takenWorld : World := { sampleFiles.world with lease := some (repairLease none) }

/-- The kernel keeps the transaction for which it could not take the lease. -/
theorem taken_lease_keeps_transaction :
    ∃ start e w failure t, w.kernel.transaction = none ∧
      Start.run start e w = (.raised failure, t) ∧ ¬NothingLeft w t :=
  ⟨.begin takenRequest [] none none, repairProcess, takenWorld, _,
    (Start.run (.begin takenRequest [] none none) repairProcess takenWorld).2, rfl, rfl,
      fun hnothing => Option.some_ne_none _ hnothing.transaction⟩

theorem taken_lease_not_undone :
    ¬Undone repairProcess takenWorld (.begin takenRequest [] none none) := by
  intro hundone
  have hnothing := (begin_clean_iff (.begin takenRequest [] none none) takenWorld
    (Start.run (.begin takenRequest [] none none) repairProcess takenWorld).2 repairProcess
    (lockError "repository writer lease already exists") rfl rfl).mpr hundone
  exact Option.some_ne_none _ hnothing.transaction

end BeginAtomicity

end Conveyor
