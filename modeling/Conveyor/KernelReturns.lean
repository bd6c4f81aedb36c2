import Conveyor.KernelRestore

/-!
# What the kernel's calls return

The parts that the methods of the kernel share (`kernel.py`), each with what it found and what it
left when it returned.
-/

namespace Conveyor

open Library EventType KernelCall

namespace WorkflowKernel

variable {e : Environment} {w t : World} {transaction : PhaseTransaction}
  {record : WorkflowLeaseRecord} {sessionId : String}

theorem returns_requireTransaction :
    requireTransaction.Returns e w transaction t ↔
      w.kernel.transaction = some transaction ∧ t = w := by
  unfold requireTransaction
  rw [Call.returns_reads]
  cases w.kernel.transaction <;> simp

theorem revalidated_eq_ok {expectation : LeaseExpectation} {lease : Option WorkflowLeaseRecord} :
    revalidated e expectation lease = .ok record ↔
      lease = some record ∧ revalidate e.site.resolve e.process expectation record = .ok () := by
  cases lease with
  | none => simp [revalidated]
  | some found =>
      simp only [revalidated, bind_eq_ok, pure, Except.pure, Except.ok.injEq, Option.some.injEq]
      constructor
      · rintro ⟨_, hchecked, rfl⟩
        exact ⟨rfl, hchecked⟩
      · rintro ⟨rfl, hchecked⟩
        exact ⟨(), hchecked, rfl⟩

theorem returns_revalidateLease :
    revalidateLease.Returns e w record t ↔ ∃ transaction,
      w.kernel.transaction = some transaction ∧ e.fault w.clock = .none ∧ w.lease = some record ∧
        revalidate e.site.resolve e.process (leaseExpectation e.project transaction) record =
          .ok () ∧ t = w.tick := by
  unfold revalidateLease
  simp only [Call.returns_bind, returns_requireTransaction, returns_look, revalidated_eq_ok]
  constructor
  · rintro ⟨transaction, _, ⟨hbegun, rfl⟩, hfault, ⟨hheld, howned⟩, rfl⟩
    exact ⟨transaction, hbegun, hfault, hheld, howned, rfl⟩
  · rintro ⟨transaction, hbegun, hfault, hheld, howned, rfl⟩
    exact ⟨transaction, w, ⟨hbegun, rfl⟩, hfault, ⟨hheld, howned⟩, rfl⟩

theorem returns_validateMutationPaths {paths : List String} :
    (validateMutationPaths paths).Returns e w () t ↔
      e.fault w.clock = .none ∧ Inspector.firstProblem e w.clock paths = none ∧ t = w.tick := by
  unfold validateMutationPaths
  rw [returns_look]
  cases Inspector.firstProblem e w.clock paths <;> simp

theorem returns_bindSession {expectation : LeaseExpectation} :
    (bindSession expectation sessionId).Returns e w () t ↔
      e.fault w.clock = .none ∧ ∃ record, w.lease = some record ∧
        revalidate e.site.resolve e.process expectation record = .ok () ∧
        t = World.tick { w with lease := some { record with
          sessionId := some sessionId, lastHeartbeat := (e.drawn w.clock).utcNow } } := by
  unfold bindSession
  simp only [returns_act, bind_eq_ok, revalidated_eq_ok, pure, Except.pure, Except.ok.injEq,
    Prod.mk.injEq, true_and]
  constructor
  · rintro ⟨hfault, _, ⟨record, ⟨hheld, howned⟩, rfl⟩, rfl⟩
    exact ⟨hfault, record, hheld, howned, rfl⟩
  · rintro ⟨hfault, record, hheld, howned, rfl⟩
    exact ⟨hfault, _, ⟨record, ⟨hheld, howned⟩, rfl⟩, rfl⟩

theorem returns_setTransaction {after : PhaseTransaction} :
    (setTransaction after).Returns e w () t ↔
      t = { w with kernel := { w.kernel with transaction := some after } } :=
  returns_remember

theorem returns_transition {target : TransactionState} :
    (WorkflowKernel.transition target).Returns e w () t ↔ ∃ transaction moved,
      w.kernel.transaction = some transaction ∧ transaction.transition target = .ok moved ∧
        t = { w with kernel := { w.kernel with transaction := some moved } } := by
  unfold WorkflowKernel.transition
  simp only [Call.returns_bind, returns_requireTransaction, returns_lift, returns_setTransaction]
  constructor
  · rintro ⟨transaction, _, ⟨hbegun, rfl⟩, moved, _, ⟨hmoved, rfl⟩, rfl⟩
    exact ⟨transaction, moved, hbegun, hmoved, rfl⟩
  · rintro ⟨transaction, moved, hbegun, hmoved, rfl⟩
    exact ⟨transaction, _, ⟨hbegun, rfl⟩, moved, _, ⟨hmoved, rfl⟩, rfl⟩

theorem returns_appendLedger {request : AppendRequest} :
    (appendLedger request).Returns e w () t ↔ e.fault w.clock = .none ∧
      checkUncached e w = .ok () ∧ validateAppend w.events (builtEvent e w request) = .ok () ∧
        t = (w.push (builtEvent e w request)).tick := by
  unfold appendLedger
  simp only [returns_act, bind_eq_ok, pure, Except.pure, Except.ok.injEq, Prod.mk.injEq, true_and]
  constructor
  · rintro ⟨hfault, _, ⟨_, hchecked, _, hadmitted, rfl⟩, rfl⟩
    exact ⟨hfault, hchecked, hadmitted, rfl⟩
  · rintro ⟨hfault, hchecked, hadmitted, rfl⟩
    exact ⟨hfault, _, ⟨_, hchecked, _, hadmitted, rfl⟩, rfl⟩

/-- What is read from the ledger are its events. -/
theorem events_of_readLedger {events : List LedgerEvent} (h : readLedger.Returns e w events t) :
    events = w.events ∧ t = w.tick := by
  obtain ⟨-, hread, rfl⟩ := returns_look.mp h
  simp only [bind_eq_ok, Prod.exists, pure, Except.pure, Except.ok.injEq] at hread
  obtain ⟨integrity, found, hvalidate, rfl⟩ := hread
  exact ⟨(List.map_injective_iff.mpr LedgerEvent.toObject_injective
    (validate_eq_ok hvalidate).1).symm, rfl⟩

theorem returns_record {kind : EventType} {payload : Fields} :
    (WorkflowKernel.record kind payload).Returns e w () t ↔ ∃ transaction : PhaseTransaction,
      w.kernel.transaction = some transaction ∧
        (appendLedger { eventType := kind, transactionId := transaction.transactionId
                        workflowType := transaction.workflowType, payload := payload }).Returns
          e w () t := by
  unfold WorkflowKernel.record
  simp only [Call.returns_bind, returns_requireTransaction]
  constructor
  · rintro ⟨transaction, _, ⟨hbegun, rfl⟩, happended⟩
    exact ⟨transaction, hbegun, happended⟩
  · rintro ⟨transaction, hbegun, happended⟩
    exact ⟨transaction, _, ⟨hbegun, rfl⟩, happended⟩

end WorkflowKernel

end Conveyor
