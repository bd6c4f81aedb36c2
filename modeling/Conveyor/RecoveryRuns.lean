import Conveyor.RecoveryInspection
import Conveyor.SessionBinding

/-!
# Runs of recoveries

However `apply` ends, it leaves the repository as it is and records events of two transactions
only: its own and the one it recovers. `recovery_confined` says what it may record with the other
one, `recoveries_bounded` that recoveries of recoveries do not pile up, and `recovery_stuck` where
they stop for good.
-/

namespace Conveyor

open Library EventType KernelCall WorkflowKernel MutationReaders

namespace RecoveryPlanner

-- the size of an instance doubles with every part of a call, the time to find it does not
set_option synthInstance.maxSize 1000000000

/-! ### What a recovery records -/

/-- The types of the events that a recovery records with the transaction it recovers, but for a
    commit that it adopts. -/
def OUTCOMES : List EventType :=
  [transactionCompleted, recoveryApplied, transactionSuperseded, leaseAcquired]

/-- The event is the recovery's own, or settles the recovered transaction. -/
def Settling (recovery recovered : String) (adopts : LedgerEvent → Prop) (event : LedgerEvent) :
    Prop :=
  event.transactionId = recovery ∨ (event.transactionId = recovered ∧
    (event.eventType ∈ OUTCOMES ∨ (event.eventType = commitFinalized ∧ adopts event)))

/-- The repository is the same, and the ledger grew by settling events; of the transactions it
    names now, only the recovery's is new. -/
structure Recovers (recovery recovered : String) (adopts : LedgerEvent → Prop)
    (before after : World) : Prop where
  repository : after.repository = before.repository
  events : ∃ recorded, after.events = before.events ++ recorded ∧
    ∀ event ∈ recorded, Settling recovery recovered adopts event
  known : ∀ event ∈ after.events, event.transactionId = recovery ∨
    event.transactionId ∈ transactionIds before.events

variable {recovery recovered : String} {adopts : LedgerEvent → Prop} {α : Type}
  {before after : World}

theorem mem_transactionIds {events : List LedgerEvent} {transactionId : String} :
    transactionId ∈ transactionIds events ↔
      ∃ event ∈ events, event.transactionId = transactionId := by
  simp [transactionIds]

theorem Recovers.of_same (hrepository : after.repository = before.repository)
    (hevents : after.events = before.events) :
    Recovers recovery recovered adopts before after where
  repository := hrepository
  events := ⟨[], by simp [hevents], by simp⟩
  known event hevent := Or.inr (mem_transactionIds.mpr ⟨event, hevents ▸ hevent, rfl⟩)

theorem Recovers.of_extends (h : Extends recovery before after) :
    Recovers recovery recovered adopts before after := by
  obtain ⟨recorded, hrecorded, hown⟩ := h.events
  refine ⟨h.repository, ⟨recorded, hrecorded, fun event hevent => Or.inl (hown event hevent)⟩, ?_⟩
  intro event hevent
  rw [hrecorded] at hevent
  rcases List.mem_append.mp hevent with hold | hnew
  · exact Or.inr (mem_transactionIds.mpr ⟨event, hold, rfl⟩)
  · exact Or.inl (hown event hnew)

theorem Recovers.trans {first second third : World}
    (h : Recovers recovery recovered adopts first second)
    (h' : Recovers recovery recovered adopts second third) :
    Recovers recovery recovered adopts first third := by
  obtain ⟨recorded, hrecorded, hsettling⟩ := h.events
  obtain ⟨recorded', hrecorded', hsettling'⟩ := h'.events
  refine ⟨h'.repository.trans h.repository, ⟨recorded ++ recorded', ?_, ?_⟩, ?_⟩
  · rw [hrecorded', hrecorded, List.append_assoc]
  · intro event hevent
    exact (List.mem_append.mp hevent).elim (hsettling event) (hsettling' event)
  · intro event hevent
    rcases h'.known event hevent with hown | hknown
    · exact Or.inl hown
    · obtain ⟨earlier, hearlier, hname⟩ := mem_transactionIds.mp hknown
      exact hname ▸ h.known earlier hearlier

instance : IsPreorder World (Recovers recovery recovered adopts) where
  refl _ := .of_same rfl rfl
  trans _ _ _ h h' := h.trans h'

def Recovering (recovery recovered : String) (adopts : LedgerEvent → Prop) (before after : World) :
    Prop :=
  Owned recovery before.kernel →
    Owned recovery after.kernel ∧ Recovers recovery recovered adopts before after

instance : IsPreorder World (Recovering recovery recovered adopts) where
  refl _ howned := ⟨howned, .of_same rfl rfl⟩
  trans _ _ _ h h' howned := ⟨(h' (h howned).1).1, (h howned).2.trans (h' (h howned).1).2⟩

instance recovering_of_within {call : KernelCall α}
    [hcall : Call.Respects (Within recovery) call] :
    Call.Respects (Recovering recovery recovered adopts) call :=
  ⟨fun e w howned => ⟨(hcall.related e w howned).1, .of_extends (hcall.related e w howned).2⟩⟩

/-- An event that is not the first of its transaction is only appended to a known one. -/
theorem known_of_validateAppend {events : List LedgerEvent} {event : LedgerEvent}
    (hkind : event.eventType ≠ transactionStarted) (h : validateAppend events event = .ok ()) :
    event.transactionId ∈ transactionIds events := by
  simp only [validateAppend, if_neg hkind, bind_eq_ok, require_eq_ok, exists_const] at h
  obtain ⟨-, hhistory, -⟩ := h
  obtain ⟨kind, hmem⟩ := List.exists_mem_of_ne_nil _ hhistory
  simp only [historyOf, List.mem_map, List.mem_filter, decide_eq_true_eq] at hmem
  obtain ⟨earlier, ⟨hearlier, hname⟩, -⟩ := hmem
  exact mem_transactionIds.mpr ⟨earlier, hearlier, hname⟩

theorem Recovers.of_push {w : World} {event : LedgerEvent}
    (hsettling : Settling recovery recovered adopts event)
    (hkind : event.eventType ≠ transactionStarted)
    (hadmitted : validateAppend w.events event = .ok ()) :
    Recovers recovery recovered adopts w (w.push event).tick := by
  refine ⟨rfl, ⟨[event], rfl, List.forall_mem_singleton.mpr hsettling⟩, ?_⟩
  intro other hother
  rw [World.tick_events, World.push_events] at hother
  rcases List.mem_append.mp hother with hold | hnew
  · exact Or.inr (mem_transactionIds.mpr ⟨other, hold, rfl⟩)
  · rw [List.mem_singleton.mp hnew]
    exact Or.inr (known_of_validateAppend hkind hadmitted)

/-! ### Settling the recovered transaction -/

section Settling

variable {e : Environment} {w u t : World} {plan : Plan}

theorem recovering_appendLedger {request : AppendRequest}
    (hsettling : Settling recovery recovered adopts (builtEvent e w request))
    (hkind : request.eventType ≠ transactionStarted) :
    (appendLedger request).Ends e w (Recovering recovery recovered adopts w) := by
  refine Call.ends_attempt (fun howned => ⟨howned, .of_same rfl rfl⟩) fun value t h howned => ?_
  simp only [bind_eq_ok, pure, Except.pure, Except.ok.injEq, Prod.mk.injEq] at h
  obtain ⟨_, -, _, hadmitted, -, rfl⟩ := h
  exact ⟨howned, .of_push hsettling hkind hadmitted⟩

instance : Fact (transactionCompleted ∈ OUTCOMES) := ⟨by decide⟩
instance : Fact (recoveryApplied ∈ OUTCOMES) := ⟨by decide⟩
instance : Fact (transactionSuperseded ∈ OUTCOMES) := ⟨by decide⟩
instance : Fact (leaseAcquired ∈ OUTCOMES) := ⟨by decide⟩

theorem recovering_outcome {request : AppendRequest} (hname : request.transactionId = recovered)
    (hkind : request.eventType ∈ OUTCOMES) :
    Call.Respects (Recovering recovery recovered adopts) (appendLedger request) := by
  refine ⟨fun e w => recovering_appendLedger (Or.inr ⟨hname, Or.inl hkind⟩) fun hstarted => ?_⟩
  rw [hstarted] at hkind
  exact absurd hkind (by decide)

instance : Call.Respects Still (workflowOf plan) := Call.respects_reads _

instance (kind : EventType) (payload : Fields) [hkind : Fact (kind ∈ OUTCOMES)] :
    Call.Respects (Recovering recovery recovered adopts)
      (recordRecovered plan recovered kind payload) := by
  have happend (workflow : WorkflowType) : Call.Respects (Recovering recovery recovered adopts)
      (appendLedger { eventType := kind, transactionId := recovered, workflowType := workflow,
                      payload := payload }) := recovering_outcome rfl hkind.out
  unfold recordRecovered
  infer_instance

instance : Call.Respects Still repositoryNow := by
  unfold repositoryNow
  infer_instance

instance (envelope : Fields) : Call.Respects (Recovering recovery recovered adopts)
    (terminateRecovered plan recovered envelope) := by
  unfold terminateRecovered
  refine Call.Respects.bind inferInstance fun events => ?_
  refine Call.Respects.bind inferInstance fun terminal => ?_
  split <;> infer_instance

instance (name : String) (archived : Option String) (envelope : Fields) :
    Call.Respects (Recovering recovery recovered adopts)
      (finishRecovered plan recovered name archived envelope) := by
  unfold finishRecovered
  infer_instance

instance (name : String) (nextState : Json) : Call.Respects (Recovering recovery recovered adopts)
    (supersedeRecovery plan recovered name nextState) := by
  unfold supersedeRecovery
  infer_instance

instance (name : String) (archived : Option String) (nextState : Json) :
    Call.Respects (Recovering recovery recovered adopts)
      (resumeRecovered plan recovered name archived nextState) := by
  unfold resumeRecovered
  infer_instance

instance (name : String) (events : List LedgerEvent) :
    Call.Respects (Recovering recovery recovered adopts)
      (continueRecovered plan recovered name events) := by
  have happend (workflow : WorkflowType) (payload : Fields) :
      Call.Respects (Recovering recovery recovered adopts)
        (appendLedger { eventType := leaseAcquired, transactionId := recovered
                        workflowType := workflow, payload := payload }) :=
    recovering_outcome rfl (Fact.out : leaseAcquired ∈ OUTCOMES)
  unfold continueRecovered
  infer_instance

instance (name : String) (events : List LedgerEvent) (archived : Option String)
    (completed : Fields) : Call.Respects (Recovering recovery recovered adopts)
      (concludeRecovery plan recovered name events archived completed) := by
  unfold concludeRecovery
  infer_instance

/-- The event records the head of the repository as the final commit of a transaction that
    validated it. -/
structure Adopted (e : Environment) (w : World) (event : LedgerEvent) : Prop where
  commit : ∃ payload : Fields, event.payload = redactFields e.platform payload ∧
    payload.get "commit" = .str w.repository.head
  clean : ∃ time, w.repository.isClean (e.ignored time) (e.worktree time) = true
  transaction : ∃ transaction, transaction.transactionId = event.transactionId ∧
    Recorded w.events transaction ∧ Validated e.platform e.git w.repository transaction

theorem adoptCommit_ends (hsound : Sound e w plan) :
    (adoptCommit plan (recoveredId plan)).Ends e u
      (Recovering recovery (recoveredId plan) (Adopted e w) u) := by
  unfold adoptCommit
  split
  · rename_i hclass
    obtain ⟨hcommit, hclean, transaction, hname, -, hrecorded, hvalidated⟩ := hsound hclass
    have hrecovered : transaction.transactionId = recoveredId plan := by
      rw [recoveredId, hname]
      rfl
    unfold recordRecovered
    refine Call.Ends.bind_related Call.Respects.ends fun workflow v h => ?_
    refine recovering_appendLedger (Or.inr ⟨rfl, Or.inr ⟨rfl, ?_⟩⟩) (by simp)
    refine ⟨⟨adoptedPayload plan, rfl, ?_⟩, hclean, transaction, hrecovered, hrecorded,
      hvalidated⟩
    rw [← hcommit]
    simp [adoptedPayload, Fields.get, Fields.get?_ofPairs, Fields.get?_cons]
  · exact Call.Respects.ends

theorem settleRecovered_ends (hsound : Sound e w plan) {name : String} {archived : Option String}
    {envelope : Fields} {nextState : Json} :
    (settleRecovered plan name archived envelope nextState).Ends e u
      (Recovering recovery (recoveredId plan) (Adopted e w) u) := by
  unfold settleRecovered
  refine Call.Ends.bind_related (adoptCommit_ends hsound) fun _ v _ => ?_
  exact Call.Respects.ends

end Settling

/-! ### The whole of `apply` -/

section Apply

variable {e : Environment} {w u t : World} {plan : Plan} {site : RecoverySite}

instance : Call.Respects Still (revalidateBaseline plan) := by
  unfold revalidateBaseline
  split
  · unfold revalidateFeatureBranch revalidateCommit adoptedDiff
    infer_instance
  · unfold revalidateCommit adoptedDiff
    infer_instance
  · unfold revalidateDirty
    infer_instance
  · infer_instance

/-- A new kernel owns no transaction yet. -/
theorem owned_newKernel {record : Option WorkflowLeaseRecord}
    (h : (newKernel record).Returns e w () t) : Owned recovery t.kernel := by
  rw [returns_remember.mp h]
  simp [Owned]

instance (active : Option WorkflowLeaseRecord) :
    Call.Respects (Within recovery) (releaseRecoveryLease recovery active) := by
  unfold releaseRecoveryLease
  split <;> infer_instance

instance (failure : Failure) : Call.Respects (Within recovery) (giveLeaseBack recovery failure) := by
  unfold giveLeaseBack
  infer_instance

theorem requests_recovery (hnamed : recovery ≠ "") (subject : String) (clean : Bool) :
    Requests recovery (recoveryRequest site (recoveryPolicy subject clean) recovery) :=
  ⟨hnamed, rfl, rfl, rfl⟩

theorem within_beginRecovery (hnamed : recovery ≠ "") (subject : String) (clean : Bool) :
    Call.Respects (Within recovery)
      (beginRecovery site plan (recoveryPolicy subject clean) recovery) := by
  have : Fact (Requests recovery
      (recoveryRequest site (recoveryPolicy subject clean) recovery)) :=
    ⟨requests_recovery hnamed subject clean⟩
  unfold beginRecovery
  infer_instance

/-- The events and the repository, whatever becomes of the lease and the kernel. -/
structure Quiet (w t : World) : Prop where
  repository : t.repository = w.repository
  events : t.events = w.events

instance : IsPreorder World Quiet where
  refl _ := ⟨rfl, rfl⟩
  trans _ _ _ h h' := ⟨h'.repository.trans h.repository, h'.events.trans h.events⟩

instance quiet_of_still {call : KernelCall α} [hcall : Call.Respects Still call] :
    Call.Respects Quiet call :=
  ⟨fun e w => ⟨(hcall.related e w).repository, (hcall.related e w).events⟩⟩

instance (record : WorkflowLeaseRecord) : Call.Respects Quiet (archiveStaleLease site record) := by
  refine Call.respects_attempt (fun _ => ⟨rfl, rfl⟩) fun e w value t h => ?_
  simp only [require_bind_eq_ok] at h
  obtain ⟨-, h⟩ := h
  split at h
  · cases h
  · simp only [require_bind_eq_ok, pure, Except.pure, Except.ok.injEq, Prod.mk.injEq] at h
    obtain ⟨-, -, rfl⟩ := h
    exact ⟨rfl, rfl⟩
  · simp only [require_bind_eq_ok, pure, Except.pure, Except.ok.injEq, Prod.mk.injEq] at h
    obtain ⟨-, -, rfl⟩ := h
    exact ⟨rfl, rfl⟩

instance (request : AcquireRequest) : Call.Respects Quiet (acquireLeaseFile request) := by
  refine Call.respects_attempt (fun _ => ⟨rfl, rfl⟩) fun e w value t h => ?_
  simp only [bind_eq_ok, pure, Except.pure, Except.ok.injEq, Prod.mk.injEq] at h
  obtain ⟨-, -, record, -, rfl, rfl⟩ := h
  exact ⟨rfl, rfl⟩

instance (simulation : Bool) (policy : MutationPolicy) (name : String)
    (old : Option WorkflowLeaseRecord) :
    Call.Respects Quiet (takeOver site simulation policy name old) := by
  unfold takeOver
  split
  · unfold takeOverFrom
    infer_instance
  · infer_instance

theorem recovers_of_owned {call : KernelCall α} (howned : Owned recovery w.kernel)
    (h : call.Ends e w (Recovering recovery recovered adopts w)) :
    call.Ends e w (Recovers recovery recovered adopts w) :=
  (h howned).2

/-- A recovery that its kernel owns, from its start on. -/
theorem settled_ends (hsound : Sound e w plan) {start : KernelCall PhaseTransaction}
    [hstart : Call.Respects (Within recovery) start] {name : String}
    {evidence envelope : Fields} {nextState : Json} {archived : Option String}
    {events : List LedgerEvent} :
    (start >>= fun transaction => runRecovery transaction name evidence nextState >>= fun _ =>
      settleRecovered plan name archived envelope nextState >>= fun _ =>
        complete (recoveryCompletion plan) >>= fun completed =>
          concludeRecovery plan (recoveredId plan) name events archived completed).Ends e u
      (Recovering recovery (recoveredId plan) (Adopted e w) u) := by
  refine Call.Ends.bind_related Call.Respects.ends fun transaction _ _ => ?_
  refine Call.Ends.bind_related Call.Respects.ends fun _ _ _ => ?_
  refine Call.Ends.bind_related (settleRecovered_ends hsound) fun _ _ _ => ?_
  exact Call.Respects.ends

instance recovers_of_quiet {call : KernelCall α} [hcall : Call.Respects Quiet call] :
    Call.Respects (Recovers recovery recovered adopts) call :=
  ⟨fun e w => .of_same (hcall.related e w).repository (hcall.related e w).events⟩

instance (record : Option WorkflowLeaseRecord) : Call.Respects Quiet (newKernel record) := by
  unfold newKernel remember
  refine Call.respects_update fun e w value t h => ?_
  simp only [Except.ok.injEq, Prod.mk.injEq] at h
  obtain ⟨-, rfl⟩ := h
  exact ⟨rfl, rfl⟩

theorem applyTaken_ends (hsound : Sound e w plan) (hnamed : recovery ≠ "") {subject : String}
    {clean : Bool} {taken : TakenOver} :
    (applyTaken site plan (recoveryPolicy subject clean) recovery taken).Ends e u
      (Recovers recovery (recoveredId plan) (Adopted e w) u) := by
  have hbegin : Call.Respects (Within recovery)
      (beginRecovery site plan (recoveryPolicy subject clean) recovery) :=
    within_beginRecovery hnamed subject clean
  unfold applyTaken
  refine Call.Ends.bind_related Call.Respects.ends fun ledger v _ => ?_
  refine Call.Ends.bind_related Call.Respects.ends fun _ x hkernel => ?_
  exact recovers_of_owned (owned_newKernel hkernel) (settled_ends hsound)

/-- The world after a recovery of the plan, however it ended. -/
def Applies (e : Environment) (w : World) (plan : Plan) (before after : World) : Prop :=
  ∃ recovery, Recovers recovery (recoveredId plan) (Adopted e w) before after

theorem Applies.of_quiet (h : Quiet u t) : Applies e w plan u t :=
  ⟨"", .of_same h.repository h.events⟩

theorem applies_bind {β : Type} {call : KernelCall β} {rest : β → KernelCall α}
    [hcall : Call.Respects Quiet call]
    (hrest : ∀ value v, call.Returns e u value v → (rest value).Ends e v (Applies e w plan v)) :
    (call >>= rest).Ends e u (Applies e w plan u) := by
  refine Call.Ends.bind (.of_quiet (hcall.related e u)) fun value v hvalue => ?_
  have hquiet : Quiet u v := Call.Respects.of_returns hvalue
  obtain ⟨recovery, hrecovers⟩ := hrest value v hvalue
  exact ⟨recovery, (Recovers.of_same hquiet.repository hquiet.events).trans hrecovers⟩

/-- A drawn identifier is no empty text. -/
theorem drawn_ne {v : World}
    (h : Call.Returns (Call.reads fun e w => .ok (e.drawn w.clock).uuid4 : KernelCall String)
      e u recovery v) : recovery ≠ "" := by
  obtain ⟨hdrawn, -⟩ := Call.returns_reads.mp h
  rw [← Except.ok.inj hdrawn]
  exact (e.drawn u.clock).uuid4_ne

theorem applyPlan_ends (hsound : Sound e w plan) {simulation clean : Bool} {subject : String} :
    (applyPlan site simulation plan (recoveryPolicy subject clean)).Ends e u
      (Applies e w plan u) := by
  unfold applyPlan
  refine applies_bind fun old _ _ => ?_
  refine applies_bind fun _ _ _ => ?_
  refine applies_bind fun recovery _ hdrawn => ?_
  refine applies_bind fun taken _ _ => ?_
  exact ⟨recovery, applyTaken_ends hsound (drawn_ne hdrawn)⟩

theorem repairProjection_ends : (repairProjection site plan).Ends e u (Applies e w plan u) := by
  unfold repairProjection
  refine applies_bind fun recovery _ hdrawn => ?_
  refine applies_bind fun current _ _ => ?_
  refine applies_bind fun _ _ hkernel => ?_
  have : Fact (Requests recovery (recoveryRequest site
      (recoveryPolicy "factory: repair projection" true) recovery)) :=
    ⟨requests_recovery (drawn_ne hdrawn) _ _⟩
  exact ⟨recovery, recovers_of_owned (owned_newKernel hkernel) Call.Respects.ends⟩

instance : Call.Respects Still (observationOnlyDirty plan) := by
  unfold observationOnlyDirty
  infer_instance

theorem applyInspected_ends (hsound : Sound e w plan) {simulation : Bool} :
    (applyInspected site simulation plan).Ends e u (Applies e w plan u) := by
  unfold applyInspected
  refine applies_bind fun _ _ _ => ?_
  refine applies_bind fun dirty _ _ => ?_
  split
  · exact repairProjection_ends
  · exact applyPlan_ends hsound

theorem apply_ends {simulation : Bool} :
    (apply site simulation).Ends e w fun t => ∃ plan, Applies e w plan w t := by
  unfold apply
  have hinspect : Quiet w (inspect site e w).2 := Call.Respects.related e w
  refine Call.Ends.bind ⟨{ classification := .noTransaction }, .of_quiet hinspect⟩
    fun plan u hplan => ?_
  have hquiet : Quiet w u := Call.Respects.of_returns hplan
  obtain ⟨recovery, hrecovers⟩ : (applyInspected site simulation plan).Ends e u
      (Applies e w plan u) := applyInspected_ends (inspect_sound hplan)
  exact ⟨plan, recovery, (Recovers.of_same hquiet.repository hquiet.events).trans hrecovers⟩

end Apply

/-! ### The incomplete transactions -/

section Incomplete

variable {e : Environment} {w u t : World} {plan : Plan} {site : RecoverySite}

/-- The transaction has its terminal event. -/
def Ended (transactionId : String) (w : World) : Prop :=
  ∃ event ∈ w.events, event.transactionId = transactionId ∧
    event.eventType ∈ TERMINAL_EVENT_TYPES

theorem terminated_iff {events : List LedgerEvent} {transactionId : String} :
    terminated events transactionId = true ↔ ∃ event ∈ events,
      event.transactionId = transactionId ∧ event.eventType ∈ TERMINAL_EVENT_TYPES := by
  simp [terminated, hasEvent, transactionEvents, and_assoc]

theorem mem_incompleteIds {events : List LedgerEvent} {transactionId : String} :
    transactionId ∈ incompleteIds events ↔
      transactionId ∈ transactionIds events ∧ ¬ terminated events transactionId = true := by
  simp [incompleteIds]

theorem nodup_incompleteIds (events : List LedgerEvent) : (incompleteIds events).Nodup :=
  (List.nodup_dedup _).filter _

theorem Ended.grows (hevents : ∃ recorded, t.events = w.events ++ recorded)
    (h : Ended recovery w) : Ended recovery t := by
  obtain ⟨recorded, hrecorded⟩ := hevents
  obtain ⟨event, hevent, hterminal⟩ := h
  exact ⟨event, hrecorded ▸ List.mem_append_left _ hevent, hterminal⟩

theorem Recovers.grows (h : Recovers recovery recovered adopts w t) :
    ∃ recorded, t.events = w.events ++ recorded := by
  obtain ⟨recorded, hrecorded, -⟩ := h.events
  exact ⟨recorded, hrecorded⟩

/-- Of the transactions that are incomplete after a recovery, only its own is new. -/
theorem Recovers.incomplete (h : Recovers recovery recovered adopts w t) {transactionId : String}
    (hincomplete : transactionId ∈ incompleteIds t.events) :
    transactionId = recovery ∨ transactionId ∈ incompleteIds w.events := by
  obtain ⟨hnamed, hopen⟩ := mem_incompleteIds.mp hincomplete
  obtain ⟨event, hevent, rfl⟩ := mem_transactionIds.mp hnamed
  rcases h.known event hevent with hown | hknown
  · exact Or.inl hown
  · refine Or.inr (mem_incompleteIds.mpr ⟨hknown, fun hterminated => hopen ?_⟩)
    exact terminated_iff.mpr (Ended.grows h.grows (terminated_iff.mp hterminated))

theorem Recovers.length_incomplete (h : Recovers recovery recovered adopts w t) :
    (incompleteIds t.events).length ≤ (incompleteIds w.events).length + 1 := by
  have hsubset : incompleteIds t.events ⊆ recovery :: incompleteIds w.events := by
    intro transactionId hincomplete
    exact List.mem_cons.mpr (h.incomplete hincomplete)
  exact (List.subperm_of_subset (nodup_incompleteIds _) hsubset).length_le

theorem Recovers.length_ended (h : Recovers recovery recovered adopts w t)
    (hended : Ended recovery t) :
    (incompleteIds t.events).length ≤ (incompleteIds w.events).length := by
  have hsubset : incompleteIds t.events ⊆ incompleteIds w.events := by
    intro transactionId hincomplete
    rcases h.incomplete hincomplete with rfl | hold
    · exact absurd (terminated_iff.mpr hended) (mem_incompleteIds.mp hincomplete).2
    · exact hold
  exact (List.subperm_of_subset (nodup_incompleteIds _) hsubset).length_le

end Incomplete

/-! ### A recovery that returns -/

section Returned

variable {e : Environment} {w u t : World} {plan : Plan} {site : RecoverySite}

theorem Extends.grows (h : Extends recovery w t) : ∃ recorded, t.events = w.events ++ recorded := by
  obtain ⟨recorded, hrecorded, -⟩ := h.events
  exact ⟨recorded, hrecorded⟩

theorem appendCompleted_ended {payload : Fields} {classification nextState : String}
    (howned : Owned recovery w.kernel)
    (h : (appendCompleted payload classification nextState).Returns e w () t) :
    Ended recovery t := by
  unfold appendCompleted at h
  obtain ⟨_, v, hrepository, hafter⟩ := Call.returns_bind.mp h
  obtain ⟨_, x, hinterrupt, hafter⟩ := Call.returns_bind.mp hafter
  obtain ⟨_, y, hrecorded, hafter⟩ := Call.returns_bind.mp hafter
  have hstill : Still w x :=
    trans_of Still (Call.Respects.of_returns hrepository) (Call.Respects.of_returns hinterrupt)
  obtain ⟨transaction, hbegun, happended⟩ := returns_record.mp hrecorded
  have hname := (howned transaction (hstill.kernel ▸ hbegun)).name
  obtain ⟨-, -, -, rfl⟩ := returns_appendLedger.mp happended
  simp only [Call.returns_bind, returns_requireTransaction, returns_memory, returns_lift,
    returns_setTransaction, returns_interrupt] at hafter
  obtain ⟨_, _, ⟨-, rfl⟩, _, _, ⟨-, rfl⟩, _, _, ⟨-, rfl⟩, _, _, hset, -, rfl⟩ := hafter
  obtain rfl := returns_setTransaction.mp hset
  exact ⟨_, List.mem_append_right _ (List.mem_singleton_self _), hname,
    by simp [TERMINAL_EVENT_TYPES]⟩

theorem completeTerminal_ended {terminal : Option LedgerEvent} {payload : Fields}
    {classification nextState : String} (howned : Owned recovery w.kernel)
    (hterminal : ∀ event ∈ terminal, event ∈ w.events ∧ event.transactionId = recovery ∧
      event.eventType ∈ TERMINAL_EVENT_TYPES)
    (h : (completeTerminal terminal payload classification nextState).Returns e w () t) :
    Ended recovery t := by
  cases terminal with
  | none => exact appendCompleted_ended howned h
  | some event =>
      obtain ⟨-, rfl⟩ := Call.returns_check.mp h
      exact ⟨event, hterminal event rfl⟩

theorem terminalEvent_mem {events : List LedgerEvent} {transactionId : String}
    {terminal : Option LedgerEvent} (h : terminalEvent events transactionId = .ok terminal)
    {event : LedgerEvent} (hevent : event ∈ terminal) :
    event ∈ events ∧ event.transactionId = transactionId ∧
      event.eventType ∈ TERMINAL_EVENT_TYPES := by
  unfold terminalEvent at h
  split at h
  · cases h
    cases hevent
  · rename_i found hfound
    cases h
    cases hevent
    have hmem := hfound ▸ List.mem_singleton_self event
    simpa using hmem
  · cases h

theorem completeThroughTerminal_ended {completion : Completion}
    {materialization : Materialization} (howned : Owned recovery w.kernel)
    (h : (completeThroughTerminal completion).Returns e w materialization t) :
    Ended recovery t := by
  unfold completeThroughTerminal at h
  simp only [Call.returns_bind, returns_requireTransaction, returns_memory, returns_lift,
    Call.returns_check, Call.returns_pure] at h
  obtain ⟨transaction, _, ⟨hbegun, rfl⟩, _, _, ⟨-, rfl⟩, read, u₁, hread, terminal, _,
    ⟨hterminal, rfl⟩, _, _, ⟨-, rfl⟩, snapshot, u₂, hsnapshot, _, _, ⟨-, rfl⟩, events, u₃,
    hevents, settled, u₄, hsettled, _, _, ⟨-, rfl⟩, _, _, hcompleted, -, rfl⟩ := h
  have hname := (howned transaction hbegun).name
  have hlooked : Within recovery _ u₃ :=
    trans_of _ (Call.Respects.of_returns hread) <|
      trans_of _ (Call.Respects.of_returns hsnapshot) (Call.Respects.of_returns hevents)
  have hwithin := trans_of (Within recovery) hlooked (Call.Respects.of_returns hsettled)
  obtain ⟨howned', hextends⟩ := hwithin howned
  obtain ⟨rfl, -⟩ := events_of_readLedger hread
  refine completeTerminal_ended howned' (fun event hevent => ?_) hcompleted
  obtain ⟨hmem, hown, hkind⟩ := terminalEvent_mem hterminal hevent
  obtain ⟨recorded, hrecorded⟩ := hextends.grows
  exact ⟨hrecorded ▸ List.mem_append_left _ hmem, hown.trans hname, hkind⟩

/-- A completion that returns leaves the terminal event of its transaction. -/
theorem complete_ended {completion : Completion} {projection : Fields}
    (howned : Owned recovery w.kernel)
    (h : (complete completion).Returns e w projection t) : Ended recovery t := by
  unfold complete at h
  obtain ⟨transaction, _, hrequired, hbegun⟩ := Call.returns_bind.mp h
  obtain ⟨-, rfl⟩ := returns_requireTransaction.mp hrequired
  obtain ⟨kernel, _, hmemory, hremembered⟩ := Call.returns_bind.mp hbegun
  obtain ⟨-, rfl⟩ := returns_memory.mp hmemory
  obtain ⟨materialization, u, hthrough, hafter⟩ := Call.returns_bind.mp hremembered
  have hended := completeThroughTerminal_ended howned hthrough
  have hbefore : Within recovery _ u := Call.Respects.of_returns hthrough
  have hrest : Within recovery u t := Call.Respects.of_returns hafter
  exact hended.grows (hrest (hbefore howned).1).2.grows

theorem applyTaken_ended (hsound : Sound e w plan) (hnamed : recovery ≠ "") {subject : String}
    {clean : Bool} {taken : TakenOver} {applied : Applied}
    (h : (applyTaken site plan (recoveryPolicy subject clean) recovery taken).Returns e u
      applied t) : Ended recovery t := by
  have hbegin : Call.Respects (Within recovery)
      (beginRecovery site plan (recoveryPolicy subject clean) recovery) :=
    within_beginRecovery hnamed subject clean
  unfold applyTaken at h
  obtain ⟨ledger, u₁, -, h₁⟩ := Call.returns_bind.mp h
  obtain ⟨_, u₂, hkernel, h₂⟩ := Call.returns_bind.mp h₁
  obtain ⟨transaction, u₃, hstarted, h₃⟩ := Call.returns_bind.mp h₂
  obtain ⟨_, u₄, hrun, h₄⟩ := Call.returns_bind.mp h₃
  obtain ⟨_, u₅, hsettled, h₅⟩ := Call.returns_bind.mp h₄
  obtain ⟨completed, u₆, hcompleted, hconcluded⟩ := Call.returns_bind.mp h₅
  have hbefore : Within recovery u₂ u₄ :=
    trans_of _ (Call.Respects.of_returns hstarted) (Call.Respects.of_returns hrun)
  have howned : Owned recovery u₄.kernel := (hbefore (owned_newKernel hkernel)).1
  have hsettle : Recovering recovery (recoveredId plan) (Adopted e w) u₄ u₅ :=
    (settleRecovered_ends hsound).of_returns hsettled
  have hended := complete_ended (hsettle howned).1 hcompleted
  have hcomplete : Recovering recovery (recoveredId plan) (Adopted e w) u₅ u₆ :=
    Call.Respects.of_returns hcompleted
  have hconclude : Recovering recovery (recoveredId plan) (Adopted e w) u₆ t :=
    Call.Respects.of_returns hconcluded
  exact hended.grows (hconclude (hcomplete (hsettle howned).1).1).2.grows

theorem applyPlan_ended (hsound : Sound e w plan) {simulation clean : Bool} {subject : String}
    {applied : Applied}
    (h : (applyPlan site simulation plan (recoveryPolicy subject clean)).Returns e u applied t) :
    ∃ recovery, Recovers recovery (recoveredId plan) (Adopted e w) u t ∧ Ended recovery t := by
  unfold applyPlan at h
  obtain ⟨old, u₁, hold, h₁⟩ := Call.returns_bind.mp h
  obtain ⟨_, u₂, hinterrupt, h₂⟩ := Call.returns_bind.mp h₁
  obtain ⟨recovery, u₃, hdrawn, h₃⟩ := Call.returns_bind.mp h₂
  obtain ⟨taken, u₄, htaken, happlied⟩ := Call.returns_bind.mp h₃
  have hnamed := drawn_ne hdrawn
  have hbefore : Quiet u u₄ :=
    trans_of _ (Call.Respects.of_returns hold) <|
      trans_of _ (Call.Respects.of_returns hinterrupt) <|
        trans_of _ (Call.Respects.of_returns hdrawn) (Call.Respects.of_returns htaken)
  refine ⟨recovery, ?_, applyTaken_ended hsound hnamed happlied⟩
  exact (Recovers.of_same hbefore.repository hbefore.events).trans
    ((applyTaken_ends hsound hnamed).of_returns happlied)

theorem repairProjection_ended {applied : Applied}
    (h : (repairProjection site plan).Returns e u applied t) :
    ∃ recovery, Recovers recovery (recoveredId plan) (Adopted e w) u t ∧ Ended recovery t := by
  unfold repairProjection at h
  obtain ⟨recovery, u₁, hdrawn, h₁⟩ := Call.returns_bind.mp h
  obtain ⟨current, u₂, hcurrent, h₂⟩ := Call.returns_bind.mp h₁
  obtain ⟨_, u₃, hkernel, h₃⟩ := Call.returns_bind.mp h₂
  obtain ⟨transaction, u₄, hbegun, h₄⟩ := Call.returns_bind.mp h₃
  obtain ⟨_, u₅, hlease, h₅⟩ := Call.returns_bind.mp h₄
  obtain ⟨_, u₆, hsnapshot, h₆⟩ := Call.returns_bind.mp h₅
  obtain ⟨_, u₇, hrun, h₇⟩ := Call.returns_bind.mp h₆
  obtain ⟨projection, u₈, hcompleted, hpure⟩ := Call.returns_bind.mp h₇
  obtain ⟨-, rfl⟩ := Call.returns_pure.mp hpure
  have : Fact (Requests recovery (recoveryRequest site
      (recoveryPolicy "factory: repair projection" true) recovery)) :=
    ⟨requests_recovery (drawn_ne hdrawn) _ _⟩
  have hbefore : Quiet u u₃ :=
    trans_of _ (Call.Respects.of_returns hdrawn) <|
      trans_of _ (Call.Respects.of_returns hcurrent) (Call.Respects.of_returns hkernel)
  have hwithin : Within recovery u₃ u₇ :=
    trans_of _ (Call.Respects.of_returns hbegun) <|
      trans_of _ (Call.Respects.of_returns hlease) <|
        trans_of _ (Call.Respects.of_returns hsnapshot) (Call.Respects.of_returns hrun)
  obtain ⟨howned, hextends⟩ := hwithin (owned_newKernel hkernel)
  have hcomplete : Within recovery u₇ t := Call.Respects.of_returns hcompleted
  refine ⟨recovery, ?_, complete_ended howned hcompleted⟩
  exact (Recovers.of_same hbefore.repository hbefore.events).trans
    (.of_extends (hextends.trans (hcomplete howned).2))

/-- A recovery that returns has ended its own transaction. -/
theorem apply_ended {simulation : Bool} {applied : Applied}
    (h : (apply site simulation).Returns e w applied t) :
    ∃ recovery recovered, Recovers recovery recovered (Adopted e w) w t ∧ Ended recovery t := by
  unfold apply at h
  obtain ⟨plan, u₁, hplan, h₁⟩ := Call.returns_bind.mp h
  unfold applyInspected at h₁
  obtain ⟨_, u₂, hchecked, h₂⟩ := Call.returns_bind.mp h₁
  obtain ⟨dirty, u₃, hdirty, h₃⟩ := Call.returns_bind.mp h₂
  have hbefore : Quiet w u₃ :=
    trans_of _ (Call.Respects.of_returns hplan) <|
      trans_of _ (Call.Respects.of_returns hchecked) (Call.Respects.of_returns hdirty)
  have hsame : ∃ recovery, Recovers recovery (recoveredId plan) (Adopted e w) u₃ t ∧
      Ended recovery t := by
    rcases Call.returns_ite.mp h₃ with ⟨-, hrepaired⟩ | ⟨-, happlied⟩
    · exact repairProjection_ended hrepaired
    · exact applyPlan_ended (inspect_sound hplan) happlied
  obtain ⟨recovery, hrecovers, hended⟩ := hsame
  exact ⟨recovery, recoveredId plan,
    (Recovers.of_same hbefore.repository hbefore.events).trans hrecovers, hended⟩

end Returned

/-! ### Three incomplete transactions -/

section Stuck

variable {e : Environment} {w t : World} {plan : Plan} {site : RecoverySite}

theorem admitted_several {events : List LedgerEvent} {found : Option (List String)}
    (hmany : 3 ≤ (incompleteIds events).length) (h : admitted events = .ok found) :
    found = none := by
  unfold admitted at h
  simp only [if_neg (show ¬(incompleteIds events).length ≤ 1 by omega), bind_eq_ok, pure,
    Except.pure, Except.ok.injEq] at h
  obtain ⟨candidates, -, rfl⟩ := h
  rw [if_neg]
  omega

/-- With three incomplete transactions no plan is carried out. -/
theorem inspect_several (hmany : 3 ≤ (incompleteIds w.events).length)
    (h : (inspect site).Returns e w plan t) :
    plan.recoverable = false ∧ plan.classification ∉ SIMULATED := by
  unfold inspect at h
  obtain ⟨evidence, u, hevidence, hrest⟩ := Call.returns_bind.mp h
  cases evidence with
  | error diagnostic =>
      obtain ⟨rfl, -⟩ := Call.returns_pure.mp hrest
      exact ⟨rfl, by simp [SIMULATED]⟩
  | ok events =>
      obtain rfl := events_of_readEvidence hevidence
      unfold inspectEvents at hrest
      rcases Call.returns_ite.mp hrest with ⟨hempty, -⟩ | ⟨-, hrest⟩
      · rw [hempty] at hmany
        exact absurd hmany (by decide)
      · obtain ⟨found, _, hfound, hjudged⟩ := Call.returns_bind.mp hrest
        obtain ⟨hadmitted, rfl⟩ := returns_lift.mp hfound
        obtain rfl := admitted_several hmany hadmitted
        obtain ⟨rfl, -⟩ := Call.returns_pure.mp hjudged
        exact ⟨rfl, by simp [SIMULATED, severalWriters]⟩

theorem applyInspected_refused {simulation : Bool} {u : World}
    (h : plan.recoverable = false ∧ plan.classification ∉ SIMULATED) :
    applyInspected site simulation plan e u = (.raised (notAuthorized plan), u) := by
  have hrefused : ¬(plan.recoverable = true ∨
      (simulation = true ∧ plan.classification ∈ SIMULATED)) := by
    rintro (hrecoverable | ⟨-, hsimulated⟩)
    · simp [h.1] at hrecoverable
    · exact h.2 hsimulated
  unfold applyInspected
  change Call.bind _ _ e u = _
  unfold Call.bind Call.check
  rw [if_neg hrefused]
  rfl

theorem apply_stuck (site : RecoverySite) (simulation : Bool) (e : Environment) (w : World)
    (hmany : 3 ≤ (incompleteIds w.events).length) :
    (∀ applied t, ¬(apply site simulation).Returns e w applied t) ∧
      Still w (apply site simulation e w).2 := by
  unfold apply
  constructor
  · intro applied t h
    obtain ⟨plan, u, hplan, happlied⟩ := Call.returns_bind.mp h
    unfold Call.Returns at happlied
    rw [applyInspected_refused (inspect_several hmany hplan)] at happlied
    cases happlied
  · have hinspect : Still w (inspect site e w).2 := Call.Respects.related e w
    refine Call.Ends.bind hinspect fun plan u hplan => ?_
    unfold Call.Ends
    rw [applyInspected_refused (inspect_several hmany hplan)]
    exact Call.Respects.of_returns hplan

/-- One recovery, however it ends. -/
def Attempt (before after : World) : Prop :=
  ∃ site simulation e, after = (apply site simulation e before).2

/-- Three incomplete transactions are a dead end: whatever the recoveries after them meet, none
    returns, and together they change neither the ledger nor the lease nor the repository. -/
theorem recovery_stuck (hmany : 3 ≤ (incompleteIds w.events).length)
    (h : Relation.ReflTransGen Attempt w t) :
    Still w t ∧ ∀ site simulation e applied u, ¬(apply site simulation).Returns e t applied u := by
  have hstill : Still w t := by
    induction h with
    | refl => exact refl_of Still w
    | tail _ hattempt ih =>
        obtain ⟨site, simulation, e, rfl⟩ := hattempt
        exact trans_of Still ih (apply_stuck site simulation e _ (ih.events ▸ hmany)).2
  refine ⟨hstill, fun site simulation e => ?_⟩
  exact (apply_stuck site simulation e t (hstill.events ▸ hmany)).1

end Stuck

/-! ### Recoveries one after another -/

/-- Recoveries of one project, and how many of them did not return. In between, the number of
    incomplete transactions only goes down, or stays at one writer. -/
inductive Recoveries : World → Nat → Prop
  | start {w : World} (hwriter : (incompleteIds w.events).length ≤ 1) : Recoveries w 0
  | between {w u : World} {n : Nat} (h : Recoveries w n)
      (hwriter : (incompleteIds u.events).length ≤ max 1 (incompleteIds w.events).length) :
      Recoveries u n
  | returned {w t : World} {n : Nat} {site : RecoverySite} {simulation : Bool} {e : Environment}
      {applied : Applied} (h : Recoveries w n)
      (hreturns : (apply site simulation).Returns e w applied t) : Recoveries t n
  | interrupted {w : World} {n : Nat} (site : RecoverySite) (simulation : Bool) (e : Environment)
      (h : Recoveries w n) : Recoveries (apply site simulation e w).2 (n + 1)

/-- A recovery that does not return leaves at most one more incomplete transaction, and never a
    fourth one. -/
theorem apply_bounded (site : RecoverySite) (simulation : Bool) (e : Environment) (w : World)
    (hbound : (incompleteIds w.events).length ≤ 3) :
    (incompleteIds (apply site simulation e w).2.events).length ≤
      min ((incompleteIds w.events).length + 1) 3 := by
  obtain ⟨plan, recovery, hrecovers⟩ : ∃ plan, Applies e w plan w (apply site simulation e w).2 :=
    apply_ends
  have hmore := hrecovers.length_incomplete
  by_cases hmany : 3 ≤ (incompleteIds w.events).length
  · have hstill : Still w (apply site simulation e w).2 :=
      (apply_stuck site simulation e w hmany).2
    rw [hstill.events]
    omega
  · omega

def sampleRecoverySite : RecoverySite where
  alive _ _ := false
  archiveRoot := "/repository/.conveyor/stale-leases"
  archive _ _ := .absent
  activeMilestone := some "M001"

/-- The start of a transaction, of a recovery where there is a transaction to recover. -/
def startedEntry (transactionId : String) (recovered : Option String) : LedgerEntry where
  eventId := "start of " ++ transactionId
  kind := transactionStarted
  transactionId := transactionId
  workflow := if recovered = none then .featureExecution else .recovery
  payload := Fields.ofPairs
    [("run_id", .str "run-1"), ("milestone", .str "M001"), ("feature_id", .str "F001"),
     ("starting_branch", .str "feature/F001"), ("starting_head", .str sampleHead),
     ("allowed_mutation_policy", .obj SessionBinding.repairPolicy.toFields),
     ("recovered_transaction_id", (recovered.map Json.str).getD .null)]

def recoveringEntries : List LedgerEntry :=
  [startedEntry "transaction-1" none, startedEntry "recovery-1" (some "transaction-1"),
   startedEntry "recovery-2" (some "recovery-1")]

def recoveringWorld (entries : List LedgerEntry) : World :=
  { sampleFiles.world with events := ledgerOf Platform.reference sampleIdentity entries }

set_option maxRecDepth 100000 in
theorem recoveringEntries_valid : EntriesValid recoveringEntries := by decide +kernel

theorem recoveringWorld_incomplete :
    (incompleteIds (recoveringWorld (recoveringEntries.take 1)).events).length = 1 ∧
      (incompleteIds (recoveringWorld recoveringEntries).events).length = 3 := by
  decide +kernel

theorem recovery_stuck_recovering :
    Still (recoveringWorld recoveringEntries) (apply sampleRecoverySite true sampleProcess
      (apply sampleRecoverySite false sampleProcess (recoveringWorld recoveringEntries)).2).2 :=
  (recovery_stuck recoveringWorld_incomplete.2.ge
    (.tail (.single ⟨_, _, _, rfl⟩) ⟨_, _, _, rfl⟩)).1

end RecoveryPlanner

end Conveyor
