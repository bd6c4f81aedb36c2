import Conveyor.KernelReplay
import Conveyor.ProjectionFold

/-!
# The steps of a completion

What `complete` records, one step after the other: the materialization it intends, the terminal
event, the acknowledgement, the release of the lease and the projection update. A completion that
is cut off has made the steps of a `Stage`.
-/

namespace Conveyor

open Library EventType KernelCall WorkflowKernel

inductive CompletionStep where
  | pending | completed | acknowledged | released | projected
deriving DecidableEq, Repr

namespace CompletionStep

def kind : CompletionStep → EventType
  | pending | acknowledged => checkpointRecorded
  | completed => transactionCompleted
  | released => leaseReleased
  | projected => projectionUpdated

end CompletionStep

def PENDING : String := "compatibility_materialization_pending"

def ACKNOWLEDGED : String := "compatibility_materialization_acknowledged"

/-- The call of `complete` that the steps belong to: its arguments, the transaction, the fields
    of the kernel and the repository it finds. -/
structure CompletionCall where
  platform : Platform
  completion : Completion
  transaction : PhaseTransaction
  kernel : Kernel
  snapshot : RepositorySnapshot

namespace CompletionCall

variable (call : CompletionCall)

/-- The identifier of the materialization that the caller describes. -/
def given : Option String :=
  call.completion.materialization.map fun descriptor =>
    call.platform.fingerprint (.obj descriptor)

/-- The payload of a step, for the routing state it names and the identifier it acknowledges. -/
def payload (nextState : String) (identifier : Json) : CompletionStep → Fields
  | .pending => Fields.ofPairs
      [("checkpoint", .str PENDING), ("materialization_id", .ofOption call.given),
       ("descriptor", .obj (call.completion.materialization.getD []))]
  | .completed => completedPayload call.transaction call.kernel.finalCommit
      (terminalClassification call.kernel call.completion) nextState call.snapshot
      call.completion.evidence
  | .acknowledged => Fields.ofPairs
      [("checkpoint", .str ACKNOWLEDGED), ("materialization_id", identifier)]
  | .released => [("lease_id", .ofOption call.transaction.leaseIdentity)]
  | .projected => projectionPayload nextState call.transaction.featureId
      (call.completion.evidence.get "selected_feature")

/-- The event records the step. -/
structure Records (step : CompletionStep) (event : LedgerEvent) : Prop where
  eventType : event.eventType = step.kind
  transactionId : event.transactionId = call.transaction.transactionId
  workflowType : event.workflowType = call.transaction.workflowType
  payload : ∃ nextState identifier,
    event.payload = redactFields call.platform (call.payload nextState identifier step)

end CompletionCall

/-! ### What a step records -/

section Records

variable {call : CompletionCall} {step : CompletionStep} {event other : LedgerEvent}

/-- The payload of `TransactionCompleted` before its defaults. -/
def terminalPayload (transaction : PhaseTransaction) (finalCommit : Option String)
    (classification nextState : String) (snapshot : RepositorySnapshot) (evidence : Fields) :
    Fields :=
  Fields.update (Fields.ofPairs
    [("classification", .str classification), ("reference", .ofOption finalCommit),
     ("feature_id", .ofOption transaction.featureId), ("next_state", .str nextState),
     ("terminal_snapshot", .obj (terminalSnapshot snapshot))]) evidence

section Payload

variable {transaction : PhaseTransaction} {finalCommit : Option String}
  {classification nextState nextState' : String} {snapshot : RepositorySnapshot}
  {evidence : Fields} {key : String}

theorem terminalPayload_get? :
    (terminalPayload transaction finalCommit classification nextState snapshot evidence).get? key =
      (Fields.get? evidence.reverse key).or
        (Fields.get? [("terminal_snapshot", .obj (terminalSnapshot snapshot)),
          ("next_state", .str nextState), ("feature_id", .ofOption transaction.featureId),
          ("reference", .ofOption finalCommit), ("classification", .str classification)] key) := by
  rw [terminalPayload, Fields.get?_update, Fields.get?_append, Fields.get?_ofPairs]
  cases Fields.get? evidence.reverse key <;> rfl

theorem withDefault_get? {payload : Fields} {field : String} {value : Json} (h : key ≠ field) :
    (withDefault payload field value).get? key = payload.get? key := by
  rw [withDefault]
  split
  · rfl
  · rw [Fields.get?_set_of_ne h]

theorem completedPayload_get? (haccepted : key ≠ "accepted_feature_commit")
    (hintegrated : key ≠ "integrated_commit") :
    (completedPayload transaction finalCommit classification nextState snapshot evidence).get? key =
      (terminalPayload transaction finalCommit classification nextState snapshot
        evidence).get? key := by
  unfold completedPayload
  dsimp only
  split <;> split
  · rw [withDefault_get? hintegrated, withDefault_get? haccepted]
    rfl
  · rw [withDefault_get? hintegrated]
    rfl
  · rw [withDefault_get? haccepted]
    rfl
  · rfl

/-- The evidence overrides no reserved field. -/
def KeepsReserved (evidence : Fields) : Prop :=
  RESERVED_TERMINAL_FIELDS.filter (· ∈ evidence.keys) = []

theorem KeepsReserved.get? (h : KeepsReserved evidence) (hkey : key ∈ RESERVED_TERMINAL_FIELDS) :
    Fields.get? evidence.reverse key = none := by
  have hnot : key ∉ evidence.keys := by
    have hall := List.filter_eq_nil_iff.mp h key hkey
    simpa using hall
  refine Fields.get?_eq_none_of_not_mem ?_
  simpa [Fields.keys, Dict.keys] using hnot

theorem completedPayload_reserved (h : KeepsReserved evidence)
    (hkey : key ∈ RESERVED_TERMINAL_FIELDS) :
    (completedPayload transaction finalCommit classification nextState snapshot evidence).get? key =
      Fields.get? [("terminal_snapshot", .obj (terminalSnapshot snapshot)),
          ("next_state", .str nextState), ("feature_id", .ofOption transaction.featureId),
          ("reference", .ofOption finalCommit), ("classification", .str classification)] key := by
  have haccepted : key ≠ "accepted_feature_commit" := by
    rintro rfl
    exact absurd hkey (by decide)
  have hintegrated : key ≠ "integrated_commit" := by
    rintro rfl
    exact absurd hkey (by decide)
  rw [completedPayload_get? haccepted hintegrated, terminalPayload_get?, h.get? hkey,
    Option.none_or]

end Payload

theorem isSensitiveKey_routing {P : Platform} {key : String}
    (h : key ∈ ["next_state", "current_state", "feature_id", "current_feature", "checkpoint",
      "materialization_id", "lease_id", "legacy_import"]) : isSensitiveKey P key = false := by
  simp only [List.mem_cons, List.not_mem_nil, or_false] at h
  rcases h with rfl | rfl | rfl | rfl | rfl | rfl | rfl | rfl <;>
    exact isSensitiveKey_of_ascii P (by decide) (by decide)

/-- The value of a plain field of a recorded step. -/
theorem CompletionCall.Records.get? (h : call.Records step event) {key : String}
    (hkey : isSensitiveKey call.platform key = false) :
    ∃ nextState identifier, event.payload.get? key =
      ((call.payload nextState identifier step).get? key).map (redactValue call.platform) := by
  obtain ⟨nextState, identifier, hpayload⟩ := h.payload
  refine ⟨nextState, identifier, ?_⟩
  rw [hpayload, get?_redactFields_of_not_sensitive _ hkey]

end Records

end Conveyor
