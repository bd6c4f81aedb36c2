import Conveyor.Library.JsonText
import Conveyor.Library.TextLines
import Conveyor.Transaction

/-!
# The terminal result of a session

What a session's output carries (`contracts.py`, `warning_evidence.py`): the last assistant
message of the event stream ends in one marked line, its object is completed from the
controller's own metadata (`normalizeCorroborated`), and the contract reads it
(`SessionResultEnvelope.fromDict`).

An envelope states what its object states: `extract_states` reads the classification, the next
state, the feature and the changed paths off the object, under the canonical name or the legacy
one.
-/

namespace Conveyor

open Library JsonText
open SessionResultEnvelope (schemaError)

/-! ### Warning evidence -/

/-- The boundary that hands the evidence in. -/
inductive WarningSource where
  | structured | deterministic
deriving DecidableEq, Repr

structure WarningEvidence where
  warningCount : Option Int
  warningsScope : Option String
  blockingWarnings : List String
  explicitWarnings : Option (List String)
  legacySummary : Bool
deriving DecidableEq, Repr

/-- `_string_array`: a list of nonempty texts. -/
def stringArray (value : Json) (field : String) : Except String (List String) :=
  match value with
  | .arr items =>
      if items.all isText then .ok (items.filterMap Json.asString?)
      else .error s!"queue validation {field} must be a string array"
  | _ => .error s!"queue validation {field} must be a string array"

/-- The warnings as a list, or the one summary an authorized legacy shape may hold. -/
def readWarnings (value : Fields) (source : WarningSource) (legacySummary : Option String) :
    Except String (Option (List String) × Option String) :=
  match value.get? "warnings" with
  | some (.arr items) => do
      let texts ← stringArray (.arr items) "warnings"
      return (some texts, none)
  | some (.str text) =>
      if source = .structured ∧ legacySummary = some text then .ok (none, some text)
      else .error "queue validation warnings must be a string array"
  | some _ => .error "queue validation warnings must be a string array"
  | none =>
      if source = .deterministic then
        .error "deterministic queue validation warnings must be a string array"
      else .ok (none, none)

def readWarningCount (value : Fields) (source : WarningSource)
    (explicit : Option (List String)) (summary : Option String) : Except String (Option Int) :=
  match value.get "warning_count" with
  | .null =>
      if source = .structured ∧ summary = none then
        .error "queue validation warning_count is required"
      else .ok (explicit.map fun texts => (texts.length : Int))
  | .int count =>
      if count < 0 then .error "queue validation warning_count must be a non-negative integer"
      else .ok (some count)
  | _ => .error "queue validation warning_count must be a non-negative integer"

def readWarningsScope (value : Fields) : Except String (Option String) :=
  match value.get "warnings_scope" with
  | .null => .ok none
  | .str text =>
      if Platform.hasText text then .ok (some text)
      else .error "queue validation warnings_scope must be a non-empty string"
  | _ => .error "queue validation warnings_scope must be a non-empty string"

/-- The canonical, the deterministic, or one explicitly authorized legacy shape. -/
def normalizeWarningEvidence (value : Fields) (source : WarningSource)
    (legacySummary : Option String) : Except String WarningEvidence := do
  let (explicit, summary) ← readWarnings value source legacySummary
  let count ← readWarningCount value source explicit summary
  require (∀ texts ∈ explicit, ∀ n ∈ count, n = texts.length)
    "queue validation warning_count disagrees with warnings"
  let scope ← readWarningsScope value
  require (¬(source = .deterministic ∧ (value.get? "blocking_warnings").isNone))
    "deterministic queue validation blocking_warnings must be a string array"
  let blocking ← stringArray (value.getD "blocking_warnings" (.arr [])) "blocking_warnings"
  require blocking.Nodup "queue validation blocking_warnings contains duplicates"
  require (∀ texts ∈ explicit, ∀ text ∈ blocking, text ∈ texts)
    "queue validation blocking_warnings must be included in warnings"
  return {
    warningCount := count
    warningsScope := summary.or scope
    blockingWarnings := blocking.insertionSort (· ≤ ·)
    explicitWarnings := explicit
    legacySummary := summary.isSome }

/-- What `SessionResultEnvelope.from_dict` asks of the queue validation. -/
def acceptsWarnings (value : Json) : Bool :=
  match value with
  | .obj queueValidation => (normalizeWarningEvidence queueValidation .structured none).isOk
  | _ => false

/-! ### Completing an object from the controller's metadata -/

/-- The controller's metadata of the session, complete. -/
structure Corroboration where
  workflowType : String
  projectId : String
  repositoryIdentity : String
  transactionId : String
  runId : String
  sessionId : String
  startingBranch : String
  startingCommit : String

namespace Corroboration

def REQUIRED : List String :=
  ["workflow_type", "project_id", "repository_identity", "transaction_id", "run_id",
   "session_id", "starting_branch", "starting_commit"]

def ofFields (corroborated : Fields) : Result Corroboration := do
  let unfit := sortedSet (REQUIRED.filter fun key => !isText (corroborated.get key))
  let names := ", ".intercalate unfit
  require (unfit = []) (schemaError
    s!"controller corroboration metadata is incomplete: {names}")
  let text := fun key => (corroborated.get key).asString?.getD ""
  return ⟨text "workflow_type", text "project_id", text "repository_identity",
    text "transaction_id", text "run_id", text "session_id", text "starting_branch",
    text "starting_commit"⟩

variable (corroborated : Corroboration)

/-- The legacy envelope is read for queue reconciliations only. -/
def compatibleQueue : Bool := corroborated.workflowType = WorkflowType.queueReconciliation.value

def expectedIdentity : List (String × String) :=
  [("project_id", corroborated.projectId),
   ("repository_identity", corroborated.repositoryIdentity),
   ("transaction_id", corroborated.transactionId), ("run_id", corroborated.runId),
   ("session_id", corroborated.sessionId), ("starting_branch", corroborated.startingBranch),
   ("starting_commit", corroborated.startingCommit)]

/-- The canonical names with their legacy ones. -/
def aliases : List (String × String) :=
  if corroborated.compatibleQueue then
    [("repository_identity", "repository"), ("classification", "result"),
     ("feature_id", "feature")]
  else []

end Corroboration

/-- The spellings of the state a reconciliation with ready work leads to. -/
def READY_STATES : List String := ["feature_preparation", "feature_preparing", "feature_ready"]

/-- Whether a reconciliation found ready work, under one of the spellings of its state. -/
def leadsToReady (compatibleQueue : Bool) (classification nextState : Json) : Bool :=
  compatibleQueue && decide (classification = .str "RECONCILED_READY_WORK") &&
    READY_STATES.any fun state => nextState = .str state

/-- The state of a reconciliation with ready work is looked up in the set of its spellings. -/
def lookUpState (compatibleQueue : Bool) (classification nextState : Json) : Result Unit :=
  if compatibleQueue = true ∧ classification = .str "RECONCILED_READY_WORK" then
    (hashKey nextState).map fun _ => ()
  else .ok ()

section Normalize

variable (numbers : Json → Json → Bool) (corroborated : Corroboration)

/-- One canonical name with its legacy one, which is dropped. -/
def resolveAlias (normalized : Fields) (names : String × String) : Result Fields := do
  let canonicalValue := normalized.get names.1
  let aliasValue := normalized.get names.2
  require (canonicalValue = .null ∨ aliasValue = .null ∨
      Json.equals numbers canonicalValue aliasValue = true)
    (schemaError
      s!"terminal session-result envelope has conflicting {names.1} and {names.2}")
  return ((if (normalized.get? names.1).isNone ∧ (normalized.get? names.2).isSome then
    normalized.set names.1 aliasValue else normalized).erase names.2)

/-- One name of the identity: as the controller knows it, and absent only in a legacy envelope
    and only for the project. -/
def resolveIdentity (normalized : Fields) (entry : String × String) : Result Fields := do
  let observed := normalized.get entry.1
  require (observed ≠ .null ∨ corroborated.compatibleQueue = true ∧ entry.1 = "project_id")
    (schemaError s!"terminal session-result envelope {entry.1} is absent")
  require (observed = .null ∨ observed = .str entry.2)
    (schemaError
      s!"terminal session-result envelope {entry.1} conflicts with controller metadata")
  return (if observed = .null then normalized.set entry.1 (.str entry.2) else normalized)

def resolveWorkflow (normalized : Fields) : Result Fields := do
  let observed := normalized.get "workflow_type"
  require (observed ≠ .null ∨ corroborated.compatibleQueue = true)
    (schemaError "terminal session-result envelope workflow_type is absent")
  require (observed = .null ∨ observed = .str corroborated.workflowType)
    (schemaError
      "terminal session-result envelope workflow_type conflicts with invoked workflow")
  return (if observed = .null then normalized.set "workflow_type" (.str corroborated.workflowType)
    else normalized)

/-- `_normalize_corroborated_terminal_envelope`. -/
def normalizeCorroborated (value : Fields) : Result Fields := do
  let named ← corroborated.aliases.foldlM (resolveAlias numbers) value
  let identified ← corroborated.expectedIdentity.foldlM (resolveIdentity corroborated) named
  let normalized ← resolveWorkflow corroborated identified
  lookUpState corroborated.compatibleQueue (normalized.get "classification")
    (normalized.get "next_state")
  return (if leadsToReady corroborated.compatibleQueue (normalized.get "classification")
      (normalized.get "next_state") = true then
    normalized.set "next_state" (.str "feature_ready") else normalized)

end Normalize

/-! ### The event stream -/

def TERMINAL_ENVELOPE_MARKER : List Char := "CONVEYOR_TRANSACTION_RESULT=".toList

/-- The text of a completed assistant message. -/
def agentMessage (event : Json) : Option String :=
  match event with
  | .obj fields =>
      if Fields.get fields "type" = .str "item.completed" then
        match Fields.get fields "item" with
        | .obj item =>
            if Fields.get item "type" = .str "agent_message" then (Fields.get item "text").asString? else none
        | _ => none
      else none
  | _ => none

/-- An integer the interpreter does not convert is not an error of the document. -/
def digitsError : Failure := ⟨.valueError, "Exceeds the limit for integer string conversion"⟩

variable (D : Decoding)

/-- The assistant messages of the lines, in their order; a line that is no document is skipped. -/
def assistantMessages : List (List Char) → Result (List String)
  | [] => .ok []
  | line :: rest =>
      match Json.loads D line with
      | .error .malformed => assistantMessages rest
      | .error .tooManyDigits => .error digitsError
      | .ok event => do
          let others ← assistantMessages rest
          return (agentMessage event).toList ++ others

/-- The object behind the one marker of a message, which is its last line that is not blank. -/
def markedObject (message : List Char) : Result Fields := do
  let lines := splitlines message
  let marked := lines.filter TERMINAL_ENVELOPE_MARKER.isPrefixOf
  require (marked.length = 1) (schemaError
    "terminal assistant result must contain exactly one envelope marker")
  let nonblank := lines.filter fun line => line.any fun c => !Platform.isSpace c
  require (TERMINAL_ENVELOPE_MARKER.isPrefixOf (nonblank.getLast?.getD []) = true)
    (schemaError
      "terminal session-result envelope marker must be the final nonblank line")
  match Json.loads D ((marked.headD []).drop TERMINAL_ENVELOPE_MARKER.length) with
  | .error .malformed =>
      .error (schemaError "terminal session-result envelope is invalid JSON")
  | .error .tooManyDigits => .error digitsError
  | .ok (.obj object) => .ok object
  | .ok _ =>
      .error (schemaError "terminal session-result envelope must be an object")

/-- A blank line has no marker. -/
theorem not_marked_of_blank {line : List Char} (h : ∀ c ∈ line, Platform.isSpace c = true) :
    TERMINAL_ENVELOPE_MARKER.isPrefixOf line = false := by
  rw [Bool.eq_false_iff]
  intro hmarked
  obtain ⟨text, rfl⟩ := List.isPrefixOf_iff_prefix.mp hmarked
  have hspace := h 'C' (List.mem_append_left _ (by decide))
  revert hspace
  decide

/-- The object of a message that ends in its one line with the marker, blank lines apart. -/
theorem markedObject_of_marked {message text : List Char} {front blanks : List (List Char)}
    {object : Fields}
    (hlines : splitlines message = front ++ (TERMINAL_ENVELOPE_MARKER ++ text) :: blanks)
    (hfront : ∀ line ∈ front, TERMINAL_ENVELOPE_MARKER.isPrefixOf line = false)
    (hblanks : ∀ line ∈ blanks, ∀ c ∈ line, Platform.isSpace c = true)
    (h : Json.loads D text = .ok (.obj object)) : markedObject D message = .ok object := by
  have hbegins : TERMINAL_ENVELOPE_MARKER.isPrefixOf (TERMINAL_ENVELOPE_MARKER ++ text) = true :=
    List.isPrefixOf_iff_prefix.mpr (List.prefix_append _ _)
  have hmarked : (splitlines message).filter TERMINAL_ENVELOPE_MARKER.isPrefixOf =
      [TERMINAL_ENVELOPE_MARKER ++ text] := by
    have hnone : front.filter TERMINAL_ENVELOPE_MARKER.isPrefixOf = [] :=
      List.filter_eq_nil_iff.mpr fun line hline => Bool.eq_false_iff.mp (hfront line hline)
    have hlater : blanks.filter TERMINAL_ENVELOPE_MARKER.isPrefixOf = [] :=
      List.filter_eq_nil_iff.mpr fun line hline =>
        Bool.eq_false_iff.mp (not_marked_of_blank (hblanks line hline))
    rw [hlines, List.filter_append, hnone, List.filter_cons_of_pos hbegins, hlater,
      List.nil_append]
  have hvisible : (TERMINAL_ENVELOPE_MARKER ++ text).any (fun c => !Platform.isSpace c) = true := by
    rw [List.any_append, Bool.or_eq_true]
    exact Or.inl (by decide +kernel)
  have hlast : ((splitlines message).filter fun line =>
      line.any fun c => !Platform.isSpace c).getLast? = some (TERMINAL_ENVELOPE_MARKER ++ text) := by
    have hlater : blanks.filter (fun line => line.any fun c => !Platform.isSpace c) = [] := by
      refine List.filter_eq_nil_iff.mpr fun line hline => ?_
      simpa using hblanks line hline
    rw [hlines, List.filter_append, List.filter_cons, if_pos hvisible, hlater]
    exact List.getLast?_concat
  simp only [markedObject, hmarked, hlast, Option.getD_some, List.headD_cons, List.drop_left, h]
  exact require_bind_eq_ok.mpr ⟨rfl, require_bind_eq_ok.mpr ⟨hbegins, rfl⟩⟩

/-- The object of a message whose last line is the only one with the marker. -/
theorem markedObject_of_lines {message text : List Char} {front : List (List Char)} {object : Fields}
    (hlines : splitlines message = front ++ [TERMINAL_ENVELOPE_MARKER ++ text])
    (hfront : ∀ line ∈ front, TERMINAL_ENVELOPE_MARKER.isPrefixOf line = false)
    (h : Json.loads D text = .ok (.obj object)) : markedObject D message = .ok object :=
  markedObject_of_marked D hlines hfront (fun _ hmem => nomatch hmem) h

/-- The object the last assistant message of an output ends in. -/
def terminalObject (output : String) : Result Fields := do
  let messages ← assistantMessages D (splitlines output.toList)
  match messages.getLast? with
  | none => .error (schemaError "terminal assistant result is absent")
  | some message => markedObject D message.toList

/-- What the contract makes of the object, with the controller's metadata or without. -/
def envelopeOf (numbers : Json → Json → Bool) (corroborated : Option Fields)
    (object : Fields) : Result SessionResultEnvelope :=
  match corroborated with
  | none => SessionResultEnvelope.fromDict acceptsWarnings object
  | some fields => do
      let corroboration ← Corroboration.ofFields fields
      let normalized ← normalizeCorroborated numbers corroboration object
      SessionResultEnvelope.fromDict acceptsWarnings normalized

/-- `extract_terminal_envelope`. -/
def extractTerminalEnvelope (numbers : Json → Json → Bool)
    (corroborated : Option Fields) (output : String) : Result SessionResultEnvelope := do
  let object ← terminalObject D output
  envelopeOf numbers corroborated object

end Conveyor
