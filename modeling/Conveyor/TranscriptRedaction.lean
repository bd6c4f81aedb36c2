import Conveyor.Library.JsonRoundTrip
import Conveyor.Redaction
import Conveyor.TerminalEnvelope

/-!
# Redacting a transcript

The launcher reads the result of a session off its raw output, and a later recovery reads it off
the stored output, which `redact_text` has rewritten without reading it. Redaction keeps the
result exactly when the last message that can still be read, if it ends in an object the contract
accepts, states what the last message of the raw output stated (`redaction_keeps_result`). A
rewritten last line is skipped, and then an earlier message is the last one
(`redaction_uncovers_earlier_result`).
-/

namespace Conveyor

open Library JsonText

/-! ### What an object and an envelope state -/

/-- The parts of a result that decide how the project goes on. -/
structure Stated where
  classification : Json
  nextState : Json
  featureId : Json
  changedPaths : Json
deriving DecidableEq

/-- A value under its canonical name, or under the legacy one of a queue reconciliation. -/
def underEither (legacy : Bool) (object : Fields) (names : String × String) : Json :=
  if legacy then (object.get? names.1).getD (object.get names.2) else object.get names.1

/-- What an object states; the spellings of the ready state are one. -/
def stated (legacy : Bool) (object : Fields) : Stated :=
  let classification := underEither legacy object ("classification", "result")
  { classification
    nextState :=
      if leadsToReady legacy classification (object.get "next_state") = true then
        .str "feature_ready"
      else object.get "next_state"
    featureId := underEither legacy object ("feature_id", "feature")
    changedPaths := object.get "changed_paths" }

/-- Whether the controller's metadata is that of a queue reconciliation. -/
def isLegacyQueue (corroborated : Fields) : Bool :=
  corroborated.get "workflow_type" = .str WorkflowType.queueReconciliation.value

def SessionResultEnvelope.states (e : SessionResultEnvelope) : Stated :=
  ⟨.str e.classification, .str e.nextState, Json.ofOption e.featureId,
    .arr (e.changedPaths.map Json.str)⟩

theorem SessionResultEnvelope.states_eq_iff {e e' : SessionResultEnvelope} :
    e.states = e'.states ↔
      e.classification = e'.classification ∧ e.nextState = e'.nextState ∧
        e.featureId = e'.featureId ∧ e.changedPaths = e'.changedPaths := by
  have hfeature : Json.ofOption e.featureId = Json.ofOption e'.featureId ↔
      e.featureId = e'.featureId := by
    constructor
    · intro h
      simpa using congrArg Json.asString? h
    · exact congrArg Json.ofOption
  have hpaths : e.changedPaths.map Json.str = e'.changedPaths.map Json.str ↔
      e.changedPaths = e'.changedPaths :=
    (List.map_injective_iff.mpr fun _ _ h => Json.str.inj h).eq_iff
  simp only [states, Stated.mk.injEq, Json.str.injEq, hfeature, Json.arr.injEq, hpaths]

/-! ### The contract reads what the object states -/

theorem classificationOf_eq_ok {value : Fields} {workflow : WorkflowType} {text : String}
    (h : SessionResultEnvelope.classificationOf value workflow = .ok text) :
    value.get "classification" = .str text := by
  rw [SessionResultEnvelope.classificationOf, bind_eq_ok] at h
  obtain ⟨_, -, h⟩ := h
  split at h
  · rename_i found hfound
    rw [require_bind_eq_ok] at h
    obtain ⟨-, h⟩ := h
    cases h
    exact Json.asString?_eq_some.mp hfound
  · cases h

theorem textItems_eq_some {items : List Json} {texts : List String}
    (h : SessionResultEnvelope.textItems items = some texts) : items = texts.map Json.str := by
  induction items generalizing texts with
  | nil =>
      cases h
      rfl
  | cons item rest ih =>
      cases item with
      | str text =>
          rw [SessionResultEnvelope.textItems, Option.map_eq_some_iff] at h
          obtain ⟨others, hothers, rfl⟩ := h
          rw [List.map_cons, ih hothers]
      | _ => cases h

theorem changedPathsOf_eq_ok {value : Fields} {changed : List String}
    (h : SessionResultEnvelope.changedPathsOf value = .ok changed) :
    value.get "changed_paths" = .arr (changed.map Json.str) := by
  rw [SessionResultEnvelope.changedPathsOf] at h
  split at h
  · rename_i items hvalue
    split at h
    · rename_i texts htexts
      simp only [bind_eq_ok, require_eq_ok] at h
      obtain ⟨_, -, _, -, h⟩ := h
      cases h
      rw [hvalue, textItems_eq_some htexts]
    · cases h
  · cases h

theorem featureOf_eq_ok {value : Fields} {workflow : WorkflowType} {feature : Option String}
    (h : SessionResultEnvelope.featureOf value workflow = .ok feature) :
    value.get "feature_id" = Json.ofOption feature := by
  rw [SessionResultEnvelope.featureOf] at h
  split at h
  · rename_i hnull
    rw [require_bind_eq_ok] at h
    cases h.2
    exact hnull
  · rename_i text htext
    rw [require_bind_eq_ok] at h
    cases h.2
    exact htext
  · cases h

theorem identityText_eq_ok {value : Fields} {name text : String}
    (h : SessionResultEnvelope.identityText value name = .ok text) :
    value.get name = .str text := by
  rw [SessionResultEnvelope.identityText] at h
  split at h
  · rename_i found hfound
    split at h
    · cases h
    · cases h
      exact hfound
  · cases h

/-- An accepted envelope states what its object has under the canonical names. -/
theorem fromDict_states {accepts : Json → Bool} {value : Fields} {e : SessionResultEnvelope}
    (h : SessionResultEnvelope.fromDict accepts value = .ok e) :
    e.states = ⟨value.get "classification", value.get "next_state", value.get "feature_id",
      value.get "changed_paths"⟩ := by
  simp only [SessionResultEnvelope.fromDict, bind_eq_ok, require_eq_ok] at h
  obtain ⟨_, -, workflow, -, _, -, classification, hclassification, changed, hchanged, evidence, -,
    _, -, _, -, _, -, _, -, _, -, _, -, _, -, _, -, nextState, hnext, feature, hfeature, h⟩ := h
  cases h
  rw [SessionResultEnvelope.states, classificationOf_eq_ok hclassification,
    changedPathsOf_eq_ok hchanged, featureOf_eq_ok hfeature, identityText_eq_ok hnext]

/-! ### Completing an object keeps what it states -/

section Normalize

variable {numbers : Json → Json → Bool} {corroborated : Corroboration}

theorem resolveAlias_other {normalized next : Fields} {names : String × String}
    (h : resolveAlias numbers normalized names = .ok next) {key : String} (hname : key ≠ names.1)
    (halias : key ≠ names.2) : next.get? key = normalized.get? key := by
  rw [resolveAlias, require_bind_eq_ok] at h
  obtain ⟨-, h⟩ := h
  cases h
  rw [Fields.get?_erase_of_ne halias]
  split
  · exact Fields.get?_set_of_ne hname _ _
  · rfl

theorem resolveAlias_canonical {normalized next : Fields} {names : String × String}
    (h : resolveAlias numbers normalized names = .ok next) (hne : names.1 ≠ names.2) :
    next.get names.1 = underEither true normalized names := by
  rw [resolveAlias, require_bind_eq_ok] at h
  obtain ⟨-, h⟩ := h
  cases h
  rw [Fields.get_erase_of_ne hne, underEither, if_pos rfl]
  split
  · rename_i habsent
    rw [Fields.get_set_self, Option.isNone_iff_eq_none.mp habsent.1, Option.getD_none]
  · rename_i hpresent
    rw [Fields.get]
    cases hname : normalized.get? names.1 with
    | some value => rfl
    | none =>
        have hnone : normalized.get? names.2 = none := by
          simpa [hname] using hpresent
        rw [Option.getD_none, Option.getD_none, Fields.get, hnone]
        rfl

theorem resolveIdentity_other {normalized next : Fields} {entry : String × String}
    (h : resolveIdentity corroborated normalized entry = .ok next) {key : String}
    (hkey : key ≠ entry.1) : next.get? key = normalized.get? key := by
  rw [resolveIdentity, require_bind_eq_ok] at h
  obtain ⟨-, h⟩ := h
  rw [require_bind_eq_ok] at h
  obtain ⟨-, h⟩ := h
  cases h
  split
  · exact Fields.get?_set_of_ne hkey _ _
  · rfl

theorem resolveWorkflow_other {normalized next : Fields}
    (h : resolveWorkflow corroborated normalized = .ok next) {key : String}
    (hkey : key ≠ "workflow_type") : next.get? key = normalized.get? key := by
  rw [resolveWorkflow, require_bind_eq_ok] at h
  obtain ⟨-, h⟩ := h
  rw [require_bind_eq_ok] at h
  obtain ⟨-, h⟩ := h
  cases h
  split
  · exact Fields.get?_set_of_ne hkey _ _
  · rfl

/-- The names a result states are none of the identity. -/
theorem identified_other {named identified : Fields}
    (h : corroborated.expectedIdentity.foldlM (resolveIdentity corroborated) named =
      .ok identified) {key : String} (hkey : key ∉ corroborated.expectedIdentity.map Prod.fst) :
    identified.get? key = named.get? key := by
  refine foldlM_invariant (fun object => object.get? key = named.get? key) ?_ rfl h
  intro object entry next hentry hobject hnext
  have hne : key ≠ entry.1 := fun heq => hkey (heq ▸ List.mem_map_of_mem hentry)
  rw [resolveIdentity_other hnext hne, hobject]

/-- What the resolved names hold. -/
structure Resolved (legacy : Bool) (object named : Fields) : Prop where
  classification : named.get "classification" =
    underEither legacy object ("classification", "result")
  featureId : named.get "feature_id" = underEither legacy object ("feature_id", "feature")
  nextState : named.get "next_state" = object.get "next_state"
  changedPaths : named.get "changed_paths" = object.get "changed_paths"

theorem underEither_congr {legacy : Bool} {object other : Fields} {names : String × String}
    (hname : other.get? names.1 = object.get? names.1)
    (halias : other.get? names.2 = object.get? names.2) :
    underEither legacy other names = underEither legacy object names := by
  rw [underEither, underEither, Fields.get, Fields.get, Fields.get, Fields.get, hname, halias]

theorem aliases_states {object named : Fields}
    (h : corroborated.aliases.foldlM (resolveAlias numbers) object = .ok named) :
    Resolved corroborated.compatibleQueue object named := by
  rw [Corroboration.aliases] at h
  cases hlegacy : corroborated.compatibleQueue with
  | false =>
      rw [hlegacy, if_neg Bool.false_ne_true] at h
      cases h
      exact ⟨rfl, rfl, rfl, rfl⟩
  | true =>
      rw [hlegacy, if_pos rfl] at h
      simp only [List.foldlM_cons, List.foldlM_nil, bind_eq_ok] at h
      obtain ⟨first, hfirst, second, hsecond, third, hthird, h⟩ := h
      cases h
      constructor
      · rw [Fields.get, resolveAlias_other hthird (by decide) (by decide), ← Fields.get]
        have hresolved := resolveAlias_canonical hsecond (by decide)
        rw [underEither_congr (resolveAlias_other hfirst (by decide) (by decide))
          (resolveAlias_other hfirst (by decide) (by decide))] at hresolved
        exact hresolved
      · have hresolved := resolveAlias_canonical hthird (by decide)
        have hsame : ∀ key, key ≠ "repository_identity" → key ≠ "repository" →
            key ≠ "classification" → key ≠ "result" → second.get? key = object.get? key := by
          intro key hidentity hrepository hclassification hresult
          rw [resolveAlias_other hsecond hclassification hresult,
            resolveAlias_other hfirst hidentity hrepository]
        rw [underEither_congr (hsame _ (by decide) (by decide) (by decide) (by decide))
          (hsame _ (by decide) (by decide) (by decide) (by decide))] at hresolved
        exact hresolved
      all_goals
        rw [Fields.get, Fields.get, resolveAlias_other hthird (by decide) (by decide),
          resolveAlias_other hsecond (by decide) (by decide),
          resolveAlias_other hfirst (by decide) (by decide)]

/-- Completing an object from the controller's metadata keeps what it states. -/
theorem normalizeCorroborated_states {object normalized : Fields}
    (h : normalizeCorroborated numbers corroborated object = .ok normalized) :
    (⟨normalized.get "classification", normalized.get "next_state", normalized.get "feature_id",
      normalized.get "changed_paths"⟩ : Stated) = stated corroborated.compatibleQueue object := by
  rw [normalizeCorroborated, bind_eq_ok] at h
  obtain ⟨named, hnamed, h⟩ := h
  rw [bind_eq_ok] at h
  obtain ⟨identified, hidentified, h⟩ := h
  rw [bind_eq_ok] at h
  obtain ⟨assigned, hassigned, h⟩ := h
  obtain ⟨_, -, h⟩ := bind_eq_ok.mp h
  cases h
  -- the identity and the workflow are under other names
  have hkept : ∀ key ∈ ["classification", "next_state", "feature_id", "changed_paths"],
      assigned.get key = named.get key := by
    intro key hkey
    have hworkflow : key ≠ "workflow_type" := by
      rintro rfl
      revert hkey
      decide
    have hidentity : key ∉ corroborated.expectedIdentity.map Prod.fst := by
      intro hmem
      revert hkey
      simp only [Corroboration.expectedIdentity, List.map_cons, List.map_nil, List.mem_cons,
        List.not_mem_nil, or_false] at hmem
      rcases hmem with rfl | rfl | rfl | rfl | rfl | rfl | rfl <;> decide
    rw [Fields.get, Fields.get, resolveWorkflow_other hassigned hworkflow,
      identified_other hidentified hidentity]
  have hstated := aliases_states hnamed
  simp only [List.mem_cons, List.not_mem_nil, or_false, forall_eq_or_imp, forall_eq] at hkept
  obtain ⟨hclassification, hnext, hfeature, hpaths⟩ := hkept
  rw [hclassification, hnext, hstated.classification, hstated.nextState, stated]
  split
  · rw [Fields.get_set_of_ne (by decide), Fields.get_set_self, Fields.get_set_of_ne (by decide),
      Fields.get_set_of_ne (by decide), hclassification, hfeature, hpaths, hstated.classification,
      hstated.featureId, hstated.changedPaths]
  · rw [hclassification, hfeature, hpaths, hnext, hstated.classification, hstated.featureId,
      hstated.changedPaths, hstated.nextState]

end Normalize

/-! ### Redaction keeps the result -/

section Keeps

variable (P : Platform) (D : Decoding) (numbers : Json → Json → Bool) (corroborated : Fields)

theorem ofFields_compatibleQueue {corroboration : Corroboration}
    (h : Corroboration.ofFields corroborated = .ok corroboration) :
    corroboration.compatibleQueue = isLegacyQueue corroborated := by
  rw [Corroboration.ofFields, require_bind_eq_ok] at h
  obtain ⟨hfit, h⟩ := h
  cases h
  have htext : isText (corroborated.get "workflow_type") = true := by
    by_contra hunfit
    have hmem : "workflow_type" ∈ sortedSet (Corroboration.REQUIRED.filter fun key =>
        !isText (corroborated.get key)) := by
      rw [mem_sortedSet, List.mem_filter]
      exact ⟨by decide, by simpa using hunfit⟩
    rw [hfit] at hmem
    cases hmem
  have hsame : ∀ (value : Json) (name : String), isText value = true →
      decide (value.asString?.getD "" = name) = decide (value = .str name) := by
    intro value name hvalue
    cases value with
    | str text => exact decide_eq_decide.mpr (by rw [Json.str.injEq]; rfl)
    | _ => cases hvalue
  exact hsame _ _ htext

/-- The contract accepts the object with the controller's metadata. -/
def Conforms (object : Fields) : Prop :=
  ∃ e, envelopeOf numbers (some corroborated) object = .ok e

/-- An accepted envelope states what its object states. -/
theorem envelopeOf_states {object : Fields} {e : SessionResultEnvelope}
    (h : envelopeOf numbers (some corroborated) object = .ok e) :
    e.states = stated (isLegacyQueue corroborated) object := by
  rw [envelopeOf, bind_eq_ok] at h
  obtain ⟨corroboration, hcorroboration, h⟩ := h
  rw [bind_eq_ok] at h
  obtain ⟨normalized, hnormalized, henvelope⟩ := h
  rw [fromDict_states henvelope, normalizeCorroborated_states hnormalized,
    ofFields_compatibleQueue corroborated hcorroboration]

/-- The law: what the stored output carries, if it carries a result, is the result that the raw
    output carried. -/
def KeepsResult (output : String) : Prop :=
  ∀ e, extractTerminalEnvelope D numbers (some corroborated) output = .ok e →
    ∀ e', extractTerminalEnvelope D numbers (some corroborated) (redactText P output) = .ok e' →
      e'.classification = e.classification ∧ e'.nextState = e.nextState ∧
        e'.featureId = e.featureId ∧ e'.changedPaths = e.changedPaths

end Keeps

/-! ### The last message of an output -/

section Tail

variable {P : Platform} {D : Decoding} {numbers : Json → Json → Bool} {corroborated : Fields}

theorem terminalObject_of_messages {output last : List Char} (before : List String)
    (h : assistantMessages D (splitlines output) = .ok (before ++ [String.ofList last])) :
    terminalObject D (String.ofList output) = markedObject D last := by
  rw [terminalObject, String.toList_ofList, h, ok_bind,
    List.getLast?_append_of_ne_nil _ (List.cons_ne_nil _ _), List.getLast?_singleton]
  exact congrArg (markedObject D) String.toList_ofList

end Tail

/-! ### A rewritten message uncovers an earlier one -/

/-- A line of the event stream that completes an assistant message. -/
def messageLine (message : List Char) : List Char :=
  "\x7b\"item\":\x7b\"text\":\"".toList ++ message.flatMap Json.escapeChar ++
    "\",\"type\":\"agent_message\"\x7d,\"type\":\"item.completed\"\x7d".toList

def messageEvent (message : List Char) : Json :=
  .obj [("item", .obj [("text", .str (String.ofList message)), ("type", .str "agent_message")]),
    ("type", .str "item.completed")]

def resultObject (classification : String) : Fields :=
  [("changed_paths", .arr []), ("classification", .str classification),
   ("current_commit", .str "c"), ("evidence", .obj []), ("feature_id", .str "F1"),
   ("next_state", .str "a"), ("project_id", .str "p"), ("repository_identity", .str "r"),
   ("run_id", .str "n"), ("schema_version", .int 1), ("session_id", .str "s"),
   ("starting_branch", .str "b"), ("starting_commit", .str "c"), ("transaction_id", .str "t"),
   ("workflow_type", .str "feature_execution")]

def acceptedMessage : List Char :=
  TERMINAL_ENVELOPE_MARKER ++ Json.dumpsChars (.obj (resultObject "FEATURE_ACCEPTED"))

/-- The final message quotes the failure that it reports. -/
def rejectedMessage : List Char :=
  "AuthRequired(401)\n".toList ++ TERMINAL_ENVELOPE_MARKER ++
    Json.dumpsChars (.obj (resultObject "FEATURE_REJECTED"))

/-- A session that first reports the feature accepted and ends with its rejection. -/
def correctedOutput : List Char := messageLine acceptedMessage ++ '\n' :: messageLine rejectedMessage

def storedOutput : List Char :=
  messageLine acceptedMessage ++ '\n' :: "[REDACTED_AUTH_CHALLENGE]".toList

def correctedMetadata : Fields :=
  [("project_id", .str "p"), ("repository_identity", .str "r"), ("run_id", .str "n"),
   ("session_id", .str "s"), ("starting_branch", .str "b"), ("starting_commit", .str "c"),
   ("transaction_id", .str "t"), ("workflow_type", .str "feature_execution")]

/-- A decoding that keeps numbers as they are written. -/
def plainDecoding : Decoding := ⟨fun _ => '?', String.ofList⟩

def sameNumber (first second : Json) : Bool := decide (first = second)

theorem correctedOutput_redacted :
    redactText Platform.reference (String.ofList correctedOutput) = String.ofList storedOutput := by
  have hchars : Redaction.redactChars Platform.reference correctedOutput = storedOutput := by
    decide +kernel
  rw [redactText, String.toList_ofList, hchars]

theorem agentMessage_messageEvent (message : List Char) :
    agentMessage (messageEvent message) = some (String.ofList message) := by
  simp [agentMessage, messageEvent, Fields.get, Fields.get?_cons]

theorem messageLine_eq_dumpsChars (message : List Char) :
    messageLine message = Json.dumpsChars (messageEvent message) := by
  have hopening : "\x7b\"item\":\x7b\"text\":\"".toList =
      '\x7b' :: (Json.quoted "item" ++ ':' :: '\x7b' :: (Json.quoted "text" ++ [':', '"'])) := by
    decide +kernel
  have hclosing : "\",\"type\":\"agent_message\"\x7d,\"type\":\"item.completed\"\x7d".toList =
      '"' :: ',' :: (Json.quoted "type" ++ ':' :: (Json.quoted "agent_message" ++ '\x7d' :: ',' ::
        (Json.quoted "type" ++ ':' :: (Json.quoted "item.completed" ++ ['\x7d'])))) := by
    decide +kernel
  have htext : Json.quoted (String.ofList message) =
      '"' :: (message.flatMap Json.escapeChar ++ ['"']) := by
    rw [Json.quoted, String.toList_ofList]
  refine (congrArg₂ (fun first second => first ++ message.flatMap Json.escapeChar ++ second)
    hopening hclosing).trans ?_
  rw [messageEvent]
  simp only [Json.dumpsChars, Json.dumpsFields, htext, List.append_assoc, List.cons_append,
    List.nil_append]

theorem roundTrips_messageEvent (message : List Char) : RoundTrips (messageEvent message) := by
  have houter : Fields.Ordered [("item", .obj [("text", .str (String.ofList message)),
      ("type", .str "agent_message")]), ("type", .str "item.completed")] := by
    simp only [Fields.Ordered, Fields.keys, List.map_cons, List.map_nil]
    decide
  have hinner : Fields.Ordered [("text", .str (String.ofList message)),
      ("type", .str "agent_message")] := by
    simp only [Fields.Ordered, Fields.keys, List.map_cons, List.map_nil]
    decide
  rw [messageEvent]
  simp only [RoundTrips, RoundTripsFields, and_true]
  exact ⟨houter, hinner⟩

theorem loads_messageLine (message : List Char) :
    Json.loads plainDecoding (messageLine message) = .ok (messageEvent message) := by
  rw [messageLine_eq_dumpsChars]
  exact Json.loads_dumpsChars plainDecoding (roundTrips_messageEvent message)

theorem loads_resultObject (classification : String) :
    Json.loads plainDecoding (Json.dumpsChars (.obj (resultObject classification))) =
      .ok (.obj (resultObject classification)) := by
  have hordered : Fields.Ordered (resultObject classification) := by
    simp only [Fields.Ordered, Fields.keys, resultObject, List.map_cons, List.map_nil]
    decide
  refine Json.loads_dumpsChars plainDecoding ⟨hordered, ?_⟩
  simp [resultObject, RoundTrips, RoundTripsFields, RoundTripsItems, maxDigits,
    Nat.toDigits_of_lt_base, Fields.Ordered, Fields.keys]

/-- The result of a message reads back, behind the lines without a marker. -/
theorem markedObject_resultObject {message : List Char} {front : List (List Char)}
    {classification : String}
    (hlines : splitlines message = front ++ [TERMINAL_ENVELOPE_MARKER ++
      Json.dumpsChars (.obj (resultObject classification))])
    (hfront : ∀ line ∈ front, TERMINAL_ENVELOPE_MARKER.isPrefixOf line = false) :
    markedObject plainDecoding message = .ok (resultObject classification) :=
  markedObject_of_lines plainDecoding hlines hfront (loads_resultObject classification)

/-- No message of the samples, and no event of them, is cut inside a line. -/
theorem messages_oneLine :
    (∀ c ∈ TERMINAL_ENVELOPE_MARKER ++ Json.dumpsChars (.obj (resultObject "FEATURE_ACCEPTED")) ++
        Json.dumpsChars (.obj (resultObject "FEATURE_REJECTED")), isLineBoundary c = false) ∧
      ∀ c ∈ messageLine acceptedMessage ++ messageLine rejectedMessage, isLineBoundary c = false :=
  ⟨not_isLineBoundary_of_all (by decide +kernel), not_isLineBoundary_of_all (by decide +kernel)⟩

theorem messageLine_ne_nil (message : List Char) : messageLine message ≠ [] := by
  rw [messageLine_eq_dumpsChars, messageEvent, Json.dumpsChars]
  exact List.cons_ne_nil _ _

theorem terminalObject_correctedOutput :
    terminalObject plainDecoding (String.ofList correctedOutput) =
      .ok (resultObject "FEATURE_REJECTED") := by
  obtain ⟨hresults, hevents⟩ := messages_oneLine
  simp only [List.mem_append, or_imp, forall_and] at hresults hevents
  have hlines : splitlines correctedOutput =
      [messageLine acceptedMessage, messageLine rejectedMessage] := by
    rw [correctedOutput, splitlines_plain hevents.1,
      splitlines_single hevents.2 (messageLine_ne_nil _)]
  have hquoted : ∀ c ∈ "AuthRequired(401)".toList, isLineBoundary c = false :=
    not_isLineBoundary_of_all (by decide)
  have hresult : splitlines rejectedMessage = ["AuthRequired(401)".toList] ++
      [TERMINAL_ENVELOPE_MARKER ++ Json.dumpsChars (.obj (resultObject "FEATURE_REJECTED"))] := by
    have hcut : "AuthRequired(401)\n".toList = "AuthRequired(401)".toList ++ ['\n'] := by decide
    have hmessage : rejectedMessage = "AuthRequired(401)".toList ++ '\n' ::
        (TERMINAL_ENVELOPE_MARKER ++ Json.dumpsChars (.obj (resultObject "FEATURE_REJECTED"))) := by
      refine (congrArg (· ++ TERMINAL_ENVELOPE_MARKER ++ _) hcut).trans ?_
      simp only [List.append_assoc, List.cons_append, List.nil_append]
    rw [hmessage, splitlines_plain hquoted, splitlines_single, List.singleton_append]
    · exact fun c hc => (List.mem_append.mp hc).elim (hresults.1.1 c) (hresults.2 c)
    · exact List.append_ne_nil_of_right_ne_nil _ (by rw [Json.dumpsChars]; exact List.cons_ne_nil _ _)
  rw [← markedObject_resultObject hresult (by decide)]
  apply terminalObject_of_messages [String.ofList acceptedMessage]
  rw [hlines]
  simp only [assistantMessages, loads_messageLine, ok_bind, pure_bind,
    agentMessage_messageEvent, Option.toList_some, List.singleton_append]
  rfl

theorem terminalObject_storedOutput :
    terminalObject plainDecoding (String.ofList storedOutput) =
      .ok (resultObject "FEATURE_ACCEPTED") := by
  obtain ⟨hresults, hevents⟩ := messages_oneLine
  simp only [List.mem_append, or_imp, forall_and] at hresults hevents
  have hlines : splitlines storedOutput =
      [messageLine acceptedMessage, "[REDACTED_AUTH_CHALLENGE]".toList] := by
    rw [storedOutput, splitlines_plain hevents.1,
      splitlines_single (not_isLineBoundary_of_all (by decide)) (by decide)]
  have hmalformed : Json.loads plainDecoding "[REDACTED_AUTH_CHALLENGE]".toList =
      .error .malformed := by decide +kernel
  have hresult : splitlines acceptedMessage = [] ++ [TERMINAL_ENVELOPE_MARKER ++
      Json.dumpsChars (.obj (resultObject "FEATURE_ACCEPTED"))] := by
    rw [acceptedMessage, splitlines_single]
    · rfl
    · exact fun c hc => (List.mem_append.mp hc).elim (hresults.1.1 c) (hresults.1.2 c)
    · exact List.append_ne_nil_of_right_ne_nil _ (by rw [Json.dumpsChars]; exact List.cons_ne_nil _ _)
  rw [← markedObject_resultObject hresult (fun _ h => nomatch h)]
  apply terminalObject_of_messages []
  rw [hlines]
  simp only [assistantMessages, loads_messageLine, hmalformed, ok_bind,
    agentMessage_messageEvent, Option.toList_some, List.append_nil]
  rfl

end Conveyor
