import Conveyor.CorroboratedIdentity
import Conveyor.Library.Raises
import Conveyor.StreamedEnvelope

/-!
# Three readers of a transcript

The live session reads its terminal result with `extract_terminal_envelope`, the recovery of a
feature result with `_terminal_legacy_payload` and the repair of a retained feature with
`_raw_terminal_envelope`. Only the first passes by an event that is no object.
`transcript_readers_agree_iff` says for which transcripts the three take the same object, and fail
with nothing but the errors that their callers handle.
-/

namespace Conveyor

open Library JsonText
open SessionResultEnvelope (schemaError)

namespace TranscriptReaders

/-! ### The readers of the recoveries -/

/-- `event.get` of an event that is no object. -/
def attributeError : Failure := ⟨.attributeError, "object has no attribute 'get'"⟩

def recoveryError (message : String) : Failure := ⟨.recoveryError, message⟩

section Readers

variable (D : Decoding)

/-- The messages of the lines, as the recoveries read them. -/
def eventMessages : List (List Char) → Result (List String)
  | [] => .ok []
  | line :: rest =>
      match Json.loads D line with
      | .error .malformed => eventMessages rest
      | .error .tooManyDigits => .error digitsError
      | .ok event => do
          require (event.isInstance .dict = true) attributeError
          let others ← eventMessages rest
          return (agentMessage event).toList ++ others

/-- The legacy result of a message. -/
def legacyResult (message : List Char) : Result Fields := do
  let lines := splitlines message
  let candidates := lines.filter TERMINAL_ENVELOPE_MARKER.isPrefixOf
  let nonblank := lines.filter fun line => line.any fun c => !Platform.isSpace c
  require (candidates.length = 1 ∧
      TERMINAL_ENVELOPE_MARKER.isPrefixOf (nonblank.getLast?.getD []) = true)
    (recoveryError "original feature report lacks one terminal legacy result")
  match Json.loads D ((candidates.headD []).drop TERMINAL_ENVELOPE_MARKER.length) with
  | .error .malformed => .error (recoveryError "original feature legacy result is invalid JSON")
  | .error .tooManyDigits => .error digitsError
  | .ok (.obj payload) => .ok payload
  | .ok _ => .error (recoveryError "original feature legacy result is not an object")

/-- `_terminal_legacy_payload`. -/
def terminalLegacyPayload (report : Fields) : Result Fields :=
  match report.get "redacted_stdout" with
  | .str output => do
      let messages ← eventMessages D (splitlines output.toList)
      match messages.getLast? with
      | none =>
          .error (recoveryError "original feature report lacks a terminal assistant message")
      | some message => legacyResult D message.toList
  | _ => .error (recoveryError "original feature report lacks redacted session output")

/-- `line.split("=", 1)[1]`, of a line with the character. -/
def behindEquals (line : List Char) : List Char := (line.dropWhile fun c => decide (c ≠ '=')).tail

/-- The object of a message with one marker, on whichever line. -/
def rawResult (message : List Char) : Result (Option Fields) :=
  match (splitlines message).filter TERMINAL_ENVELOPE_MARKER.isPrefixOf with
  | [line] =>
      match Json.loads D (behindEquals line) with
      | .error .malformed => .ok none
      | .error .tooManyDigits => .error digitsError
      | .ok (.obj value) => .ok (some value)
      | .ok _ => .ok none
  | _ => .ok none

/-- `_raw_terminal_envelope`. -/
def rawTerminalEnvelope (stdout : String) : Result (Option Fields) := do
  let messages ← eventMessages D (splitlines stdout.toList)
  match messages.getLast? with
  | none => return none
  | some message => rawResult D message.toList

end Readers

/-! ### What they are meant to do -/

/-- An error that no caller of the readers handles. -/
def Foreign (failure : Failure) : Prop :=
  failure.kind ∉ [ErrorKind.recoveryError, .schemaValidationError]

/-- The three take the same object from the output, and raise nothing foreign. -/
structure ReadersAgree (D : Decoding) (numbers : Json → Json → Bool)
    (corroborated : Option Fields) (report : Fields) (output : String) : Prop where
  same : ∀ object, terminalLegacyPayload D report = .ok object ↔
    terminalObject D output = .ok object
  raw : ∀ object, terminalLegacyPayload D report = .ok object →
    rawTerminalEnvelope D output = .ok (some object)
  legacyRaises : ¬Raises Foreign (terminalLegacyPayload D report)
  rawRaises : ¬Raises Foreign (rawTerminalEnvelope D output)
  extractRaises : ¬Raises Foreign (extractTerminalEnvelope D numbers corroborated output)

/-! ### What they come to -/

/-- A list or an object, which no set holds. -/
def IsContainer (value : Json) : Prop :=
  value.isInstance .list = true ∨ value.isInstance .dict = true

/-- The contract comes to a classification that is a container, or to an unsafe path. -/
def ComesToForeign (object : Fields) : Prop :=
  (∀ key ∈ SessionResultEnvelope.REQUIRED, key ∈ object.keys) ∧ ∃ workflow : WorkflowType,
    object.get "workflow_type" = .str workflow.value ∧
    (object.get "schema_version").equalsInt 1 = true ∧
    (IsContainer (object.get "classification") ∨
      ∃ classification ∈ WORKFLOW_CLASSIFICATIONS workflow,
        object.get "classification" = .str classification ∧ ∃ changed : List String,
          object.get "changed_paths" = .arr (changed.map Json.str) ∧
          ∃ path ∈ changed, isSafeRelativePath path = false)

/-- The object agrees with the controller's metadata, which completes it. -/
def Completes (numbers : Json → Json → Bool) (corroboration : Corroboration)
    (object completed : Fields) : Prop :=
  ∃ named identified, corroboration.aliases.foldlM (resolveAlias numbers) object = .ok named ∧
    corroboration.expectedIdentity.foldlM (resolveIdentity corroboration) named = .ok identified ∧
    resolveWorkflow corroboration identified = .ok completed

/-- The same of an object that is completed first; the next state of ready work is looked up. -/
def CompletedToForeign (numbers : Json → Json → Bool) (corroborated : Option Fields)
    (object : Fields) : Prop :=
  match corroborated with
  | none => ComesToForeign object
  | some fields => ∃ corroboration completed, Corroboration.ofFields fields = .ok corroboration ∧
      Completes numbers corroboration object completed ∧
      ((corroboration.compatibleQueue = true ∧
          completed.get "classification" = .str "RECONCILED_READY_WORK" ∧
          IsContainer (completed.get "next_state")) ∨
        ComesToForeign completed)

/-- Each line that is a document is an object. -/
def Objects (D : Decoding) (lines : List (List Char)) : Prop :=
  ∀ line ∈ lines, ∀ event, Json.loads D line = .ok event → event.isInstance .dict = true

/-- The line is the only one with the marker, and this stands behind it. -/
def SoleMarker (lines : List (List Char)) (text : List Char) : Prop :=
  lines.filter TERMINAL_ENVELOPE_MARKER.isPrefixOf = [TERMINAL_ENVELOPE_MARKER ++ text]

/-- The lines end in the only one with the marker, apart from blank ones, and this object stands
behind it. -/
def EndsInObject (D : Decoding) (lines : List (List Char)) (object : Fields) : Prop :=
  ∃ before text blanks, lines = before ++ (TERMINAL_ENVELOPE_MARKER ++ text) :: blanks ∧
    (∀ line ∈ before, TERMINAL_ENVELOPE_MARKER.isPrefixOf line = false) ∧
    (∀ line ∈ blanks, ∀ c ∈ line, Platform.isSpace c = true) ∧
    Json.loads D text = .ok (.obj object)

/-- What the transcript may not have. -/
structure Readable (D : Decoding) (numbers : Json → Json → Bool) (corroborated : Option Fields)
    (output : String) : Prop where
  objects : Objects D (splitlines output.toList)
  converts : Converts D (splitlines output.toList)
  marked : ∀ message, LastMessage D (splitlines output.toList) message →
    ∀ text, SoleMarker (splitlines message.toList) text → Json.loads D text ≠ .error .tooManyDigits
  contract : ∀ message, LastMessage D (splitlines output.toList) message →
    ∀ object, EndsInObject D (splitlines message.toList) object →
      ¬CompletedToForeign numbers corroborated object

/-! ### What the contract raises -/

section Contract

variable {numbers : Json → Json → Bool} {accepts : Json → Bool}

@[simp] theorem foreign_schemaError (message : String) : ¬Foreign (schemaError message) := by
  simp [Foreign, schemaError]

@[simp] theorem foreign_recoveryError (message : String) : ¬Foreign (recoveryError message) := by
  simp [Foreign, recoveryError]

theorem foreign_digitsError : Foreign digitsError := by
  simp [Foreign, digitsError]

theorem foreign_attributeError : Foreign attributeError := by
  simp [Foreign, attributeError]

theorem hashKey_error {value : Json} {failure : Failure} (h : hashKey value = .error failure) :
    IsContainer value ∧ Foreign failure := by
  unfold hashKey at h
  split at h
  · cases h
    exact ⟨Or.inl rfl, by simp [Foreign]⟩
  · cases h
    exact ⟨Or.inr rfl, by simp [Foreign]⟩
  · cases h
  · split at h <;> cases h
  · cases h

theorem raises_hashKey {value : Json} : Raises Foreign (hashKey value) ↔ IsContainer value := by
  constructor
  · rintro ⟨failure, hkey, -⟩
    exact (hashKey_error hkey).1
  · intro h
    rcases value with _ | _ | _ | _ | _ | _ | _
    case arr => exact ⟨_, rfl, by simp [Foreign]⟩
    case obj => exact ⟨_, rfl, by simp [Foreign]⟩
    all_goals simp [IsContainer, Json.isInstance] at h

theorem hashKey_ok {value : Json} (h : ¬IsContainer value) : ∃ key, hashKey value = .ok key := by
  rcases hkey : hashKey value with failure | key
  · exact absurd (hashKey_error hkey).1 h
  · exact ⟨key, rfl⟩

theorem not_foreign_identityText (value : Fields) (name : String) :
    ¬Raises Foreign (SessionResultEnvelope.identityText value name) := by
  unfold SessionResultEnvelope.identityText
  split
  · split <;> simp
  · simp

theorem not_foreign_featureOf (value : Fields) (workflow : WorkflowType) :
    ¬Raises Foreign (SessionResultEnvelope.featureOf value workflow) := by
  unfold SessionResultEnvelope.featureOf
  split
  · simp only [raises_require_bind (foreign_schemaError _), raises_pure, and_false,
      not_false_eq_true]
  · simp only [raises_require_bind (foreign_schemaError _), raises_pure, and_false,
      not_false_eq_true]
  · simp

theorem not_foreign_evidenceOf (value : Fields) (workflow : WorkflowType) :
    ¬Raises Foreign (SessionResultEnvelope.evidenceOf accepts value workflow) := by
  unfold SessionResultEnvelope.evidenceOf
  split
  · simp only [raises_require_bind (foreign_schemaError _), raises_pure, and_false,
      not_false_eq_true]
  · simp

theorem not_foreign_workflowOf (value : Fields) :
    ¬Raises Foreign (SessionResultEnvelope.workflowOf value) := by
  unfold SessionResultEnvelope.workflowOf
  split <;> simp

theorem raises_safeRelativePath {paths : List String} :
    Raises Foreign (requireAll safeRelativePath paths) ↔
      ∃ path ∈ paths, isSafeRelativePath path = false := by
  have hforeign : ∀ message, Foreign (transactionError message) := by
    intro message
    simp [Foreign, transactionError]
  induction paths with
  | nil => simp [requireAll]
  | cons path rest ih =>
      simp only [requireAll, raises_bind, ih, List.exists_mem_cons_iff]
      rcases hsafe : isSafeRelativePath path with _ | _
      · have hfail : safeRelativePath path = .error (transactionError
            s!"unsafe repository-relative path: {path}") := by
          simp [safeRelativePath, hsafe, require]
        simp [hfail, hforeign]
      · have hpass : safeRelativePath path = .ok () := require_of hsafe
        simp [hpass]

theorem textItems_map (texts : List String) :
    SessionResultEnvelope.textItems (texts.map Json.str) = some texts := by
  induction texts with
  | nil => rfl
  | cons text rest ih =>
      rw [List.map_cons, SessionResultEnvelope.textItems, ih]
      rfl

theorem raises_changedPathsOf {value : Fields} :
    Raises Foreign (SessionResultEnvelope.changedPathsOf value) ↔ ∃ changed : List String,
      value.get "changed_paths" = .arr (changed.map Json.str) ∧
        ∃ path ∈ changed, isSafeRelativePath path = false := by
  have hread : ∀ changed : List String, value.get "changed_paths" = .arr (changed.map Json.str) →
      (Raises Foreign (SessionResultEnvelope.changedPathsOf value) ↔
        ∃ path ∈ changed, isSafeRelativePath path = false) := by
    intro changed hchanged
    rw [SessionResultEnvelope.changedPathsOf, hchanged]
    simp only [textItems_map, raises_bind, raises_safeRelativePath,
      raises_require_bind (foreign_schemaError _), raises_pure, and_false, exists_false, or_false]
  constructor
  · intro h
    have hpaths : ∃ changed : List String,
        value.get "changed_paths" = .arr (changed.map Json.str) := by
      unfold SessionResultEnvelope.changedPathsOf at h
      split at h
      · rename_i items hitems
        split at h
        · rename_i changed htexts
          exact ⟨changed, by rw [hitems, textItems_eq_some htexts]⟩
        · simp at h
      · simp at h
    obtain ⟨changed, hchanged⟩ := hpaths
    exact ⟨changed, hchanged, (hread changed hchanged).mp h⟩
  · rintro ⟨changed, hchanged, hunsafe⟩
    exact (hread changed hchanged).mpr hunsafe

theorem raises_classificationOf {value : Fields} {workflow : WorkflowType} :
    Raises Foreign (SessionResultEnvelope.classificationOf value workflow) ↔
      IsContainer (value.get "classification") := by
  rw [SessionResultEnvelope.classificationOf, raises_bind, raises_hashKey]
  refine or_iff_left ?_
  rintro ⟨_, -, h⟩
  split at h
  · simp only [raises_require_bind (foreign_schemaError _), raises_pure, and_false] at h
  · simp at h

theorem classificationOf_ok_iff {value : Fields} {workflow : WorkflowType} {text : String} :
    SessionResultEnvelope.classificationOf value workflow = .ok text ↔
      text ∈ WORKFLOW_CLASSIFICATIONS workflow ∧ value.get "classification" = .str text := by
  constructor
  · intro h
    exact ⟨classificationOf_mem h, classificationOf_eq_ok h⟩
  · rintro ⟨hmem, hvalue⟩
    rw [SessionResultEnvelope.classificationOf, hvalue, bind_eq_ok]
    exact ⟨_, rfl, require_bind_eq_ok.mpr ⟨hmem, rfl⟩⟩

theorem workflowOf_ok_iff {value : Fields} {workflow : WorkflowType} :
    SessionResultEnvelope.workflowOf value = .ok workflow ↔
      value.get "workflow_type" = .str workflow.value := by
  refine ⟨workflowOf_eq_ok, fun h => ?_⟩
  have hvalue : WorkflowType.ofValue? workflow.value = some workflow :=
    WorkflowType.ofValue?_eq_some.mpr rfl
  simp only [SessionResultEnvelope.workflowOf, h, Json.asString?, Option.bind_some, hvalue]

theorem raises_fromDict {value : Fields} :
    Raises Foreign (SessionResultEnvelope.fromDict accepts value) ↔ ComesToForeign value := by
  have hkeys : SessionResultEnvelope.REQUIRED.filter (· ∉ value.keys) = [] ↔
      ∀ key ∈ SessionResultEnvelope.REQUIRED, key ∈ value.keys := by
    rw [List.filter_eq_nil_iff]
    simp only [decide_eq_true_eq, not_not]
  simp only [SessionResultEnvelope.fromDict, raises_bind, raises_classificationOf,
    raises_changedPathsOf, not_foreign_workflowOf, not_foreign_evidenceOf,
    not_foreign_identityText, not_foreign_featureOf,
    raises_require_bind (foreign_schemaError _), raises_pure, hkeys, workflowOf_ok_iff,
    classificationOf_ok_iff, false_or, and_false, exists_false, or_false, and_assoc, ComesToForeign]

theorem not_foreign_resolveAlias (object : Fields) (names : String × String) :
    ¬Raises Foreign (resolveAlias numbers object names) := by
  simp only [resolveAlias, raises_require_bind (foreign_schemaError _), raises_pure, and_false,
    not_false_eq_true]

theorem not_foreign_resolveIdentity (corroboration : Corroboration) (object : Fields)
    (entry : String × String) : ¬Raises Foreign (resolveIdentity corroboration object entry) := by
  simp only [resolveIdentity, raises_require_bind (foreign_schemaError _), raises_pure, and_false,
    not_false_eq_true]

theorem not_foreign_resolveWorkflow (corroboration : Corroboration) (object : Fields) :
    ¬Raises Foreign (resolveWorkflow corroboration object) := by
  simp only [resolveWorkflow, raises_require_bind (foreign_schemaError _), raises_pure, and_false,
    not_false_eq_true]

theorem raises_lookUpState {legacy : Bool} {classification nextState : Json} :
    Raises Foreign (lookUpState legacy classification nextState) ↔ legacy = true ∧
      classification = .str "RECONCILED_READY_WORK" ∧ IsContainer nextState := by
  unfold lookUpState
  split
  · rename_i hready
    rw [raises_map, raises_hashKey]
    simp [hready.1, hready.2]
  · rename_i hready
    simp only [raises_ok, false_iff]
    rintro ⟨hlegacy, hclassification, -⟩
    exact hready ⟨hlegacy, hclassification⟩

theorem lookUpState_ok {legacy : Bool} {classification nextState : Json}
    (h : ¬(legacy = true ∧ classification = .str "RECONCILED_READY_WORK" ∧
      IsContainer nextState)) : ∃ u, lookUpState legacy classification nextState = .ok u := by
  unfold lookUpState
  split
  · rename_i hready
    obtain ⟨key, hkey⟩ := hashKey_ok fun hcontainer => h ⟨hready.1, hready.2, hcontainer⟩
    exact ⟨(), by rw [hkey]; rfl⟩
  · exact ⟨(), rfl⟩

theorem not_foreign_ofFields (fields : Fields) :
    ¬Raises Foreign (Corroboration.ofFields fields) := by
  simp only [Corroboration.ofFields, raises_require_bind (foreign_schemaError _), raises_pure,
    and_false, not_false_eq_true]

theorem raises_normalizeCorroborated {corroboration : Corroboration} {object : Fields} :
    Raises Foreign (normalizeCorroborated numbers corroboration object) ↔ ∃ completed,
      Completes numbers corroboration object completed ∧
        corroboration.compatibleQueue = true ∧
        completed.get "classification" = .str "RECONCILED_READY_WORK" ∧
        IsContainer (completed.get "next_state") := by
  have haliases : ¬Raises Foreign (corroboration.aliases.foldlM (resolveAlias numbers) object) :=
    not_raises_foldlM not_foreign_resolveAlias
  have hidentity : ∀ named, ¬Raises Foreign
      (corroboration.expectedIdentity.foldlM (resolveIdentity corroboration) named) := fun _ =>
    not_raises_foldlM (not_foreign_resolveIdentity corroboration)
  simp only [normalizeCorroborated, raises_bind, haliases, hidentity, not_foreign_resolveWorkflow,
    raises_lookUpState, raises_pure, false_or, and_false, exists_false, or_false, Completes]
  constructor
  · rintro ⟨named, hnamed, identified, hidentified, completed, hcompleted, hready⟩
    exact ⟨completed, ⟨named, identified, hnamed, hidentified, hcompleted⟩, hready⟩
  · rintro ⟨completed, ⟨named, identified, hnamed, hidentified, hcompleted⟩, hready⟩
    exact ⟨named, hnamed, identified, hidentified, completed, hcompleted, hready⟩

/-- Where the next state is kept under its one spelling, the contract comes to the same. -/
theorem comesToForeign_set {object : Fields} {nextState : Json} (h : "next_state" ∈ object.keys) :
    ComesToForeign (object.set "next_state" nextState) ↔ ComesToForeign object := by
  have hkeys : ∀ key, key ∈ (object.set "next_state" nextState).keys ↔ key ∈ object.keys := by
    intro key
    rw [Fields.mem_keys_set]
    constructor
    · rintro (rfl | hkey)
      · exact h
      · exact hkey
    · exact Or.inr
  simp only [ComesToForeign, hkeys,
    Fields.get_set_of_ne (show "workflow_type" ≠ "next_state" by decide),
    Fields.get_set_of_ne (show "schema_version" ≠ "next_state" by decide),
    Fields.get_set_of_ne (show "classification" ≠ "next_state" by decide),
    Fields.get_set_of_ne (show "changed_paths" ≠ "next_state" by decide)]

theorem next_state_mem {legacy : Bool} {classification : Json} {object : Fields}
    (h : leadsToReady legacy classification (object.get "next_state") = true) :
    "next_state" ∈ object.keys := by
  by_contra habsent
  have hnull : object.get "next_state" = .null := by
    rw [Fields.get, Fields.get?_eq_none_of_not_mem habsent]
    rfl
  rw [hnull] at h
  simp [leadsToReady, READY_STATES] at h

/-- What the contract raises is foreign where it comes to a value that it does not handle. -/
theorem raises_envelopeOf {corroborated : Option Fields} {object : Fields} :
    Raises Foreign (envelopeOf numbers corroborated object) ↔
      CompletedToForeign numbers corroborated object := by
  rcases corroborated with _ | fields
  · exact raises_fromDict
  · simp only [envelopeOf, CompletedToForeign, raises_bind, not_foreign_ofFields, false_or,
      raises_normalizeCorroborated, raises_fromDict]
    constructor
    · rintro ⟨corroboration, hfields, ⟨completed, hcompletes, hready⟩ | ⟨normalized, h, hforeign⟩⟩
      · exact ⟨corroboration, completed, hfields, hcompletes, Or.inl hready⟩
      · simp only [normalizeCorroborated, bind_eq_ok] at h
        obtain ⟨named, hnamed, identified, hidentified, completed, hcompleted, _, -, h⟩ := h
        refine ⟨corroboration, completed, hfields, ⟨named, identified, hnamed, hidentified,
          hcompleted⟩, Or.inr ?_⟩
        cases h
        split at hforeign
        · rename_i hready
          exact (comesToForeign_set (next_state_mem hready)).mp hforeign
        · exact hforeign
    · rintro ⟨corroboration, completed, hfields, hcompletes, hready | hforeign⟩
      · exact ⟨corroboration, hfields, Or.inl ⟨completed, hcompletes, hready⟩⟩
      · refine ⟨corroboration, hfields, ?_⟩
        by_cases hready : corroboration.compatibleQueue = true ∧
            completed.get "classification" = .str "RECONCILED_READY_WORK" ∧
            IsContainer (completed.get "next_state")
        · exact Or.inl ⟨completed, hcompletes, hready⟩
        · obtain ⟨_, hlooked⟩ := lookUpState_ok hready
          obtain ⟨named, identified, hnamed, hidentified, hcompleted⟩ := hcompletes
          refine Or.inr ⟨_, bind_eq_ok.mpr ⟨named, hnamed, bind_eq_ok.mpr ⟨identified, hidentified,
            bind_eq_ok.mpr ⟨completed, hcompleted, bind_eq_ok.mpr ⟨(), hlooked, rfl⟩⟩⟩⟩, ?_⟩
          split
          · rename_i hspelled
            exact (comesToForeign_set (next_state_mem hspelled)).mpr hforeign
          · exact hforeign

end Contract

/-! ### The messages -/

section Transcript

variable {D : Decoding} {lines : List (List Char)} {message : List Char}

theorem eventMessages_eq_ok {messages : List String} :
    eventMessages D lines = .ok messages ↔
      Objects D lines ∧ Converts D lines ∧ lines.filterMap (pieceMessage D) = messages := by
  induction lines generalizing messages with
  | nil => simp [eventMessages, Objects, Converts]
  | cons line rest ih =>
      have hobjects : Objects D (line :: rest) ↔ (∀ event, Json.loads D line = .ok event →
          event.isInstance .dict = true) ∧ Objects D rest := List.forall_mem_cons
      have hconverts : Converts D (line :: rest) ↔
          Json.loads D line ≠ .error .tooManyDigits ∧ Converts D rest := List.forall_mem_cons
      rw [eventMessages, hobjects, hconverts]
      split
      · rename_i hloads
        rw [ih, hloads, List.filterMap_cons_none (by rw [pieceMessage, hloads])]
        simp
      · rename_i hloads
        simp [hloads]
      · rename_i event hloads
        have hmessages : (line :: rest).filterMap (pieceMessage D) =
            (agentMessage event).toList ++ rest.filterMap (pieceMessage D) := by
          rw [List.filterMap_cons, pieceMessage_of_loads hloads]
          rcases agentMessage event with _ | text <;> rfl
        rw [hloads, hmessages, require_bind_eq_ok]
        constructor
        · rintro ⟨hobject, h⟩
          obtain ⟨others, hothers, h⟩ := bind_eq_ok.mp h
          cases h
          obtain ⟨hrest, hconverted, rfl⟩ := ih.mp hothers
          refine ⟨⟨fun other hother => ?_, hrest⟩, ⟨fun hrefused => (by cases hrefused), hconverted⟩, rfl⟩
          cases hother
          exact hobject
        · rintro ⟨⟨hobject, hrest⟩, ⟨-, hconverted⟩, rfl⟩
          exact ⟨hobject event rfl, bind_eq_ok.mpr ⟨_, ih.mpr ⟨hrest, hconverted, rfl⟩, rfl⟩⟩

/-- The loop over the events has no other errors than foreign ones. -/
theorem foreign_of_eventMessages {failure : Failure} (h : eventMessages D lines = .error failure) :
    Foreign failure := by
  induction lines with
  | nil => cases h
  | cons line rest ih =>
      rw [eventMessages] at h
      split at h
      · exact ih h
      · cases h
        exact foreign_digitsError
      · rename_i event hloads
        by_cases hobject : event.isInstance .dict = true
        · rw [require_of hobject, ok_bind] at h
          rcases hrest : eventMessages D rest with other | others
          · rw [hrest] at h
            cases h
            exact ih hrest
          · rw [hrest] at h
            cases h
        · rw [require, if_neg hobject] at h
          cases h
          exact foreign_attributeError

theorem raises_eventMessages :
    Raises Foreign (eventMessages D lines) ↔ ¬(Objects D lines ∧ Converts D lines) := by
  constructor
  · rintro ⟨failure, hfailure, -⟩ ⟨hobjects, hconverts⟩
    rw [eventMessages_eq_ok.mpr ⟨hobjects, hconverts, rfl⟩] at hfailure
    cases hfailure
  · intro h
    rcases hread : eventMessages D lines with failure | messages
    · exact ⟨failure, rfl, foreign_of_eventMessages hread⟩
    · obtain ⟨hobjects, hconverts, -⟩ := eventMessages_eq_ok.mp hread
      exact absurd ⟨hobjects, hconverts⟩ h

/-! ### The marker line -/

theorem exists_soleMarker
    (h : (lines.filter TERMINAL_ENVELOPE_MARKER.isPrefixOf).length = 1) :
    ∃ text, SoleMarker lines text := by
  obtain ⟨line, hline⟩ := List.length_eq_one_iff.mp h
  have hmem : line ∈ lines.filter TERMINAL_ENVELOPE_MARKER.isPrefixOf :=
    hline ▸ List.mem_singleton_self line
  obtain ⟨text, rfl⟩ := List.isPrefixOf_iff_prefix.mp (List.mem_filter.mp hmem).2
  exact ⟨text, hline⟩

theorem behindEquals_marker (text : List Char) :
    behindEquals (TERMINAL_ENVELOPE_MARKER ++ text) = text := by
  have hmarker : TERMINAL_ENVELOPE_MARKER = "CONVEYOR_TRANSACTION_RESULT".toList ++ ['='] := by
    decide +kernel
  have hname : ("CONVEYOR_TRANSACTION_RESULT".toList.all fun c => decide (c ≠ '=')) = true := by
    decide +kernel
  rw [behindEquals, hmarker, List.append_assoc,
    List.dropWhile_append_of_pos (List.all_eq_true.mp hname)]
  rfl

/-- The check that the marker stands on the last line that is not blank. -/
def MarkedLast (lines : List (List Char)) : Prop :=
  TERMINAL_ENVELOPE_MARKER.isPrefixOf
    ((lines.filter fun line => line.any fun c => !Platform.isSpace c).getLast?.getD []) = true

theorem sole_behind {text : List Char} (h : SoleMarker lines text) :
    ((lines.filter TERMINAL_ENVELOPE_MARKER.isPrefixOf).headD []).drop
      TERMINAL_ENVELOPE_MARKER.length = text := by
  rw [SoleMarker] at h
  rw [h, List.headD_cons, List.drop_left]

theorem sole_length {text : List Char} (h : SoleMarker lines text) :
    (lines.filter TERMINAL_ENVELOPE_MARKER.isPrefixOf).length = 1 := by
  rw [SoleMarker] at h
  rw [h, List.length_singleton]

theorem markedObject_ok_iff {object : Fields} : markedObject D message = .ok object ↔
    ∃ text, SoleMarker (splitlines message) text ∧ MarkedLast (splitlines message) ∧
      Json.loads D text = .ok (.obj object) := by
  rw [markedObject]
  simp only [require_bind_eq_ok]
  constructor
  · rintro ⟨hone, hlast, h⟩
    obtain ⟨text, htext⟩ := exists_soleMarker hone
    rw [sole_behind htext] at h
    refine ⟨text, htext, hlast, ?_⟩
    split at h
    · cases h
    · cases h
    · rename_i hloads
      cases h
      exact hloads
    · cases h
  · rintro ⟨text, htext, hlast, hloads⟩
    refine ⟨sole_length htext, hlast, ?_⟩
    rw [sole_behind htext, hloads]

theorem raises_markedObject : Raises Foreign (markedObject D message) ↔
    ∃ text, SoleMarker (splitlines message) text ∧ MarkedLast (splitlines message) ∧
      Json.loads D text = .error .tooManyDigits := by
  rw [markedObject]
  simp only [raises_require_bind (foreign_schemaError _)]
  constructor
  · rintro ⟨hone, hlast, h⟩
    obtain ⟨text, htext⟩ := exists_soleMarker hone
    rw [sole_behind htext] at h
    refine ⟨text, htext, hlast, ?_⟩
    split at h
    · simp at h
    · assumption
    · simp at h
    · simp at h
  · rintro ⟨text, htext, hlast, hloads⟩
    refine ⟨sole_length htext, hlast, ?_⟩
    rw [sole_behind htext, hloads]
    exact raises_error.mpr foreign_digitsError

theorem legacyResult_ok_iff {object : Fields} : legacyResult D message = .ok object ↔
    ∃ text, SoleMarker (splitlines message) text ∧ MarkedLast (splitlines message) ∧
      Json.loads D text = .ok (.obj object) := by
  rw [legacyResult]
  simp only [require_bind_eq_ok]
  constructor
  · rintro ⟨⟨hone, hlast⟩, h⟩
    obtain ⟨text, htext⟩ := exists_soleMarker hone
    rw [sole_behind htext] at h
    refine ⟨text, htext, hlast, ?_⟩
    split at h
    · cases h
    · cases h
    · rename_i hloads
      cases h
      exact hloads
    · cases h
  · rintro ⟨text, htext, hlast, hloads⟩
    refine ⟨⟨sole_length htext, hlast⟩, ?_⟩
    rw [sole_behind htext, hloads]

theorem raises_legacyResult : Raises Foreign (legacyResult D message) ↔
    ∃ text, SoleMarker (splitlines message) text ∧ MarkedLast (splitlines message) ∧
      Json.loads D text = .error .tooManyDigits := by
  rw [legacyResult]
  simp only [raises_require_bind (foreign_recoveryError _)]
  constructor
  · rintro ⟨⟨hone, hlast⟩, h⟩
    obtain ⟨text, htext⟩ := exists_soleMarker hone
    rw [sole_behind htext] at h
    refine ⟨text, htext, hlast, ?_⟩
    split at h
    · simp at h
    · assumption
    · simp at h
    · simp at h
  · rintro ⟨text, htext, hlast, hloads⟩
    refine ⟨⟨sole_length htext, hlast⟩, ?_⟩
    rw [sole_behind htext, hloads]
    exact raises_error.mpr foreign_digitsError

theorem rawResult_of_sole {text : List Char} (h : SoleMarker (splitlines message) text) :
    rawResult D message = match Json.loads D text with
      | .error .malformed => .ok none
      | .error .tooManyDigits => .error digitsError
      | .ok (.obj value) => .ok (some value)
      | .ok _ => .ok none := by
  rw [SoleMarker] at h
  rw [rawResult, h]
  dsimp only
  rw [behindEquals_marker]

theorem rawResult_ok {object : Fields} {text : List Char}
    (h : SoleMarker (splitlines message) text) (hloads : Json.loads D text = .ok (.obj object)) :
    rawResult D message = .ok (some object) := by
  rw [rawResult_of_sole h, hloads]

theorem raises_rawResult : Raises Foreign (rawResult D message) ↔
    ∃ text, SoleMarker (splitlines message) text ∧ Json.loads D text = .error .tooManyDigits := by
  constructor
  · intro h
    have hone : ((splitlines message).filter TERMINAL_ENVELOPE_MARKER.isPrefixOf).length = 1 := by
      unfold rawResult at h
      split at h
      · rename_i line hline
        rw [hline, List.length_singleton]
      · simp at h
    obtain ⟨text, htext⟩ := exists_soleMarker hone
    refine ⟨text, htext, ?_⟩
    rw [rawResult_of_sole htext] at h
    split at h
    · simp at h
    · assumption
    · simp at h
    · simp at h
  · rintro ⟨text, htext, hloads⟩
    rw [rawResult_of_sole htext, hloads]
    exact raises_error.mpr foreign_digitsError

/-! ### What the readers make of the messages -/

section Messages

variable {numbers : Json → Json → Bool} {corroborated : Option Fields} {report : Fields}
  {output : String} {text : String}

/-- Every reader has the messages of the lines where the recoveries have them. -/
theorem read_messages (hobjects : Objects D (splitlines output.toList))
    (hconverts : Converts D (splitlines output.toList)) :
    eventMessages D (splitlines output.toList) =
        .ok ((splitlines output.toList).filterMap (pieceMessage D)) ∧
      assistantMessages D (splitlines output.toList) =
        .ok ((splitlines output.toList).filterMap (pieceMessage D)) :=
  ⟨eventMessages_eq_ok.mpr ⟨hobjects, hconverts, rfl⟩, assistantMessages_eq_ok.mpr ⟨hconverts, rfl⟩⟩

theorem terminalObject_of_messages {messages : List String}
    (hmessages : assistantMessages D (splitlines output.toList) = .ok messages)
    (hlast : messages.getLast? = some text) :
    terminalObject D output = markedObject D text.toList := by
  simp only [terminalObject, hmessages, ok_bind, hlast]

section LastRead

variable (hobjects : Objects D (splitlines output.toList))
  (hconverts : Converts D (splitlines output.toList))
  (hlast : LastMessage D (splitlines output.toList) text)

include hobjects hconverts hlast

theorem terminalLegacyPayload_eq (hreport : report.get "redacted_stdout" = .str output) :
    terminalLegacyPayload D report = legacyResult D text.toList := by
  simp only [terminalLegacyPayload, hreport, (read_messages hobjects hconverts).1, ok_bind,
    lastMessage_iff.mp hlast]

theorem rawTerminalEnvelope_eq : rawTerminalEnvelope D output = rawResult D text.toList := by
  simp only [rawTerminalEnvelope, (read_messages hobjects hconverts).1, ok_bind,
    lastMessage_iff.mp hlast]

theorem terminalObject_eq : terminalObject D output = markedObject D text.toList :=
  terminalObject_of_messages (read_messages hobjects hconverts).2 (lastMessage_iff.mp hlast)

end LastRead

/-- The three take the same object and raise nothing foreign exactly where every event is an
object, every number is read, and the contract comes to no value that it does not handle. -/
theorem transcript_readers_agree_iff (hreport : report.get "redacted_stdout" = .str output) :
    ReadersAgree D numbers corroborated report output ↔
      Readable D numbers corroborated output := by
  constructor
  · intro h
    have hread : Objects D (splitlines output.toList) ∧ Converts D (splitlines output.toList) := by
      by_contra hbroken
      apply h.legacyRaises
      rw [terminalLegacyPayload, hreport]
      exact raises_bind.mpr (Or.inl (raises_eventMessages.mpr hbroken))
    obtain ⟨hobjects, hconverts⟩ := hread
    refine ⟨hobjects, hconverts, fun message hlast text hsole hdigits => ?_,
      fun message hlast object hends hforeign => ?_⟩
    · apply h.rawRaises
      rw [rawTerminalEnvelope_eq hobjects hconverts hlast]
      exact raises_rawResult.mpr ⟨text, hsole, hdigits⟩
    · apply h.extractRaises
      rw [extractTerminalEnvelope, terminalObject_eq hobjects hconverts hlast,
        markedObject_eq_ok.mpr hends, ok_bind]
      exact raises_envelopeOf.mpr hforeign
  · rintro ⟨hobjects, hconverts, hmarked, hcontract⟩
    rcases hlast : ((splitlines output.toList).filterMap (pieceMessage D)).getLast? with _ | message
    · obtain ⟨hevents, hmessages⟩ := read_messages hobjects hconverts
      have hlegacy : terminalLegacyPayload D report = .error (recoveryError
          "original feature report lacks a terminal assistant message") := by
        simp only [terminalLegacyPayload, hreport, hevents, ok_bind, hlast]
      have hobject : terminalObject D output =
          .error (schemaError "terminal assistant result is absent") := by
        simp only [terminalObject, hmessages, ok_bind, hlast]
      have hraw : rawTerminalEnvelope D output = .ok none := by
        simp only [rawTerminalEnvelope, hevents, ok_bind, hlast]
        rfl
      refine ⟨fun object => ?_, fun object hread => ?_, ?_, ?_, ?_⟩
      · simp [hlegacy, hobject]
      · rw [hlegacy] at hread
        cases hread
      · rw [hlegacy, raises_error]
        exact foreign_recoveryError _
      · rw [hraw]
        exact raises_ok _
      · rw [extractTerminalEnvelope, raises_bind, hobject, raises_error]
        rintro (hforeign | ⟨object, hread, -⟩)
        · exact foreign_schemaError _ hforeign
        · cases hread
    · replace hlast := lastMessage_iff.mpr hlast
      have hlegacy := terminalLegacyPayload_eq hobjects hconverts hlast hreport
      have hraw := rawTerminalEnvelope_eq hobjects hconverts hlast
      have hobject := terminalObject_eq hobjects hconverts hlast
      refine ⟨fun object => ?_, fun object hread => ?_, ?_, ?_, ?_⟩
      · rw [hlegacy, hobject, legacyResult_ok_iff, markedObject_ok_iff]
      · rw [hlegacy] at hread
        obtain ⟨text, hsole, -, hloads⟩ := legacyResult_ok_iff.mp hread
        rw [hraw]
        exact rawResult_ok hsole hloads
      · rw [hlegacy, raises_legacyResult]
        rintro ⟨text, hsole, -, hdigits⟩
        exact hmarked message hlast text hsole hdigits
      · rw [hraw, raises_rawResult]
        rintro ⟨text, hsole, hdigits⟩
        exact hmarked message hlast text hsole hdigits
      · rw [extractTerminalEnvelope, hobject, raises_bind, raises_markedObject]
        rintro (⟨text, hsole, -, hdigits⟩ | ⟨object, hread, hforeign⟩)
        · exact hmarked message hlast text hsole hdigits
        · exact hcontract message hlast object (markedObject_eq_ok.mp hread)
            (raises_envelopeOf.mp hforeign)

end Messages

end Transcript

/-! ### An event that is a number -/

/-- A report with the stream of the lines. -/
def reportOf (lines : List (List Char)) : Fields := [("redacted_stdout", .str (streamOutput lines))]

def countedLines : List (List Char) := [['1'], messageLine acceptedMessage]

theorem splitlines_accepted :
    splitlines (streamOutput [messageLine acceptedMessage]).toList =
      [messageLine acceptedMessage] := by
  have hwhole : ∀ c ∈ messageLine acceptedMessage, isLineBoundary c = false := fun c hc =>
    messages_oneLine.2 c (List.mem_append_left _ hc)
  rw [splitlines_streamOutput, piecesOfLines, List.flatMap_singleton, splitlines_plain hwhole]
  rfl

theorem splitlines_counted : splitlines (streamOutput countedLines).toList = countedLines := by
  have hrest := splitlines_accepted
  rw [splitlines_streamOutput, piecesOfLines] at hrest
  have hfirst : splitlines (['1'] ++ ['\n']) = [['1']] := by decide +kernel
  rw [splitlines_streamOutput, piecesOfLines, countedLines, List.flatMap_cons, hrest, hfirst]
  rfl

theorem splitlines_acceptedMessage :
    splitlines (String.ofList acceptedMessage).toList = [acceptedMessage] := by
  rw [String.toList_ofList]
  exact accepted_endsMarked.1

theorem markedObject_accepted :
    markedObject plainDecoding (String.ofList acceptedMessage).toList =
      .ok (resultObject "FEATURE_ACCEPTED") :=
  @markedObject_resultObject _ [] _ splitlines_acceptedMessage fun _ h => nomatch h

/-- The live session takes the result, and the recoveries fail on the line before it. -/
theorem number_line_refused :
    terminalObject plainDecoding (streamOutput countedLines) =
        .ok (resultObject "FEATURE_ACCEPTED") ∧
      terminalLegacyPayload plainDecoding (reportOf countedLines) = .error attributeError ∧
      rawTerminalEnvelope plainDecoding (streamOutput countedLines) = .error attributeError ∧
      ¬ReadersAgree plainDecoding sameNumber (some correctedMetadata) (reportOf countedLines)
        (streamOutput countedLines) := by
  have hnumber : Json.loads plainDecoding ['1'] = .ok (.int 1) := by decide +kernel
  have hevents : eventMessages plainDecoding (splitlines (streamOutput countedLines).toList) =
      .error attributeError := by
    rw [splitlines_counted, countedLines, eventMessages, hnumber]
    rfl
  have hobject : terminalObject plainDecoding (streamOutput countedLines) =
      .ok (resultObject "FEATURE_ACCEPTED") := by
    have hmessages : assistantMessages plainDecoding
        (splitlines (streamOutput countedLines).toList) = .ok [String.ofList acceptedMessage] := by
      rw [splitlines_counted, countedLines]
      simp only [assistantMessages, hnumber, loads_messageLine, ok_bind, agentMessage_messageEvent]
      rfl
    rw [terminalObject_of_messages hmessages List.getLast?_singleton]
    exact markedObject_accepted
  have hlegacy : terminalLegacyPayload plainDecoding (reportOf countedLines) =
      .error attributeError := by
    have hreport : (reportOf countedLines).get "redacted_stdout" =
        .str (streamOutput countedLines) := rfl
    simp only [terminalLegacyPayload, hreport, hevents]
    rfl
  refine ⟨hobject, hlegacy, ?_, ?_⟩
  · rw [rawTerminalEnvelope, hevents]
    rfl
  · intro h
    apply h.legacyRaises
    rw [hlegacy]
    exact raises_error.mpr foreign_attributeError

/-- Of the message alone they take the same. -/
theorem accepted_line_read :
    ReadersAgree plainDecoding sameNumber (some correctedMetadata)
      (reportOf [messageLine acceptedMessage]) (streamOutput [messageLine acceptedMessage]) := by
  have hlast : ∀ message, LastMessage plainDecoding
      (splitlines (streamOutput [messageLine acceptedMessage]).toList) message →
        message = String.ofList acceptedMessage := by
    intro message hmessage
    rw [lastMessage_iff, splitlines_accepted, List.filterMap_cons,
      pieceMessage_of_loads (loads_messageLine _), agentMessage_messageEvent] at hmessage
    exact (Option.some.inj hmessage).symm
  refine (transcript_readers_agree_iff rfl).mpr ⟨?_, ?_, ?_, ?_⟩
  · rw [splitlines_accepted]
    intro line hline event hloads
    rw [List.mem_singleton.mp hline, loads_messageLine] at hloads
    cases hloads
    rfl
  · rw [splitlines_accepted]
    intro line hline
    rw [List.mem_singleton.mp hline, loads_messageLine]
    intro hrefused
    cases hrefused
  · intro message hmessage text hsole
    rw [hlast message hmessage, SoleMarker, splitlines_acceptedMessage] at hsole
    have hone : [acceptedMessage].filter TERMINAL_ENVELOPE_MARKER.isPrefixOf = [acceptedMessage] :=
      List.filter_cons_of_pos (List.isPrefixOf_iff_prefix.mpr (List.prefix_append _ _))
    rw [hone, List.cons.injEq, acceptedMessage] at hsole
    rw [← List.append_cancel_left hsole.1, loads_resultObject]
    intro hrefused
    cases hrefused
  · intro message hmessage object hends
    have hread := markedObject_eq_ok.mpr hends
    rw [hlast message hmessage, markedObject_accepted] at hread
    cases hread
    obtain ⟨envelope, henvelope⟩ : ∃ envelope, envelopeOf sameNumber (some correctedMetadata)
        (resultObject "FEATURE_ACCEPTED") = .ok envelope := by
      have hok : (envelopeOf sameNumber (some correctedMetadata)
          (resultObject "FEATURE_ACCEPTED")).isOk = true := by decide +kernel
      rcases hread : envelopeOf sameNumber (some correctedMetadata)
        (resultObject "FEATURE_ACCEPTED") with failure | envelope
      · rw [hread] at hok
        cases hok
      · exact ⟨envelope, rfl⟩
    rw [← raises_envelopeOf, henvelope]
    exact raises_ok _

end TranscriptReaders

end Conveyor
