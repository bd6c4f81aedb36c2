import Conveyor.TranscriptRedaction

/-!
# Corroborated identities

What a session's output says passes through the controller's metadata before the contract reads it
(`contracts.py`). `corroborated_identity` says what an accepted envelope can state: the identity is
the controller's, the classification and the paths are checked, and for the one workflow with
legacy names no name and its legacy name disagreed.
-/

namespace Conveyor

open Library JsonText
open SessionResultEnvelope (schemaError)

/-! ### What is corroborated -/

/-- The identity that an envelope states, under the names of the metadata. -/
def SessionResultEnvelope.identity (e : SessionResultEnvelope) : List (String × String) :=
  [("workflow_type", e.workflowType.value), ("project_id", e.projectId),
   ("repository_identity", e.repositoryIdentity), ("transaction_id", e.transactionId),
   ("run_id", e.runId), ("session_id", e.sessionId), ("starting_branch", e.startingBranch),
   ("starting_commit", e.startingCommit)]

structure Corroborated (corroborated : Fields) (e : SessionResultEnvelope) : Prop where
  identity : ∀ entry ∈ e.identity, corroborated.get entry.1 = .str entry.2
  classification : e.classification ∈ WORKFLOW_CLASSIFICATIONS e.workflowType
  sorted : e.changedPaths.Pairwise (· < ·)
  safe : ∀ path ∈ e.changedPaths, isSafeRelativePath path = true

/-- The canonical names that have a legacy one. -/
def LEGACY_NAMES : List (String × String) :=
  [("repository_identity", "repository"), ("classification", "result"), ("feature_id", "feature")]

/-- Where a name and its legacy name both have a value, it is the same. -/
def NamesAgree (object : Fields) : Prop :=
  ∀ names ∈ LEGACY_NAMES, object.get names.1 ≠ .null → object.get names.2 ≠ .null →
    object.get names.1 = object.get names.2

/-! ### The identity -/

section Identity

variable {numbers : Json → Json → Bool} {corroborated : Corroboration}

theorem resolveIdentity_self {normalized next : Fields} {entry : String × String}
    (h : resolveIdentity corroborated normalized entry = .ok next) :
    next.get entry.1 = .str entry.2 := by
  rw [resolveIdentity, require_bind_eq_ok] at h
  obtain ⟨-, h⟩ := h
  obtain ⟨hobserved, h⟩ := require_bind_eq_ok.mp h
  cases h
  split
  · exact Fields.get_set_self _ _ _
  · rename_i hpresent
    exact hobserved.resolve_left hpresent

theorem identity_of_foldlM {entries : List (String × String)} {named identified : Fields}
    (hnodup : (entries.map Prod.fst).Nodup)
    (h : entries.foldlM (resolveIdentity corroborated) named = .ok identified) :
    ∀ entry ∈ entries, identified.get entry.1 = .str entry.2 := by
  induction entries generalizing named with
  | nil => exact fun _ hentry => nomatch hentry
  | cons first rest ih =>
      rw [List.foldlM_cons, bind_eq_ok] at h
      obtain ⟨next, hnext, hrest⟩ := h
      rw [List.map_cons, List.nodup_cons] at hnodup
      have hkept : identified.get? first.1 = next.get? first.1 := by
        refine foldlM_invariant (fun object => object.get? first.1 = next.get? first.1) ?_ rfl
          hrest
        intro object entry later hentry hobject hlater
        have hne : first.1 ≠ entry.1 := fun heq => hnodup.1 (heq ▸ List.mem_map_of_mem hentry)
        rw [resolveIdentity_other hlater hne, hobject]
      intro entry hentry
      rcases List.mem_cons.mp hentry with rfl | hmem
      · rw [Fields.get, hkept, ← Fields.get]
        exact resolveIdentity_self hnext
      · exact ih hnodup.2 hrest entry hmem

theorem resolveWorkflow_self {normalized next : Fields}
    (h : resolveWorkflow corroborated normalized = .ok next) :
    next.get "workflow_type" = .str corroborated.workflowType := by
  rw [resolveWorkflow, require_bind_eq_ok] at h
  obtain ⟨-, h⟩ := h
  obtain ⟨hobserved, h⟩ := require_bind_eq_ok.mp h
  cases h
  split
  · exact Fields.get_set_self _ _ _
  · rename_i hpresent
    exact hobserved.resolve_left hpresent

/-- The controller's metadata, entry by entry. -/
def Corroboration.entries (corroborated : Corroboration) : List (String × String) :=
  ("workflow_type", corroborated.workflowType) :: corroborated.expectedIdentity

/-- A completed object has the controller's identity. -/
theorem normalizeCorroborated_identity {object normalized : Fields}
    (h : normalizeCorroborated numbers corroborated object = .ok normalized) :
    ∀ entry ∈ corroborated.entries, normalized.get entry.1 = .str entry.2 := by
  rw [normalizeCorroborated, bind_eq_ok] at h
  obtain ⟨named, -, h⟩ := h
  obtain ⟨identified, hidentified, h⟩ := bind_eq_ok.mp h
  obtain ⟨assigned, hassigned, h⟩ := bind_eq_ok.mp h
  obtain ⟨_, -, h⟩ := bind_eq_ok.mp h
  cases h
  have hfold : ∀ entry ∈ corroborated.expectedIdentity, identified.get entry.1 = .str entry.2 :=
    identity_of_foldlM (by simp [Corroboration.expectedIdentity]) hidentified
  have hassignedAll : ∀ entry ∈ corroborated.entries, assigned.get entry.1 = .str entry.2 := by
    intro entry hentry
    rcases List.mem_cons.mp hentry with rfl | hmem
    · exact resolveWorkflow_self hassigned
    · have hne : entry.1 ≠ "workflow_type" := by
        intro heq
        have hname : "workflow_type" ∈ corroborated.expectedIdentity.map Prod.fst :=
          heq ▸ List.mem_map_of_mem hmem
        simp [Corroboration.expectedIdentity] at hname
      rw [Fields.get, resolveWorkflow_other hassigned hne, ← Fields.get]
      exact hfold entry hmem
  intro entry hentry
  have hne : entry.1 ≠ "next_state" := by
    intro heq
    have hname : "next_state" ∈ corroborated.entries.map Prod.fst :=
      heq ▸ List.mem_map_of_mem hentry
    simp [Corroboration.entries, Corroboration.expectedIdentity] at hname
  split
  · rw [Fields.get_set_of_ne hne]
    exact hassignedAll entry hentry
  · exact hassignedAll entry hentry

/-- What the contract read is what the metadata holds. -/
theorem ofFields_entries {fields : Fields} (h : Corroboration.ofFields fields = .ok corroborated) :
    ∀ entry ∈ corroborated.entries, fields.get entry.1 = .str entry.2 := by
  rw [Corroboration.ofFields, require_bind_eq_ok] at h
  obtain ⟨hfit, h⟩ := h
  cases h
  have htext : ∀ key ∈ Corroboration.REQUIRED,
      fields.get key = .str ((fields.get key).asString?.getD "") := by
    intro key hkey
    have hfound : isText (fields.get key) = true := by
      by_contra hunfit
      have hmem : key ∈ sortedSet (Corroboration.REQUIRED.filter fun key =>
          !isText (fields.get key)) := by
        rw [mem_sortedSet, List.mem_filter]
        exact ⟨hkey, by simpa using hunfit⟩
      rw [hfit] at hmem
      cases hmem
    cases hvalue : fields.get key with
    | str text => rfl
    | _ => rw [hvalue] at hfound; cases hfound
  simpa [Corroboration.entries, Corroboration.expectedIdentity, Corroboration.REQUIRED]
    using htext

end Identity

/-! ### What the contract checks -/

theorem workflowOf_eq_ok {value : Fields} {workflow : WorkflowType}
    (h : SessionResultEnvelope.workflowOf value = .ok workflow) :
    value.get "workflow_type" = .str workflow.value := by
  rw [SessionResultEnvelope.workflowOf] at h
  split at h
  · rename_i found hfound
    cases h
    obtain ⟨text, htext, hname⟩ := Option.bind_eq_some_iff.mp hfound
    rw [Json.asString?_eq_some.mp htext, WorkflowType.ofValue?_eq_some.mp hname]
  · cases h

/-- The identity of an accepted envelope is that of its object. -/
theorem fromDict_identity {accepts : Json → Bool} {value : Fields} {e : SessionResultEnvelope}
    (h : SessionResultEnvelope.fromDict accepts value = .ok e) :
    ∀ entry ∈ e.identity, value.get entry.1 = .str entry.2 := by
  simp only [SessionResultEnvelope.fromDict, bind_eq_ok, require_eq_ok] at h
  obtain ⟨_, -, workflow, hworkflow, _, -, _, -, _, -, _, -, projectId, hproject, repository,
    hrepository, transactionId, htransaction, runId, hrun, sessionId, hsession, branch, hbranch,
    commit, hcommit, _, -, _, -, _, -, h⟩ := h
  cases h
  simp only [SessionResultEnvelope.identity, List.forall_mem_cons]
  exact ⟨workflowOf_eq_ok hworkflow, identityText_eq_ok hproject, identityText_eq_ok hrepository,
    identityText_eq_ok htransaction, identityText_eq_ok hrun, identityText_eq_ok hsession,
    identityText_eq_ok hbranch, identityText_eq_ok hcommit, List.forall_mem_nil _⟩

theorem classificationOf_mem {value : Fields} {workflow : WorkflowType} {text : String}
    (h : SessionResultEnvelope.classificationOf value workflow = .ok text) :
    text ∈ WORKFLOW_CLASSIFICATIONS workflow := by
  rw [SessionResultEnvelope.classificationOf, bind_eq_ok] at h
  obtain ⟨_, -, h⟩ := h
  split at h
  · rw [require_bind_eq_ok] at h
    obtain ⟨hmem, h⟩ := h
    cases h
    exact hmem
  · cases h

/-- A list that is its own sorted set has every item once and in order. -/
theorem pairwise_of_eq_sortedSet {items : List String} (h : items = sortedSet items) :
    items.Pairwise (· < ·) := by
  have hle : items.Pairwise (· ≤ ·) := by
    rw [h, sortedSet]
    exact List.pairwise_insertionSort _ _
  have hne : items.Pairwise (· ≠ ·) := by
    rw [h]
    exact nodup_sortedSet items
  exact (hle.and hne).imp fun h => lt_of_le_of_ne h.1 h.2

theorem changedPathsOf_checked {value : Fields} {changed : List String}
    (h : SessionResultEnvelope.changedPathsOf value = .ok changed) :
    changed.Pairwise (· < ·) ∧ ∀ path ∈ changed, isSafeRelativePath path = true := by
  rw [SessionResultEnvelope.changedPathsOf] at h
  split at h
  · split at h
    · simp only [bind_eq_ok, require_eq_ok, requireAll_eq_ok] at h
      obtain ⟨_, hsafe, _, hsorted, h⟩ := h
      cases h
      exact ⟨pairwise_of_eq_sortedSet hsorted,
        fun path hpath => require_eq_ok.mp (hsafe path hpath)⟩
    · cases h
  · cases h

theorem fromDict_checked {accepts : Json → Bool} {value : Fields} {e : SessionResultEnvelope}
    (h : SessionResultEnvelope.fromDict accepts value = .ok e) :
    e.classification ∈ WORKFLOW_CLASSIFICATIONS e.workflowType ∧
      e.changedPaths.Pairwise (· < ·) ∧
        ∀ path ∈ e.changedPaths, isSafeRelativePath path = true := by
  simp only [SessionResultEnvelope.fromDict, bind_eq_ok, require_eq_ok] at h
  obtain ⟨_, -, workflow, -, _, -, classification, hclassification, changed, hchanged, _, -,
    _, -, _, -, _, -, _, -, _, -, _, -, _, -, _, -, _, -, _, -, h⟩ := h
  cases h
  exact ⟨classificationOf_mem hclassification, changedPathsOf_checked hchanged⟩

/-! ### Names and legacy names -/

section Legacy

variable {numbers : Json → Json → Bool} {corroborated : Corroboration}

/-- What the loop over the legacy names compared. -/
def ComparedEqual (numbers : Json → Json → Bool) (object : Fields) (names : String × String) :
    Prop :=
  object.get names.1 = .null ∨ object.get names.2 = .null ∨
    Json.equals numbers (object.get names.1) (object.get names.2) = true

/-- Two pairs without a name in common. -/
abbrev Apart (names others : String × String) : Prop :=
  others.1 ≠ names.1 ∧ others.1 ≠ names.2 ∧ others.2 ≠ names.1 ∧ others.2 ≠ names.2

/-- Each pair is compared as the object has it: the pairs before it are other names. -/
theorem compared_of_foldlM {entries : List (String × String)} {object named : Fields}
    (hapart : entries.Pairwise Apart)
    (h : entries.foldlM (resolveAlias numbers) object = .ok named) :
    ∀ names ∈ entries, ComparedEqual numbers object names := by
  induction entries generalizing object with
  | nil => exact fun _ hnames => nomatch hnames
  | cons first rest ih =>
      rw [List.foldlM_cons, bind_eq_ok] at h
      obtain ⟨next, hnext, hrest⟩ := h
      rw [List.pairwise_cons] at hapart
      intro names hnames
      rcases List.mem_cons.mp hnames with rfl | hmem
      · rw [resolveAlias, require_bind_eq_ok] at hnext
        exact hnext.1
      · obtain ⟨h1, h2, h3, h4⟩ := hapart.1 names hmem
        have hcompared := ih hapart.2 hrest names hmem
        rwa [ComparedEqual, Fields.get, Fields.get, resolveAlias_other hnext h1 h2,
          resolveAlias_other hnext h3 h4] at hcompared

/-- A name of the identity that has a value has the controller's. -/
theorem given_of_foldlM {entries : List (String × String)} {named identified : Fields}
    (hnodup : (entries.map Prod.fst).Nodup)
    (h : entries.foldlM (resolveIdentity corroborated) named = .ok identified) :
    ∀ entry ∈ entries, named.get entry.1 = .null ∨ named.get entry.1 = .str entry.2 := by
  induction entries generalizing named with
  | nil => exact fun _ hentry => nomatch hentry
  | cons first rest ih =>
      rw [List.foldlM_cons, bind_eq_ok] at h
      obtain ⟨next, hnext, hrest⟩ := h
      rw [List.map_cons, List.nodup_cons] at hnodup
      intro entry hentry
      rcases List.mem_cons.mp hentry with rfl | hmem
      · rw [resolveIdentity, require_bind_eq_ok] at hnext
        exact (require_bind_eq_ok.mp hnext.2).1
      · have hne : entry.1 ≠ first.1 := fun heq => hnodup.1 (heq ▸ List.mem_map_of_mem hmem)
        have hgiven := ih hnodup.2 hrest entry hmem
        rwa [Fields.get, resolveIdentity_other hnext hne] at hgiven

/-- Values that compared equal are the same, where the value that is taken on is a text. -/
theorem agree_of_compared {object : Fields} {names : String × String}
    (h : ComparedEqual numbers object names)
    (htext : underEither true object names = .null ∨
      ∃ text, underEither true object names = .str text)
    (hname : object.get names.1 ≠ .null) (halias : object.get names.2 ≠ .null) :
    object.get names.1 = object.get names.2 := by
  have htaken : underEither true object names = object.get names.1 := by
    rw [underEither, if_pos rfl]
    cases hvalue : object.get? names.1 with
    | some value => rw [Option.getD_some, Fields.get, hvalue, Option.getD_some]
    | none =>
        rw [Fields.get, hvalue] at hname
        exact absurd rfl hname
  have hequal := (h.resolve_left hname).resolve_left halias
  rw [htaken] at htext
  obtain ⟨text, htext⟩ := htext.resolve_left hname
  rw [htext, Json.equals, decide_eq_true_iff] at hequal
  rw [htext, hequal]

/-- A completed object that the contract accepts had no name that disagreed with its legacy one. -/
theorem namesAgree_of_accepted {accepts : Json → Bool} {object normalized : Fields}
    {e : SessionResultEnvelope} (hlegacy : corroborated.compatibleQueue = true)
    (h : normalizeCorroborated numbers corroborated object = .ok normalized)
    (henvelope : SessionResultEnvelope.fromDict accepts normalized = .ok e) :
    NamesAgree object := by
  have hstates := normalizeCorroborated_states h
  rw [← fromDict_states henvelope, hlegacy] at hstates
  rw [normalizeCorroborated, bind_eq_ok] at h
  obtain ⟨named, hnamed, h⟩ := h
  obtain ⟨identified, hidentified, -⟩ := bind_eq_ok.mp h
  rw [Corroboration.aliases, hlegacy, if_pos rfl] at hnamed
  have hcompared : ∀ names ∈ LEGACY_NAMES, ComparedEqual numbers object names :=
    compared_of_foldlM (by decide) hnamed
  have hidentity : underEither true object ("repository_identity", "repository") =
      named.get "repository_identity" := by
    simp only [List.foldlM_cons, List.foldlM_nil, bind_eq_ok] at hnamed
    obtain ⟨first, hfirst, second, hsecond, third, hthird, hnamed⟩ := hnamed
    cases hnamed
    rw [Fields.get, resolveAlias_other hthird (by decide) (by decide),
      resolveAlias_other hsecond (by decide) (by decide), ← Fields.get]
    exact (resolveAlias_canonical hfirst (by decide)).symm
  have hgiven := given_of_foldlM (by simp [Corroboration.expectedIdentity]) hidentified
    ("repository_identity", corroborated.repositoryIdentity)
    (by simp [Corroboration.expectedIdentity])
  intro names hnames
  refine agree_of_compared (hcompared names hnames) ?_
  simp only [LEGACY_NAMES, List.mem_cons, List.not_mem_nil, or_false] at hnames
  rcases hnames with rfl | rfl | rfl
  · rw [hidentity]
    exact hgiven.imp_right fun htext => ⟨_, htext⟩
  · exact Or.inr ⟨e.classification, (congrArg Stated.classification hstates).symm⟩
  · have hfeature : Json.ofOption e.featureId =
        underEither true object ("feature_id", "feature") := congrArg Stated.featureId hstates
    rw [← hfeature]
    cases e.featureId with
    | none => exact Or.inl rfl
    | some feature => exact Or.inr ⟨feature, rfl⟩

end Legacy

/-! ### What an accepted output corroborates -/

section Accepted

variable {D : Decoding} {numbers : Json → Json → Bool} {corroborated : Fields} {output : String}

/-- An envelope that is accepted has the identity that the controller knows. -/
theorem corroborated_identity {e : SessionResultEnvelope}
    (h : extractTerminalEnvelope D numbers (some corroborated) output = .ok e) :
    Corroborated corroborated e ∧
      ∃ object, terminalObject D output = .ok object ∧
        (isLegacyQueue corroborated = true → NamesAgree object) := by
  rw [extractTerminalEnvelope, bind_eq_ok] at h
  obtain ⟨object, hobject, h⟩ := h
  rw [envelopeOf, bind_eq_ok] at h
  obtain ⟨corroboration, hcorroboration, h⟩ := h
  obtain ⟨normalized, hnormalized, henvelope⟩ := bind_eq_ok.mp h
  obtain ⟨hclassification, hsorted, hsafe⟩ := fromDict_checked henvelope
  refine ⟨⟨?_, hclassification, hsorted, hsafe⟩, object, hobject, fun hlegacy => ?_⟩
  · -- the envelope, the completed object, and the metadata name the same eight values
    have hread := fromDict_identity henvelope
    have hcompleted := normalizeCorroborated_identity hnormalized
    have hknown := ofFields_entries hcorroboration
    simp only [SessionResultEnvelope.identity, Corroboration.entries,
      Corroboration.expectedIdentity, List.forall_mem_cons] at hread hcompleted hknown ⊢
    grind
  · rw [← ofFields_compatibleQueue corroborated hcorroboration] at hlegacy
    exact namesAgree_of_accepted hlegacy hnormalized henvelope

end Accepted

/-! ### Runs -/

/-- The output of a session with one message, which is its result. -/
def resultOutput (object : Fields) : List Char :=
  messageLine (TERMINAL_ENVELOPE_MARKER ++ Json.dumpsChars (.obj object))

theorem terminalObject_resultOutput {object : Fields} (hobject : RoundTrips (.obj object))
    (hmessage : ∀ c ∈ TERMINAL_ENVELOPE_MARKER ++ Json.dumpsChars (.obj object),
      isLineBoundary c = false)
    (hevent : ∀ c ∈ resultOutput object, isLineBoundary c = false) :
    terminalObject plainDecoding (String.ofList (resultOutput object)) = .ok object := by
  have hlines : splitlines (resultOutput object) = [resultOutput object] :=
    splitlines_single hevent (messageLine_ne_nil _)
  have hresult : splitlines (TERMINAL_ENVELOPE_MARKER ++ Json.dumpsChars (.obj object)) =
      [] ++ [TERMINAL_ENVELOPE_MARKER ++ Json.dumpsChars (.obj object)] := by
    refine splitlines_single hmessage (List.append_ne_nil_of_right_ne_nil _ ?_)
    rw [Json.dumpsChars]
    exact List.cons_ne_nil _ _
  rw [← markedObject_of_lines plainDecoding hresult (fun _ h => nomatch h)
    (Json.loads_dumpsChars plainDecoding hobject)]
  apply terminalObject_of_messages []
  rw [hlines, resultOutput]
  simp only [assistantMessages, loads_messageLine, ok_bind, agentMessage_messageEvent,
    Option.toList_some, List.append_nil]
  rfl

/-- A reconciliation that answers under the legacy names. -/
def legacyObject : Fields :=
  [("changed_paths", .arr [.str "a.md", .str "docs/b.md"]), ("current_commit", .str "c"),
   ("evidence", .obj [("queue_validation", .obj [("warning_count", .int 0)])]),
   ("feature_id", .null), ("next_state", .str "idle"), ("repository", .str "r"),
   ("repository_identity", .str "r"), ("result", .str "RECONCILED_NO_READY_WORK"),
   ("run_id", .str "n"), ("schema_version", .int 1), ("session_id", .str "s"),
   ("starting_branch", .str "b"), ("starting_commit", .str "c"), ("transaction_id", .str "t")]

def legacyMetadata : Fields := correctedMetadata.set "workflow_type" (.str "queue_reconciliation")

/-- An execution whose object has a classification and, under its legacy name, another one. -/
def doubleObject : Fields :=
  [("changed_paths", .arr []), ("classification", .str "FEATURE_ACCEPTED"),
   ("current_commit", .str "c"), ("evidence", .obj []), ("feature_id", .str "F1"),
   ("next_state", .str "a"), ("project_id", .str "p"), ("repository_identity", .str "r"),
   ("result", .str "FEATURE_REJECTED"), ("run_id", .str "n"), ("schema_version", .int 1),
   ("session_id", .str "s"), ("starting_branch", .str "b"), ("starting_commit", .str "c"),
   ("transaction_id", .str "t"), ("workflow_type", .str "feature_execution")]

theorem terminalObject_legacyObject :
    terminalObject plainDecoding (String.ofList (resultOutput legacyObject)) =
      .ok legacyObject := by
  have hordered : Fields.Ordered legacyObject := by
    simp only [Fields.Ordered, Fields.keys, legacyObject, List.map_cons, List.map_nil]
    decide
  apply terminalObject_resultOutput ⟨hordered, ?_⟩
  · exact not_isLineBoundary_of_all (by decide +kernel)
  · exact not_isLineBoundary_of_all (by decide +kernel)
  · simp [legacyObject, RoundTrips, RoundTripsFields, RoundTripsItems, maxDigits,
      Nat.toDigits_of_lt_base, Fields.Ordered, Fields.keys]

theorem terminalObject_doubleObject :
    terminalObject plainDecoding (String.ofList (resultOutput doubleObject)) =
      .ok doubleObject := by
  have hordered : Fields.Ordered doubleObject := by
    simp only [Fields.Ordered, Fields.keys, doubleObject, List.map_cons, List.map_nil]
    decide
  apply terminalObject_resultOutput ⟨hordered, ?_⟩
  · exact not_isLineBoundary_of_all (by decide +kernel)
  · exact not_isLineBoundary_of_all (by decide +kernel)
  · simp [doubleObject, RoundTrips, RoundTripsFields, RoundTripsItems, maxDigits,
      Nat.toDigits_of_lt_base, Fields.Ordered, Fields.keys]

theorem accepted_of_isOk {metadata object : Fields}
    (hobject : terminalObject plainDecoding (String.ofList (resultOutput object)) = .ok object)
    (hok : (envelopeOf sameNumber (some metadata) object).isOk = true) :
    ∃ e, extractTerminalEnvelope plainDecoding sameNumber (some metadata)
      (String.ofList (resultOutput object)) = .ok e := by
  rw [extractTerminalEnvelope, hobject, ok_bind]
  cases hread : envelopeOf sameNumber (some metadata) object with
  | ok e => exact ⟨e, rfl⟩
  | error e => rw [hread] at hok; cases hok

/-- A reconciliation under the legacy names has the identity of the metadata. -/
theorem legacy_result_corroborated :
    ∃ e, extractTerminalEnvelope plainDecoding sameNumber (some legacyMetadata)
        (String.ofList (resultOutput legacyObject)) = .ok e ∧
      Corroborated legacyMetadata e ∧ NamesAgree legacyObject := by
  have hok : (envelopeOf sameNumber (some legacyMetadata) legacyObject).isOk = true := by
    decide +kernel
  obtain ⟨e, he⟩ := accepted_of_isOk terminalObject_legacyObject hok
  obtain ⟨hcorroborated, object, hobject, hagree⟩ := corroborated_identity he
  have hsame : object = legacyObject :=
    Except.ok.inj (hobject.symm.trans terminalObject_legacyObject)
  rw [hsame] at hagree
  exact ⟨e, he, hcorroborated, hagree (by decide)⟩

/-- Outside the reconciliations, a name and its legacy name are not compared. -/
theorem double_result_accepted :
    ¬ ∀ (corroborated : Fields) (output : String) (e : SessionResultEnvelope) (object : Fields),
      extractTerminalEnvelope plainDecoding sameNumber (some corroborated) output = .ok e →
        terminalObject plainDecoding output = .ok object → NamesAgree object := by
  intro hall
  have hok : (envelopeOf sameNumber (some correctedMetadata) doubleObject).isOk = true := by
    decide +kernel
  obtain ⟨e, he⟩ := accepted_of_isOk terminalObject_doubleObject hok
  have hsame := hall _ _ e doubleObject he terminalObject_doubleObject ("classification", "result")
    (by decide) (by decide) (by decide)
  revert hsame
  decide

end Conveyor
