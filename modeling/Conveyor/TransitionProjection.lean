import Conveyor.ProjectTransition
import Conveyor.CompletionSteps

/-!
# The projection of a transition

What the loop of `rebuild` makes of the events of one legacy transition. `Tracked` says it from
the state before them, `KeepsTarget` says on that state when the settlement after the loop keeps
the transition's target, and `Tracked.shows` concludes what the rebuilt projection shows.
-/

namespace Conveyor

open Library EventType LegacyAdapter

/-! ### Accepted commits and the selected feature -/

/-- The selected feature that an event names. -/
def selectedNamed (event : LedgerEvent) : Option Json :=
  match event.eventType with
  | transactionCompleted | projectionUpdated => event.payload.get? "selected_feature"
  | _ => none

/-- What a pass of the loop does to the commits and to the selected feature, when its event
    brings no accepted commit. -/
structure CommitStep (s : ProjectionState) (event : LedgerEvent) (t : ProjectionState) : Prop where
  selected : t.selectedNextFeature = (selectedNamed event).getD s.selectedNextFeature
  commits : t.featureCommits = s.featureCommits
  kept : event.eventType ≠ transactionStarted → t.acceptedFeatureCommit = s.acceptedFeatureCommit
  started : event.eventType = transactionStarted →
    if (event.payload.get "feature_id").truthy then
      s.featureCommit (event.payload.get "feature_id") = .ok t.acceptedFeatureCommit
    else t.acceptedFeatureCommit = s.acceptedFeatureCommit

section Steps

variable {s t : ProjectionState} {event : LedgerEvent}

theorem foldCompleted_commits (hkind : event.eventType = transactionCompleted)
    (hnone : event.payload.get? "accepted_feature_commit" = none)
    (h : foldCompleted (s.put (viewOf s event)) (viewOf s event) event = .ok t) :
    CommitStep s event t := by
  simp only [foldCompleted, bind_eq_ok] at h
  obtain ⟨u, hremember, hrecord⟩ := h
  have hget : event.payload.get "accepted_feature_commit" = .null := by
    rw [Fields.get, hnone]
    rfl
  have hu : u = completeRouting ((s.put (viewOf s event)).put (completedView s event))
      event.payload := by
    unfold rememberCommit at hremember
    rw [hget, if_neg (by simp [Json.truthy])] at hremember
    exact (Except.ok.inj hremember).symm
  have ht : t.selectedNextFeature = u.selectedNextFeature ∧
      t.featureCommits = u.featureCommits ∧ t.acceptedFeatureCommit = u.acceptedFeatureCommit := by
    unfold recordIntegration at hrecord
    split at hrecord
    · simp only [bind_eq_ok, pure, Except.pure, Except.ok.injEq] at hrecord
      obtain ⟨added, -, outcome, -, rfl⟩ := hrecord
      exact ⟨rfl, rfl, rfl⟩
    · cases hrecord
      exact ⟨rfl, rfl, rfl⟩
  obtain ⟨hselected, hcommits, haccepted⟩ := ht
  refine ⟨?_, ?_, fun _ => ?_, fun hstart => ?_⟩
  · rw [hselected, hu, selectedNamed, hkind]
    rfl
  · rw [hcommits, hu]
    rfl
  · rw [haccepted, hu]
    change event.payload.getD "accepted_feature_commit" s.acceptedFeatureCommit = _
    rw [Fields.getD, hnone]
    rfl
  · rw [hkind] at hstart
    cases hstart

theorem foldStarted_commits (hkind : event.eventType = transactionStarted)
    (h : foldStarted (s.put (viewOf s event)) (viewOf s event) event = .ok t) :
    CommitStep s event t := by
  simp only [foldStarted, pure, Except.pure] at h
  have hselected : selectedNamed event = none := by
    simp only [selectedNamed, hkind]
  split at h
  · rename_i htruthy
    simp only [bind_eq_ok, Except.ok.injEq] at h
    obtain ⟨commit, hcommit, integrated, -, rfl⟩ := h
    refine ⟨by rw [hselected]; rfl, rfl, fun hne => absurd hkind hne, fun _ => ?_⟩
    rw [if_pos htruthy]
    exact hcommit
  · rename_i htruthy
    cases h
    refine ⟨by rw [hselected]; rfl, rfl, fun hne => absurd hkind hne, fun _ => ?_⟩
    rw [if_neg htruthy]
    rfl

theorem foldEvent_commits
    (hnone : event.eventType = transactionCompleted →
      event.payload.get? "accepted_feature_commit" = none)
    (h : foldEvent s event = .ok t) : CommitStep s event t := by
  unfold foldEvent at h
  cases hkind : event.eventType with
  | transactionStarted =>
      rw [hkind] at h
      exact foldStarted_commits hkind h
  | transactionCompleted =>
      rw [hkind] at h
      exact foldCompleted_commits hkind (hnone hkind) h
  | _ =>
      rw [hkind] at h
      cases h
      refine ⟨?_, rfl, fun _ => rfl, fun hstart => ?_⟩
      · simp only [selectedNamed, hkind]
        rfl
      · rw [hkind] at hstart
        cases hstart

/-- A pass keeps the entries keyed. -/
theorem FoldStep.keyed (h : FoldStep s event t) (hkeyed : Keyed s) : Keyed t := by
  obtain ⟨view, hget, hkey, -⟩ := h.views
  intro transactionId found hfound
  rw [hget] at hfound
  split at hfound
  · rename_i hid
    cases hfound
    exact hkey.trans hid.symm
  · exact hkeyed transactionId found hfound

theorem keyed_fold {events : List LedgerEvent} (h : foldEvents events = .ok s) : Keyed s := by
  refine foldlM_invariant Keyed ?_ ?_ h
  · intro u event v _ hu hstep
    exact (foldEvent_step hu hstep).keyed hu
  · intro transactionId view hview
    cases hview

end Steps

/-! ### What the events of a call name -/

namespace ProjectCall

/-- The fields of the terminal evidence. -/
def EVIDENCE_FIELDS : List String :=
  ["original_transaction_id", "original_run_id", "original_session_id", "planning_result_commit",
   "queue_fingerprint", "selected_feature", "selected_feature_starting_commit",
   "recovery_evidence_fingerprint"]

/-- The feature of the call, as the ledger names it. -/
def namedFeature (call : ProjectCall) (P : Platform) : Json := redactValue P (.ofOption call.feature)

/-- The feature that the call's evidence selects, as the ledger names it. -/
def selectedFeature (call : ProjectCall) (P : Platform) : Json :=
  redactValue P (call.accepted.evidence.get "selected_feature")

variable {call : ProjectCall} {P : Platform} {key : String}

/-- The evidence is that of a planning commit, or none. -/
theorem evidence_cases :
    call.terminalEvidence = none ∧ call.accepted.evidence = [] ∨
      call.terminalEvidence.isSome ∧ call.accepted.evidence.keys = EVIDENCE_FIELDS := by
  unfold accepted request Request.evidence terminalEvidence
  cases call.planningEvidence with
  | obj planning =>
      by_cases h : call.checkpoint = "planning_recovery_committed"
      · right
        simp only [if_pos h]
        exact ⟨rfl, rfl⟩
      · left
        simp only [if_neg h]
        exact ⟨trivial, rfl⟩
  | _ => exact Or.inl ⟨rfl, rfl⟩

theorem get?_evidence (hkey : key ∉ EVIDENCE_FIELDS) :
    Fields.get? call.accepted.evidence.reverse key = none := by
  refine Dict.get?_eq_none.mpr ?_
  rw [Dict.keys, List.map_reverse, List.mem_reverse]
  rcases call.evidence_cases with ⟨-, hnone⟩ | ⟨-, hkeys⟩
  · rw [hnone]
    exact List.not_mem_nil
  · change key ∉ call.accepted.evidence.keys
    rw [hkeys]
    exact hkey

theorem get?_selected : Fields.get? call.accepted.evidence.reverse "selected_feature" =
    if call.terminalEvidence.isSome then some (call.accepted.evidence.get "selected_feature")
    else none := by
  unfold accepted request Request.evidence terminalEvidence
  cases call.planningEvidence with
  | obj planning =>
      by_cases h : call.checkpoint = "planning_recovery_committed"
      · simp only [if_pos h]
        rfl
      · simp only [if_neg h]
        rfl
  | _ => rfl

/-- The target of a move that the machine accepts passes the redaction as it is. -/
theorem redactText_target (hknown : ∃ state, PORTFOLIO_MACHINE.ofName? call.target = some state) :
    redactText P call.target = call.target := by
  obtain ⟨state, hstate⟩ := hknown
  have hname : PORTFOLIO_MACHINE.name state = call.target := by simpa using List.find?_some hstate
  change state.value = call.target at hname
  rw [← hname]
  refine redactText_eq_self_of_wordless P ?_
  cases state <;> decide +kernel

section Named

variable {event : LedgerEvent} {transactionId : String}

theorem start_named (h : IsStart P call.accepted transactionId event) :
    event.payload.get "feature_id" = call.namedFeature P ∧ isCanonicalStart event := by
  obtain ⟨hkind, -, branch, head, hpayload⟩ := h
  have hget : ∀ key, (startedPayload call.accepted branch head).get? key = _ := fun key =>
    Fields.get?_ofPairs _ key
  refine ⟨?_, hkind, ?_, ?_⟩
  · rw [hpayload, get_redactFields _ (isSensitiveKey_routing (by decide)), Fields.get, hget]
    simp [Fields.get?_cons, namedFeature, accepted, request]
  · rw [hpayload, Fields.get, get?_redactFields, hget]
    simp [Fields.get?_cons, Json.truthy]
  · rw [hpayload, Fields.get, get?_redactFields, hget]
    simp [Fields.get?_cons, Json.truthy]

/-- A field of the terminal payload that the evidence does not name. -/
theorem get?_completedPayload {branch : Option String} {head : String} {clean : Bool}
    (hkey : key ∉ EVIDENCE_FIELDS) (hadapter : key ≠ "legacy_adapter") :
    (completedPayload call.accepted branch head clean).get? key =
      Fields.get? (Fields.ofPairs
        [("classification", .str CLASSIFICATION), ("feature_id", .ofOption call.feature),
         ("next_state", .str call.target),
         ("terminal_snapshot", .obj (Fields.ofPairs
           [("branch", .ofOption branch), ("head", .str head), ("clean", .bool clean)]))]) key := by
  rw [completedPayload, Fields.get?_set_of_ne hadapter, Fields.get?_update, Fields.get?_append,
    get?_evidence hkey]
  rfl

theorem isSensitiveKey_selected : isSensitiveKey P "selected_feature" = false :=
  isSensitiveKey_of_ascii P (by decide) (by decide)

/-- What the terminal event of a call names. -/
structure CompletedNames (call : ProjectCall) (P : Platform) (event : LedgerEvent) : Prop where
  state : event.payload.get? "next_state" = some (.str call.target)
  feature : event.payload.get? "feature_id" = some (call.namedFeature P)
  commit : event.payload.get? "accepted_feature_commit" = none
  selected : event.payload.get? "selected_feature" =
    if call.terminalEvidence.isSome then some (call.selectedFeature P) else none

theorem completed_named
    (hknown : ∃ state, PORTFOLIO_MACHINE.ofName? call.target = some state)
    {branch : Option String} {head : String} {clean : Bool}
    (hpayload : event.payload =
      redactFields P (completedPayload call.accepted branch head clean)) :
    CompletedNames call P event := by
  refine ⟨?_, ?_, ?_, ?_⟩
  · rw [hpayload, get?_redactFields_of_not_sensitive _ (isSensitiveKey_routing (by decide)),
      get?_completedPayload (by decide) (by decide)]
    simp [Fields.get?_ofPairs, Fields.get?_cons, redactValue, redactText_target hknown]
  · rw [hpayload, get?_redactFields_of_not_sensitive _ (isSensitiveKey_routing (by decide)),
      get?_completedPayload (by decide) (by decide)]
    simp [Fields.get?_ofPairs, Fields.get?_cons, namedFeature]
  · rw [hpayload, get?_redactFields, get?_completedPayload (by decide) (by decide)]
    simp [Fields.get?_ofPairs, Fields.get?_cons]
  · rw [hpayload, get?_redactFields_of_not_sensitive _ isSensitiveKey_selected, completedPayload,
      Fields.get?_set_of_ne (by decide), Fields.get?_update, Fields.get?_append, get?_selected]
    split
    · rfl
    · simp [Fields.get?_ofPairs, Fields.get?_cons]

/-- What the projection update of a call names. -/
structure ProjectedNames (call : ProjectCall) (P : Platform) (event : LedgerEvent) : Prop where
  state : event.payload.get? "current_state" = some (.str call.target)
  feature : event.payload.get? "current_feature" = some (call.namedFeature P)
  selected : event.payload.get? "selected_feature" = some (call.selectedFeature P)
  facts : ∀ facts, event.payload.get "projection_facts" = .obj facts →
    Fields.get? facts.reverse "current_state" = none

theorem get?_projectionFacts :
    Fields.get? (redactFields P (call.accepted.projectionFacts.getD [])).reverse
      "current_state" = none := by
  have hkeys : ∀ evidence : Option Fields, call.terminalEvidence = evidence →
      Fields.get? (redactFields P (call.accepted.projectionFacts.getD [])).reverse
        "current_state" = none := by
    intro evidence hevidence
    simp only [accepted, request, projectionFacts, hevidence]
    cases evidence with
    | none => simp [redactFields]
    | some found =>
        simp [redactFields, Fields.get?_cons]
  exact hkeys _ rfl

theorem projected_named
    (hknown : ∃ state, PORTFOLIO_MACHINE.ofName? call.target = some state)
    (hpayload : event.payload = redactFields P (projectedPayload call.accepted)) :
    ProjectedNames call P event := by
  have hget : ∀ key, (projectedPayload call.accepted).get? key = _ := fun key =>
    Fields.get?_ofPairs _ key
  refine ⟨?_, ?_, ?_, fun facts hfacts => ?_⟩
  · rw [hpayload, get?_redactFields_of_not_sensitive _ (isSensitiveKey_routing (by decide)), hget]
    simp [Fields.get?_cons, redactValue, accepted, request, redactText_target hknown]
  · rw [hpayload, get?_redactFields_of_not_sensitive _ (isSensitiveKey_routing (by decide)), hget]
    simp [Fields.get?_cons, namedFeature, accepted, request]
  · rw [hpayload, get?_redactFields_of_not_sensitive _ isSensitiveKey_selected, hget]
    simp [Fields.get?_cons, selectedFeature]
  · have hplain : isSensitiveKey P "projection_facts" = false :=
      isSensitiveKey_of_ascii P (by decide) (by decide)
    rw [hpayload, get_redactFields _ hplain, Fields.get, hget] at hfacts
    have hobject : Json.obj (redactFields P (call.accepted.projectionFacts.getD [])) =
        .obj facts := by
      simpa [Fields.get?_cons, redactValue] using hfacts
    rw [← Json.obj.inj hobject]
    exact get?_projectionFacts

end Named

end ProjectCall

/-! ### What the loop computes from them -/

open ProjectCall

/-- The call counts its feature as integrated. -/
def ProjectCall.Integrating (call : ProjectCall) : Prop :=
  call.accepted.workflow = .milestoneIntegration

/-- The loop's state after events of a call, from the state before them. -/
structure Tracked (call : ProjectCall) (P : Platform) (transactionId : String)
    (s : ProjectionState) (completed : Prop) (u : ProjectionState) : Prop where
  keyed : Keyed u
  entry : ∃ view, u.transactions.get? transactionId = some view ∧
    view.featureId = call.namedFeature P
  others : ∀ other ≠ transactionId, u.transactions.get? other = s.transactions.get? other
  state : completed → u.currentState = .str call.target
  feature : completed → u.currentFeature = call.namedFeature P
  facts : Fields.get? u.projectionFacts "current_state" = none
  integrated : ∀ key ∈ u.integratedFeatures,
    key ∈ s.integratedFeatures ∨
      call.Integrating ∧ (call.namedFeature P).truthy = true ∧ key = call.namedFeature P
  kept : ∀ key ∈ s.integratedFeatures, key ∈ u.integratedFeatures
  commits : u.featureCommits = s.featureCommits
  commit : if (call.namedFeature P).truthy then
      s.featureCommit (call.namedFeature P) = .ok u.acceptedFeatureCommit
    else u.acceptedFeatureCommit = s.acceptedFeatureCommit
  selected : u.selectedNextFeature = s.selectedNextFeature ∨
    u.selectedNextFeature = call.selectedFeature P
  replaced : completed → call.terminalEvidence.isSome →
    u.selectedNextFeature = call.selectedFeature P

section Tracking

variable {call : ProjectCall} {P : Platform} {transactionId : String} {s u t : ProjectionState}
  {event : LedgerEvent} {finished : Prop}

theorem hashKey_namedFeature : hashKey (call.namedFeature P) = .ok (call.namedFeature P) := by
  unfold namedFeature
  cases call.feature <;> rfl

/-- The entry that a pass leaves, and the entries it leaves alone. -/
theorem FoldStep.entry (hstep : FoldStep u event t) (hid : event.transactionId = transactionId)
    {feature : Json}
    (hfeature : (if event.eventType = transactionStarted then event.payload.get "feature_id"
      else (viewOf u event).featureId) = feature) :
    (∃ view, t.transactions.get? transactionId = some view ∧ view.featureId = feature) ∧
      ∀ other ≠ transactionId, t.transactions.get? other = u.transactions.get? other := by
  obtain ⟨view, hget, -, -, hview⟩ := hstep.views
  refine ⟨⟨view, ?_, hview.trans hfeature⟩, fun other hne => ?_⟩
  · rw [hget, if_pos hid.symm]
  · rw [hget, if_neg (hid ▸ hne)]

theorem tracked_start (hkeyed : Keyed s) (h : IsStart P call.accepted transactionId event)
    (hfold : foldEvent s event = .ok t) : Tracked call P transactionId s False t := by
  obtain ⟨hfeature, hcanonical⟩ := start_named h
  have hkind := h.1
  have hstep := foldEvent_step hkeyed hfold
  have hcommit := foldEvent_commits (fun hc => by rw [hkind] at hc; cases hc) hfold
  obtain ⟨hentry, hothers⟩ := hstep.entry h.2.1 (by rw [if_pos hkind, hfeature])
  have hnone : ¬isIntegration event := fun hi => by
    have := hi.1
    rw [hkind] at this
    cases this
  refine ⟨hstep.keyed hkeyed, hentry, hothers, False.elim, False.elim, ?_, fun key hkey => ?_,
    fun key hkey => ?_, hcommit.commits, ?_, ?_, False.elim⟩
  · rw [hstep.facts, factsAfter, if_pos hcanonical]
    rfl
  · rcases (hstep.integrated key).mp hkey with hold | ⟨hi, -⟩
    · exact Or.inl hold
    · exact absurd hi hnone
  · exact (hstep.integrated key).mpr (Or.inl hkey)
  · have hstarted := hcommit.started hkind
    rwa [hfeature] at hstarted
  · left
    rw [hcommit.selected]
    simp only [selectedNamed, hkind]
    rfl

/-- The entry that the pass starts from names the feature. -/
theorem Tracked.viewOf (h : Tracked call P transactionId s finished u)
    (hid : event.transactionId = transactionId) :
    (viewOf u event).featureId = call.namedFeature P := by
  obtain ⟨view, hview, hfeature⟩ := h.entry
  rw [Conveyor.viewOf, hid, hview]
  exact hfeature

/-- A later pass: what its event does not name stays, and what it names is the call's. -/
theorem Tracked.step {finished' : Prop} (h : Tracked call P transactionId s finished u)
    (hid : event.transactionId = transactionId) (hstart : event.eventType ≠ transactionStarted)
    (hnone : event.eventType = transactionCompleted →
      event.payload.get? "accepted_feature_commit" = none)
    (hstate : finished' → stateNamed event = some (.str call.target) ∨
      stateNamed event = none ∧ finished)
    (hfeature : finished' → featureNamed event = some (call.namedFeature P) ∨
      featureNamed event = none ∧ finished)
    (hfacts : Fields.get? (factsNamed event).reverse "current_state" = none)
    (hintegration : isIntegration event →
      call.Integrating ∧ event.payload.get "feature_id" = call.namedFeature P)
    (hselected : selectedNamed event = some (call.selectedFeature P) ∨
      selectedNamed event = none ∧ (finished' → call.terminalEvidence.isSome → finished))
    (hfold : foldEvent u event = .ok t) : Tracked call P transactionId s finished' t := by
  have hstep := foldEvent_step h.keyed hfold
  have hcommit := foldEvent_commits hnone hfold
  obtain ⟨hentry, hothers⟩ := hstep.entry hid (by rw [if_neg hstart, h.viewOf hid])
  have hnext := hcommit.selected
  refine ⟨hstep.keyed h.keyed, hentry, fun other hne => (hothers other hne).trans (h.others other hne),
    fun hf => ?_, fun hf => ?_, ?_, fun key hkey => ?_, fun key hkey => ?_,
    hcommit.commits.trans h.commits, ?_, ?_, fun hf hsome => ?_⟩
  · rw [hstep.state]
    rcases hstate hf with hnamed | ⟨hnamed, hbefore⟩
    · rw [hnamed]
      rfl
    · rw [hnamed]
      exact h.state hbefore
  · rw [hstep.feature]
    rcases hfeature hf with hnamed | ⟨hnamed, hbefore⟩
    · rw [hnamed]
      rfl
    · rw [hnamed]
      exact h.feature hbefore
  · rw [hstep.facts, factsAfter, if_neg fun hc => hstart hc.1, Fields.get?_update,
      Fields.get?_append, hfacts]
    exact h.facts
  · rcases (hstep.integrated key).mp hkey with hold | ⟨hi, htruthy, hhash⟩
    · exact h.integrated key hold
    · obtain ⟨hintegrating, hget⟩ := hintegration hi
      have hinteg : integratedFeature (Conveyor.viewOf u event).featureId event =
          call.namedFeature P := by
        rw [integratedFeature, hget, h.viewOf hid]
        simp only [firstTruthy]
        split <;> rfl
      rw [hinteg] at htruthy hhash
      rw [hashKey_namedFeature] at hhash
      exact Or.inr ⟨hintegrating, htruthy, (Except.ok.inj hhash).symm⟩
  · exact (hstep.integrated key).mpr (Or.inl (h.kept key hkey))
  · rw [hcommit.kept hstart]
    exact h.commit
  · rcases hselected with hnamed | ⟨hnamed, -⟩
    · rw [hnamed] at hnext
      exact Or.inr hnext
    · rw [hnamed] at hnext
      have hsame : t.selectedNextFeature = u.selectedNextFeature := hnext
      rw [hsame]
      exact h.selected
  · rcases hselected with hnamed | ⟨hnamed, hbefore⟩
    · rw [hnamed] at hnext
      exact hnext
    · rw [hnamed] at hnext
      exact hnext.trans (h.replaced (hbefore hf hsome) hsome)

theorem Tracked.completed (h : Tracked call P transactionId s finished u)
    (hid : event.transactionId = transactionId)
    (hworkflow : event.workflowType = call.accepted.workflow)
    (hkind : event.eventType = transactionCompleted) (hnames : CompletedNames call P event)
    (hfold : foldEvent u event = .ok t) : Tracked call P transactionId s True t := by
  refine h.step hid (by rw [hkind]; decide) (fun _ => hnames.commit) (fun _ => Or.inl ?_)
    (fun _ => Or.inl ?_) ?_ (fun hi => ⟨hworkflow.symm.trans hi.2, ?_⟩) ?_ hfold
  · simp only [stateNamed, hkind, hnames.state]
  · simp only [featureNamed, hkind, hnames.feature]
  · rw [factsNamed, if_neg (by rw [hkind]; decide)]
    rfl
  · rw [Fields.get, hnames.feature]
    rfl
  · simp only [selectedNamed, hkind, hnames.selected]
    by_cases hsome : call.terminalEvidence.isSome
    · rw [if_pos hsome]
      exact Or.inl rfl
    · rw [if_neg hsome]
      exact Or.inr ⟨rfl, fun _ hs => absurd hs hsome⟩

theorem Tracked.projected (h : Tracked call P transactionId s finished u)
    (hid : event.transactionId = transactionId)
    (hkind : event.eventType = projectionUpdated) (hnames : ProjectedNames call P event)
    (hfold : foldEvent u event = .ok t) : Tracked call P transactionId s finished t := by
  refine h.step hid (by rw [hkind]; decide) (fun hc => ?_) (fun _ => Or.inl ?_)
    (fun _ => Or.inl ?_) ?_ (fun hi => ?_) (Or.inl ?_) hfold
  · rw [hkind] at hc
    cases hc
  · simp only [stateNamed, hkind, hnames.state]
  · simp only [featureNamed, hkind, hnames.feature]
  · rw [factsNamed, if_pos hkind]
    cases hfacts : event.payload.get "projection_facts" with
    | obj facts => exact hnames.facts facts hfacts
    | _ => rfl
  · have hc := hi.1
    rw [hkind] at hc
    cases hc
  · simp only [selectedNamed, hkind, hnames.selected]

/-- An event of the transaction that names nothing. -/
theorem Tracked.quiet (h : Tracked call P transactionId s finished u)
    (hid : event.transactionId = transactionId)
    (hkind : event.eventType ∈ [leaseAcquired, snapshotCaptured, validationStarted,
      validationPassed, leaseReleased])
    (hfold : foldEvent u event = .ok t) : Tracked call P transactionId s finished t := by
  simp only [List.mem_cons, List.not_mem_nil, or_false] at hkind
  have hnot : event.eventType ≠ transactionStarted ∧ event.eventType ≠ transactionCompleted ∧
      event.eventType ≠ projectionUpdated := by
    rcases hkind with h | h | h | h | h <;> rw [h] <;> decide
  have hsilent : stateNamed event = none ∧ featureNamed event = none ∧
      selectedNamed event = none := by
    rcases hkind with h | h | h | h | h <;>
      simp only [stateNamed, featureNamed, selectedNamed, h, and_self]
  obtain ⟨hstart, hcompleted, hprojected⟩ := hnot
  obtain ⟨hstate, hfeature, hselected⟩ := hsilent
  refine h.step hid hstart (fun hc => absurd hc hcompleted) (fun hf => Or.inr ⟨hstate, hf⟩)
    (fun hf => Or.inr ⟨hfeature, hf⟩) ?_ (fun hi => absurd hi.1 hcompleted)
    (Or.inr ⟨hselected, fun hf _ => hf⟩) hfold
  rw [factsNamed, if_neg hprojected]
  rfl

theorem Tracked.congr {finished' : Prop} (h : Tracked call P transactionId s finished u)
    (hiff : finished ↔ finished') : Tracked call P transactionId s finished' u := by
  rw [← hiff]
  exact h

/-- The whole transaction. -/
theorem tracked_recorded {completed : Prop} {before after : List LedgerEvent}
    (hknown : ∃ state, PORTFOLIO_MACHINE.ofName? call.target = some state)
    (hrecorded : LegacyAdapter.Recorded P call.accepted transactionId completed before after)
    (hbefore : foldEvents before = .ok s) (hfold : foldEvents after = .ok u) :
    Tracked call P transactionId s completed u := by
  obtain ⟨start, later, rfl, hstart, hlater, hcompleted⟩ := hrecorded
  rw [hcompleted]
  clear hcompleted
  have hsplit : before ++ start :: later = (before ++ [start]) ++ later := by simp
  rw [hsplit] at hfold
  induction later using List.reverseRecOn generalizing u with
  | nil =>
      rw [List.append_nil] at hfold
      obtain ⟨v, hv, hlast⟩ := foldlM_snoc_eq_ok.mp hfold
      have hsame : v = s := Except.ok.inj (hv.symm.trans hbefore)
      subst hsame
      have htracked := tracked_start (keyed_fold hbefore) hstart hlast
      simpa using htracked
  | append_singleton rest event ih =>
      rw [← List.append_assoc] at hfold
      obtain ⟨v, hv, hlast⟩ := foldlM_snoc_eq_ok.mp hfold
      have hrest := ih hv (fun other hother => hlater other (List.mem_append_left _ hother))
        (by simp)
      obtain ⟨hid, hworkflow, hnames⟩ := hlater event (by simp)
      have hnext : Tracked call P transactionId s
          ((∃ other ∈ rest, other.eventType = transactionCompleted) ∨
            event.eventType = transactionCompleted) u := by
        cases hkind : event.eventType with
        | transactionCompleted =>
            rw [hkind] at hnames
            obtain ⟨branch, head, clean, hpayload⟩ := hnames
            have hdone := hrest.completed hid hworkflow hkind (completed_named hknown hpayload)
              hlast
            exact hdone.congr (by simp)
        | projectionUpdated =>
            rw [hkind] at hnames
            exact (hrest.projected hid hkind (projected_named hknown hnames) hlast).congr (by simp)
        | leaseAcquired | snapshotCaptured | validationStarted | validationPassed
        | leaseReleased =>
            exact (hrest.quiet hid (by rw [hkind]; decide) hlast).congr (by simp)
        | _ =>
            rw [hkind] at hnames
            exact hnames.elim
      exact hnext.congr (by simp [List.mem_append, or_and_right, exists_or])

end Tracking

/-! ### When the settlement keeps the target -/

/-- The feature is in the set of integrated features. -/
def ProjectionState.Counts (s : ProjectionState) (feature : Json) : Prop :=
  ∃ key, hashKey feature = .ok key ∧ key ∈ s.integratedFeatures

/-- On the state before a call, why the projection of its transaction shows its target. -/
inductive KeepsTarget (call : ProjectCall) (P : Platform) (transactionId : String)
    (s : ProjectionState) : Prop where
  /-- The target is none of the states that a settlement replaces. -/
  | ordinary (hstate : call.target ∉ FEATURE_STATES) (hrunning : call.target ≠ "feature_running")
  /-- The feature is not integrated, and is not integrated by the call. -/
  | unintegrated (hstate : call.target ∈ FEATURE_STATES)
      (hnew : call.namedFeature P ∉ s.integratedFeatures)
      (hcall : call.Integrating → (call.namedFeature P).truthy = false)
  /-- The evidence selects another feature, which is not integrated. -/
  | selects (hstate : call.target ∈ FEATURE_STATES) (hsome : call.terminalEvidence.isSome)
      (hselected : call.selectedFeature P ≠ .null)
      (hnew : ∀ key, hashKey (call.selectedFeature P) = .ok key → key ∉ s.integratedFeatures ∧
        (call.Integrating → key ≠ call.namedFeature P))
  /-- The running feature is not integrated and has no accepted commit. -/
  | running (hstate : call.target = "feature_running")
      (hnew : call.namedFeature P ∉ s.integratedFeatures)
      (hcommit : ∀ commit, (if (call.namedFeature P).truthy then
          s.featureCommit (call.namedFeature P) = .ok commit
        else commit = s.acceptedFeatureCommit) → commit.truthy = false)
  /-- The running feature is integrated, and no other one is selected. -/
  | historical (hstate : call.target = "feature_running") (hfeature : call.namedFeature P ≠ .null)
      (hnew : call.namedFeature P ∈ s.integratedFeatures)
      (hselected : ∀ selected ∈ [s.selectedNextFeature, call.selectedFeature P],
        selected = .null ∨ s.Counts selected)
  /-- Another transaction is open. -/
  | occupied (hrunning : call.target ≠ "feature_running") (other : String)
      (view : TransactionView) (hother : other ≠ transactionId)
      (hview : s.transactions.get? other = some view) (hactive : isInactive view = false)

section Settling

variable {call : ProjectCall} {P : Platform} {transactionId : String}
  {s u v : ProjectionState} {active : Option TransactionView} {commit state : Json}

/-- A settlement that changes something. -/
structure Settled (u v : ProjectionState) : Prop where
  integrated : u.isIntegrated u.currentFeature = .ok true
  present : u.currentFeature ≠ .null
  replaced : ∃ selected, withoutIntegrated u u.selectedNextFeature = .ok selected ∧
    withoutIntegrated u selected = .ok v.currentFeature
  state : settledState v.currentFeature u.currentState = .ok v.currentState
  commit : v.acceptedFeatureCommit = .null
  same : v.featureCommits = u.featureCommits ∧ v.integratedFeatures = u.integratedFeatures

theorem settleIdle_cases (h : settleIdle u active = .ok v) :
    v = u ∨ active = none ∧ Settled u v := by
  cases active with
  | some view => exact Or.inl (Except.ok.inj h).symm
  | none =>
      simp only [settleIdle, settle, bind_eq_ok] at h
      obtain ⟨integrated, hintegrated, h⟩ := h
      split at h
      · rename_i hcondition
        simp only [bind_eq_ok, pure, Except.pure, Except.ok.injEq] at h
        obtain ⟨selected, hselected, feature, hfeature, state, hstate, rfl⟩ := h
        rw [hcondition.1] at hintegrated
        exact Or.inr ⟨rfl, hintegrated, hcondition.2, ⟨selected, hselected, hfeature⟩, hstate, rfl,
          rfl, rfl⟩
      · exact Or.inl (Except.ok.inj h).symm

theorem settledState_cases {feature before after : Json}
    (h : settledState feature before = .ok after) :
    after = before ∨ feature = .null ∧ ∃ key, hashKey before = .ok key ∧
      key ∈ FEATURE_STATES.map Json.str := by
  unfold settledState at h
  split at h
  · rename_i hnull
    simp only [bind_eq_ok, pure, Except.pure, Except.ok.injEq] at h
    obtain ⟨key, hkey, rfl⟩ := h
    split
    · rename_i hmem
      exact Or.inr ⟨hnull, key, hkey, hmem⟩
    · exact Or.inl rfl
  · exact Or.inl (Except.ok.inj h).symm

theorem isIntegrated_key {feature : Json} {integrated : Bool}
    (h : u.isIntegrated feature = .ok integrated) :
    ∃ key, hashKey feature = .ok key ∧ (integrated = true ↔ key ∈ u.integratedFeatures) := by
  simp only [ProjectionState.isIntegrated, bind_eq_ok, pure, Except.pure, Except.ok.injEq] at h
  obtain ⟨key, hkey, rfl⟩ := h
  exact ⟨key, hkey, decide_eq_true_iff⟩

theorem withoutIntegrated_key {feature left : Json} (h : withoutIntegrated u feature = .ok left) :
    ∃ key, hashKey feature = .ok key ∧
      left = if key ∈ u.integratedFeatures then .null else feature := by
  simp only [withoutIntegrated, bind_eq_ok, pure, Except.pure, Except.ok.injEq] at h
  obtain ⟨integrated, hintegrated, rfl⟩ := h
  obtain ⟨key, hkey, hiff⟩ := isIntegrated_key hintegrated
  refine ⟨key, hkey, ?_⟩
  simp only [hiff]

theorem readyForIntegration_of_ne {target : String} (hstate : v.currentState = .str target)
    (hrunning : target ≠ "feature_running") (h : readyForIntegration v commit = .ok state) :
    state = .str target := by
  unfold readyForIntegration at h
  rw [hstate, if_neg (fun hc => hrunning (Json.str.inj hc.2))] at h
  exact (Except.ok.inj h).symm

theorem readyForIntegration_of_not {target : String} (hstate : v.currentState = .str target)
    (hcommit : commit.truthy = false) (h : readyForIntegration v commit = .ok state) :
    state = .str target := by
  unfold readyForIntegration at h
  rw [hstate, hcommit, if_neg (by simp)] at h
  exact (Except.ok.inj h).symm

/-- A running feature that is integrated and no longer current. -/
theorem Settled.not_ready (h : Settled u v) (hstate : v.currentState = .str "feature_running")
    (hfeature : v.currentFeature = .null) (hcommit : currentAcceptedCommit v = .ok commit)
    (hready : readyForIntegration v commit = .ok state) : state = .str "feature_running" := by
  refine readyForIntegration_of_not hstate ?_ hready
  unfold currentAcceptedCommit at hcommit
  rw [hfeature, if_neg (by simp [Json.truthy])] at hcommit
  rw [← Except.ok.inj hcommit, h.commit]
  rfl

/-- What the settlement and the step after it make of the state of a tracked call. -/
theorem Tracked.shows (h : Tracked call P transactionId s True u)
    (hkeeps : KeepsTarget call P transactionId s) (hactive : activeTransaction u = .ok active)
    (hsettled : settleIdle u active = .ok v) (hcommit : currentAcceptedCommit v = .ok commit)
    (hready : readyForIntegration v commit = .ok state) : state = .str call.target := by
  have htarget := h.state trivial
  have hfeature := h.feature trivial
  -- a settlement leaves a target alone unless it empties the current feature in certain states
  have hstays : (call.target ∈ FEATURE_STATES → v.currentFeature ≠ .null ∨ v = u) →
      v.currentState = .str call.target := by
    intro hcase
    rcases settleIdle_cases hsettled with rfl | ⟨-, hsettled⟩
    · exact htarget
    · rcases settledState_cases hsettled.state with hsame | ⟨hnull, key, hkey, hmem⟩
      · exact hsame.trans htarget
      · rw [htarget] at hkey
        cases hkey
        obtain ⟨name, hname, heq⟩ := List.mem_map.mp hmem
        rcases hcase (Json.str.inj heq ▸ hname) with hne | hsame
        · exact absurd hnull hne
        · rw [hsame]
          exact htarget
  have hsettles : Settled u v → call.namedFeature P ≠ .null ∧
      call.namedFeature P ∈ u.integratedFeatures := by
    intro hs
    obtain ⟨key, hkey, hiff⟩ := isIntegrated_key hs.integrated
    rw [hfeature, hashKey_namedFeature] at hkey
    cases hkey
    exact ⟨hfeature ▸ hs.present, hiff.mp rfl⟩
  cases hkeeps with
  | ordinary hstate hrunning =>
      exact readyForIntegration_of_ne (hstays fun hmem => absurd hmem hstate) hrunning hready
  | unintegrated hstate hnew hcall =>
      have hrunning : call.target ≠ "feature_running" := by
        rintro heq
        rw [heq] at hstate
        exact absurd hstate (by decide)
      refine readyForIntegration_of_ne (hstays fun _ => ?_) hrunning hready
      rcases settleIdle_cases hsettled with rfl | ⟨-, hs⟩
      · exact Or.inr rfl
      · obtain ⟨-, hmem⟩ := hsettles hs
        rcases h.integrated _ hmem with hold | ⟨hintegrating, htruthy, -⟩
        · exact absurd hold hnew
        · rw [hcall hintegrating] at htruthy
          cases htruthy
  | selects hstate hsome hselected hnew =>
      have hrunning : call.target ≠ "feature_running" := by
        rintro heq
        rw [heq] at hstate
        exact absurd hstate (by decide)
      refine readyForIntegration_of_ne (hstays fun _ => ?_) hrunning hready
      rcases settleIdle_cases hsettled with rfl | ⟨-, hs⟩
      · exact Or.inr rfl
      · left
        obtain ⟨selected, hfirst, hsecond⟩ := hs.replaced
        rw [h.replaced trivial hsome] at hfirst
        have hkeep : ∀ left, withoutIntegrated u (call.selectedFeature P) = .ok left →
            left = call.selectedFeature P := by
          intro left hleft
          obtain ⟨key, hkey, rfl⟩ := withoutIntegrated_key hleft
          obtain ⟨hold, hcall⟩ := hnew key hkey
          refine if_neg fun hmem => ?_
          rcases h.integrated key hmem with hmem | ⟨hintegrating, -, heq⟩
          · exact hold hmem
          · exact hcall hintegrating heq
        rw [hkeep selected hfirst] at hsecond
        rw [hkeep _ hsecond]
        exact hselected
  | running hstate hnew hcommits =>
      have hnone : ¬call.Integrating := by
        intro hintegrating
        have hworkflow : workflowForState call.target = .milestoneIntegration := hintegrating
        rw [hstate] at hworkflow
        exact absurd hworkflow (by decide)
      have hsame : v = u := by
        rcases settleIdle_cases hsettled with rfl | ⟨-, hs⟩
        · rfl
        · rcases h.integrated _ (hsettles hs).2 with hold | ⟨hintegrating, -⟩
          · exact absurd hold hnew
          · exact absurd hintegrating hnone
      subst hsame
      refine readyForIntegration_of_not htarget (hcommits commit ?_) hready
      unfold currentAcceptedCommit at hcommit
      rw [hfeature] at hcommit
      have haccepted := h.commit
      by_cases htruthy : (call.namedFeature P).truthy
      · rw [if_pos htruthy] at hcommit ⊢
        rw [← hcommit]
        unfold ProjectionState.featureCommit
        rw [h.commits]
      · rw [if_neg htruthy] at hcommit haccepted ⊢
        rw [← Except.ok.inj hcommit, haccepted]
  | historical hstate hpresent hold hselected =>
      rcases settleIdle_cases hsettled with rfl | ⟨-, hs⟩
      · -- without a settlement the integrated feature keeps the state
        unfold readyForIntegration at hready
        split at hready
        · simp only [bind_eq_ok, pure, Except.pure, Except.ok.injEq] at hready
          obtain ⟨integrated, hintegrated, rfl⟩ := hready
          obtain ⟨key, hkey, hiff⟩ := isIntegrated_key hintegrated
          rw [hfeature, hashKey_namedFeature] at hkey
          cases hkey
          rw [if_pos (hiff.mpr (h.kept _ hold)), htarget]
        · rw [← Except.ok.inj hready, htarget]
      · have hnull : v.currentFeature = .null := by
          obtain ⟨selected, hfirst, hsecond⟩ := hs.replaced
          have hgone : selected = .null := by
            obtain ⟨key, hkey, rfl⟩ := withoutIntegrated_key hfirst
            have hcases : u.selectedNextFeature = .null ∨ s.Counts u.selectedNextFeature := by
              apply hselected
              rcases h.selected with heq | heq <;> simp [heq]
            rcases hcases with heq | ⟨key', hkey', hmem⟩
            · rw [heq]
              split <;> rfl
            · rw [hkey] at hkey'
              cases hkey'
              exact if_pos (h.kept key hmem)
          rw [hgone] at hsecond
          obtain ⟨key, -, heq⟩ := withoutIntegrated_key hsecond
          rw [heq]
          split <;> rfl
        rw [hstate]
        refine hs.not_ready ?_ hnull hcommit hready
        rw [← hstate]
        apply hstays
        intro hmem
        rw [hstate] at hmem
        exact absurd hmem (by decide)
  | occupied hrunning other view hother hview hopen =>
      refine readyForIntegration_of_ne (hstays fun _ => Or.inr ?_) hrunning hready
      rcases settleIdle_cases hsettled with rfl | ⟨rfl, -⟩
      · rfl
      · simp only [activeTransaction, bind_eq_ok, require_eq_ok, exists_const, pure, Except.pure,
          Except.ok.injEq] at hactive
        obtain ⟨-, -, -, hlast⟩ := hactive
        rw [List.getLast?_eq_none_iff, List.filter_eq_nil_iff] at hlast
        have hfound := (h.others other hother).trans hview
        have hnone := hlast view (List.mem_map_of_mem (Dict.mem_of_get? hfound))
        rw [hopen] at hnone
        simp at hnone

/-- The projection of a ledger that ends with a completed transaction shows its target, when the
    state before it says so. -/
theorem project_target {L : LedgerIdentity} {sequence : Nat} {fingerprint : String}
    {before after : List LedgerEvent} {value : Fields}
    (hknown : ∃ state, PORTFOLIO_MACHINE.ofName? call.target = some state)
    (hrecorded : LegacyAdapter.Recorded P call.accepted transactionId True before after)
    (hkeeps : ∀ s, foldEvents before = .ok s → KeepsTarget call P transactionId s)
    (h : project P L sequence fingerprint after none = .ok value) :
    value.get "current_state" = .str call.target := by
  simp only [project, bind_eq_ok, pure, Except.pure, Except.ok.injEq] at h
  obtain ⟨u, hfold, active, hactive, v, hsettled, commit, hcommit, state, hready, observed,
    hobserved, action, -, rfl⟩ := h
  obtain ⟨s, hbefore⟩ : ∃ s, foldEvents before = .ok s := by
    obtain ⟨start, later, hevents, -⟩ := hrecorded
    rw [hevents, foldEvents, List.foldlM_append, bind_eq_ok] at hfold
    obtain ⟨s, hs, -⟩ := hfold
    exact ⟨s, hs⟩
  have htracked := tracked_recorded hknown hrecorded hbefore hfold
  have hstate := htracked.shows (hkeeps s hbefore) hactive hsettled hcommit hready
  have hquiet : observed.consistency = "not_observed" := by
    rw [← Except.ok.inj hobserved]
  have hfacts : Fields.get? v.projectionFacts.reverse "current_state" = none := by
    rw [settleIdle_facts hsettled]
    refine Dict.get?_eq_none.mpr ?_
    rw [Dict.keys, List.map_reverse, List.mem_reverse]
    exact Dict.get?_eq_none.mp htracked.facts
  rw [hquiet, if_pos (by decide), Fields.get, Fields.get?_update, Fields.get?_append, hfacts,
    Fields.get?_ofPairs]
  exact hstate

end Settling

end Conveyor
