import Conveyor.CompletionSteps
import Conveyor.LegacyTransition

/-!
# Integrated features

Two producers complete transactions of the workflow `milestone_integration`: a kernel, with the
classification of its completion, and the legacy adapter, with a classification of its own. The
fold of the projection counts a feature as integrated after either. A run is any sequence of
their calls, cut off anywhere; `run_only_integrated` says when every feature counted as integrated
has a completion classified `INTEGRATED` in the ledger.
-/

namespace Conveyor

open Library EventType KernelCall

-- the size of an instance doubles with every part of a call, the time to find it does not
set_option synthInstance.maxSize 1000000000

/-- The ledger has a completed integration of the feature with this key, classified
    `INTEGRATED`. -/
def IntegrationShown (events : List LedgerEvent) (key : Json) : Prop :=
  ∃ earlier event later, events = earlier ++ event :: later ∧
    IntegratesAt key earlier event ∧ event.payload.get "classification" = .str "INTEGRATED"

/-- Every feature that the fold over the accepted ledger counts as integrated has such a
    completion. -/
def OnlyIntegrated (P : Platform) (L : LedgerIdentity) (events : List LedgerEvent) : Prop :=
  ∀ integrity found folded,
    validate P L (events.map LedgerEvent.toObject) = .ok (integrity, found) →
      foldEvents found = .ok folded →
        ∀ key ∈ folded.integratedFeatures, IntegrationShown found key

/-! ### Sound growth -/

/-- The event integrates no feature, unless it says so itself or an earlier one did. -/
def SoundAfter (earlier : List LedgerEvent) (event : LedgerEvent) : Prop :=
  ∀ key, IntegratesAt key earlier event →
    event.payload.get "classification" = .str "INTEGRATED" ∨ IntegrationShown earlier key

/-- The later ledger is the earlier one and sound events after it. -/
inductive SoundlyGrown (before : List LedgerEvent) : List LedgerEvent → Prop where
  | refl : SoundlyGrown before before
  | snoc {events : List LedgerEvent} {event : LedgerEvent} (hgrown : SoundlyGrown before events)
      (hsound : SoundAfter events event) : SoundlyGrown before (events ++ [event])

section Growth

variable {P : Platform} {L : LedgerIdentity} {before middle after events recorded : List LedgerEvent}
  {event : LedgerEvent} {key : Json} {transactionId : String} {excluded : List EventType}
  {w t : World}

theorem IntegrationShown.append (h : IntegrationShown events key) (recorded : List LedgerEvent) :
    IntegrationShown (events ++ recorded) key := by
  obtain ⟨earlier, event, later, rfl, hintegrates, hclassification⟩ := h
  exact ⟨earlier, event, later ++ recorded, by simp, hintegrates, hclassification⟩

theorem SoundlyGrown.trans (h : SoundlyGrown before middle) (h' : SoundlyGrown middle after) :
    SoundlyGrown before after := by
  induction h' with
  | refl => exact h
  | snoc _ hsound ih => exact ih.snoc hsound

theorem soundAfter_of_not_integration (h : ¬isIntegration event) : SoundAfter events event :=
  fun _ hintegrates => absurd hintegrates.1 h

/-- What records no completion grows the ledger soundly. -/
theorem soundlyGrown_append (h : ∀ event ∈ recorded, event.eventType ≠ transactionCompleted) :
    SoundlyGrown before (before ++ recorded) := by
  induction recorded using List.reverseRecOn with
  | nil => rw [List.append_nil]; exact .refl
  | append_singleton rest event ih =>
      rw [← List.append_assoc]
      refine (ih fun other hother => h other (List.mem_append_left _ hother)).snoc ?_
      refine soundAfter_of_not_integration fun hintegration => ?_
      exact h event (List.mem_append_right _ List.mem_cons_self) hintegration.1

theorem Grows.soundly (h : Grows excluded w t) (hexcluded : transactionCompleted ∈ excluded) :
    SoundlyGrown w.events t.events := by
  obtain ⟨recorded, hrecorded, hkinds⟩ := h.events
  rw [hrecorded]
  refine soundlyGrown_append fun event hevent heq => ?_
  exact hkinds event hevent (heq ▸ hexcluded)

/-- What records no start leaves the features of the transactions alone. -/
theorem Grows.startFeature (h : Grows excluded w t) (hexcluded : transactionStarted ∈ excluded)
    (transactionId : String) :
    startFeature t.events transactionId = startFeature w.events transactionId := by
  obtain ⟨recorded, hrecorded, hkinds⟩ := h.events
  have hnone : (recorded.find? fun event => event.transactionId = transactionId ∧
      event.eventType = transactionStarted) = none := by
    rw [List.find?_eq_none]
    intro event hevent
    have hkind : event.eventType ≠ transactionStarted := fun heq =>
      hkinds event hevent (heq ▸ hexcluded)
    simp [hkind]
  rw [Conveyor.startFeature, hrecorded, List.find?_append, hnone, Option.or_none,
    Conveyor.startFeature]

/-- Sound growth keeps every integrated feature shown. -/
theorem SoundlyGrown.shown (h : SoundlyGrown before after)
    (hbefore : ∀ key, Integrates before key → IntegrationShown before key) :
    ∀ key, Integrates after key → IntegrationShown after key := by
  induction h with
  | refl => exact hbefore
  | @snoc events event _ hsound ih =>
      intro key hintegrates
      rcases integrates_snoc.mp hintegrates with hearlier | hlast
      · exact (ih key hearlier).append [event]
      · rcases hsound key hlast with hclassification | hshown
        · exact ⟨events, event, [], rfl, hlast, hclassification⟩
        · exact hshown.append [event]

/-- A ledger that grew soundly from nothing counts only integrated features. -/
theorem SoundlyGrown.onlyIntegrated (h : SoundlyGrown [] events) : OnlyIntegrated P L events := by
  intro integrity found folded hvalidate hfold key hkey
  obtain ⟨hmap, hvalid, -⟩ := validate_eq_ok hvalidate
  have hsame : found = events :=
    (List.map_injective_iff.mpr LedgerEvent.toObject_injective hmap).symm
  subst hsame
  have hfolded := foldEvents_folded hvalid.replays hvalid.begun hfold
  refine h.shown (fun key hnone => ?_) key ((hfolded.integrated key).mp hkey)
  obtain ⟨earlier, event, later, hnil, -⟩ := hnone
  exact absurd hnil (by simp)

end Growth

/-! ### A completion of the kernel -/

/-- The feature that a completion of the transaction integrates, as the ledger names it. -/
def completionFeature (P : Platform) (events : List LedgerEvent) (transaction : PhaseTransaction) :
    Json :=
  firstTruthy [redactValue P (.ofOption transaction.featureId),
    startFeature events transaction.transactionId]

/-- The completion integrates no feature, or says so itself, or an earlier one did. -/
def CompletesSoundly (P : Platform) (events : List LedgerEvent) (kernel : Kernel)
    (completion : WorkflowKernel.Completion) : Prop :=
  ∀ transaction ∈ kernel.transaction, transaction.workflowType = .milestoneIntegration →
    WorkflowKernel.terminalClassification kernel completion = "INTEGRATED" ∨
      ∀ key, (completionFeature P events transaction).truthy = true →
        hashKey (completionFeature P events transaction) = .ok key → IntegrationShown events key

/-- The kernel's fields are the same, and no transaction started or completed. -/
structure Prepares (w t : World) : Prop where
  kernel : t.kernel = w.kernel
  grows : Grows [transactionStarted, transactionCompleted] w t

instance : IsPreorder World Prepares where
  refl w := ⟨rfl, refl_of _ w⟩
  trans _ _ _ h h' := ⟨h'.kernel.trans h.kernel, trans_of _ h.grows h'.grows⟩

namespace Prepares

variable {w t : World}

theorem of_still (h : Still w t) : Prepares w t := ⟨h.kernel, .of_same h.events h.repository⟩

theorem soundly (h : Prepares w t) : SoundlyGrown w.events t.events := h.grows.soundly (by decide)

end Prepares

section Completion

open WorkflowKernel

variable {α β : Type} {e : Environment} {w v t : World}

instance prepares_of_still {call : KernelCall α} [hcall : Call.Respects Still call] :
    Call.Respects Prepares call :=
  ⟨fun r s => .of_still (hcall.related r s)⟩

instance : Call.Respects Prepares readLedger :=
  have := still_readLedger
  prepares_of_still

instance : Call.Respects Prepares requireTransaction := Call.respects_reads _

instance : Call.Respects Prepares memory := Call.respects_reads _

instance (result : Result α) : Call.Respects Prepares (lift result) := Call.respects_reads _

theorem prepares_appendLedger {request : AppendRequest}
    (h : request.eventType ∉ [transactionStarted, transactionCompleted]) :
    Call.Respects Prepares (appendLedger request) := by
  have hgrows : Call.Respects (Grows [transactionStarted, transactionCompleted])
      (appendLedger request) := grows_appendLedger h
  refine Call.respects_attempt (fun w => .of_still (still_tick w)) fun e w value t hdone => ?_
  simp only [bind_eq_ok, pure, Except.pure, Except.ok.injEq, Prod.mk.injEq] at hdone
  obtain ⟨-, -, -, -, -, rfl⟩ := hdone
  exact ⟨rfl, grows_push h⟩

instance (payload : Fields) : Call.Respects Prepares (record checkpointRecorded payload) := by
  unfold record
  have : ∀ transaction : PhaseTransaction, Call.Respects Prepares (appendLedger
      { eventType := checkpointRecorded, transactionId := transaction.transactionId,
        workflowType := transaction.workflowType, payload := payload }) :=
    fun _ => prepares_appendLedger (by simp)
  infer_instance

instance (completion : Completion) (terminal : Option LedgerEvent) (events : List LedgerEvent) :
    Call.Respects Prepares (settleMaterialization completion terminal events) := by
  unfold settleMaterialization
  refine Call.Respects.bind inferInstance fun transaction => ?_
  refine Call.Respects.bind inferInstance fun given => ?_
  refine Call.Respects.bind inferInstance fun _ => ?_
  split <;> infer_instance

/-- A part of a completion before its terminal event. -/
theorem Prepares.bind {call : KernelCall α} {rest : α → KernelCall β}
    [hcall : Call.Respects Prepares call] (h : Prepares w v)
    (hrest : ∀ value t, call.Returns e v value t → Prepares w t →
      (rest value).Ends e t fun t => SoundlyGrown w.events t.events) :
    (call >>= rest).Ends e v fun t => SoundlyGrown w.events t.events := by
  have hafter : ∀ t, Prepares v t → Prepares w t := fun t ht => trans_of Prepares h ht
  refine Call.Ends.bind (hafter _ (hcall.related e v)).soundly fun value t hvalue => ?_
  exact hrest value t hvalue (hafter t (Call.Respects.of_returns hvalue))

/-- The part of a completion after its terminal event. -/
theorem ends_soundly {call : KernelCall α} [hcall : Call.Respects (Grows [transactionCompleted]) call]
    (h : SoundlyGrown w.events v.events) :
    call.Ends e v fun t => SoundlyGrown w.events t.events :=
  h.trans ((hcall.related e v).soundly (by decide))

theorem requireTransaction_eq_ok {transaction : PhaseTransaction}
    (h : requireTransaction.Returns e w transaction t) :
    transaction ∈ w.kernel.transaction ∧ w = t := by
  rw [requireTransaction, Call.returns_reads] at h
  obtain ⟨hfound, rfl⟩ := h
  cases hkernel : t.kernel.transaction with
  | none => simp [hkernel] at hfound
  | some found =>
      simp only [hkernel, Except.ok.injEq] at hfound
      exact ⟨congrArg some hfound, rfl⟩

theorem isSensitiveKey_classification (P : Platform) :
    isSensitiveKey P "classification" = false :=
  isSensitiveKey_of_ascii P (by decide) (by decide)

theorem redactText_integrated (P : Platform) : redactText P "INTEGRATED" = "INTEGRATED" :=
  redactText_eq_self_of_wordless P (by decide +kernel)

variable {transaction : PhaseTransaction} {completion : Completion} {snapshot : RepositorySnapshot}
  {nextState : String}

/-- The payload of the terminal event of a call with this memory. -/
def terminalFields (kernel : Kernel) (transaction : PhaseTransaction) (completion : Completion)
    (snapshot : RepositorySnapshot) : Fields :=
  completedPayload transaction kernel.finalCommit (terminalClassification kernel completion)
    (completedNextState kernel transaction) snapshot completion.evidence

/-- A terminal event of a completion that integrates soundly is sound. -/
theorem soundAfter_completion (hsound : CompletesSoundly e.platform w.events w.kernel completion)
    (htransaction : transaction ∈ w.kernel.transaction)
    (hreserved : KeepsReserved completion.evidence) (h : Prepares w v) :
    SoundAfter v.events (builtEvent e v
      { eventType := transactionCompleted, transactionId := transaction.transactionId
        workflowType := transaction.workflowType
        payload := terminalFields w.kernel transaction completion snapshot }) := by
  intro key hintegrates
  obtain ⟨hintegration, htruthy, hkey⟩ := hintegrates
  have hfeature : integratedFeature (startFeature v.events transaction.transactionId)
      (builtEvent e v
        { eventType := transactionCompleted, transactionId := transaction.transactionId
          workflowType := transaction.workflowType
          payload := terminalFields w.kernel transaction completion snapshot }) =
      completionFeature e.platform w.events transaction := by
    have hnamed : Fields.get (redactFields e.platform
        (terminalFields w.kernel transaction completion snapshot)) "feature_id" =
          redactValue e.platform (.ofOption transaction.featureId) := by
      rw [get_redactFields _ (isSensitiveKey_routing (by decide)), Fields.get, terminalFields,
        completedPayload_reserved hreserved (by decide)]
      rfl
    rw [integratedFeature, builtEvent_payload, hnamed, completionFeature,
      ← h.grows.startFeature (by decide)]
  rcases hsound transaction htransaction hintegration.2 with hclassification | hshown
  · left
    rw [builtEvent_payload, get_redactFields _ (isSensitiveKey_classification _), Fields.get, terminalFields,
      completedPayload_reserved hreserved (by decide), hclassification]
    exact congrArg Json.str (redactText_integrated e.platform)
  · right
    obtain ⟨recorded, hrecorded, -⟩ := h.grows.events
    rw [hrecorded]
    refine (hshown key ?_ ?_).append recorded
    · rw [← hfeature]
      exact htruthy
    · rw [← hfeature]
      exact hkey

theorem appendCompleted_ends (hsound : CompletesSoundly e.platform w.events w.kernel completion)
    (htransaction : transaction ∈ w.kernel.transaction)
    (hreserved : KeepsReserved completion.evidence) (h : Prepares w v) :
    (appendCompleted (terminalFields w.kernel transaction completion snapshot)
      (terminalClassification w.kernel completion) nextState).Ends e v
        fun t => SoundlyGrown w.events t.events := by
  unfold appendCompleted
  refine h.bind fun _ v _ h => ?_
  refine h.bind fun _ v _ h => ?_
  have hrecord : (record transactionCompleted
      (terminalFields w.kernel transaction completion snapshot)).Ends e v
        fun t => SoundlyGrown w.events t.events := by
    unfold record
    refine h.bind fun found v hfound h => ?_
    obtain ⟨hmemory, rfl⟩ := requireTransaction_eq_ok hfound
    have hsame : found = transaction := by
      have hkernel := h.kernel
      rw [hkernel] at hmemory
      exact Option.some.inj (hmemory.symm.trans htransaction)
    subst hsame
    refine Call.ends_attempt h.soundly fun value t hdone => ?_
    simp only [bind_eq_ok, pure, Except.pure, Except.ok.injEq, Prod.mk.injEq] at hdone
    obtain ⟨-, -, -, -, -, rfl⟩ := hdone
    exact h.soundly.snoc (soundAfter_completion hsound htransaction hreserved h)
  refine Call.Ends.bind hrecord fun _ t hdone => ?_
  exact ends_soundly (hrecord.of_returns hdone)

/-- `complete` up to its terminal event grows the ledger soundly. -/
theorem completeThroughTerminal_ends
    (hsound : CompletesSoundly e.platform w.events w.kernel completion) :
    (completeThroughTerminal completion).Ends e w fun t => SoundlyGrown w.events t.events := by
  unfold completeThroughTerminal
  have hw : Prepares w w := refl_of _ w
  refine hw.bind fun transaction v htransaction h => ?_
  obtain ⟨hmemory, rfl⟩ := requireTransaction_eq_ok htransaction
  refine h.bind fun _ v _ h => ?_
  refine h.bind fun read v _ h => ?_
  refine h.bind fun terminal v _ h => ?_
  refine h.bind fun kernel v hkernel h => ?_
  obtain ⟨rfl, rfl⟩ := returns_memory.mp hkernel
  refine h.bind fun snapshot v' _ h' => ?_
  refine h'.bind fun _ v' hchecked h' => ?_
  obtain ⟨hreserved, rfl⟩ := Call.returns_check.mp hchecked
  refine h'.bind fun events v' _ h' => ?_
  refine h'.bind fun materialization v' _ h' => ?_
  refine h'.bind fun _ v' _ h' => ?_
  rw [h.kernel]
  have hterminal : (completeTerminal terminal
      (terminalFields w.kernel transaction completion snapshot)
      (terminalClassification w.kernel completion)
      (completedNextState w.kernel transaction)).Ends e v'
        fun t => SoundlyGrown w.events t.events := by
    cases terminal with
    | none => exact appendCompleted_ends hsound hmemory hreserved h'
    | some event => exact Call.ends_check h'.soundly
  refine Call.Ends.bind hterminal fun _ t hdone => ?_
  exact Call.ends_pure (hterminal.of_returns hdone)

/-- A completion that integrates soundly grows the ledger soundly, wherever it is cut off. -/
theorem complete_ends (hsound : CompletesSoundly e.platform w.events w.kernel completion) :
    (complete completion).Ends e w fun t => SoundlyGrown w.events t.events := by
  unfold complete
  have hw : Prepares w w := refl_of _ w
  refine hw.bind fun transaction v htransaction h => ?_
  obtain ⟨-, rfl⟩ := requireTransaction_eq_ok htransaction
  refine h.bind fun kernel v hkernel h => ?_
  obtain ⟨rfl, rfl⟩ := returns_memory.mp hkernel
  have hterminal := completeThroughTerminal_ends hsound
  refine Call.Ends.bind hterminal fun materialization t hdone => ?_
  have : Fact (checkpointRecorded ∉ [transactionCompleted]) := ⟨by decide⟩
  have : Fact (leaseReleased ∉ [transactionCompleted]) := ⟨by decide⟩
  have : Fact (projectionUpdated ∉ [transactionCompleted]) := ⟨by decide⟩
  exact ends_soundly (hterminal.of_returns hdone)

end Completion

/-! ### A transition of the legacy adapter -/

namespace LegacyAdapter

/-- A field of the terminal payload before redaction: the terminal evidence comes first. -/
def Request.field (request : Request) (key : String) (value : Json) : Json :=
  (Fields.update (Fields.ofPairs [(key, value)]) request.evidence).get key

/-- The feature that the transition integrates, as the ledger names it. -/
def Request.feature (P : Platform) (request : Request) : Json :=
  firstTruthy [redactValue P (request.field "feature_id" (.ofOption request.featureId)),
    redactValue P (.ofOption request.featureId)]

/-- The transition integrates no feature, or says so itself, or an earlier integration did. -/
def TransitionsSoundly (P : Platform) (events : List LedgerEvent) (request : Request) : Prop :=
  request.workflow = .milestoneIntegration →
    request.field "classification" (.str CLASSIFICATION) = .str "INTEGRATED" ∨
      ∀ key, (request.feature P).truthy = true → hashKey (request.feature P) = .ok key →
        IntegrationShown events key

/-- The ledger grew soundly, and the call started and completed no transaction. -/
structure Quiet (s t : AdapterWorld) : Prop where
  grows : Grows [transactionStarted, transactionCompleted] s.world t.world

instance : IsPreorder AdapterWorld Quiet where
  refl s := ⟨refl_of _ s.world⟩
  trans _ _ _ h h' := ⟨trans_of _ h.grows h'.grows⟩

variable {α β : Type} {e : Environment} {s t u : AdapterWorld} {request : Request}
  {transactionId : String} {site : AdapterSite}

theorem Quiet.soundly (h : Quiet s t) : SoundlyGrown s.world.events t.world.events :=
  h.grows.soundly (by decide)

instance quiet_onWorld {call : KernelCall α}
    [hcall : Call.Respects (Grows [transactionStarted, transactionCompleted]) call] :
    Call.Respects Quiet (onWorld call) :=
  Call.respects_zoom fun _ _ h => ⟨h⟩

instance quiet_onWriter {call : KernelCall α}
    [hcall : Call.Respects (Grows [transactionStarted, transactionCompleted]) call] :
    Call.Respects Quiet (onWriter call) := by
  constructor
  intro e s
  have h := hcall.related e s.writerWorld
  exact ⟨⟨h.events, h.commits⟩⟩

instance quiet_onDocument (f : Environment → Option Json → Result (α × Option Json)) :
    Call.Respects Quiet (onDocument f) := by
  refine Call.respects_attempt (fun s => ⟨grows_tick s.world⟩) fun e s value t h => ?_
  cases hf : f e s.document with
  | error failure => simp [hf, Except.map] at h
  | ok found =>
      simp only [hf, Except.map, Except.ok.injEq, Prod.mk.injEq] at h
      obtain ⟨-, rfl⟩ := h
      exact ⟨refl_of _ s.world⟩

instance (document : Fields) : Call.Respects Quiet (writePreservingPause site document) := by
  unfold writePreservingPause loadProjectState storeProjectState
  infer_instance

theorem quiet_record {kind : EventType} {payload : Fields}
    (h : kind ∉ [transactionStarted, transactionCompleted]) :
    Call.Respects Quiet (record request transactionId kind payload) := by
  have : Call.Respects (Grows [transactionStarted, transactionCompleted]) (appendLedger
      { eventType := kind, transactionId := transactionId
        workflowType := request.workflow, payload := payload }) := grows_appendLedger h
  exact quiet_onWorld

instance (kind : EventType) (payload : Fields)
    [hkind : Fact (kind ∉ [transactionStarted, transactionCompleted])] :
    Call.Respects Quiet (record request transactionId kind payload) :=
  quiet_record hkind.out

/-- The transaction has started: the ledger grew soundly, and names the feature. -/
structure Opened (P : Platform) (request : Request) (transactionId : String)
    (s t : AdapterWorld) : Prop where
  soundly : SoundlyGrown s.world.events t.world.events
  grown : s.world.events <+: t.world.events
  feature : startFeature t.world.events transactionId =
    redactValue P (.ofOption request.featureId)

theorem Opened.quiet (h : Opened e.platform request transactionId s t) (hquiet : Quiet t u) :
    Opened e.platform request transactionId s u where
  soundly := h.soundly.trans hquiet.soundly
  grown := by
    obtain ⟨recorded, hrecorded, -⟩ := hquiet.grows.events
    rw [hrecorded]
    exact h.grown.trans (List.prefix_append _ _)
  feature := (hquiet.grows.startFeature (by decide) transactionId).trans h.feature

/-- A part that neither starts nor completes keeps what such parts keep. -/
theorem ends_quiet {call : AdapterCall α} {rest : α → AdapterCall β} {kept post : AdapterWorld → Prop}
    [hcall : Call.Respects Quiet call] (hkept : ∀ t u, kept t → Quiet t u → kept u)
    (hpost : ∀ t, kept t → post t) (h : kept s)
    (hrest : ∀ value t, kept t → (rest value).Ends e t post) :
    (call >>= rest).Ends e s post := by
  have hafter : ∀ t, Quiet s t → kept t := fun t ht => hkept s t h ht
  refine Call.Ends.bind (hpost _ (hafter _ (hcall.related e s))) fun value t hvalue => ?_
  exact hrest value t (hafter t (Call.Respects.of_returns hvalue))

theorem Opened.bind {call : AdapterCall α} {rest : α → AdapterCall β}
    [hcall : Call.Respects Quiet call] (h : Opened e.platform request transactionId s t)
    (hrest : ∀ value u, Opened e.platform request transactionId s u →
      (rest value).Ends e u fun u => SoundlyGrown s.world.events u.world.events) :
    (call >>= rest).Ends e t fun u => SoundlyGrown s.world.events u.world.events :=
  ends_quiet (fun _ _ h hquiet => h.quiet hquiet) (fun _ h => h.soundly) h hrest

theorem Quiet.bind {call : AdapterCall α} {rest : α → AdapterCall β}
    [hcall : Call.Respects Quiet call] (h : Quiet s t)
    (hrest : ∀ value u, Quiet s u →
      (rest value).Ends e u fun u => SoundlyGrown s.world.events u.world.events) :
    (call >>= rest).Ends e t fun u => SoundlyGrown s.world.events u.world.events :=
  ends_quiet (fun _ _ h hquiet => trans_of Quiet h hquiet) (fun _ h => h.soundly) h hrest

theorem returns_record {kind : EventType} {payload : Fields} {value : Unit}
    (h : (record request transactionId kind payload).Returns e s value t) :
    let event := builtEvent e s.world
      { eventType := kind, transactionId := transactionId
        workflowType := request.workflow, payload := payload }
    t = s.withWorld (s.world.push event).tick ∧ validateAppend s.world.events event = .ok () := by
  obtain ⟨w, hcall, rfl⟩ := Call.returns_zoom.mp h
  obtain ⟨rfl, hadmitted⟩ := appendLedger_eq_ok hcall
  exact ⟨rfl, hadmitted⟩

/-- `record` of a start: whether or not it is admitted, the ledger grew soundly. -/
theorem started_ends {branch head : String} (h : Quiet s t) :
    (record request transactionId transactionStarted (startedPayload request branch head)).Ends e t
      fun u => SoundlyGrown s.world.events u.world.events := by
  refine Call.ends_zoom (Call.ends_attempt h.soundly fun value w hdone => ?_)
  simp only [bind_eq_ok, pure, Except.pure, Except.ok.injEq, Prod.mk.injEq] at hdone
  obtain ⟨-, -, -, -, -, rfl⟩ := hdone
  refine h.soundly.snoc (soundAfter_of_not_integration fun hintegration => ?_)
  have hkind : transactionStarted = transactionCompleted := hintegration.1
  cases hkind

/-- The start of the transaction: an append that is admitted opens it. -/
theorem opened_of_started {branch head : String} {value : Unit} (h : Quiet s t)
    (hstart : (record request transactionId transactionStarted
      (startedPayload request branch head)).Returns e t value u) :
    Opened e.platform request transactionId s u := by
  obtain ⟨rfl, hadmitted⟩ := returns_record hstart
  have hnew := (validateAppend_eq_ok.mp hadmitted).start rfl
  refine ⟨(started_ends h).of_returns hstart, ?_, ?_⟩
  · obtain ⟨recorded, hrecorded, -⟩ := h.grows.events
    change _ <+: t.world.events ++ _
    rw [hrecorded, List.append_assoc]
    exact List.prefix_append _ _
  · change startFeature (t.world.events ++ _) _ = _
    refine (startFeature_snoc_started hnew rfl).trans ?_
    have hnamed : (startedPayload request branch head).get "feature_id" =
        .ofOption request.featureId := by
      simp [startedPayload, Fields.get, Fields.get?_ofPairs, Fields.get?_cons]
    rw [builtEvent_payload, get_redactFields _ (isSensitiveKey_routing (by decide)), hnamed]

theorem get_update {fields : Fields} {key : String} {value : Json}
    (h : fields.get? key = some value) :
    (Fields.update fields request.evidence).get key = request.field key value := by
  have hone : Fields.get? (Fields.ofPairs [(key, value)]) key = some value := by
    simp [Fields.get?_ofPairs, Fields.get?_cons]
  rw [Request.field, Fields.get, Fields.get, Fields.get?_update, Fields.get?_update,
    Fields.get?_append, Fields.get?_append, h, hone]

theorem get_completedPayload (request : Request) (branch : Option String) (head : String)
    (clean : Bool) :
    (completedPayload request branch head clean).get "feature_id" =
        request.field "feature_id" (.ofOption request.featureId) ∧
      (completedPayload request branch head clean).get "classification" =
        request.field "classification" (.str CLASSIFICATION) := by
  constructor
  · rw [completedPayload, Fields.get, Fields.get?_set_of_ne (by decide), ← Fields.get]
    apply get_update
    simp [Fields.get?_ofPairs, Fields.get?_cons]
  · rw [completedPayload, Fields.get, Fields.get?_set_of_ne (by decide), ← Fields.get]
    apply get_update
    simp [Fields.get?_ofPairs, Fields.get?_cons]

/-- The terminal event of a transition that integrates soundly is sound. -/
theorem soundAfter_transition {branch : Option String} {head : String} {clean : Bool}
    (hsound : TransitionsSoundly e.platform s.world.events request)
    (h : Opened e.platform request transactionId s t) :
    SoundAfter t.world.events (builtEvent e t.world
      { eventType := transactionCompleted, transactionId := transactionId
        workflowType := request.workflow, payload := completedPayload request branch head clean }) := by
  intro key hintegrates
  obtain ⟨hintegration, htruthy, hkey⟩ := hintegrates
  obtain ⟨hnamed, hclassified⟩ := get_completedPayload request branch head clean
  have hfeature : integratedFeature (startFeature t.world.events transactionId)
      (builtEvent e t.world
        { eventType := transactionCompleted, transactionId := transactionId
          workflowType := request.workflow
          payload := completedPayload request branch head clean }) =
      request.feature e.platform := by
    have hrecorded : Fields.get (redactFields e.platform
        (completedPayload request branch head clean)) "feature_id" =
          redactValue e.platform (request.field "feature_id" (.ofOption request.featureId)) := by
      rw [get_redactFields _ (isSensitiveKey_routing (by decide)), hnamed]
    rw [integratedFeature, builtEvent_payload, hrecorded, Request.feature, h.feature]
  rcases hsound hintegration.2 with hclassification | hshown
  · left
    rw [builtEvent_payload, get_redactFields _ (isSensitiveKey_classification _), hclassified, hclassification]
    exact congrArg Json.str (redactText_integrated e.platform)
  · right
    obtain ⟨recorded, hrecorded⟩ := h.grown
    rw [← hrecorded]
    refine (hshown key ?_ ?_).append recorded
    · rw [← hfeature]
      exact htruthy
    · rw [← hfeature]
      exact hkey

theorem prepare_runs {branch head : String} (h : Quiet s t) :
    (prepare request transactionId branch head).Runs e t
      (fun _ u => Opened e.platform request transactionId s u)
      fun u => SoundlyGrown s.world.events u.world.events := by
  have : Fact (leaseAcquired ∉ [transactionStarted, transactionCompleted]) := ⟨by decide⟩
  have : Fact (snapshotCaptured ∉ [transactionStarted, transactionCompleted]) := ⟨by decide⟩
  have : Fact (validationStarted ∉ [transactionStarted, transactionCompleted]) := ⟨by decide⟩
  have : Fact (validationPassed ∉ [transactionStarted, transactionCompleted]) := ⟨by decide⟩
  unfold prepare
  refine Call.Runs.step (Call.ends_reads h.soundly) fun L u hL => ?_
  obtain ⟨-, rfl⟩ := Call.returns_reads.mp hL
  refine Call.Runs.step (Call.ends_reads h.soundly) fun projectId u hproject => ?_
  obtain ⟨-, rfl⟩ := Call.returns_reads.mp hproject
  refine Call.Runs.step (started_ends h) fun _ v hstart => ?_
  have hopened := opened_of_started h hstart
  constructor
  · refine hopened.soundly.trans (Quiet.soundly ?_)
    exact Call.Respects.related _ _
  · intro lease w hlease
    exact hopened.quiet (Call.Respects.of_returns hlease)

theorem finish_ends (hsound : TransitionsSoundly e.platform s.world.events request)
    (h : Opened e.platform request transactionId s t) :
    (finish request transactionId).Ends e t
      fun u => SoundlyGrown s.world.events u.world.events := by
  unfold finish
  refine h.bind fun branch u h => ?_
  refine h.bind fun head u h => ?_
  refine h.bind fun clean u h => ?_
  refine Call.ends_zoom (Call.ends_attempt h.soundly fun value w hdone => ?_)
  simp only [bind_eq_ok, pure, Except.pure, Except.ok.injEq, Prod.mk.injEq] at hdone
  obtain ⟨-, -, -, -, -, rfl⟩ := hdone
  exact h.soundly.snoc (soundAfter_transition hsound h)

instance (lease : WorkflowLeaseRecord) :
    Call.Respects Quiet (release request transactionId lease) := by
  have : Fact (leaseReleased ∉ [transactionStarted, transactionCompleted]) := ⟨by decide⟩
  have : Fact (projectionUpdated ∉ [transactionStarted, transactionCompleted]) := ⟨by decide⟩
  unfold release
  infer_instance

theorem perform_ends {mutate : AdapterCall Unit} [Call.Respects Quiet mutate]
    (hsound : TransitionsSoundly e.platform s.world.events request) (h : Quiet s t) :
    (perform request transactionId mutate).Ends e t
      fun u => SoundlyGrown s.world.events u.world.events := by
  unfold perform
  refine h.bind fun branch u h => ?_
  refine h.bind fun head u h => ?_
  have hprepare : (prepare request transactionId (givenOr branch "DETACHED") head).Runs e u _ _ :=
    prepare_runs h
  refine Call.Ends.bind hprepare.1 fun lease u hlease => ?_
  refine (hprepare.2 lease u hlease).bind fun _ u h => ?_
  have hfinish : (finish request transactionId).Ends e u _ := finish_ends hsound h
  refine Call.Ends.bind hfinish fun _ u hdone => ?_
  refine (hfinish.of_returns hdone).trans (Quiet.soundly ?_)
  exact Call.Respects.related _ _

/-- A transition that integrates soundly grows the ledger soundly, wherever it is cut off. -/
theorem transition_ends {mutate : AdapterCall Unit} [Call.Respects Quiet mutate]
    (hsound : TransitionsSoundly e.platform s.world.events request) :
    (LegacyAdapter.transition site request mutate).Ends e s
      fun u => SoundlyGrown s.world.events u.world.events := by
  unfold transition
  have h : Quiet s s := refl_of _ s
  refine Call.Ends.bind (Call.ends_reads h.soundly) fun projectId u hproject => ?_
  obtain ⟨-, rfl⟩ := Call.returns_reads.mp hproject
  refine h.bind fun events u h => ?_
  split
  · exact Call.ends_pure h.soundly
  · exact perform_ends hsound h

end LegacyAdapter

/-! ### Runs -/

/-- A call of one of the two producers. Every operation of a kernel but `complete` records no
    `TransactionCompleted` and is an `operation`, and so is the making of a new kernel. -/
inductive HistoryCall where
  | operation (call : KernelCall Unit) (quiet : call.Respects (Grows [transactionCompleted]))
  | complete (completion : WorkflowKernel.Completion)
  | legacy (request : LegacyAdapter.Request) (document : Fields)

namespace HistoryCall

open LegacyAdapter

def run (site : AdapterSite) : HistoryCall → AdapterCall Unit
  | operation call _ => onWorld call
  | complete completion => do
      let _ ← onWorld (WorkflowKernel.complete completion)
      return ()
  | legacy request document =>
      LegacyAdapter.transition site request (writePreservingPause site document)

/-- The call integrates no feature, or says so itself, or an earlier integration did. -/
def Sound (P : Platform) (s : AdapterWorld) : HistoryCall → Prop
  | operation _ _ => True
  | complete completion => CompletesSoundly P s.world.events s.world.kernel completion
  | legacy request _ => TransitionsSoundly P s.world.events request

/-- One step: the ledger grows soundly. -/
theorem run_ends {site : AdapterSite} {e : Environment} {s : AdapterWorld} {call : HistoryCall}
    (h : call.Sound e.platform s) :
    (call.run site).Ends e s fun u => SoundlyGrown s.world.events u.world.events := by
  cases call with
  | operation call quiet =>
      exact Call.ends_zoom ((quiet.related e s.world).soundly (by decide))
  | complete completion =>
      have hcomplete : (onWorld (WorkflowKernel.complete completion)).Ends e s
          fun u => SoundlyGrown s.world.events u.world.events :=
        Call.ends_zoom (complete_ends h)
      exact Call.Ends.bind hcomplete fun _ u hdone => Call.ends_pure (hcomplete.of_returns hdone)
  | legacy request document => exact transition_ends h

end HistoryCall

/-- The files that a sequence of calls can leave, from an empty ledger: each call is of its own
    process, in an environment of its own, and ends in any way. -/
inductive AdapterRun (P : Platform) (L : LedgerIdentity) (site : AdapterSite)
    (allowed : AdapterWorld → HistoryCall → Prop) : AdapterWorld → Prop where
  | start {s : AdapterWorld} (hempty : s.world.events = []) : AdapterRun P L site allowed s
  | call {s : AdapterWorld} {call : HistoryCall} {e : Environment}
      (hrun : AdapterRun P L site allowed s) (hallowed : allowed s call)
      (hplatform : e.platform = P) (hidentity : e.identity = L) :
      AdapterRun P L site allowed (call.run site e s).2

section Runs

variable {P : Platform} {L : LedgerIdentity} {site : AdapterSite} {s : AdapterWorld}

theorem AdapterRun.soundly (h : AdapterRun P L site (HistoryCall.Sound P) s) :
    SoundlyGrown [] s.world.events := by
  induction h with
  | start hempty =>
      rw [hempty]
      exact .refl
  | @call s call e _ hallowed hplatform _ ih =>
      subst hplatform
      exact ih.trans (HistoryCall.run_ends hallowed)

end Runs

/-! ### A feature that the adapter integrates -/

def sampleHead : String := "3f786850e387550fdab836ed7e6dc881de23001b"

def sampleGit : Git where
  commitId _ := "89e6c98d92887913cadf06b2adb97f26cde4849b"
  commitId_hex _ := by decide
  diff _ _ := []
  merge _ _ _ := none

/-- A process that transitions from a time that is a multiple of 22: only its first append reads
    the whole ledger. -/
def sampleProcess : Environment where
  platform := Platform.reference
  project := ⟨"project", "/repository", "queue.json"⟩
  identity := sampleIdentity
  site := ⟨id, "/repository"⟩
  process := ⟨100, "Thu Jan  1 00:00:00 2026", "host"⟩
  git := sampleGit
  worktree _ := []
  ignored _ _ := false
  pathProblem _ _ := none
  gitOperations _ := []
  queueIntegrated _ _ := .ok false
  drawn time := sampleDrawn (String.ofList ('u' :: List.replicate time 'a')) (by simp)
  cached time := decide (time % 22 ≠ 3)
  fault _ := .none

theorem sampleProcess_undisturbed : Undisturbed sampleProcess where
  fault _ := rfl
  path _ _ := rfl
  stamp _ := rfl
  identity := sampleIdentity_ok
  resolved := rfl

def sampleFiles : AdapterWorld where
  world :=
    { clock := 0
      repository :=
        { identity := sampleIdentity.repositoryIdentity
          pathFingerprint := sampleIdentity.repositoryPathFingerprint
          commits := [(sampleHead, ⟨none, [], "start"⟩)]
          branches := [("milestone/M001", sampleHead)]
          branch := some "milestone/M001"
          head := sampleHead
          index := [] }
      events := [], lease := none, cache := some .absent, kernel := {} }
  writer := none
  document := none

/-- The identifiers that the sample transitions draw. -/
def sampleUuid5 (name : String) : String :=
  if name = "project:run-1:integration_ready:integrating:integration_started" then
    "45a81549-6cab-50df-b95d-f7140af3ce6d"
  else name

def sampleAdapterSite : AdapterSite := ⟨sampleUuid5, fun _ => .ok ()⟩

def sampleIntegrating : LegacyAdapter.Request where
  runId := "run-1"
  featureId := some "F001"
  milestone := some "M001"
  previousState := "integration_ready"
  nextState := "integrating"
  checkpoint := "integration_started"

def sampleReady : LegacyAdapter.Request :=
  { sampleIntegrating with
    previousState := "queue_reconciliation"
    nextState := "feature_ready"
    checkpoint := "queue_reconciled" }

def sampleEntries : List LedgerEntry :=
  LegacyAdapter.transitionEntries sampleProcess sampleFiles sampleIntegrating
    (sampleUuid5 (sampleIntegrating.key "project")) 0

set_option maxRecDepth 100000 in
theorem sampleEntries_valid : EntriesValid sampleEntries := by decide +kernel

set_option maxRecDepth 100000 in
theorem sampleEntries_append : EntriesAppend [] sampleEntries := by decide +kernel

theorem sampleEntries_projects : LegacyAdapter.Projects sampleProcess sampleEntries :=
  LegacyAdapter.projects_of_toBool (by decide +kernel)

def sampleLedger : List LedgerEvent := ledgerOf Platform.reference sampleIdentity sampleEntries

/-- The fold over the entries counts the feature as integrated. -/
theorem sampleLedger_folded :
    ((foldEvents sampleLedger).map fun folded =>
      decide (Json.str "F001" ∈ folded.integratedFeatures)).toOption = some true := by
  decide +kernel

theorem sampleLedger_classified :
    ∀ event ∈ sampleLedger, event.payload.get "classification" ≠ .str "INTEGRATED" := by
  decide +kernel

end Conveyor
