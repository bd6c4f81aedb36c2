import Conveyor.ProjectionFold

/-!
# The projection cache

`rebuild` fingerprints the projection and hands it to `atomic_write_json`, which
redacts it once more on its way to the file; `load_cache` recomputes the fingerprint
from what it reads back. `current_after_rebuild_iff` says for which ledgers the next
`current` returns the rebuilt projection: those whose projected values a second
redaction leaves alone, and whose imported facts leave the header of the document
true.
-/

namespace Conveyor

open Library EventType

variable {P : Platform} {L : LedgerIdentity} {events : List LedgerEvent} {storage : Storage}
  {allowed : List LedgerEvent → LedgerEvent → Prop} {caches : Nat → Option AppendCache}
  {event : LedgerEvent} {integrity : LedgerIntegrity} {value projection : Fields} {cache : Option CacheFile}
  {files after : ProjectionFiles}

/-! ### Reading a coherent ledger -/

/-- The anchor of a ledger that appends left needs no repair. -/
theorem verifyHead_coherent (h : Coherent P events storage caches) :
    verifyHead P true events storage = .ok storage := by
  rcases events.eq_nil_or_concat with rfl | ⟨earlier, tail, rfl⟩
  · have hhead : storage.head = none := h.head
    simp [verifyHead, readHead, hhead, bind, Except.bind]
  · rw [List.concat_eq_append] at *
    have hhex : isFingerprint tail.fingerprint :=
      (h.tail tail (by simp)).2 ▸ eventFingerprint_isFingerprint P _
    simp [verifyHead, readHead_anchor earlier hhex h.head, bind, Except.bind]

theorem verify_coherent (h : Coherent P events storage caches) (hvalid : Valid P L events) :
    ∃ integrity, storage.verify P L = .ok (integrity, storage) ∧
      integrity.sequence = events.length ∧ integrity.fingerprint = tailFingerprint events := by
  obtain ⟨integrity, hvalidate, hsequence, hfingerprint⟩ := hvalid.validate_ok
  refine ⟨integrity, ?_, hsequence, hfingerprint⟩
  simp only [Storage.verify, bind_eq_ok, Prod.exists, pure, Except.pure, Except.ok.injEq,
    Prod.mk.injEq, h.records]
  exact ⟨integrity, events, hvalidate, storage, verifyHead_coherent h, rfl, rfl⟩

theorem read_coherent (h : Coherent P events storage caches) (hvalid : Valid P L events) :
    storage.read P L = .ok (events, storage) := by
  obtain ⟨integrity, hvalidate, -⟩ := hvalid.validate_ok
  simp only [Storage.read, bind_eq_ok, Prod.exists, pure, Except.pure, Except.ok.injEq,
    Prod.mk.injEq, h.records]
  exact ⟨integrity, events, hvalidate, storage, verifyHead_coherent h, rfl, rfl⟩

/-- The cache a rebuild with `persist_cache` leaves. -/
def cacheOf (P : Platform) (cache : Option CacheFile) (projection : Fields) : Option CacheFile :=
  cache.map fun _ => .document (atomicWriteJson P (.obj projection))

/-- What a rebuild returns and leaves on a ledger that appends left. -/
theorem rebuild_eq_ok (h : Coherent P events storage caches) :
    rebuild P L true none ⟨storage, cache⟩ = .ok (projection, after) ↔
      Valid P L events ∧ ∃ value,
        project P L events.length (tailFingerprint events) events none = .ok value ∧
        projection = signProjection P value ∧
        after = ⟨storage, cacheOf P cache projection⟩ := by
  simp only [rebuild, bind_eq_ok, Prod.exists, pure, Except.pure, Except.ok.injEq, Prod.mk.injEq,
    if_true]
  constructor
  · rintro ⟨events', read, hread, integrity, verified, hverify, value, hproject, rfl, rfl⟩
    have hvalid : Valid P L events := by
      simp only [Storage.read, bind_eq_ok, Prod.exists, h.records] at hread
      obtain ⟨found, replayed, hvalidate, -⟩ := hread
      exact validate_map_eq_ok.mp ⟨_, hvalidate⟩
    rw [read_coherent h hvalid] at hread
    cases hread
    obtain ⟨found, hfound, hsequence, hfingerprint⟩ := verify_coherent h hvalid
    rw [hfound] at hverify
    cases hverify
    rw [hsequence, hfingerprint] at hproject
    exact ⟨hvalid, value, hproject, rfl, rfl⟩
  · rintro ⟨hvalid, value, hproject, rfl, rfl⟩
    obtain ⟨integrity, hverify, hsequence, hfingerprint⟩ := verify_coherent h hvalid
    exact ⟨events, storage, read_coherent h hvalid, integrity, storage, hverify, value,
      by rwa [hsequence, hfingerprint], rfl, rfl⟩

/-! ### The document after its write -/

theorem isSensitiveKey_header {key : String}
    (h : key ∈ ["schema_version", "ledger_sequence", "ledger_fingerprint",
      "projection_fingerprint"]) : isSensitiveKey P key = false := by
  simp only [List.mem_cons, List.not_mem_nil, or_false] at h
  rcases h with rfl | rfl | rfl | rfl <;>
    exact isSensitiveKey_of_ascii P (by decide +kernel) (by decide +kernel)

@[simp] theorem asInt?_redactValue (value : Json) : asInt? (redactValue P value) = asInt? value := by
  cases value <;> rfl

@[simp] theorem equalsInt_redactValue (value : Json) (n : Int) :
    (redactValue P value).equalsInt n = value.equalsInt n := by
  cases value <;> rfl

theorem redactValue_fingerprint (document : Json) :
    redactValue P (.str (P.fingerprint document)) = .str (P.fingerprint document) := by
  rw [redactValue, redactText_eq_self_of_hex P fun c hc => P.isHexLower_of_mem_fingerprint hc]

/-- The projection without a fingerprint: what its fingerprint is computed from. -/
def unsignedProjection (value : Fields) : Fields := value.erase "projection_fingerprint"

theorem unsigned_signProjection (value : Fields) :
    unsignedProjection (signProjection P value) = unsignedProjection value :=
  Fields.erase_set ..

theorem unsigned_redacted (value : Fields) :
    unsignedProjection (redactFields P (signProjection P value)) =
      redactFields P (unsignedProjection value) := by
  rw [unsignedProjection, ← redactFields_erase]
  exact congrArg (redactFields P) (unsigned_signProjection value)

theorem get_signProjection {key : String} (h : key ≠ "projection_fingerprint") (value : Fields) :
    (signProjection P value).get key = (unsignedProjection value).get key := by
  rw [signProjection, Fields.get_set_of_ne h, unsignedProjection, Fields.get_erase_of_ne h]

/-- A header field other than the fingerprint reads from the written projection as it
    reads, redacted, from the unsigned one. -/
theorem get_redacted {key : String}
    (h : key ∈ ["schema_version", "ledger_sequence", "ledger_fingerprint"]) (value : Fields) :
    Fields.get (redactFields P (signProjection P value)) key =
      redactValue P ((unsignedProjection value).get key) := by
  have hne : key ≠ "projection_fingerprint" := by
    rintro rfl
    exact absurd h (by decide)
  rw [get_redactFields P (isSensitiveKey_header (List.mem_append_left _ h)),
    get_signProjection hne]

theorem get_redacted_fingerprint (value : Fields) :
    Fields.get (redactFields P (signProjection P value)) "projection_fingerprint" =
      .str (P.fingerprint (.obj (unsignedProjection value))) := by
  rw [get_redactFields P (isSensitiveKey_header (by simp)), signProjection, Fields.get_set_self]
  exact redactValue_fingerprint _

/-- A second redaction leaves the signed projection alone when it leaves the unsigned
    one alone. -/
theorem redacted_eq_iff (hordered : value.Ordered) :
    redactFields P (signProjection P value) = signProjection P value ↔
      redactFields P (unsignedProjection value) = unsignedProjection value := by
  constructor
  · intro h
    rw [← unsigned_redacted, h, unsigned_signProjection]
  · intro h
    rw [redactFields_eq_self] at h ⊢
    intro entry hentry
    rcases hordered.mem_set.mp hentry with rfl | hentry
    · simp only [redactEntry, isSensitiveKey_header (P := P) (List.mem_of_getLast? rfl :
        "projection_fingerprint" ∈ _), Bool.false_eq_true, if_false]
      rw [projectionFingerprint, redactValue_fingerprint]
    · exact h entry hentry

theorem project_ordered {observations : Option Fields} {sequence : Nat} {fingerprint : String}
    (h : project P L sequence fingerprint events observations = .ok value) : value.Ordered := by
  simp only [project, bind_eq_ok, pure, Except.pure, Except.ok.injEq] at h
  obtain ⟨s, -, active, -, settled, -, commit, -, state, -, observed, -, action, -, rfl⟩ := h
  split
  · exact (Fields.ordered_ofPairs _).update _
  · exact ((Fields.ordered_ofPairs _).update _).set _ _

/-! ### The fields of the document -/

/-- A field no imported fact sets reads as the projection's own. -/
theorem get_project {sequence : Nat} {fingerprint : String}
    (h : project P L sequence fingerprint events none = .ok value) :
    ∃ s settled active state commit action observed, foldEvents events = .ok s ∧
      activeTransaction s = .ok active ∧ settleIdle s active = .ok settled ∧
      ∀ key, key ∉ s.projectionFacts.keys → value.get key =
        Fields.get (.ofPairs (projectionPairs L sequence fingerprint settled active state
          commit action observed)) key := by
  simp only [project, bind_eq_ok, pure, Except.pure, Except.ok.injEq] at h
  obtain ⟨s, hfold, active, hactive, settled, hsettled, commit, -, state, -, observed, hobserved,
    action, -, rfl⟩ := h
  refine ⟨s, settled, active, state, commit, action, observed, hfold, hactive, hsettled,
    fun key hkey => ?_⟩
  simp only [observe, Except.ok.injEq] at hobserved
  have hmissing : Fields.get? settled.projectionFacts.reverse key = none := by
    apply Fields.get?_eq_none_of_not_mem
    rw [settleIdle_facts hsettled]
    simpa [Fields.keys] using hkey
  rw [if_pos (by simp [← hobserved]), Fields.get, Fields.get, Fields.get?_update,
    Fields.get?_append, hmissing, Option.orElse_none]

/-! ### Reading the cache back -/

theorem checkCache_eq_ok {found : Fields} :
    checkCache integrity value = .ok found ↔ found = value ∧
      asInt? (value.get "ledger_sequence") = some (integrity.sequence : Int) ∧
      value.get "ledger_fingerprint" = .str integrity.fingerprint := by
  unfold checkCache
  cases hsequence : asInt? (value.get "ledger_sequence") with
  | none => simp
  | some sequence =>
      simp only [require_bind_eq_ok, pure, Except.pure, Except.ok.injEq, Option.some.injEq]
      constructor
      · rintro ⟨hle, hge, hfingerprint, rfl⟩
        exact ⟨rfl, le_antisymm hle hge, hfingerprint⟩
      · rintro ⟨rfl, heq, hfingerprint⟩
        exact ⟨heq.le, heq.ge, hfingerprint, rfl⟩

/-- The cache counts as stale when it names an earlier sequence. -/
theorem checkCache_stale :
    (∃ failure, checkCache integrity value = .error failure ∧
      failure.kind = .staleProjectionCache) ↔
      ∃ n, asInt? (value.get "ledger_sequence") = some n ∧ n < integrity.sequence := by
  unfold checkCache
  cases hsequence : asInt? (value.get "ledger_sequence") with
  | none => simp [projectionError]
  | some sequence =>
      by_cases hle : sequence ≤ integrity.sequence
      · by_cases hge : (integrity.sequence : Int) ≤ sequence
        · by_cases hfingerprint : value.get "ledger_fingerprint" = .str integrity.fingerprint
          · simp [require, hle, hge, hfingerprint, bind, Except.bind, pure, Except.pure]
          · simp [require, hle, hge, hfingerprint, bind, Except.bind, projectionError]
        · simp [require, hle, hge, bind, Except.bind, staleProjectionCache, not_le.mp hge]
      · have hlt : (integrity.sequence : Int) < sequence := not_le.mp hle
        simp [require, hle, bind, Except.bind, projectionError, hlt.le]

/-- The two checks of `load_cache` that come before the ledger is read. -/
structure HeaderOk (P : Platform) (value : Fields) : Prop where
  schema : (value.get "schema_version").equalsInt 1 = true
  fingerprint : value.get "projection_fingerprint" = .str (projectionFingerprint P value)

theorem loadCache_of_header (hverify : storage.verify P L = .ok (integrity, storage))
    (h : HeaderOk P value) :
    loadCache P L ⟨storage, some (.document (.obj value))⟩ =
      (checkCache integrity value).map fun found =>
        (some found, ⟨storage, some (.document (.obj value))⟩) := by
  rw [loadCache]
  simp only [h.schema, h.fingerprint, require_of, hverify, bind, Except.bind]
  cases checkCache integrity value <;> rfl

theorem loadCache_of_not_header (h : ¬HeaderOk P value) (storage : Storage) :
    ∃ message, loadCache P L ⟨storage, some (.document (.obj value))⟩ =
      .error (projectionError message) := by
  rw [loadCache]
  by_cases hschema : (value.get "schema_version").equalsInt 1 = true
  · have hfingerprint : ¬value.get "projection_fingerprint" =
        .str (projectionFingerprint P value) := fun hfound => h ⟨hschema, hfound⟩
    simp [require, hschema, hfingerprint, bind, Except.bind]
  · simp [require, hschema, bind, Except.bind]

/-- What `current` returns from a cache that passes the header checks. -/
theorem current_of_header (hverify : storage.verify P L = .ok (integrity, storage))
    (h : HeaderOk P value) {found : Fields} :
    (∃ final, current P L ⟨storage, some (.document (.obj value))⟩ = .ok (found, final)) ↔
      (found = value ∧ asInt? (value.get "ledger_sequence") = some (integrity.sequence : Int) ∧
        value.get "ledger_fingerprint" = .str integrity.fingerprint) ∨
      (∃ n, asInt? (value.get "ledger_sequence") = some n ∧ n < integrity.sequence) ∧
        ∃ final, rebuild P L true none ⟨storage, some (.document (.obj value))⟩ =
          .ok (found, final) := by
  rw [← checkCache_eq_ok, ← checkCache_stale, current, currentCache, loadCache_of_header hverify h]
  cases hcheck : checkCache integrity value with
  | ok checked =>
      obtain ⟨rfl, hsequence, hfingerprint⟩ := checkCache_eq_ok.mp hcheck
      simp [Except.map, bind, Except.bind, hverify, hsequence, hfingerprint, pure, Except.pure]
  | error failure =>
      by_cases hstale : failure.kind = .staleProjectionCache
      · simp [Except.map, bind, Except.bind, hverify, hstale]
      · simp [Except.map, bind, Except.bind, hstale]

theorem current_of_not_header (h : ¬HeaderOk P value) {found : Fields} :
    ¬∃ final, current P L ⟨storage, some (.document (.obj value))⟩ = .ok (found, final) := by
  obtain ⟨message, hload⟩ := loadCache_of_not_header (P := P) (L := L) h storage
  simp [current, currentCache, hload, projectionError, bind, Except.bind]

/-! ### Coherence of the cache -/

/-- The fields the events of a ledger put into its projection. -/
def shown (P : Platform) (L : LedgerIdentity) (events : List LedgerEvent) : Fields :=
  match project P L events.length (tailFingerprint events) events none with
  | .ok value => unsignedProjection value
  | .error _ => []

/-- What the next `current` asks of the fields a ledger shows. The digest alone is
    compared when imported facts date the projection back: then it is rebuilt. -/
structure CacheKept (P : Platform) (events : List LedgerEvent) (shown : Fields) : Prop where
  schema : (shown.get "schema_version").equalsInt 1 = true
  digest : P.fingerprint (.obj (redactFields P shown)) = P.fingerprint (.obj shown)
  sequence : ∃ n, asInt? (shown.get "ledger_sequence") = some n ∧ n ≤ (events.length : Int)
  fresh : asInt? (shown.get "ledger_sequence") = some (events.length : Int) →
    shown.get "ledger_fingerprint" = .str (tailFingerprint events) ∧
      redactFields P shown = shown

/-- The header checks on the written projection, in terms of the fields it shows. -/
theorem headerOk_redacted :
    HeaderOk P (redactFields P (signProjection P value)) ↔
      ((unsignedProjection value).get "schema_version").equalsInt 1 = true ∧
      P.fingerprint (.obj (redactFields P (unsignedProjection value))) =
        P.fingerprint (.obj (unsignedProjection value)) := by
  have hschema : (Fields.get (redactFields P (signProjection P value)) "schema_version").equalsInt 1
      = ((unsignedProjection value).get "schema_version").equalsInt 1 := by
    rw [get_redacted (by simp), equalsInt_redactValue]
  have hfingerprint : projectionFingerprint P (redactFields P (signProjection P value)) =
      P.fingerprint (.obj (redactFields P (unsignedProjection value))) := by
    rw [projectionFingerprint, ← unsigned_redacted]
    rfl
  constructor
  · rintro ⟨h1, h2⟩
    rw [get_redacted_fingerprint, hfingerprint, Json.str.injEq] at h2
    exact ⟨hschema ▸ h1, h2.symm⟩
  · rintro ⟨h1, h2⟩
    refine ⟨hschema.trans h1, ?_⟩
    rw [get_redacted_fingerprint, hfingerprint, h2]

/-- After a rebuild and no append, `current` returns the rebuilt projection exactly when
    there is no cache, or the projected fields survive the write. -/
theorem current_after_rebuild_iff (hrun : AppendRun P L allowed events storage caches)
    (hrebuild : rebuild P L true none ⟨storage, cache⟩ = .ok (projection, after)) :
    (∃ final, current P L after = .ok (projection, final)) ↔
      cache = none ∨ CacheKept P events (shown P L events) := by
  have hcoherent := hrun.coherent
  obtain ⟨hvalid, value, hproject, rfl, rfl⟩ := (rebuild_eq_ok hcoherent).mp hrebuild
  obtain ⟨integrity, hverify, hsequence, hfingerprint⟩ := verify_coherent hcoherent hvalid
  have hagain : ∀ other, ∃ final, rebuild P L true none ⟨storage, other⟩ =
      .ok (signProjection P value, final) := fun other =>
    ⟨_, (rebuild_eq_ok hcoherent).mpr ⟨hvalid, value, hproject, rfl, rfl⟩⟩
  have hshown : shown P L events = unsignedProjection value := by rw [shown, hproject]
  rw [hshown]
  cases cache with
  | none =>
      refine iff_of_true ?_ (Or.inl rfl)
      obtain ⟨final, hfinal⟩ := hagain none
      exact ⟨final, by simpa [current, currentCache, loadCache, cacheOf, hverify, bind,
        Except.bind] using hfinal⟩
  | some file =>
      have hcache : cacheOf P (some file) (signProjection P value) =
          some (.document (.obj (redactFields P (signProjection P value)))) := rfl
      rw [hcache]
      simp only [reduceCtorEq, false_or]
      by_cases hheader : HeaderOk P (redactFields P (signProjection P value))
      · rw [current_of_header hverify hheader, get_redacted (by simp), get_redacted (by simp),
          asInt?_redactValue, hsequence, hfingerprint]
        obtain ⟨hschema, hdigest⟩ := headerOk_redacted.mp hheader
        have hkept := redacted_eq_iff (P := P) (project_ordered hproject)
        constructor
        · rintro (⟨hsame, hnow, htail⟩ | ⟨⟨n, hn, hlt⟩, -⟩)
          · have hfixed := hkept.mp hsame.symm
            refine ⟨hschema, hdigest, ⟨_, hnow, le_rfl⟩, fun _ => ⟨?_, hfixed⟩⟩
            rw [← htail, ← get_redacted (by simp), ← hsame, get_signProjection (by decide)]
          · refine ⟨hschema, hdigest, ⟨n, hn, hlt.le⟩, fun hnow => ?_⟩
            rw [hn, Option.some.injEq] at hnow
            exact absurd hnow hlt.ne
        · rintro ⟨-, -, ⟨n, hn, hle⟩, hfresh⟩
          rcases hle.lt_or_eq with hlt | rfl
          · exact Or.inr ⟨⟨n, hn, hlt⟩, hagain _⟩
          · obtain ⟨htail, hfixed⟩ := hfresh hn
            refine Or.inl ⟨(hkept.mpr hfixed).symm, hn, ?_⟩
            rw [← get_redacted (by simp), hkept.mpr hfixed, get_signProjection (by decide), htail]
      · refine iff_of_false (current_of_not_header hheader) fun hkept => hheader ?_
        exact headerOk_redacted.mpr ⟨hkept.schema, hkept.digest⟩

/-- While the imported facts in force leave the header alone, the cache is kept exactly
    when a second redaction changes none of the projected fields. -/
theorem cacheKept_iff {s : ProjectionState} (hvalue :
      project P L events.length (tailFingerprint events) events none = .ok value)
    (hfold : foldEvents events = .ok s)
    (hfacts : ∀ key ∈ ["schema_version", "ledger_sequence", "ledger_fingerprint"],
      key ∉ s.projectionFacts.keys) :
    CacheKept P events (shown P L events) ↔
      redactFields P (shown P L events) = shown P L events := by
  obtain ⟨s', settled, active, state, commit, action, observed, hfold', -, -, hget⟩ :=
    get_project hvalue
  rw [hfold] at hfold'
  cases hfold'
  have hshown : shown P L events = unsignedProjection value := by rw [shown, hvalue]
  have hfield : ∀ key ∈ ["schema_version", "ledger_sequence", "ledger_fingerprint"],
      (shown P L events).get key = Fields.get (.ofPairs (projectionPairs L events.length
        (tailFingerprint events) settled active state commit action observed)) key := by
    intro key hkey
    have hne : key ≠ "projection_fingerprint" := by
      rintro rfl
      exact absurd hkey (by decide)
    rw [hshown, unsignedProjection, Fields.get_erase_of_ne hne, hget key (hfacts key hkey)]
  have hschema : (shown P L events).get "schema_version" = .int 1 := by
    rw [hfield _ (by simp)]
    simp [Fields.get, Fields.get?_ofPairs, projectionPairs, Fields.get?_cons]
  have hsequence : (shown P L events).get "ledger_sequence" = .int events.length := by
    rw [hfield _ (by simp)]
    simp [Fields.get, Fields.get?_ofPairs, projectionPairs, Fields.get?_cons]
  have htail : (shown P L events).get "ledger_fingerprint" = .str (tailFingerprint events) := by
    rw [hfield _ (by simp)]
    simp [Fields.get, Fields.get?_ofPairs, projectionPairs, Fields.get?_cons]
  constructor
  · intro h
    exact (h.fresh (by rw [hsequence]; rfl)).2
  · intro h
    exact ⟨by rw [hschema]; rfl, by rw [h], ⟨_, by rw [hsequence]; rfl, le_rfl⟩,
      fun _ => ⟨htail, h⟩⟩

/-- The state of the loop after the start of a feature, on an empty projection. -/
def startedState (event : LedgerEvent) (feature : String) : ProjectionState :=
  { ({} : ProjectionState).put { viewOf {} event with state := .str "lease_pending" } with
    currentState := .str (WORKFLOW_ACTIVE_STATE event.workflowType)
    currentFeature := .str feature }

theorem foldEvents_started {feature : String} (hkind : event.eventType = transactionStarted)
    (hpayload : event.payload = [("feature_id", .str feature)]) (hfeature : feature ≠ "") :
    foldEvents [event] = .ok (startedState event feature) := by
  have hget : Fields.get event.payload "feature_id" = .str feature := by
    rw [hpayload]
    rfl
  have hnone : ∀ key, key ≠ "feature_id" → Fields.get event.payload key = .null := by
    intro key hkey
    rw [hpayload]
    simp [Fields.get, Fields.get?_cons, hkey]
  simp [foldEvents, foldEvent, hkind, foldStarted, hget, hnone, Json.truthy, hfeature,
    ProjectionState.featureCommit, ProjectionState.isIntegrated, hashKey, ProjectionState.put,
    viewOf, Dict.insert, bind, Except.bind, pure, Except.pure, TransactionView.created,
    startedState]

theorem activeTransaction_started (event : LedgerEvent) (feature : String) :
    activeTransaction (startedState event feature) =
      .ok (some { viewOf {} event with state := .str "lease_pending" }) := by
  simp [activeTransaction, startedState, ProjectionState.put, Dict.insert, requireAll, hashKey,
    isInactive, INACTIVE_STATES, require, bind, Except.bind, pure, Except.pure, Except.map]

theorem project_started {feature : String} (sequence : Nat) (fingerprint : String)
    (hkind : event.eventType = transactionStarted)
    (hpayload : event.payload = [("feature_id", .str feature)]) (hfeature : feature ≠ "") :
    ∃ value, project P L sequence fingerprint [event] none = .ok value ∧
      value.get "current_feature" = .str feature ∧
      value.get "ledger_sequence" = .int sequence := by
  have hfold := foldEvents_started hkind hpayload hfeature
  have hactive := activeTransaction_started event feature
  have hcommit : currentAcceptedCommit (startedState event feature) = .ok .null := by
    simp [currentAcceptedCommit, startedState, ProjectionState.put, ProjectionState.featureCommit,
      hashKey, bind, Except.bind, pure, Except.pure, Json.truthy, hfeature]
  have hready : readyForIntegration (startedState event feature) .null =
      .ok (.str (WORKFLOW_ACTIVE_STATE event.workflowType)) := by
    simp [readyForIntegration, startedState, Json.truthy]
  obtain ⟨value, hvalue⟩ :
      ∃ value, project P L sequence fingerprint [event] none = .ok value := by
    simp only [project, hfold, hactive, bind, Except.bind, settleIdle, pure, Except.pure, hcommit,
      hready, observe, nextAction, hashKey]
    exact ⟨_, rfl⟩
  obtain ⟨s, settled, active, state, commit, action, observed, hs, ha, hsettled, hget⟩ :=
    get_project hvalue
  rw [hfold] at hs
  cases hs
  rw [hactive] at ha
  cases ha
  cases hsettled
  have hfacts : ∀ key, key ∉ (startedState event feature).projectionFacts.keys := by
    simp [startedState, ProjectionState.put, Fields.keys]
  refine ⟨value, hvalue, ?_, ?_⟩
  · rw [hget _ (hfacts _)]
    simp [Fields.get, Fields.get?_ofPairs, projectionPairs, Fields.get?_cons, startedState]
  · rw [hget _ (hfacts _)]
    simp [Fields.get, Fields.get?_ofPairs, projectionPairs, Fields.get?_cons]

/-- The fields the empty ledger shows: constants, and the identity of the ledger. -/
def emptyPairs : Fields :=
  projectionPairs sampleIdentity 0 (tailFingerprint []) {} none (.str "discover") .null
    "verify_consistency" ⟨"not_observed", .null, false, .null⟩

theorem project_empty : project Platform.reference sampleIdentity 0 (tailFingerprint []) [] none =
    .ok (.ofPairs emptyPairs) := by
  have hfold : foldEvents [] = .ok {} := rfl
  have hactive : activeTransaction {} = .ok none := rfl
  have hsettle : settleIdle {} none = .ok {} := rfl
  have hcommit : currentAcceptedCommit {} = .ok .null := rfl
  have hready : readyForIntegration {} .null = .ok (.str "discover") := rfl
  have haction : nextAction (.str "discover") = .ok "verify_consistency" := rfl
  simp only [project, hfold, hactive, hsettle, hcommit, hready, haction, observe, bind,
    Except.bind, pure, Except.pure, Fields.update_nil]
  rw [if_pos (by simp)]
  rfl

theorem shown_empty_kept :
    CacheKept Platform.reference [] (shown Platform.reference sampleIdentity []) := by
  rw [cacheKept_iff project_empty rfl (by simp [Fields.keys]), redactFields_eq_self]
  have hentries : ∀ entry ∈ emptyPairs.take 20 ++ emptyPairs.drop 20,
      (isSensitiveKey Platform.reference entry.1 = false ∧ isHexValue entry.2 = true) ∨
        redactEntry Platform.reference entry = entry :=
    List.forall_mem_append.mpr ⟨by decide +kernel, by decide +kernel⟩
  rw [List.take_append_drop] at hentries
  intro entry hentry
  have hpair : entry ∈ emptyPairs := by
    simp only [shown, List.length_nil, project_empty, unsignedProjection, Fields.erase] at hentry
    simpa using Fields.mem_of_mem_update (List.mem_of_mem_filter hentry)
  rcases hentries entry hpair with ⟨hkey, hhex⟩ | hkept
  · exact redactEntry_eq_self_of_hex _ hkey hhex
  · exact hkept

theorem current_after_rebuild_empty :
    ∃ projection after final,
      rebuild Platform.reference sampleIdentity true none ⟨Storage.empty, some .absent⟩ =
        .ok (projection, after) ∧
      current Platform.reference sampleIdentity after = .ok (projection, final) := by
  have hrun : AppendRun Platform.reference sampleIdentity (fun _ _ => True) [] Storage.empty
      fun _ => none := .empty
  have hvalid : Valid Platform.reference sampleIdentity [] := ⟨.nil, fun _ h => absurd rfl h⟩
  have hrebuild : rebuild Platform.reference sampleIdentity true none
      ⟨Storage.empty, some .absent⟩ = _ :=
    (rebuild_eq_ok hrun.coherent).mpr ⟨hvalid, _, project_empty, rfl, rfl⟩
  obtain ⟨final, hfinal⟩ := (current_after_rebuild_iff hrun hrebuild).mpr (Or.inr shown_empty_kept)
  exact ⟨_, _, final, hrebuild, hfinal⟩

/-! ### A ledger whose cache is refused -/

/-- A feature name that the ledger stores in a redacted form, which a second redaction
    changes again. -/
def sampleFeatureStart : AppendRequest where
  eventType := transactionStarted
  transactionId := "transaction-1"
  workflowType := .featureExecution
  payload := [("feature_id", .str "https://[::1]/")]

def sampleFeatureStarted (P : Platform) : LedgerEvent :=
  newEvent P sampleIdentity ⟨0, GENESIS_FINGERPRINT, 0, 0⟩ sampleFeatureStart
    (sampleDrawn "event-1" sampleId_ne)

theorem sampleFeatureStarted_payload :
    (sampleFeatureStarted Platform.reference).payload =
      [("feature_id", .str "https://::1/")] := by
  decide +kernel

theorem redactText_twice : redactText Platform.reference "https://::1/" = "[REDACTED_URL]" := by
  decide +kernel

/-- The rebuild succeeds, and the next `current` does not return its projection. -/
theorem secondRedaction_refused :
    ∃ events storage caches projection after,
      AppendRun Platform.reference sampleIdentity (fun _ _ => True) events storage caches ∧
      rebuild Platform.reference sampleIdentity true none ⟨storage, some .absent⟩ =
        .ok (projection, after) ∧
      ¬∃ final, current Platform.reference sampleIdentity after = .ok (projection, final) := by
  have hpayload := sampleFeatureStarted_payload
  have hreplayable : Replayable Platform.reference sampleIdentity []
      (sampleFeatureStarted Platform.reference) := by
    refine replayable_of_started sampleIdentity_ok rfl (fun contract hcontract value hvalue => ?_)
      ?_
    · rw [show redactFields Platform.reference sampleFeatureStart.payload = _ from hpayload] at hvalue
      simp only [PAYLOAD_CONTRACTS, List.mem_cons, List.not_mem_nil, or_false] at hcontract
      rcases hcontract with rfl | rfl | rfl | rfl <;> simp [Fields.get?_cons] at hvalue
    · have hnone : ∀ key, key ≠ "feature_id" →
          (sampleFeatureStarted Platform.reference).payload.get key = .null := by
        intro key hkey
        rw [hpayload]
        simp [Fields.get, Fields.get?_cons, hkey]
      change resolutionBindingOf (sampleFeatureStarted Platform.reference).toUnsignedEvent ≠ _
      simp [resolutionBindingOf, hnone]
  obtain ⟨storage, cache, hrun, -⟩ := started_run _ rfl (by decide) hreplayable
  have hcoherent := hrun.coherent
  obtain ⟨integrity, hverify, hsequence, -⟩ := verify_coherent hcoherent hrun.valid
  obtain ⟨value, hvalue, hfeature, hnumber⟩ :=
    project_started (P := Platform.reference) (L := sampleIdentity) 1
      (tailFingerprint [sampleFeatureStarted Platform.reference]) rfl hpayload (by decide)
  have hrebuild : rebuild Platform.reference sampleIdentity true none
      ⟨storage, some .absent⟩ = _ :=
    (rebuild_eq_ok hcoherent).mpr ⟨hrun.valid, value, hvalue, rfl, rfl⟩
  refine ⟨_, _, _, _, _, hrun.mono fun _ _ _ => trivial, hrebuild, ?_⟩
  rintro ⟨final, hfinal⟩
  have hwritten : cacheOf Platform.reference (some .absent) (signProjection Platform.reference value)
      = some (.document (.obj (redactFields Platform.reference
        (signProjection Platform.reference value)))) := rfl
  rw [hwritten] at hfinal
  by_cases hheader : HeaderOk Platform.reference
      (redactFields Platform.reference (signProjection Platform.reference value))
  · rcases (current_of_header hverify hheader).mp ⟨final, hfinal⟩ with
      ⟨hsame, -⟩ | ⟨⟨n, hn, hlt⟩, -⟩
    · have hread := congrArg (fun fields => Fields.get fields "current_feature") hsame
      rw [get_redactFields _ (isSensitiveKey_of_ascii _ (by decide +kernel) (by decide +kernel)),
        signProjection, Fields.get_set_of_ne (by decide), hfeature, redactValue,
        redactText_twice] at hread
      exact absurd hread (by decide)
    · rw [get_redacted (by simp), asInt?_redactValue, unsignedProjection,
        Fields.get_erase_of_ne (by decide), hnumber] at hn
      cases hn
      rw [hsequence] at hlt
      exact absurd hlt (by simp)
  · exact current_of_not_header hheader ⟨final, hfinal⟩

end Conveyor
