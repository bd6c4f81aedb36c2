import Conveyor.LedgerAgreement

/-!
# Runs of appends

Any number of ledger objects append to one ledger, each with its own cache, one at a
time under the ledger's lock. `Coherent` is what every such run keeps: the files hold
the appended events and every cache that still matches the file holds them too, so
that skipping the full check skips nothing but the check itself.
-/

namespace Conveyor

open Library EventType

variable {P : Platform} {L : LedgerIdentity} {events : List LedgerEvent} {event : LedgerEvent}
  {storage after : Storage} {request : AppendRequest} {drawn : Drawn}

/-! ### File sizes -/

theorem fileSize_append (first second : List Object) :
    fileSize (first ++ second) = fileSize first + fileSize second := by
  simp [fileSize]

theorem eq_nil_of_fileSize {records : List Object} (h : fileSize records = 0) : records = [] := by
  cases records with
  | nil => rfl
  | cons record rest => simp [fileSize] at h

theorem prefix_eq_of_fileSize {first second : List Object} (hpre : first <+: second)
    (hsize : fileSize first = fileSize second) : first = second := by
  obtain ⟨rest, rfl⟩ := hpre
  rw [fileSize_append] at hsize
  have hrest : rest = [] := eq_nil_of_fileSize (by omega)
  rw [hrest, List.append_nil]

/-! ### Coherence -/

/-- The head anchor an append of these events leaves. -/
def anchorOf (P : Platform) (events : List LedgerEvent) : Option Json :=
  events.getLast?.map fun event => atomicWriteJson P (headDocument event)

theorem anchorOf_snoc (events : List LedgerEvent) (event : LedgerEvent) :
    anchorOf P (events ++ [event]) = some (atomicWriteJson P (headDocument event)) := by
  simp [anchorOf]

/-- A cache that describes a prefix of the ledger, by the size the file then had. -/
structure CacheOf (events : List LedgerEvent) (cache : AppendCache) : Prop where
  isPrefix : cache.events <+: events
  nonempty : cache.events ≠ []
  signature : ∃ stamp,
    cache.signature = some (fileSize (cache.events.map LedgerEvent.toObject), stamp)
  sequence : cache.integrity.sequence = cache.events.length
  fingerprint : cache.integrity.fingerprint = tailFingerprint cache.events

structure Coherent (P : Platform) (events : List LedgerEvent) (storage : Storage)
    (caches : Nat → Option AppendCache) : Prop where
  records : storage.records = events.map LedgerEvent.toObject
  head : storage.head = anchorOf P events
  tail : ∀ event ∈ events.getLast?, event.sequence = events.length ∧
    event.fingerprint = eventFingerprint P event.toUnsignedEvent
  caches : ∀ handle, ∀ cache ∈ caches handle, CacheOf events cache
  closed : ∀ transactionId, Closed (historyOf events transactionId)

theorem coherent_empty : Coherent P [] Storage.empty fun _ => none where
  records := rfl
  head := rfl
  tail := by simp
  caches := by simp
  closed _ := closed_nil

theorem CacheOf.events_eq {cache : AppendCache} (h : CacheOf events cache)
    (hrecords : storage.records = events.map LedgerEvent.toObject)
    (hsignature : cache.signature = storage.signature) : cache.events = events := by
  obtain ⟨stamp, hstamp⟩ := h.signature
  have hne : storage.records ≠ [] := by
    intro hnil
    rw [hstamp, Storage.signature, if_pos hnil] at hsignature
    cases hsignature
  rw [hstamp, Storage.signature, if_neg hne, hrecords] at hsignature
  simp only [Option.some.injEq, Prod.mk.injEq] at hsignature
  have hmap : cache.events.map LedgerEvent.toObject = events.map LedgerEvent.toObject :=
    prefix_eq_of_fileSize (h.isPrefix.map _) hsignature.1
  exact List.map_injective_iff.mpr LedgerEvent.toObject_injective hmap

theorem verifyHead_frame {repair : Bool} {before : Storage}
    (h : verifyHead P repair events before = .ok after) : after.records = before.records := by
  simp only [verifyHead, bind_eq_ok] at h
  obtain ⟨head, -, h⟩ := h
  split at h
  · cases h; rfl
  · cases h
  · cases h
  · split at h
    · cases h; rfl
    · split at h
      · cases h; rfl
      · cases h

/-- A repair only writes the anchor of the events it was given. -/
theorem verifyHead_head {repair : Bool} {before : Storage}
    (h : verifyHead P repair events before = .ok after) (hhead : before.head = anchorOf P events) :
    after.head = anchorOf P events := by
  simp only [verifyHead, bind_eq_ok] at h
  obtain ⟨head, -, h⟩ := h
  split at h
  · cases h; exact hhead
  · cases h
  · cases h
  · rename_i tail _ htail
    split at h
    · cases h; exact hhead
    · split at h
      · cases h
        rw [anchorOf, htail]
        rfl
      · cases h

/-- Whether from its cache or from the file, an append sees exactly the ledger. -/
theorem readForAppend_coherent {caches : Nat → Option AppendCache} {handle : Nat}
    {existing : List LedgerEvent} {integrity : LedgerIntegrity}
    (hcoherent : Coherent P events storage caches)
    (h : readForAppend P L (caches handle) storage = .ok (existing, integrity, after)) :
    existing = events ∧ integrity.sequence = events.length ∧
      integrity.fingerprint = tailFingerprint events ∧ after.records = storage.records ∧
      after.head = storage.head := by
  unfold readForAppend at h
  split at h
  · rename_i cache hcache
    obtain ⟨hmem, hsignature⟩ := Option.filter_eq_some_iff.mp hcache
    have hof := hcoherent.caches handle cache hmem
    have hevents := hof.events_eq hcoherent.records (by simpa using hsignature)
    simp only [Except.ok.injEq, Prod.mk.injEq] at h
    obtain ⟨rfl, rfl, rfl⟩ := h
    exact ⟨hevents, hevents ▸ hof.sequence, hevents ▸ hof.fingerprint, rfl, rfl⟩
  · simp only [bind_eq_ok, Prod.exists, pure, Except.pure, Except.ok.injEq, Prod.mk.injEq] at h
    obtain ⟨read, replayed, hvalidate, verified, hverify, rfl, rfl, rfl⟩ := h
    obtain ⟨hrecords, hvalid, hsequence, hfingerprint⟩ := validate_eq_ok hvalidate
    have hevents : replayed = events := by
      refine List.map_injective_iff.mpr LedgerEvent.toObject_injective ?_
      rw [← hrecords, hcoherent.records]
    subst hevents
    exact ⟨rfl, hsequence, hfingerprint, verifyHead_frame hverify,
      (verifyHead_head hverify hcoherent.head).trans hcoherent.head.symm⟩

/-- What an append that returned did: the event it built was admitted, both files
    end in it, and the cache holds the new ledger. -/
theorem append_eq_ok {caches : Nat → Option AppendCache} {handle : Nat} {cache : AppendCache}
    (hcoherent : Coherent P events storage caches)
    (h : append P L (caches handle) storage request drawn = .ok (event, after, cache)) :
    Built P L events event ∧ Admitted events event ∧
      after.records = (events ++ [event]).map LedgerEvent.toObject ∧
      after.head = anchorOf P (events ++ [event]) ∧ CacheOf (events ++ [event]) cache ∧
      event.eventType = request.eventType ∧ event.transactionId = request.transactionId := by
  simp only [append, prepareAppend, bind_eq_ok, Prod.exists, pure, Except.pure, Except.ok.injEq,
    Prod.mk.injEq] at h
  obtain ⟨existing, integrity, read, built,
    ⟨existing', integrity', read', hread, ⟨⟩, hadmitted, rfl, rfl, rfl, rfl⟩, rfl, rfl, rfl⟩ := h
  obtain ⟨rfl, hsequence, hfingerprint, hrecords, -⟩ := readForAppend_coherent hcoherent hread
  have hbuilt : Built P L existing' (newEvent P L integrity' request drawn) :=
    newEvent_built hsequence hfingerprint
  have hafter : read'.records ++ [(newEvent P L integrity' request drawn).toObject] =
      (existing' ++ [newEvent P L integrity' request drawn]).map LedgerEvent.toObject := by
    rw [hrecords, hcoherent.records, List.map_append, List.map_singleton]
  refine ⟨hbuilt, validateAppend_eq_ok.mp hadmitted, hafter, (anchorOf_snoc _ _).symm, ?_, rfl, rfl⟩
  refine ⟨List.prefix_rfl, by simp [cacheAfter], ⟨drawn.stamp, ?_⟩, ?_, ?_⟩
  · rw [cacheAfter, Storage.signature,
      if_neg (by simp [Storage.writeHead, Storage.writeRecord])]
    simp only [Storage.writeHead, Storage.writeRecord, hafter]
  · simp only [cacheAfter, List.length_append, List.length_singleton]
    exact hbuilt.sequence
  · exact (tailFingerprint_snoc _ _).symm

/-! ### Runs -/

/-- A run of appends that all returned, each on an event `allowed` admits, by ledger
    objects numbered by `handle`. -/
inductive AppendRun (P : Platform) (L : LedgerIdentity)
    (allowed : List LedgerEvent → LedgerEvent → Prop) :
    List LedgerEvent → Storage → (Nat → Option AppendCache) → Prop where
  | empty : AppendRun P L allowed [] Storage.empty fun _ => none
  | append {events : List LedgerEvent} {storage after : Storage}
      {caches : Nat → Option AppendCache} {handle : Nat} {request : AppendRequest}
      {drawn : Drawn} {event : LedgerEvent} {cache : AppendCache}
      (prior : AppendRun P L allowed events storage caches)
      (transaction : request.transactionId ≠ "")
      (returned : append P L (caches handle) storage request drawn = .ok (event, after, cache))
      (admits : allowed events event) :
      AppendRun P L allowed (events ++ [event]) after
        (Function.update caches handle (some cache))

variable {allowed : List LedgerEvent → LedgerEvent → Prop} {caches : Nat → Option AppendCache}

theorem closed_historyOf_snoc (hclosed : ∀ transactionId, Closed (historyOf events transactionId))
    (hadmitted : Admitted events event) (transactionId : String) :
    Closed (historyOf (events ++ [event]) transactionId) := by
  rw [historyOf_snoc]
  split
  · rename_i heq
    subst heq
    refine closed_snoc (hclosed _) ?_
    by_cases hstart : event.eventType = transactionStarted
    · rw [hstart]
      intro predecessor h
      cases h
    · exact hadmitted.predecessor hstart
  · exact hclosed transactionId

theorem AppendRun.coherent (h : AppendRun P L allowed events storage caches) :
    Coherent P events storage caches := by
  induction h with
  | empty => exact coherent_empty
  | @append events storage after caches handle request drawn event cache prior _ returned _ ih =>
      obtain ⟨hbuilt, hadmitted, hrecords, hhead, hcache, -⟩ := append_eq_ok ih returned
      refine ⟨hrecords, hhead, fun last hlast => ?_, fun other found hfound => ?_,
        closed_historyOf_snoc ih.closed hadmitted⟩
      · rw [List.getLast?_concat, Option.mem_some_iff] at hlast
        subst hlast
        exact ⟨by simpa using hbuilt.sequence, hbuilt.fingerprint⟩
      by_cases hother : other = handle
      · subst hother
        rw [Function.update_self, Option.mem_some_iff] at hfound
        exact hfound ▸ hcache
      · rw [Function.update_of_ne hother] at hfound
        have hprior := ih.caches other found hfound
        exact { hprior with isPrefix := hprior.isPrefix.trans (List.prefix_append _ _) }

theorem AppendRun.mono {weaker : List LedgerEvent → LedgerEvent → Prop}
    (himp : ∀ events event, allowed events event → weaker events event)
    (h : AppendRun P L allowed events storage caches) :
    AppendRun P L weaker events storage caches := by
  induction h with
  | empty => exact .empty
  | append _ transaction returned admits ih =>
      exact .append ih transaction returned (himp _ _ admits)

/-- Every ledger that appends of replayable events leave is valid. -/
theorem AppendRun.valid (h : AppendRun P L (Replayable P L) events storage caches) :
    Valid P L events := by
  induction h with
  | empty => exact ⟨.nil, fun _ h => absurd rfl h⟩
  | append prior transaction returned admits ih =>
      obtain ⟨hbuilt, hadmitted, -, -, -, -, hid⟩ := append_eq_ok prior.coherent returned
      exact (valid_snoc_iff ih prior.coherent.closed hadmitted hbuilt (hid ▸ transaction)).mpr
        admits

/-- In a run whose appends are all of replayable events the full check accepts the
    whole ledger, and of the appends that return next it accepts exactly the
    replayable ones. -/
theorem appendRun_validates (h : AppendRun P L (Replayable P L) events storage caches) :
    (∃ result, validate P L storage.records = .ok result) ∧
      ∀ handle request drawn event after cache, request.transactionId ≠ "" →
        append P L (caches handle) storage request drawn = .ok (event, after, cache) →
          ((∃ result, validate P L after.records = .ok result) ↔
            Replayable P L events event) := by
  have hcoherent := h.coherent
  refine ⟨?_, fun handle request drawn event after cache htransaction hreturned => ?_⟩
  · rw [hcoherent.records]
    exact validate_map_eq_ok.mpr h.valid
  · obtain ⟨hbuilt, hadmitted, hrecords, -, -, -, hid⟩ := append_eq_ok hcoherent hreturned
    rw [hrecords, validate_map_eq_ok]
    exact valid_snoc_iff h.valid hcoherent.closed hadmitted hbuilt (hid ▸ htransaction)

/-! ### Appending from a cache -/

/-- An append goes through when the event it builds is admitted. -/
theorem append_of_read (request : AppendRequest) (drawn : Drawn) {cache : Option AppendCache}
    {existing : List LedgerEvent} {integrity : LedgerIntegrity} {read : Storage}
    (hread : readForAppend P L cache storage = .ok (existing, integrity, read))
    (hadmitted : Admitted existing (newEvent P L integrity request drawn)) :
    append P L cache storage request drawn =
      .ok (newEvent P L integrity request drawn,
        (read.writeRecord (newEvent P L integrity request drawn) drawn.stamp).writeHead P
          (newEvent P L integrity request drawn),
        cacheAfter existing integrity (newEvent P L integrity request drawn)
          ((read.writeRecord (newEvent P L integrity request drawn) drawn.stamp).writeHead P
            (newEvent P L integrity request drawn))) := by
  simp only [append, prepareAppend, bind_eq_ok, Prod.exists, pure, Except.pure, Except.ok.injEq,
    Prod.mk.injEq]
  exact ⟨existing, integrity, read, _,
    ⟨existing, integrity, read, hread, (), validateAppend_eq_ok.mpr hadmitted, rfl, rfl, rfl,
      rfl⟩, rfl, rfl, rfl⟩

theorem readForAppend_hit {cache : AppendCache} (h : cache.signature = storage.signature) :
    readForAppend P L (some cache) storage = .ok (cache.events, cache.integrity, storage) := by
  have hfilter : (some cache).filter (fun cache => cache.signature = storage.signature) =
      some cache := by
    simp [Option.filter, h]
  rw [readForAppend, hfilter]

theorem readForAppend_empty :
    readForAppend P L none Storage.empty =
      .ok ([], ⟨0, GENESIS_FINGERPRINT, 0, 0⟩, Storage.empty) :=
  rfl

/-! ### The first append -/

/-- The first event of a ledger is admitted when it starts its transaction. -/
theorem admitted_of_started {integrity : LedgerIntegrity}
    (hkind : request.eventType = transactionStarted) :
    Admitted [] (newEvent P L integrity request drawn) where
  fresh := by simp
  start _ := rfl
  begun h := absurd hkind h
  reacquired h := by simp [newEvent, hkind] at h
  terminal h := by simp [newEvent, hkind, TERMINAL_EVENT_TYPES] at h
  immutable h := absurd hkind h
  checkpoint h := by simp [newEvent, hkind] at h
  predecessor h := absurd hkind h
  completion h := by simp [newEvent, hkind] at h

/-- It is replayable when its payload meets its contract and binds no gate wrongly. -/
theorem replayable_of_started {integrity : LedgerIntegrity} (hidentity : IdentityOk L)
    (hkind : request.eventType = transactionStarted)
    (hcontracts : ∀ contract ∈ PAYLOAD_CONTRACTS transactionStarted,
      ContractHolds (redactFields P request.payload) contract)
    (hbinding : resolutionBindingOf (newEvent P L integrity request drawn).toUnsignedEvent ≠
      .invalid) :
    Replayable P L [] (newEvent P L integrity request drawn) where
  identity := hidentity
  contracts := by simpa only [newEvent, hkind] using hcontracts
  workflow := by simp [workflowOf]
  binding _ := hbinding
  raised h := by simp [newEvent, hkind] at h
  resolved h := by simp [newEvent, hkind] at h
  reacquired h := by simp [newEvent, hkind] at h
  snapshot h := by simp [newEvent, hkind] at h
  completed h := by simp [newEvent, hkind] at h
  released h := by simp [newEvent, hkind] at h
  projection h := by simp [newEvent, hkind] at h

/-- The run of that one append. -/
theorem started_run (allowed : List LedgerEvent → LedgerEvent → Prop)
    (hkind : request.eventType = transactionStarted) (htransaction : request.transactionId ≠ "")
    (hallowed : allowed [] (newEvent P L ⟨0, GENESIS_FINGERPRINT, 0, 0⟩ request drawn)) :
    ∃ storage cache,
      AppendRun P L allowed [newEvent P L ⟨0, GENESIS_FINGERPRINT, 0, 0⟩ request drawn] storage
        (Function.update (fun _ => none) 0 (some cache)) ∧
      cache.signature = storage.signature ∧
      cache.events = [newEvent P L ⟨0, GENESIS_FINGERPRINT, 0, 0⟩ request drawn] := by
  have happend := append_of_read request drawn (readForAppend_empty (P := P) (L := L))
    (admitted_of_started hkind)
  exact ⟨_, _, .append .empty htransaction happend hallowed, rfl, rfl⟩

/-! ### A run the full check refuses -/

def sampleIdentity : LedgerIdentity where
  projectId := "project"
  repositoryIdentity := String.ofList (List.replicate 64 'a')
  repositoryPathFingerprint := String.ofList (List.replicate 64 'b')

theorem sampleIdentity_ok : IdentityOk sampleIdentity :=
  ⟨by decide, by decide +kernel, by decide +kernel⟩

def sampleDrawn (uuid4 : String) (h : uuid4 ≠ "") : Drawn where
  uuid4 := uuid4
  uuid4_ne := h
  utcNow := "2026-01-01T00:00:00+00:00"
  utcNow_ne := by decide
  stamp := 0

def sampleStart : AppendRequest where
  eventType := transactionStarted
  transactionId := "transaction-1"
  workflowType := .featureExecution

def sampleProjection : AppendRequest where
  eventType := projectionUpdated
  transactionId := "transaction-1"
  workflowType := .featureExecution

theorem sampleId_ne : "event-1" ≠ "" := by decide

/-- The first event of `sampleStart` on an empty ledger. -/
def sampleStarted (P : Platform) : LedgerEvent :=
  newEvent P sampleIdentity ⟨0, GENESIS_FINGERPRINT, 0, 0⟩ sampleStart
    (sampleDrawn "event-1" sampleId_ne)

theorem sampleStarted_admitted : Admitted [] (sampleStarted P) := admitted_of_started rfl

theorem sampleStarted_run (P : Platform) (allowed : List LedgerEvent → LedgerEvent → Prop)
    (hallowed : allowed [] (sampleStarted P)) :
    ∃ storage cache,
      AppendRun P sampleIdentity allowed [sampleStarted P] storage
        (Function.update (fun _ => none) 0 (some cache)) ∧
      cache.signature = storage.signature ∧ cache.events = [sampleStarted P] :=
  started_run allowed rfl (by decide) hallowed

theorem sampleStarted_replayable : Replayable P sampleIdentity [] (sampleStarted P) := by
  refine replayable_of_started sampleIdentity_ok rfl (fun contract _ value hvalue => ?_) ?_
  · simp [sampleStart, redactFields] at hvalue
  · simp [newEvent, sampleStart, redactFields, resolutionBindingOf, Fields.get]

theorem appendRun_validates_started :
    ∃ storage : Storage, ∃ result,
      validate Platform.reference sampleIdentity storage.records = .ok result := by
  obtain ⟨storage, cache, hrun, -⟩ :=
    sampleStarted_run Platform.reference _ sampleStarted_replayable
  exact ⟨storage, (appendRun_validates hrun).1⟩

/-- The append of `sampleProjection` that follows: no predecessor is asked of it. -/
theorem sampleProjection_admitted {integrity : LedgerIntegrity} :
    Admitted [sampleStarted P] (newEvent P sampleIdentity integrity sampleProjection
      (sampleDrawn "event-2" (by decide))) := by
  refine {
    fresh := ?_
    start := fun h => by cases h
    begun := fun _ => ?_
    reacquired := fun h => by cases h
    terminal := fun h => ?_
    immutable := fun _ => Or.inr (show projectionUpdated ∈ _ by decide)
    checkpoint := fun h => by cases h
    predecessor := fun _ => ?_
    completion := fun h => by cases h }
  · simp [newEvent, sampleStarted, sampleProjection, sampleStart, sampleDrawn, givenOr]
  · simp [historyOf, newEvent, sampleStarted, sampleProjection, sampleStart]
  · simp [newEvent, sampleProjection, TERMINAL_EVENT_TYPES] at h
  · intro kind hkind
    simp [historyOf, newEvent, sampleStarted, sampleProjection, sampleStart,
      requiredPredecessor, TERMINAL_EVENT_TYPES] at hkind

/-- A start and a projection of the same transaction both append, and the ledger they
    leave is refused: the projection has no terminal outcome before it. -/
theorem projectionAfterStart_refused :
    ∃ events storage caches,
      AppendRun Platform.reference sampleIdentity (fun _ _ => True) events storage caches ∧
      historyOf events "transaction-1" = [transactionStarted, projectionUpdated] ∧
      ¬∃ result, validate Platform.reference sampleIdentity storage.records = .ok result := by
  obtain ⟨storage, cache, hrun, hsignature, hevents⟩ :=
    sampleStarted_run Platform.reference (fun _ _ => True) trivial
  have hread := readForAppend_hit (P := Platform.reference) (L := sampleIdentity) hsignature
  rw [hevents] at hread
  have happend := append_of_read sampleProjection (sampleDrawn "event-2" (by decide)) hread
    sampleProjection_admitted
  have hcache : Function.update (fun _ => none) 0 (some cache) 0 = some cache :=
    Function.update_self ..
  have hlong := hrun.append (by decide) (hcache.symm ▸ happend) trivial
  have hhistory : historyOf ([sampleStarted Platform.reference] ++
      [newEvent Platform.reference sampleIdentity cache.integrity sampleProjection
        (sampleDrawn "event-2" (by decide))]) "transaction-1" =
      [transactionStarted, projectionUpdated] := by
    simp [historyOf, newEvent, sampleStarted, sampleProjection, sampleStart]
  refine ⟨_, _, _, hlong, hhistory, ?_⟩
  rw [hlong.coherent.records, validate_map_eq_ok]
  intro hvalid
  have hok := hvalid.histories "transaction-1" (by rw [hhistory]; decide)
  rw [hhistory] at hok
  exact absurd hok.projection (by decide)

end Conveyor
