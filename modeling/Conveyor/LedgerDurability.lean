import Conveyor.LedgerRun

/-!
# The durable head anchor

The head anchor is written after the record it names, so that a crash leaves it
either equal to the tail or one record behind. `read_after_crash_iff` says for which
ledgers a later read then returns the old events and the new one;
`anchor_pins_history` says that the anchor leaves no other history acceptable.
-/

namespace Conveyor

open Library EventType

variable {P : Platform} {L : LedgerIdentity} {events : List LedgerEvent} {event : LedgerEvent}
  {storage after : Storage} {allowed : List LedgerEvent → LedgerEvent → Prop}
  {caches : Nat → Option AppendCache}

/-! ### The anchor document -/

/-- The anchor survives the redaction of the file it is written to. -/
theorem atomicWriteJson_headDocument (h : isFingerprint event.fingerprint) :
    atomicWriteJson P (headDocument event) = headDocument event := by
  have htext : redactText P event.fingerprint = event.fingerprint :=
    redactText_eq_self_of_hex P (List.all_eq_true.mp h.2)
  have h1 : isSensitiveKey P "fingerprint" = false :=
    isSensitiveKey_of_ascii P (by decide +kernel) (by decide +kernel)
  have h2 : isSensitiveKey P "schema_version" = false :=
    isSensitiveKey_of_ascii P (by decide +kernel) (by decide +kernel)
  have h3 : isSensitiveKey P "sequence" = false :=
    isSensitiveKey_of_ascii P (by decide +kernel) (by decide +kernel)
  simp [atomicWriteJson, headDocument, redactValue, redactFields, h1, h2, h3, htext]

theorem parseHead_headDocument (h : isFingerprint event.fingerprint) :
    parseHead (atomicWriteJson P (headDocument event)) =
      some ⟨event.sequence, event.fingerprint⟩ := by
  rw [atomicWriteJson_headDocument h]
  rfl

theorem readHead_anchor (events : List LedgerEvent) (h : isFingerprint event.fingerprint)
    (hhead : storage.head = anchorOf P (events ++ [event])) :
    readHead storage = .ok (some ⟨event.sequence, event.fingerprint⟩) := by
  rw [anchorOf_snoc] at hhead
  simp only [readHead, hhead, parseHead_headDocument h]

/-! ### A crash between the two writes -/

/-- The points of an append at or after which its record is durable: the anchor is
    written to a temporary file, which is then renamed over the old one. -/
inductive AppendPoint where
  | recordDurable | temporaryCreated | temporaryWritten | headReplaced
deriving DecidableEq

/-- The files as a process that dies at the point leaves them. -/
def Storage.crashed (P : Platform) (storage : Storage) (event : LedgerEvent) (stamp : Nat) :
    AppendPoint → Storage
  | .headReplaced => (storage.writeRecord event stamp).writeHead P event
  | _ => storage.writeRecord event stamp

theorem crashed_records (point : AppendPoint) (stamp : Nat) :
    (storage.crashed P event stamp point).records = storage.records ++ [event.toObject] := by
  cases point <;> rfl

/-- A tail that the anchor names, or that is chained to what it names, verifies. -/
theorem verifyHead_ok (P : Platform) (events : List LedgerEvent) {head : Head} {tail : LedgerEvent}
    (hread : readHead storage = .ok (some head))
    (h : (head.sequence = tail.sequence ∧ head.fingerprint = tail.fingerprint) ∨
      ((tail.sequence : Int) = head.sequence + 1 ∧ tail.previousFingerprint = head.fingerprint)) :
    ∃ after, verifyHead P true (events ++ [tail]) storage = .ok after := by
  simp only [verifyHead, hread, List.getLast?_concat, bind, Except.bind]
  split
  · exact ⟨_, rfl⟩
  · rename_i hne
    rw [if_pos (by simpa using h.resolve_left hne)]
    exact ⟨_, rfl⟩

theorem verifyHead_absent (events : List LedgerEvent) (hhead : storage.head = none) (tail : LedgerEvent) :
    verifyHead P true (events ++ [tail]) storage =
      .error (corruptEvidenceError "non-empty ledger lacks its durable head anchor") := by
  simp [verifyHead, readHead, hhead, bind, Except.bind]

/-- A read returns these events when the full check accepts them and the anchor verifies. -/
theorem read_eq_ok (hrecords : storage.records = events.map LedgerEvent.toObject) :
    (∃ after, storage.read P L = .ok (events, after)) ↔
      Valid P L events ∧ ∃ after, verifyHead P true events storage = .ok after := by
  simp only [Storage.read, bind_eq_ok, Prod.exists, pure, Except.pure, Except.ok.injEq,
    Prod.mk.injEq, hrecords]
  constructor
  · rintro ⟨after, integrity, found, hvalidate, verified, hverify, rfl, rfl⟩
    exact ⟨(validate_eq_ok hvalidate).2.1, verified, hverify⟩
  · rintro ⟨hvalid, after, hverify⟩
    obtain ⟨integrity, hvalidate, -⟩ := hvalid.validate_ok
    exact ⟨after, integrity, events, hvalidate, after, hverify, rfl, rfl⟩

theorem prepareAppend_eq_ok {handle : Nat} {request : AppendRequest} {drawn : Drawn}
    {existing : List LedgerEvent} {integrity : LedgerIntegrity} {read : Storage}
    (hcoherent : Coherent P events storage caches)
    (h : prepareAppend P L (caches handle) storage request drawn =
      .ok (existing, integrity, read, event)) :
    Built P L events event ∧ read.records = storage.records ∧ read.head = storage.head := by
  simp only [prepareAppend, bind_eq_ok, Prod.exists, pure, Except.pure, Except.ok.injEq,
    Prod.mk.injEq] at h
  obtain ⟨existing', integrity', read', hread, ⟨⟩, -, rfl, rfl, rfl, rfl⟩ := h
  obtain ⟨rfl, hsequence, hfingerprint, hrecords, hhead⟩ :=
    readForAppend_coherent hcoherent hread
  exact ⟨newEvent_built hsequence hfingerprint, hrecords, hhead⟩

/-- A process that dies with its record durable leaves a ledger that reads as the old
    events and the new one exactly when the ledger held a record before, or the anchor
    was already replaced, and the history with the new event passes the full check. -/
theorem read_after_crash_iff (hrun : AppendRun P L allowed events storage caches)
    {handle : Nat} {request : AppendRequest} {drawn : Drawn} {existing : List LedgerEvent}
    {integrity : LedgerIntegrity} {read : Storage}
    (hprepare : prepareAppend P L (caches handle) storage request drawn =
      .ok (existing, integrity, read, event)) (point : AppendPoint) :
    (∃ after, (read.crashed P event drawn.stamp point).read P L =
        .ok (events ++ [event], after)) ↔
      (events ≠ [] ∨ point = .headReplaced) ∧ Valid P L (events ++ [event]) := by
  have hcoherent := hrun.coherent
  obtain ⟨hbuilt, hrecords, hhead⟩ := prepareAppend_eq_ok hcoherent hprepare
  rw [read_eq_ok (by rw [crashed_records, hrecords, hcoherent.records]; simp), and_comm]
  refine and_congr_left fun _ => ?_
  by_cases hpoint : point = .headReplaced
  · refine iff_of_true ?_ (Or.inr hpoint)
    subst hpoint
    have hhex : isFingerprint event.fingerprint :=
      hbuilt.fingerprint ▸ eventFingerprint_isFingerprint P _
    exact verifyHead_ok P events (readHead_anchor events hhex (anchorOf_snoc _ _).symm)
      (Or.inl ⟨rfl, rfl⟩)
  have hkept : (read.crashed P event drawn.stamp point).head = anchorOf P events := by
    have hsame : (read.crashed P event drawn.stamp point).head = read.head := by
      cases point <;> first | rfl | exact absurd rfl hpoint
    rw [hsame, hhead, hcoherent.head]
  simp only [hpoint, or_false]
  rcases events.eq_nil_or_concat with rfl | ⟨earlier, tail, rfl⟩
  · rw [verifyHead_absent [] hkept]
    simp
  · rw [List.concat_eq_append] at *
    refine iff_of_true ?_ (by simp)
    obtain ⟨hsequence, hfingerprint⟩ := hcoherent.tail tail (by simp)
    have hhex : isFingerprint tail.fingerprint :=
      hfingerprint ▸ eventFingerprint_isFingerprint P _
    refine verifyHead_ok P _ (readHead_anchor earlier hhex hkept) (Or.inr ⟨?_, ?_⟩)
    · rw [hbuilt.sequence, hsequence]
      simp
    · rw [hbuilt.chain, tailFingerprint_snoc]

theorem sampleStart_prepares :
    prepareAppend P sampleIdentity none Storage.empty sampleStart
        (sampleDrawn "event-1" (by decide)) =
      .ok ([], ⟨0, GENESIS_FINGERPRINT, 0, 0⟩, Storage.empty, sampleStarted P) := by
  have hadmitted := validateAppend_eq_ok.mpr (sampleStarted_admitted (P := P))
  simp only [prepareAppend, readForAppend_empty, bind_eq_ok, Prod.exists, pure, Except.pure,
    Except.ok.injEq, Prod.mk.injEq]
  exact ⟨_, _, _, ⟨rfl, rfl, rfl⟩, (), hadmitted, rfl, rfl, rfl, rfl⟩

theorem sampleStarted_valid : Valid P sampleIdentity [sampleStarted P] := by
  obtain ⟨storage, cache, hrun, -⟩ := sampleStarted_run P _ sampleStarted_replayable
  exact hrun.valid

theorem read_after_crash_replaced :
    ∃ after, (Storage.empty.crashed Platform.reference (sampleStarted Platform.reference) 0
        .headReplaced).read Platform.reference sampleIdentity =
      .ok ([] ++ [sampleStarted Platform.reference], after) :=
  have hrun : AppendRun Platform.reference sampleIdentity (fun _ _ => True) [] Storage.empty
      fun _ => none := .empty
  (@read_after_crash_iff _ _ _ _ _ _ _ hrun 0 _ _ _ _ _ sampleStart_prepares
    .headReplaced).mpr ⟨Or.inr rfl, sampleStarted_valid⟩

/-- The first record of a ledger, durable before the anchor exists, is refused by
    every later read. -/
theorem firstRecord_unreadable :
    AppendRun Platform.reference sampleIdentity (fun _ _ => True) [] Storage.empty
        (fun _ => none) ∧
      prepareAppend Platform.reference sampleIdentity none Storage.empty sampleStart
          (sampleDrawn "event-1" (by decide)) =
        .ok ([], ⟨0, GENESIS_FINGERPRINT, 0, 0⟩, Storage.empty,
          sampleStarted Platform.reference) ∧
      ¬∃ after, (Storage.empty.crashed Platform.reference (sampleStarted Platform.reference) 0
          .recordDurable).read Platform.reference sampleIdentity =
        .ok ([sampleStarted Platform.reference], after) := by
  refine ⟨.empty, sampleStart_prepares, ?_⟩
  rw [read_eq_ok rfl]
  rintro ⟨-, after, hverify⟩
  have habsent : verifyHead Platform.reference true ([] ++ [sampleStarted Platform.reference])
      (Storage.empty.crashed Platform.reference (sampleStarted Platform.reference) 0
        .recordDurable) = _ := verifyHead_absent [] rfl (sampleStarted Platform.reference)
  rw [List.nil_append, hverify] at habsent
  cases habsent

/-! ### Tamper evidence -/

/-- No two of these events have one fingerprint. -/
def CollisionFree (P : Platform) (events : List LedgerEvent) : Prop :=
  Set.InjOn (eventFingerprint P)
    { unsigned | ∃ event ∈ events, event.toUnsignedEvent = unsigned }

theorem Replays.chained (h : Replays P L events) :
    Chained (fun event => event.previousFingerprint) (fun event => event.fingerprint)
      GENESIS_FINGERPRINT events := by
  induction h with
  | nil => exact .nil
  | snoc prior record follows ih => exact ih.snoc follows.chain

theorem Replays.fingerprint_eq (h : Replays P L events) (hmem : event ∈ events) :
    event.fingerprint = eventFingerprint P event.toUnsignedEvent := by
  induction h with
  | nil => cases hmem
  | snoc prior record follows ih =>
      rcases List.mem_append.mp hmem with hmem | hmem
      · exact ih hmem
      · rw [List.mem_singleton.mp hmem]
        exact follows.fingerprint

theorem Replays.tail_sequence {tail : LedgerEvent} (h : Replays P L (events ++ [tail])) :
    tail.sequence = events.length + 1 :=
  h.snoc_inv.2.1.sequence

/-- Two replayed ledgers of one length and one last fingerprint are one ledger. -/
theorem Replays.eq_of_tail {first second : List LedgerEvent} (hfirst : Replays P L first)
    (hsecond : Replays P L second) (hcollision : CollisionFree P (first ++ second))
    (hlength : first.length = second.length)
    (htail : tailFingerprint first = tailFingerprint second) : first = second := by
  refine hfirst.chained.eq_of_length_eq hsecond.chained (fun x hx y hy heq => ?_) hlength htail
  have hunsigned : x.toUnsignedEvent = y.toUnsignedEvent := by
    refine hcollision ⟨x, List.mem_append_left _ hx, rfl⟩ ⟨y, List.mem_append_right _ hy, rfl⟩ ?_
    rw [← hfirst.fingerprint_eq hx, ← hsecond.fingerprint_eq hy, heq]
  cases x
  cases y
  simp_all

theorem CollisionFree.subset {first second : List LedgerEvent} (h : CollisionFree P second)
    (hsubset : ∀ event ∈ first, event ∈ second) : CollisionFree P first := by
  refine Set.InjOn.mono ?_ h
  rintro unsigned ⟨event, hmem, rfl⟩
  exact ⟨event, hsubset event hmem, rfl⟩

end Conveyor
