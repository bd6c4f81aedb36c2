import Conveyor.Library.Call
import Conveyor.LedgerRun

/-!
# A ledger shared by many ledger objects

Ledger objects of any processes append to one file and read it, each with its own append
cache. The lock lets one call at a time past `synchronized`, so a run is the sequence of
the calls in the order in which they got the lock. Every step that leaves the process may
fail before or after its effect, the process may die there, and a write may be cut short.

`Serial` is what every call keeps whatever its outcome. `appends_serialize` reads it off:
the records of the file are one numbered chain, and the events of the appends that
returned stand in it once each, in the order of the lock.
-/

namespace Conveyor

open Library EventType

/-- The files and the caches of the ledger objects, which are numbered. `torn` counts the
    bytes of a record that was cut short at the end of the file. -/
structure SharedLedger where
  storage : Storage
  created : Bool
  torn : Nat
  caches : Nat → Option AppendCache
  clock : Nat

/-- What the calls on a shared ledger meet, by the time of the attempt. `accepted` is the
    number of bytes that a write takes when it does not take all of them. -/
structure LedgerEnvironment where
  platform : Platform
  identity : LedgerIdentity
  drawn : Nat → Drawn
  accepted : Nat → Option Nat
  fault : Nat → Call.Fault Failure

abbrev LedgerCall (α : Type) := Call LedgerEnvironment SharedLedger Failure α

namespace SharedLedger

def empty : SharedLedger := ⟨Storage.empty, false, 0, fun _ => none, 0⟩

def tick (s : SharedLedger) : SharedLedger := { s with clock := s.clock + 1 }

/-- `_signature`: none while the file does not exist. -/
def signature (s : SharedLedger) : Signature :=
  if s.created then some (fileSize s.storage.records + s.torn, s.storage.stamp) else none

def cached (s : SharedLedger) (handle : Nat) (cache : AppendCache) : SharedLedger :=
  { s with caches := Function.update s.caches handle (some cache) }

/-! ### The calls -/

variable {α : Type}

def act (f : LedgerEnvironment → SharedLedger → Result (α × SharedLedger)) : LedgerCall α :=
  Call.attempt (fun e s => e.fault s.clock) tick f

def look (f : LedgerEnvironment → SharedLedger → Result α) : LedgerCall α :=
  act fun e s => (f e s).map fun value => (value, s)

/-- `synchronized`, up to the lock. -/
def synchronized : LedgerCall Unit := look fun _ _ => .ok ()

/-- `_decode(_read_bytes())`: the complete records, unless the last one lacks its newline. -/
def decode : LedgerCall (List Object) := look fun _ s => do
  require (s.torn = 0)
    (corruptEvidenceError "evidence ledger is truncated: final record lacks newline")
  return s.storage.records

def validate (records : List Object) : LedgerCall (LedgerIntegrity × List LedgerEvent) :=
  Call.reads fun e _ => Conveyor.validate e.platform e.identity records

/-- `_verify_head` with `repair_one_ahead`. -/
def verifyHead (events : List LedgerEvent) : LedgerCall Unit := act fun e s => do
  let storage ← Conveyor.verifyHead e.platform true events s.storage
  return ((), { s with storage := storage })

/-- `read`, and `verify` but for the integrity it reports. -/
def read : LedgerCall (List LedgerEvent) := do
  synchronized
  let records ← decode
  let (_, events) ← validate records
  verifyHead events
  return events

/-- The miss branch of `_read_for_append`. -/
def readUncached (handle : Nat) (signature : Signature) :
    LedgerCall (List LedgerEvent × LedgerIntegrity) := do
  let records ← decode
  let (integrity, events) ← validate records
  verifyHead events
  Call.update fun _ s => .ok ((), s.cached handle ⟨signature, events, integrity⟩)
  return (events, integrity)

/-- `_read_for_append`, with the integrity that `append` takes from the same place. -/
def readForAppend (handle : Nat) : LedgerCall (List LedgerEvent × LedgerIntegrity) := do
  let signature ← look fun _ s => .ok s.signature
  let cache ← Call.reads fun _ s => .ok (s.caches handle)
  match cache.filter fun cache => cache.signature = signature with
  | some cache => pure (cache.events, cache.integrity)
  | none => readUncached handle signature

/-- Everything an append does before it opens the file for writing. -/
def prepare (handle : Nat) (request : AppendRequest) :
    LedgerCall (List LedgerEvent × LedgerIntegrity × Drawn × LedgerEvent) := do
  synchronized
  let (existing, integrity) ← readForAppend handle
  let (drawn, event) ← Call.reads fun e s =>
    let drawn := e.drawn s.clock
    .ok (drawn, newEvent e.platform e.identity integrity request drawn)
  Call.reads fun _ _ => validateAppend existing event
  return (existing, integrity, drawn, event)

/-- `os.open` with `O_CREAT`. -/
def openAppend : LedgerCall Unit := act fun _ s => .ok ((), { s with created := true })

def lineSize (event : LedgerEvent) : Nat := fileSize [event.toObject]

/-- The file after `os.write` took so many bytes of the line. Behind a torn record a line
    completes nothing. -/
def written (s : SharedLedger) (event : LedgerEvent) (stamp bytes : Nat) : SharedLedger :=
  if s.torn = 0 ∧ lineSize event ≤ bytes then
    { s with storage := s.storage.writeRecord event stamp }
  else { s with storage.stamp := stamp, torn := s.torn + bytes }

/-- The bytes a write takes of a line. -/
def taken (s : SharedLedger) (e : LedgerEnvironment) (event : LedgerEvent) : Nat :=
  min ((e.accepted s.clock).getD (lineSize event)) (lineSize event)

/-- `os.write` and the check of what it returned. -/
def writeRecord (event : LedgerEvent) (stamp : Nat) : LedgerCall Unit := do
  let bytes ← act fun e s => .ok (s.taken e event, s.written event stamp (s.taken e event))
  Call.check (bytes = lineSize event)
    (evidenceError "short evidence-ledger append")

/-- `os.fsync`. -/
def sync : LedgerCall Unit := look fun _ _ => .ok ()

def writeHead (event : LedgerEvent) : LedgerCall Unit := act fun e s =>
  .ok ((), { s with storage := s.storage.writeHead e.platform event })

/-- The cache assignments at the end of `append`. -/
def keepCache (handle : Nat) (existing : List LedgerEvent) (integrity : LedgerIntegrity)
    (event : LedgerEvent) : LedgerCall Unit := act fun _ s =>
  .ok ((), s.cached handle
    { cacheAfter existing integrity event s.storage with signature := s.signature })

/-- What an append does once its record is written. -/
def conclude (handle : Nat) (existing : List LedgerEvent) (integrity : LedgerIntegrity)
    (event : LedgerEvent) : LedgerCall Unit := do
  sync
  writeHead event
  keepCache handle existing integrity event

/-- `append`, from the lock on. -/
def append (handle : Nat) (request : AppendRequest) : LedgerCall LedgerEvent := do
  let (existing, integrity, drawn, event) ← prepare handle request
  openAppend
  writeRecord event drawn.stamp
  conclude handle existing integrity event
  return event

/-! ### What the records are -/

/-- One chain of events, numbered from one, each under an identifier of its own. -/
structure Chain (P : Platform) (events : List LedgerEvent) : Prop where
  chained : Chained (fun event => event.previousFingerprint) (fun event => event.fingerprint)
    GENESIS_FINGERPRINT events
  numbered : ∀ i (h : i < events.length), events[i].sequence = i + 1
  fingerprint : ∀ event ∈ events, event.fingerprint = eventFingerprint P event.toUnsignedEvent
  distinct : (events.map fun event => event.eventId).Nodup

variable {P : Platform} {L : LedgerIdentity} {events returned : List LedgerEvent}
  {event : LedgerEvent}

theorem chain_nil : Chain P [] where
  chained := .nil
  numbered i h := by simp at h
  fingerprint := by simp
  distinct := by simp

theorem Chain.snoc (h : Chain P events) (hbuilt : Built P L events event)
    (hfresh : event.eventId ∉ events.map fun event => event.eventId) :
    Chain P (events ++ [event]) where
  chained := h.chained.snoc hbuilt.chain
  numbered i hi := by
    rw [List.length_append, List.length_singleton] at hi
    by_cases hlast : i = events.length
    · subst hlast
      rw [List.getElem_concat_length rfl]
      exact hbuilt.sequence
    · have hbefore : i < events.length := by omega
      rw [List.getElem_append_left hbefore]
      exact h.numbered i hbefore
  fingerprint other hother := by
    rcases List.mem_append.mp hother with hother | hother
    · exact h.fingerprint other hother
    · rw [List.mem_singleton.mp hother]
      exact hbuilt.fingerprint
  distinct := by
    rw [List.map_append, List.map_singleton, List.nodup_append]
    refine ⟨h.distinct, by simp, fun id hid other hother => ?_⟩
    rw [List.mem_singleton.mp hother]
    rintro rfl
    exact hfresh hid

/-- An event of a chain stands in it once. -/
theorem Chain.count_eq_one (h : Chain P events) (hmem : event ∈ events) :
    events.count event = 1 :=
  List.count_eq_one_of_mem h.distinct.of_map hmem

/-! ### What every call keeps -/

/-- A cache that describes a prefix of the ledger by the signature the file then had. -/
structure Cached (events : List LedgerEvent) (cache : AppendCache) : Prop where
  isPrefix : cache.events <+: events
  absent : cache.signature = none → cache.events = []
  size : ∀ size stamp, cache.signature = some (size, stamp) →
    size = fileSize (cache.events.map LedgerEvent.toObject)
  sequence : cache.integrity.sequence = cache.events.length
  fingerprint : cache.integrity.fingerprint = tailFingerprint cache.events

/-- The file is a chain that holds the events returned so far, in their order, and perhaps
    bytes of a torn record. -/
structure Serial (P : Platform) (returned events : List LedgerEvent) (torn : Nat)
    (s : SharedLedger) : Prop where
  records : s.storage.records = events.map LedgerEvent.toObject
  cut : s.torn = torn
  absent : s.created = false → events = [] ∧ torn = 0
  chain : Chain P events
  caches : ∀ handle, ∀ cache ∈ s.caches handle, Cached events cache
  returned : returned.Sublist events

variable {s t : SharedLedger} {e : LedgerEnvironment} {handle : Nat} {cache : AppendCache}
  {request : AppendRequest} {torn : Nat}

theorem serial_empty : Serial P [] [] 0 empty where
  records := rfl
  cut := rfl
  absent _ := ⟨rfl, rfl⟩
  chain := chain_nil
  caches := by simp [empty]
  returned := List.Sublist.slnil

theorem Cached.mono (h : Cached events cache) (event : LedgerEvent) :
    Cached (events ++ [event]) cache :=
  { h with isPrefix := h.isPrefix.trans (List.prefix_append _ _) }

theorem Serial.frame (h : Serial P returned events torn s)
    (hrecords : t.storage.records = s.storage.records) (htorn : t.torn = s.torn)
    (habsent : t.created = false → s.created = false) (hcaches : t.caches = s.caches) : Serial P returned events torn t where
  records := hrecords.trans h.records
  cut := htorn.trans h.cut
  absent ht := h.absent (habsent ht)
  chain := h.chain
  caches := hcaches ▸ h.caches
  returned := h.returned

theorem Serial.tick (h : Serial P returned events torn s) : Serial P returned events torn s.tick :=
  h.frame rfl rfl id rfl

theorem Serial.cached (h : Serial P returned events torn s) (hcache : Cached events cache) :
    Serial P returned events torn (s.cached handle cache) where
  records := h.records
  cut := h.cut
  absent := h.absent
  chain := h.chain
  caches other found hfound := by
    change found ∈ Function.update s.caches handle (some cache) other at hfound
    by_cases hother : other = handle
    · rw [hother, Function.update_self, Option.mem_some_iff] at hfound
      exact hfound ▸ hcache
    · rw [Function.update_of_ne hother] at hfound
      exact h.caches other found hfound
  returned := h.returned

/-- A cache whose signature is that of the file holds all the events of the file, and the
    file ends in no torn record. -/
theorem Serial.hit (h : Serial P returned events torn s) (hcache : cache ∈ s.caches handle)
    (hsignature : cache.signature = s.signature) : cache.events = events ∧
    torn = 0 := by
  have hcached := h.caches handle cache hcache
  cases hcreated : s.created with
  | false =>
      rw [signature, hcreated] at hsignature
      obtain ⟨hevents, htorn⟩ := h.absent hcreated
      rw [hcached.absent hsignature, hevents]
      exact ⟨rfl, htorn⟩
  | true =>
      rw [signature, if_pos hcreated, h.records, h.cut] at hsignature
      have hsize := hcached.size _ _ hsignature
      obtain ⟨later, hlater⟩ := hcached.isPrefix
      have hall : fileSize (events.map LedgerEvent.toObject) =
          fileSize (cache.events.map LedgerEvent.toObject) +
            fileSize (later.map LedgerEvent.toObject) := by
        rw [← fileSize_append, ← List.map_append, hlater]
      have hnone : later.map LedgerEvent.toObject = [] := eq_nil_of_fileSize (by omega)
      rw [List.map_eq_nil_iff.mp hnone, List.append_nil] at hlater
      exact ⟨hlater, by omega⟩

/-! ### The parts of a call -/

theorem returns_act {f : LedgerEnvironment → SharedLedger → Result (α × SharedLedger)}
    {value : α} : (act f).Returns e s value t ↔
      e.fault s.clock = .none ∧ ∃ u, f e s = .ok (value, u) ∧ t = u.tick :=
  Call.returns_attempt

theorem returns_look {f : LedgerEnvironment → SharedLedger → Result α} {value : α} :
    (look f).Returns e s value t ↔ e.fault s.clock = .none ∧ f e s = .ok value ∧ t = s.tick := by
  rw [look, returns_act]
  cases f e s with
  | error failure => simp [Except.map]
  | ok found => simp [Except.map, eq_comm, and_assoc]

theorem Serial.act {f : LedgerEnvironment → SharedLedger → Result (α × SharedLedger)}
    (h : Serial P returned events torn s)
    (hdone : ∀ value t, f e s = .ok (value, t) → Serial P returned events torn t) :
    (act f).Ends e s (Serial P returned events torn) :=
  Call.ends_attempt h.tick fun value t hf => (hdone value t hf).tick

theorem Serial.look (h : Serial P returned events torn s)
    (f : LedgerEnvironment → SharedLedger → Result α) :
    (look f).Ends e s (Serial P returned events torn) := by
  refine h.act fun value t hf => ?_
  cases hfound : f e s with
  | error failure => simp [hfound, Except.map] at hf
  | ok found =>
      simp only [hfound, Except.map, Except.ok.injEq, Prod.mk.injEq] at hf
      exact hf.2 ▸ h

theorem Serial.verifyHead (h : Serial P returned events torn s) (checked : List LedgerEvent) :
    (verifyHead checked).Ends e s (Serial P returned events torn) := by
  refine h.act fun value t hf => ?_
  simp only [bind_eq_ok, pure, Except.pure, Except.ok.injEq, Prod.mk.injEq] at hf
  obtain ⟨storage, hverify, -, rfl⟩ := hf
  exact h.frame (verifyHead_frame hverify) rfl id rfl

/-- The full check accepts nothing but the events of the file, of which it reports the
    length and the tail. -/
theorem Serial.validate_eq (h : Serial P returned events torn s) {records : List Object}
    {found : LedgerIntegrity × List LedgerEvent} {u u' : SharedLedger}
    (hdecode : decode.Returns e s records t)
    (hvalidate : (validate records).Returns e u found u') :
    found.2 = events ∧ found.1.sequence = events.length ∧
      found.1.fingerprint = tailFingerprint events ∧ torn = 0 := by
  obtain ⟨-, hdecode, -⟩ := returns_look.mp hdecode
  simp only [bind_eq_ok, require_eq_ok, exists_const, pure, Except.pure,
    Except.ok.injEq] at hdecode
  obtain ⟨htorn, rfl⟩ := hdecode
  obtain ⟨hvalid, -⟩ := Call.returns_reads.mp hvalidate
  obtain ⟨hrecords, -, hsequence, hfingerprint⟩ := validate_eq_ok hvalid
  have hevents : found.2 = events := by
    refine List.map_injective_iff.mpr LedgerEvent.toObject_injective ?_
    rw [← hrecords, h.records]
  rw [hevents] at hsequence hfingerprint
  exact ⟨hevents, hsequence, hfingerprint, h.cut.symm.trans htorn⟩

theorem Serial.cached_read {integrity : LedgerIntegrity} (h : Serial P returned events 0 s)
    (hsequence : integrity.sequence = events.length)
    (hfingerprint : integrity.fingerprint = tailFingerprint events) :
    Cached events ⟨s.signature, events, integrity⟩ where
  isPrefix := List.prefix_rfl
  absent hnone := by
    cases hcreated : s.created with
    | false => exact (h.absent hcreated).1
    | true => simp [signature, hcreated] at hnone
  size size stamp hsome := by
    cases hcreated : s.created with
    | false => simp [signature, hcreated] at hsome
    | true =>
        simp only [signature, hcreated, if_true, Option.some.injEq, Prod.mk.injEq] at hsome
        rw [← hsome.1, h.cut, h.records, Nat.add_zero]
  sequence := hsequence
  fingerprint := hfingerprint

theorem Serial.read (h : Serial P returned events torn s) :
    SharedLedger.read.Ends e s (Serial P returned events torn) := by
  unfold SharedLedger.read
  refine Call.Ends.bind (h.look _) fun _ _ hlock => ?_
  have h := (h.look _).of_returns hlock
  refine Call.Ends.bind (h.look _) fun records _ hdecode => ?_
  have h := (h.look _).of_returns hdecode
  refine Call.Ends.bind (Call.ends_reads h) fun found _ hvalidate => ?_
  have h := (Call.ends_reads h).of_returns hvalidate
  refine Call.Ends.bind (h.verifyHead _) fun _ _ hverify => ?_
  have h := (h.verifyHead _).of_returns hverify
  exact Call.ends_pure h

/-- What the events an append goes on from are. -/
structure Existing (events : List LedgerEvent) (torn : Nat)
    (found : List LedgerEvent × LedgerIntegrity) : Prop where
  isEvents : found.1 = events
  sequence : found.2.sequence = events.length
  fingerprint : found.2.fingerprint = tailFingerprint events
  whole : torn = 0

theorem Serial.readUncached (h : Serial P returned events torn s) :
    (readUncached handle s.signature).Ends e s (Serial P returned events torn) ∧
      ∀ found t, (SharedLedger.readUncached handle s.signature).Returns e s found t →
        Existing events torn found := by
  unfold SharedLedger.readUncached
  constructor
  · refine Call.Ends.bind (h.look _) fun records u hdecode => ?_
    have hu := (h.look _).of_returns hdecode
    refine Call.Ends.bind (Call.ends_reads hu) fun found v hvalidate => ?_
    have hv := (Call.ends_reads hu).of_returns hvalidate
    obtain ⟨hevents, hsequence, hfingerprint, htorn⟩ := h.validate_eq hdecode hvalidate
    refine Call.Ends.bind (hv.verifyHead _) fun _ w hverify => ?_
    have hw := (hv.verifyHead _).of_returns hverify
    have hcached : Cached events ⟨s.signature, found.2, found.1⟩ := by
      subst htorn
      rw [hevents]
      exact h.cached_read hsequence hfingerprint
    refine Call.Ends.bind (Call.ends_update hw fun _ x hx => ?_) fun _ x hx => ?_
    · simp only [Except.ok.injEq, Prod.mk.injEq] at hx
      exact hx.2 ▸ hw.cached hcached
    · rw [Call.returns_update] at hx
      simp only [Except.ok.injEq, Prod.mk.injEq] at hx
      exact Call.ends_pure (hx.2 ▸ hw.cached hcached)
  · intro found t hreturns
    obtain ⟨records, u, hdecode, hreturns⟩ := Call.returns_bind.mp hreturns
    obtain ⟨valid, v, hvalidate, hreturns⟩ := Call.returns_bind.mp hreturns
    obtain ⟨_, w, -, hreturns⟩ := Call.returns_bind.mp hreturns
    obtain ⟨_, x, -, hreturns⟩ := Call.returns_bind.mp hreturns
    obtain ⟨rfl, -⟩ := Call.returns_pure.mp hreturns
    obtain ⟨hevents, hsequence, hfingerprint, htorn⟩ := h.validate_eq hdecode hvalidate
    exact ⟨hevents, hsequence, hfingerprint, htorn⟩

theorem Serial.readForAppend (h : Serial P returned events torn s) :
    (readForAppend handle).Ends e s (Serial P returned events torn) ∧
      ∀ found t, (SharedLedger.readForAppend handle).Returns e s found t →
        Existing events torn found := by
  unfold SharedLedger.readForAppend
  constructor
  · refine Call.Ends.bind (h.look _) fun signature u hsignature => ?_
    have hu := (h.look _).of_returns hsignature
    obtain ⟨-, hread, rfl⟩ := returns_look.mp hsignature
    cases hread
    refine Call.Ends.bind (Call.ends_reads hu) fun cache v hcache => ?_
    obtain ⟨-, rfl⟩ := Call.returns_reads.mp hcache
    split
    · exact Call.ends_pure hu
    · exact hu.readUncached.1
  · intro found t hreturns
    obtain ⟨signature, u, hsignature, hreturns⟩ := Call.returns_bind.mp hreturns
    have hu := (h.look _).of_returns hsignature
    obtain ⟨-, hread, rfl⟩ := returns_look.mp hsignature
    cases hread
    obtain ⟨cache, v, hcache, hreturns⟩ := Call.returns_bind.mp hreturns
    obtain ⟨hread, rfl⟩ := Call.returns_reads.mp hcache
    cases hread
    split at hreturns
    · rename_i hit hfilter
      obtain ⟨hmem, hsignature⟩ := Option.filter_eq_some_iff.mp hfilter
      obtain ⟨rfl, -⟩ := Call.returns_pure.mp hreturns
      obtain ⟨hevents, htorn⟩ := h.hit hmem (by simpa using hsignature)
      have hcached := h.caches handle hit hmem
      exact ⟨hevents, hevents ▸ hcached.sequence, hevents ▸ hcached.fingerprint, htorn⟩
    · exact hu.readUncached.2 found t hreturns

/-- The event that an append is about to write goes on from the events of the file. -/
structure Prepared (P : Platform) (L : LedgerIdentity) (events : List LedgerEvent) (torn : Nat)
    (existing : List LedgerEvent) (integrity : LedgerIntegrity) (event : LedgerEvent) : Prop where
  isExisting : Existing events torn (existing, integrity)
  built : Built P L events event
  fresh : event.eventId ∉ events.map fun event => event.eventId

theorem Serial.prepare (h : Serial P returned events torn s) :
    (prepare handle request).Ends e s (Serial P returned events torn) ∧
      ∀ existing integrity drawn event t,
        (SharedLedger.prepare handle request).Returns e s (existing, integrity, drawn, event) t →
          Prepared e.platform e.identity events torn existing integrity event := by
  unfold SharedLedger.prepare
  constructor
  · refine Call.Ends.bind (h.look _) fun _ u hlock => ?_
    have hu := (h.look _).of_returns hlock
    refine Call.Ends.bind hu.readForAppend.1 fun found v hfound => ?_
    have hv := hu.readForAppend.1.of_returns hfound
    refine Call.Ends.bind (Call.ends_reads hv) fun built w hbuilt => ?_
    obtain ⟨-, rfl⟩ := Call.returns_reads.mp hbuilt
    refine Call.Ends.bind (Call.ends_reads hv) fun _ x hadmitted => ?_
    obtain ⟨-, rfl⟩ := Call.returns_reads.mp hadmitted
    exact Call.ends_pure hv
  · intro existing integrity drawn event t hreturns
    simp only [Call.returns_bind, Call.returns_reads, Call.returns_pure, Prod.exists,
      Prod.mk.injEq, Except.ok.injEq] at hreturns
    obtain ⟨_, u, hlock, found, integrity', v, hfound, drawn', event', w, ⟨⟨rfl, rfl⟩, rfl⟩, _, x,
      ⟨hadmitted, -⟩, ⟨rfl, rfl, rfl, rfl⟩, -⟩ := hreturns
    have hexisting := ((h.look _).of_returns hlock).readForAppend.2 _ _ hfound
    refine ⟨hexisting, newEvent_built hexisting.sequence hexisting.fingerprint, ?_⟩
    rw [← hexisting.isEvents]
    exact (validateAppend_eq_ok.mp hadmitted).fresh

/-- Every write takes all the bytes it is given. -/
def WritesWhole (e : LedgerEnvironment) : Prop := ∀ time, e.accepted time = none

/-- Whatever else happened, the file is a chain that holds what was returned, and nothing
    else unless a write was cut short. -/
def Stands (e : LedgerEnvironment) (returned : List LedgerEvent) (s : SharedLedger) : Prop :=
  ∃ events torn, Serial e.platform returned events torn s ∧ (WritesWhole e → torn = 0)

/-- A line that was taken whole is one more event; a line that was cut short is none. -/
theorem Serial.written (h : Serial P returned events 0 s) (hcreated : s.created = true)
    (hbuilt : Built P L events event) (hfresh : event.eventId ∉ events.map fun event => event.eventId)
    (stamp bytes : Nat) :
    (lineSize event ≤ bytes → Serial P (returned ++ [event]) (events ++ [event]) 0
        (s.written event stamp bytes)) ∧
      (bytes < lineSize event → Serial P returned events bytes (s.written event stamp bytes)) := by
  constructor
  · intro hwhole
    rw [SharedLedger.written, if_pos ⟨h.cut, hwhole⟩]
    refine ⟨?_, h.cut, fun hnot => ?_, h.chain.snoc hbuilt hfresh, fun other found hfound => ?_,
      h.returned.append (List.Sublist.refl _)⟩
    · simp only [Storage.writeRecord, h.records, List.map_append, List.map_singleton]
    · exact absurd (hcreated.symm.trans hnot) (by decide)
    · exact (h.caches other found hfound).mono event
  · intro hshort
    rw [SharedLedger.written, if_neg (by omega)]
    refine ⟨h.records, by simp [h.cut], fun hnot => ?_, h.chain, h.caches, h.returned⟩
    exact absurd (hcreated.symm.trans hnot) (by decide)

theorem Serial.forget {value : LedgerEvent} (h : Serial P (returned ++ [value]) events torn s) :
    Serial P returned events torn s :=
  { h with returned := (List.sublist_append_left _ _).trans h.returned }

theorem Serial.writeRecord_returned {stamp : Nat} {u : Unit}
    (h : Serial P returned events 0 s) (hcreated : s.created = true)
    (hbuilt : Built P L events event)
    (hfresh : event.eventId ∉ events.map fun event => event.eventId)
    (hreturns : (writeRecord event stamp).Returns e s u t) :
    Serial P (returned ++ [event]) (events ++ [event]) 0 t := by
  simp only [writeRecord, Call.returns_bind, Call.returns_check, returns_act, Except.ok.injEq,
    Prod.mk.injEq] at hreturns
  obtain ⟨bytes, w, ⟨-, wrote, ⟨hbytes, rfl⟩, rfl⟩, hwhole, rfl⟩ := hreturns
  exact ((h.written hcreated hbuilt hfresh stamp _).1 (hbytes.trans hwhole).ge).tick

theorem Serial.writeRecord_ends {stamp : Nat} (h : Serial e.platform returned events 0 s)
    (hcreated : s.created = true) (hbuilt : Built e.platform L events event)
    (hfresh : event.eventId ∉ events.map fun event => event.eventId) :
    (writeRecord event stamp).Ends e s (Stands e returned) := by
  obtain ⟨hwhole, hshort⟩ := h.written hcreated hbuilt hfresh stamp (s.taken e event)
  have hwritten : Stands e returned (s.written event stamp (s.taken e event)).tick := by
    rcases Nat.lt_or_ge (s.taken e event) (lineSize event) with hlt | hge
    · refine ⟨_, _, (hshort hlt).tick, fun hwrites => ?_⟩
      simp [taken, hwrites s.clock] at hlt
    · exact ⟨_, _, (hwhole hge).tick.forget, fun _ => rfl⟩
  refine Call.Ends.bind (Call.ends_attempt ⟨_, _, h.tick, fun _ => rfl⟩ fun _ t ht => ?_)
    fun _ t ht => ?_
  · simp only [Except.ok.injEq, Prod.mk.injEq] at ht
    exact ht.2 ▸ hwritten
  · obtain ⟨-, wrote, hwrote, rfl⟩ := returns_act.mp ht
    simp only [Except.ok.injEq, Prod.mk.injEq] at hwrote
    exact Call.ends_check (hwrote.2 ▸ hwritten)

theorem Serial.conclude {integrity : LedgerIntegrity} {existing : List LedgerEvent}
    (h : Serial P returned (events ++ [event]) 0 s) (hexisting : existing = events)
    (hsequence : event.sequence = events.length + 1) :
    (conclude handle existing integrity event).Ends e s
      (Serial P returned (events ++ [event]) 0) := by
  unfold SharedLedger.conclude
  refine Call.Ends.bind (h.look _) fun _ u hsync => ?_
  have hu := (h.look _).of_returns hsync
  have hhead : (writeHead event).Ends e u (Serial P returned (events ++ [event]) 0) := by
    refine hu.act fun _ v hv => ?_
    simp only [Except.ok.injEq, Prod.mk.injEq] at hv
    exact hv.2 ▸ hu.frame rfl rfl id rfl
  refine Call.Ends.bind hhead fun _ v hv => ?_
  have hv := hhead.of_returns hv
  refine hv.act fun _ w hw => ?_
  simp only [Except.ok.injEq, Prod.mk.injEq] at hw
  rw [← hw.2]
  apply hv.cached
  subst hexisting
  refine hv.cached_read ?_ ?_
  · rw [List.length_append, List.length_singleton]
    exact hsequence
  · rw [tailFingerprint_snoc]
    rfl

/-- An append that returned left its event as the last of the chain. -/
theorem Serial.append_returned {value : LedgerEvent}
    (h : Serial e.platform returned events torn s)
    (hreturns : (append handle request).Returns e s value t) :
    Stands e (returned ++ [value]) t := by
  simp only [SharedLedger.append, openAppend, Call.returns_bind, Call.returns_pure, Prod.exists,
    returns_act, Except.ok.injEq, Prod.mk.injEq] at hreturns
  obtain ⟨existing, integrity, drawn, event, u, hprepare, _, v, ⟨-, opened, ⟨-, rfl⟩, rfl⟩, _, w,
    hwrite, _, x, hconclude, rfl, rfl⟩ := hreturns
  have hu := h.prepare.1.of_returns hprepare
  obtain ⟨hexisting, hbuilt, hfresh⟩ := h.prepare.2 _ _ _ _ _ hprepare
  obtain rfl := hexisting.whole
  have hopened : Serial e.platform returned events 0 { u with created := true } :=
    hu.frame rfl rfl (fun hnot => absurd hnot (by simp)) rfl
  have hwritten := hopened.tick.writeRecord_returned rfl hbuilt hfresh hwrite
  have hafter := (hwritten.conclude hexisting.isEvents hbuilt.sequence).of_returns hconclude
  exact ⟨_, _, hafter, fun _ => rfl⟩

/-- An append that raised, or whose process died, left a chain as well: its event is the
    last of it or is not in it. -/
theorem Serial.append_ends (h : Serial e.platform returned events torn s)
    (hcut : WritesWhole e → torn = 0) :
    (append handle request).Ends e s (Stands e returned) := by
  unfold SharedLedger.append
  have hprepare : (SharedLedger.prepare handle request).Ends e s (Stands e returned) :=
    ⟨events, torn, h.prepare.1, hcut⟩
  refine Call.Ends.bind hprepare ?_
  rintro ⟨existing, integrity, drawn, event⟩ u hprepared
  have hu := h.prepare.1.of_returns hprepared
  obtain ⟨hexisting, hbuilt, hfresh⟩ := h.prepare.2 _ _ _ _ _ hprepared
  obtain rfl := hexisting.whole
  have hopened : Serial e.platform returned events 0 { u with created := true } :=
    hu.frame rfl rfl (fun hnot => absurd hnot (by simp)) rfl
  have hopen : openAppend.Ends e u (Stands e returned) := by
    refine Call.ends_attempt ⟨_, _, hu.tick, hcut⟩ fun _ v hv => ?_
    simp only [Except.ok.injEq, Prod.mk.injEq] at hv
    exact hv.2 ▸ ⟨_, _, hopened.tick, hcut⟩
  refine Call.Ends.bind hopen fun _ v hv => ?_
  obtain ⟨-, opened, hdone, rfl⟩ := returns_act.mp hv
  simp only [Except.ok.injEq, Prod.mk.injEq, true_and] at hdone
  subst hdone
  refine Call.Ends.bind (hopened.tick.writeRecord_ends rfl hbuilt hfresh) fun _ w hw => ?_
  have hwritten := hopened.tick.writeRecord_returned rfl hbuilt hfresh hw
  have hconclude : (SharedLedger.conclude handle existing integrity event).Ends e w _ :=
    hwritten.conclude hexisting.isEvents hbuilt.sequence
  have hstands : (SharedLedger.conclude handle existing integrity event).Ends e w
      (Stands e returned) :=
    ⟨_, _, hconclude.forget, hcut⟩
  refine Call.Ends.bind hstands fun _ x hx => ?_
  exact Call.ends_pure ⟨_, _, (hconclude.of_returns hx).forget, hcut⟩

/-! ### Runs -/

/-- The calls on the ledger in the order of the lock, from an absent ledger file, with the
    events of the appends that returned. -/
inductive Run (e : LedgerEnvironment) : List LedgerEvent → SharedLedger → Prop where
  | empty : Run e [] empty
  | appendReturned {returned : List LedgerEvent} {s t : SharedLedger} {event : LedgerEvent}
      (prior : Run e returned s) (handle : Nat) (request : AppendRequest)
      (call : append handle request e s = (.returned event, t)) :
      Run e (returned ++ [event]) t
  | appendRaised {returned : List LedgerEvent} {s t : SharedLedger} {failure : Failure}
      (prior : Run e returned s) (handle : Nat) (request : AppendRequest)
      (call : append handle request e s = (.raised failure, t)) : Run e returned t
  | appendDied {returned : List LedgerEvent} {s t : SharedLedger}
      (prior : Run e returned s) (handle : Nat) (request : AppendRequest)
      (call : append handle request e s = (.died, t)) : Run e returned t
  | read {returned : List LedgerEvent} {s : SharedLedger} (prior : Run e returned s) :
      Run e returned (SharedLedger.read e s).2

theorem Run.stands (h : Run e returned s) : Stands e returned s := by
  induction h with
  | empty => exact ⟨[], 0, serial_empty, fun _ => rfl⟩
  | appendReturned prior handle request call ih =>
      obtain ⟨events, torn, hserial, hcut⟩ := ih
      exact hserial.append_returned call
  | appendRaised prior handle request call ih =>
      obtain ⟨events, torn, hserial, hcut⟩ := ih
      have hends : (append handle request).Ends e _ _ := hserial.append_ends hcut
      rwa [Call.Ends, call] at hends
  | appendDied prior handle request call ih =>
      obtain ⟨events, torn, hserial, hcut⟩ := ih
      have hends : (append handle request).Ends e _ _ := hserial.append_ends hcut
      rwa [Call.Ends, call] at hends
  | read prior ih =>
      obtain ⟨events, torn, hserial, hcut⟩ := ih
      exact ⟨events, torn, hserial.read, hcut⟩

/-- Whatever calls failed where, the records of the file are one numbered chain, in which
    every event that an append returned stands exactly once, in the order of the lock; and
    unless the system cut a write short, the file holds nothing but these records. -/
theorem appends_serialize (h : Run e returned s) :
    ∃ events : List LedgerEvent, s.storage.records = events.map LedgerEvent.toObject ∧
      Chain e.platform events ∧ returned.Sublist events ∧
      (∀ event ∈ returned, events.count event = 1) ∧ (WritesWhole e → s.torn = 0) := by
  obtain ⟨events, torn, hserial, hcut⟩ := h.stands
  refine ⟨events, hserial.records, hserial.chain, hserial.returned, fun event hevent => ?_,
    fun hwrites => hserial.cut.trans (hcut hwrites)⟩
  exact hserial.chain.count_eq_one (hserial.returned.subset hevent)

/-- An environment in which nothing fails. -/
def sampleEnvironment (P : Platform) : LedgerEnvironment where
  platform := P
  identity := sampleIdentity
  drawn _ := sampleDrawn "event-1" sampleId_ne
  accepted _ := none
  fault _ := .none

theorem sampleStart_returns (P : Platform) :
    ∃ t, (append 0 sampleStart).Returns (sampleEnvironment P) empty (sampleStarted P) t := by
  have hvalid : Conveyor.validate P sampleIdentity [] =
      .ok (⟨0, GENESIS_FINGERPRINT, 0, 0⟩, []) := rfl
  have hadmitted := validateAppend_eq_ok.mpr (sampleStarted_admitted (P := P))
  have huncached : ∃ t, (readUncached 0 none).Returns (sampleEnvironment P) empty.tick.tick
      ([], ⟨0, GENESIS_FINGERPRINT, 0, 0⟩) t :=
    ⟨_, Call.returns_bind.mpr ⟨_, _, returns_look.mpr ⟨rfl, rfl, rfl⟩,
      Call.returns_bind.mpr ⟨_, _, Call.returns_reads.mpr ⟨hvalid, rfl⟩,
      Call.returns_bind.mpr ⟨_, _, returns_act.mpr ⟨rfl, _, rfl, rfl⟩,
      Call.returns_bind.mpr ⟨_, _, Call.returns_update.mpr rfl,
      Call.returns_pure.mpr ⟨rfl, rfl⟩⟩⟩⟩⟩⟩
  have hread : ∃ t, (readForAppend 0).Returns (sampleEnvironment P) empty.tick
      ([], ⟨0, GENESIS_FINGERPRINT, 0, 0⟩) t := by
    obtain ⟨t, huncached⟩ := huncached
    exact ⟨t, Call.returns_bind.mpr ⟨_, _, returns_look.mpr ⟨rfl, rfl, rfl⟩,
      Call.returns_bind.mpr ⟨_, _, Call.returns_reads.mpr ⟨rfl, rfl⟩, huncached⟩⟩⟩
  have hprepare : ∃ t drawn, (prepare 0 sampleStart).Returns (sampleEnvironment P) empty
      ([], ⟨0, GENESIS_FINGERPRINT, 0, 0⟩, drawn, sampleStarted P) t := by
    obtain ⟨t, hread⟩ := hread
    exact ⟨t, _, Call.returns_bind.mpr ⟨_, _, returns_look.mpr ⟨rfl, rfl, rfl⟩,
      Call.returns_bind.mpr ⟨_, _, hread,
      Call.returns_bind.mpr ⟨_, _, Call.returns_reads.mpr ⟨rfl, rfl⟩,
      Call.returns_bind.mpr ⟨_, _, Call.returns_reads.mpr ⟨hadmitted, rfl⟩,
      Call.returns_pure.mpr ⟨rfl, rfl⟩⟩⟩⟩⟩⟩
  obtain ⟨t, drawn, hprepare⟩ := hprepare
  have hwrite (s : SharedLedger) : ∃ u, (writeRecord (sampleStarted P) drawn.stamp).Returns
      (sampleEnvironment P) s () u :=
    ⟨_, Call.returns_bind.mpr ⟨_, _, returns_act.mpr ⟨rfl, _, rfl, rfl⟩,
      Call.returns_check.mpr ⟨Nat.min_self _, rfl⟩⟩⟩
  have hconclude (s : SharedLedger) : ∃ u, (conclude 0 [] ⟨0, GENESIS_FINGERPRINT, 0, 0⟩
      (sampleStarted P)).Returns (sampleEnvironment P) s () u :=
    ⟨_, Call.returns_bind.mpr ⟨_, _, returns_look.mpr ⟨rfl, rfl, rfl⟩,
      Call.returns_bind.mpr ⟨_, _, returns_act.mpr ⟨rfl, _, rfl, rfl⟩,
      returns_act.mpr ⟨rfl, _, rfl, rfl⟩⟩⟩⟩
  obtain ⟨u, hwrite⟩ := hwrite (SharedLedger.tick { t with created := true })
  obtain ⟨v, hconclude⟩ := hconclude u
  exact ⟨v, Call.returns_bind.mpr ⟨_, _, hprepare,
    Call.returns_bind.mpr ⟨_, _, returns_act.mpr ⟨rfl, _, rfl, rfl⟩,
    Call.returns_bind.mpr ⟨_, _, hwrite,
    Call.returns_bind.mpr ⟨_, _, hconclude, Call.returns_pure.mpr ⟨rfl, rfl⟩⟩⟩⟩⟩⟩

theorem appends_serialize_started :
    ∃ (s : SharedLedger) (events : List LedgerEvent), s.storage.records = events.map LedgerEvent.toObject ∧
      Chain Platform.reference events ∧
      [sampleStarted Platform.reference].Sublist events ∧
      (∀ event ∈ [sampleStarted Platform.reference], events.count event = 1) ∧
      (WritesWhole (sampleEnvironment Platform.reference) → s.torn = 0) := by
  obtain ⟨t, hreturns⟩ := sampleStart_returns Platform.reference
  exact ⟨t, appends_serialize (.appendReturned .empty 0 sampleStart hreturns)⟩

end SharedLedger

end Conveyor
