import Conveyor.LedgerEntries
import Conveyor.LegacyAdapter

/-!
# Undisturbed transitions

A transition of the legacy adapter that no fault and no other process disturbs, on a ledger given
by its entries: it returns, and what it leaves is given by the nine entries of its transaction.
-/

namespace Conveyor

open Library EventType KernelCall

/-- Nothing fails, and every moment is the moment at which the entries of a ledger are written. -/
structure Undisturbed (e : Environment) : Prop where
  fault : ∀ time, e.fault time = .none
  path : ∀ time path, e.pathProblem time path = none
  stamp : ∀ time, (e.drawn time).utcNow = "2026-01-01T00:00:00+00:00"
  identity : IdentityOk e.identity
  resolved : e.site.resolve (e.site.resolve e.site.confinementRoot) =
    e.site.resolve e.site.confinementRoot

/-- An append that passes its checks. -/
theorem appendLedger_returns {e : Environment} {w : World} {request : AppendRequest}
    (hfault : e.fault w.clock = .none) (hchecked : checkUncached e w = .ok ())
    (hadmitted : validateAppend w.events (builtEvent e w request) = .ok ()) :
    (appendLedger request).Returns e w () (w.push (builtEvent e w request)).tick := by
  refine returns_act.mpr ⟨hfault, w.push (builtEvent e w request), ?_, rfl⟩
  simp only [bind_eq_ok, pure, Except.pure]
  exact ⟨(), hchecked, (), hadmitted, trivial⟩

namespace LegacyAdapter

/-! ### The entries of a transaction -/

variable (e : Environment) (s : AdapterWorld) (request : Request) (transactionId : String)

/-- The entry of an event that the attempt at this time records. -/
def entryAt (time : Nat) (kind : EventType) (payload : Fields) : LedgerEntry :=
  ⟨(e.drawn time).uuid4, kind, transactionId, request.workflow, redactFields e.platform payload⟩

def currentBranch : String := givenOr s.world.repository.branch "DETACHED"

/-- The lease that the attempt at this time acquires. -/
def leaseAt (time : Nat) : WorkflowLeaseRecord where
  leaseId := (e.drawn time).uuid4
  leaseType := WORKFLOW_LEASE request.workflow
  repositoryIdentity := e.identity.repositoryIdentity
  repositoryPathFingerprint := e.identity.repositoryPathFingerprint
  repositoryPath := e.site.resolve e.site.confinementRoot
  projectId := e.project.projectId
  controllerProjectId := none
  adapterProjectId := none
  transactionId := transactionId
  workflowType := request.workflow
  milestone := request.milestone
  featureId := request.featureId
  featureBranch := none
  acceptedCommit := none
  startingBranch := currentBranch s
  startingHead := s.world.repository.head
  runId := request.runId
  sessionId := none
  ownerPid := e.process.pid
  ownerProcessStart := e.process.start
  ownerHost := e.process.host
  createdAt := (e.drawn time).utcNow
  lastHeartbeat := (e.drawn time).utcNow
  allowedMutations := emptyPolicy.toFields

/-- The snapshot taken from this time on. -/
def snapshotAt (time : Nat) : Fields :=
  let listed := (s.world.repository.untrackedPaths (e.ignored (time + 1))
    (e.worktree (time + 1))).filter fun path => !Repository.isRuntimePath path
  snapshotPayload e.identity (currentBranch s) s.world.repository.head
    (e.platform.hexdigest (e.git.diff s.world.repository.headTree
      (s.world.repository.trackedWorktree (e.worktree time))))
    ((Inspector.contentsAt e (time + 1) listed).map fun entry =>
      (entry.1, e.platform.hexdigest (entry.2.getD [])))
    (e.gitOperations (time + 2))

/-- The entries up to `ValidationPassed` of a transition that begins at this time. -/
def preparedEntries (time : Nat) : List LedgerEntry :=
  [entryAt e request transactionId (time + 3) transactionStarted
     (startedPayload request (currentBranch s) s.world.repository.head),
   entryAt e request transactionId (time + 5) leaseAcquired
     (leasePayload (leaseAt e s request transactionId (time + 4))),
   entryAt e request transactionId (time + 9) snapshotCaptured (snapshotAt e s (time + 6)),
   entryAt e request transactionId (time + 10) validationStarted (validationPayload request),
   entryAt e request transactionId (time + 11) validationPassed passedPayload]

/-- The entries after the document is written. -/
def finishedEntries (time : Nat) : List LedgerEntry :=
  [entryAt e request transactionId (time + 17) transactionCompleted
     (completedPayload request s.world.repository.branch s.world.repository.head
       (s.world.repository.isClean (e.ignored (time + 16)) (e.worktree (time + 16)))),
   entryAt e request transactionId (time + 19) leaseReleased
     (Fields.ofPairs
       [("lease_id", .str (leaseAt e s request transactionId (time + 4)).leaseId),
        ("legacy_adapter", .bool true)]),
   entryAt e request transactionId (time + 20) projectionUpdated (projectedPayload request)]

def transitionEntries (time : Nat) : List LedgerEntry :=
  preparedEntries e s request transactionId time ++ finishedEntries e s request transactionId time

/-! ### One attempt -/

/-- The files of `s` at a later time. -/
def placed (time : Nat) (entries : List LedgerEntry) (writer : Option WorkflowLeaseRecord)
    (document : Option Json) : AdapterWorld :=
  { s with
    world := { s.world with clock := time, events := ledgerOf e.platform e.identity entries }
    writer := writer, document := document }

variable {e s request transactionId}

section Attempts

variable {α : Type} {time : Nat} {entries : List LedgerEntry} {writer : Option WorkflowLeaseRecord}
  {document : Option Json} {value : α}

theorem onWorld_look_returns (he : Undisturbed e) {f : Environment → World → Result α}
    (h : f e (placed e s time entries writer document).world = .ok value) :
    (onWorld (look f)).Returns e (placed e s time entries writer document) value
      (placed e s (time + 1) entries writer document) :=
  Call.returns_zoom.mpr ⟨_, returns_look.mpr ⟨he.fault time, h, rfl⟩, rfl⟩

theorem onDocument_returns (he : Undisturbed e) {after : Option Json}
    {f : Environment → Option Json → Result (α × Option Json)}
    (h : f e document = .ok (value, after)) :
    (onDocument f).Returns e (placed e s time entries writer document) value
      (placed e s (time + 1) entries writer after) := by
  refine Call.returns_attempt.mpr ⟨he.fault time, placed e s time entries writer after, ?_, rfl⟩
  change (f e document).map _ = _
  rw [h]
  rfl

/-- The ledger's cache is of the present file, or the ledger passes the full check. -/
theorem checkUncached_ok (he : Undisturbed e) (h : e.cached time = true ∨ EntriesValid entries) :
    checkUncached e (placed e s time entries writer document).world = .ok () := by
  unfold checkUncached
  split
  · rfl
  · rename_i hcached
    have hvalid : Valid e.platform e.identity (ledgerOf e.platform e.identity entries) :=
      valid_ledgerOf he.identity (h.resolve_left hcached)
    obtain ⟨integrity, hvalidate, -⟩ := hvalid.validate_ok
    simp only [bind_eq_ok, Prod.exists, pure, Except.pure, and_true]
    exact ⟨integrity, _, hvalidate⟩

theorem record_returns (he : Undisturbed e) {kind : EventType} {payload : Fields}
    (hcached : e.cached time = true ∨ EntriesValid entries)
    (h : EntryAppends entries (entryAt e request transactionId time kind payload)) :
    (record request transactionId kind payload).Returns e
      (placed e s time entries writer document) ()
      (placed e s (time + 1) (entries ++ [entryAt e request transactionId time kind payload])
        writer document) := by
  have hbuilt : builtEvent e (placed e s time entries writer document).world
      { eventType := kind, transactionId := transactionId
        workflowType := request.workflow, payload := payload } =
      (entryAt e request transactionId time kind payload).event e.platform e.identity
        (ledgerOf e.platform e.identity entries) := by
    rw [builtEvent, newEvent, LedgerEntry.event, chainEvent]
    simp only [givenOr, placed, he.stamp]
    rfl
  have hadmitted : validateAppend (placed e s time entries writer document).world.events
      (builtEvent e (placed e s time entries writer document).world
        { eventType := kind, transactionId := transactionId
          workflowType := request.workflow, payload := payload }) = .ok () := by
    rw [hbuilt]
    exact validateAppend_eq_ok.mpr (admitted_entry h)
  refine Call.returns_zoom.mpr
    ⟨_, appendLedger_returns (he.fault time) (checkUncached_ok he hcached) hadmitted, ?_⟩
  rw [hbuilt, placed, ledgerOf_snoc]
  rfl

end Attempts

/-! ### The parts of a transition -/

section Parts

variable {time : Nat} {entries : List LedgerEntry} {document : Option Json}

theorem acquire_returns (he : Undisturbed e) :
    (onWriter (acquireLeaseFile (acquireRequest request transactionId e.identity
      e.project.projectId (currentBranch s) s.world.repository.head))).Returns e
        (placed e s time entries none document) (leaseAt e s request transactionId time)
        (placed e s (time + 1) entries (some (leaseAt e s request transactionId time)) document) := by
  refine Call.returns_zoom.mpr ⟨_, returns_act.mpr ⟨he.fault time,
    { (placed e s time entries none document).world with
      lease := some (leaseAt e s request transactionId time) }, ?_, rfl⟩, rfl⟩
  rfl

theorem release_returns (he : Undisturbed e) {acquired : Nat} :
    (onWriter (releaseLease (releaseExpectation request transactionId e.identity
      e.project.projectId))).Returns e
        (placed e s time entries (some (leaseAt e s request transactionId acquired)) document) ()
        (placed e s (time + 1) entries none document) := by
  have hpath : releaseCheck e.site (releaseExpectation request transactionId e.identity
      e.project.projectId) (leaseAt e s request transactionId acquired) = .ok () :=
    require_eq_ok.mpr (Or.inl he.resolved)
  have howner : revalidate e.site.resolve e.process (releaseExpectation request transactionId
      e.identity e.project.projectId) (leaseAt e s request transactionId acquired) = .ok () := by
    simp [revalidate, revalidateChecks, releaseExpectation, leaseAt, givenIs, require_eq_ok]
  refine Call.returns_zoom.mpr ⟨_, returns_act.mpr ⟨he.fault time,
    { (placed e s time entries none document).world with lease := none }, ?_, rfl⟩, rfl⟩
  simp only [AdapterWorld.writerWorld_lease, placed, bind_eq_ok, pure, Except.pure]
  exact ⟨(), hpath, (), howner, rfl⟩

/-- Each of the attempts finds the ledger's cache of the present file, but the first. -/
def CachedAfter (e : Environment) (first last : Nat) : Prop :=
  ∀ time, first < time → time ≤ last → e.cached time = true

theorem untracked_ok (he : Undisturbed e) {writer : Option WorkflowLeaseRecord} :
    (do
      let w := (placed e s time entries writer document).world
      let listed := (w.repository.untrackedPaths (e.ignored w.clock) (e.worktree w.clock)).filter
        fun path => !Repository.isRuntimePath path
      let contents ← Inspector.readContents e w.clock listed
      return contents.map fun entry =>
        (entry.1, e.platform.hexdigest (entry.2.getD [])) : Result (Dict String)) =
      .ok ((Inspector.contentsAt e time ((s.world.repository.untrackedPaths (e.ignored time)
        (e.worktree time)).filter fun path => !Repository.isRuntimePath path)).map fun entry =>
          (entry.1, e.platform.hexdigest (entry.2.getD []))) := by
  have hnone : ∀ paths, Inspector.firstProblem e time paths = none := by
    intro paths
    rw [Inspector.firstProblem, List.findSome?_eq_none_iff]
    intro path _
    rw [he.path, Option.map_none]
  simp only [placed, Inspector.readContents, hnone]
  rfl

theorem prepare_returns (he : Undisturbed e) (hvalid : EntriesValid entries)
    (hcached : CachedAfter e (time + 3) (time + 20))
    (h : EntriesAppend entries (preparedEntries e s request transactionId time)) :
    (prepare request transactionId (currentBranch s) s.world.repository.head).Returns e
      (placed e s (time + 3) entries none document) (leaseAt e s request transactionId (time + 4))
      (placed e s (time + 12) (entries ++ preparedEntries e s request transactionId time)
        (some (leaseAt e s request transactionId (time + 4))) document) := by
  obtain ⟨h1, h2, h3, h4, h5, -⟩ := h
  have hlater : ∀ offset, 3 < offset → offset ≤ 20 → ∀ entries : List LedgerEntry,
      e.cached (time + offset) = true ∨ EntriesValid entries := by
    intro offset hfirst hlast entries
    exact Or.inl (hcached _ (by omega) (by omega))
  unfold prepare
  refine Call.returns_bind.mpr ⟨e.identity, _, Call.returns_reads.mpr ⟨rfl, rfl⟩, ?_⟩
  refine Call.returns_bind.mpr ⟨e.project.projectId, _, Call.returns_reads.mpr ⟨rfl, rfl⟩, ?_⟩
  refine Call.returns_bind.mpr ⟨(), _, record_returns he (Or.inr hvalid) h1, ?_⟩
  refine Call.returns_bind.mpr ⟨_, _, acquire_returns he, ?_⟩
  refine Call.returns_bind.mpr ⟨(), _, record_returns he (hlater 5 (by omega) (by omega) _) h2, ?_⟩
  refine Call.returns_bind.mpr ⟨_, _, onWorld_look_returns he rfl, ?_⟩
  refine Call.returns_bind.mpr ⟨_, _, onWorld_look_returns he (untracked_ok he), ?_⟩
  refine Call.returns_bind.mpr ⟨_, _, onWorld_look_returns he rfl, ?_⟩
  refine Call.returns_bind.mpr ⟨(), _, record_returns he (hlater 9 (by omega) (by omega) _) h3, ?_⟩
  refine Call.returns_bind.mpr ⟨(), _, record_returns he (hlater 10 (by omega) (by omega) _) h4, ?_⟩
  refine Call.returns_bind.mpr ⟨(), _, record_returns he (hlater 11 (by omega) (by omega) _) h5, ?_⟩
  refine Call.returns_pure.mpr ⟨rfl, ?_⟩
  congr 1
  simp only [preparedEntries, List.append_assoc, List.cons_append, List.nil_append]
  rfl

/-- The document that a transition leaves, on which the schema has nothing to say. -/
def documentAfter (e : Environment) (latest : Option Json) (document : Fields) : Json :=
  atomicWriteJson e.platform (.obj (preservePause latest document))

theorem write_returns (he : Undisturbed e) {site : AdapterSite}
    (hsite : ∀ value, site.validateState value = .ok ()) {writer : Option WorkflowLeaseRecord}
    {fields : Fields} :
    (writePreservingPause site fields).Returns e (placed e s time entries writer document) ()
      (placed e s (time + 2) entries writer (some (documentAfter e document fields))) := by
  have hload : (loadProjectState site).Returns e (placed e s time entries writer document) document
      (placed e s (time + 1) entries writer document) := by
    refine onDocument_returns he ?_
    cases document with
    | none => rfl
    | some found =>
        simp only [hsite]
        rfl
  have hstore : (storeProjectState site (preservePause document fields)).Returns e
      (placed e s (time + 1) entries writer document) ()
      (placed e s (time + 2) entries writer (some (documentAfter e document fields))) := by
    refine onDocument_returns he ?_
    simp only [hsite]
    rfl
  exact Call.returns_bind.mpr ⟨document, _, hload, hstore⟩

theorem finish_returns (he : Undisturbed e) (hcached : CachedAfter e (time + 3) (time + 20))
    {writer : Option WorkflowLeaseRecord}
    (h : EntryAppends entries (entryAt e request transactionId (time + 17) transactionCompleted
      (completedPayload request s.world.repository.branch s.world.repository.head
        (s.world.repository.isClean (e.ignored (time + 16)) (e.worktree (time + 16)))))) :
    (finish request transactionId).Returns e (placed e s (time + 14) entries writer document) ()
      (placed e s (time + 18) (entries ++ [entryAt e request transactionId (time + 17)
        transactionCompleted (completedPayload request s.world.repository.branch
          s.world.repository.head
          (s.world.repository.isClean (e.ignored (time + 16)) (e.worktree (time + 16))))])
        writer document) := by
  unfold finish
  refine Call.returns_bind.mpr ⟨_, _, onWorld_look_returns he rfl, ?_⟩
  refine Call.returns_bind.mpr ⟨_, _, onWorld_look_returns he rfl, ?_⟩
  refine Call.returns_bind.mpr ⟨_, _, onWorld_look_returns he rfl, ?_⟩
  exact record_returns he (Or.inl (hcached _ (by omega) (by omega))) h

/-- The projection can be rebuilt from the entries. -/
def Projects (e : Environment) (entries : List LedgerEntry) : Prop :=
  ∃ value, project e.platform e.identity (ledgerOf e.platform e.identity entries).length
    (tailFingerprint (ledgerOf e.platform e.identity entries))
    (ledgerOf e.platform e.identity entries) none = .ok value

theorem projects_of_toBool (h : (project e.platform e.identity
    (ledgerOf e.platform e.identity entries).length
    (tailFingerprint (ledgerOf e.platform e.identity entries))
    (ledgerOf e.platform e.identity entries) none).toBool = true) : Projects e entries := by
  unfold Projects
  cases hvalue : project e.platform e.identity (ledgerOf e.platform e.identity entries).length
      (tailFingerprint (ledgerOf e.platform e.identity entries))
      (ledgerOf e.platform e.identity entries) none with
  | error failure =>
      rw [hvalue] at h
      cases h
  | ok value => exact ⟨value, rfl⟩

/-- The files agree but for the projection cache. -/
def SameButCache (s t : AdapterWorld) : Prop :=
  t = { s with world := { s.world with cache := t.world.cache } }

theorem rebuild_returns (he : Undisturbed e) (hvalid : EntriesValid entries)
    (hprojects : Projects e entries) {writer : Option WorkflowLeaseRecord} :
    ∃ projection t, (onWorld (rebuildProjection true)).Returns e
        (placed e s time entries writer document) projection t ∧
      SameButCache (placed e s (time + 1) entries writer document) t := by
  obtain ⟨value, hvalue⟩ := hprojects
  have hledger : Valid e.platform e.identity (ledgerOf e.platform e.identity entries) :=
    valid_ledgerOf he.identity hvalid
  obtain ⟨integrity, hvalidate, hsequence, hfingerprint⟩ := hledger.validate_ok
  let rebuilt : World :=
    { (placed e s time entries writer document).world with
      cache := s.world.cache.map fun _ =>
        CacheFile.document (atomicWriteJson e.platform (.obj (signProjection e.platform value))) }
  have hrebuild : (rebuildProjection true).Returns e (placed e s time entries writer document).world
      (signProjection e.platform value) rebuilt.tick := by
    refine returns_act.mpr ⟨he.fault time, rebuilt, ?_, rfl⟩
    simp only [bind_eq_ok, Prod.exists, pure, Except.pure, Except.ok.injEq, Prod.mk.injEq]
    refine ⟨integrity, _, hvalidate, value, ?_, rfl, rfl⟩
    rw [hsequence, hfingerprint]
    exact hvalue
  exact ⟨_, _, Call.returns_zoom.mpr ⟨_, hrebuild, rfl⟩, rfl⟩

/-- A transition that its ledger does not show as completed returns when nothing disturbs it,
    and leaves the entries of its transaction and its document. -/
theorem transition_returns (he : Undisturbed e) (site : AdapterSite) (s : AdapterWorld)
    (request : Request) (time : Nat) (entries : List LedgerEntry) (document : Option Json)
    (fields : Fields) (hsite : ∀ value, site.validateState value = .ok ())
    (hid : site.uuid5 (request.key e.project.projectId) = transactionId)
    (hvalid : EntriesValid entries)
    (hfresh : ∀ entry ∈ entries, entry.transactionId = transactionId →
      entry.kind ≠ transactionCompleted)
    (hcached : CachedAfter e (time + 3) (time + 20))
    (happend : EntriesAppend entries (transitionEntries e s request transactionId time))
    (hafter : EntriesValid (entries ++ transitionEntries e s request transactionId time))
    (hprojects : Projects e (entries ++ transitionEntries e s request transactionId time)) :
    ∃ t, (transition site request (writePreservingPause site fields)).Returns e
        (placed e s time entries none document) () t ∧
      SameButCache (placed e s (time + 22)
        (entries ++ transitionEntries e s request transactionId time) none
          (some (documentAfter e document fields))) t := by
  obtain ⟨hprepared, hfinished⟩ := entriesAppend_append.mp happend
  obtain ⟨hcompleted, hreleased, hprojected, -⟩ := hfinished
  have hentries : entries ++ transitionEntries e s request transactionId time =
      entries ++ preparedEntries e s request transactionId time ++
        finishedEntries e s request transactionId time := by
    rw [transitionEntries, List.append_assoc]
  have hread : (onWorld readLedger).Returns e (placed e s time entries none document)
      (ledgerOf e.platform e.identity entries) (placed e s (time + 1) entries none document) := by
    refine onWorld_look_returns he ?_
    have hledger : Valid e.platform e.identity (ledgerOf e.platform e.identity entries) :=
      valid_ledgerOf he.identity hvalid
    obtain ⟨integrity, hvalidate, -⟩ := hledger.validate_ok
    simp only [bind_eq_ok, Prod.exists, pure, Except.pure, Except.ok.injEq]
    exact ⟨integrity, _, hvalidate, rfl⟩
  have hopen : ¬HasCompleted (ledgerOf e.platform e.identity entries) transactionId := by
    rintro ⟨event, hevent, hmatch, hkind⟩
    have hmem : entryOf event ∈ entries := by
      rw [← map_entryOf_ledgerOf e.platform e.identity entries]
      exact List.mem_map_of_mem hevent
    exact hfresh _ hmem hmatch hkind
  rw [hentries] at hafter hprojects ⊢
  obtain ⟨projection, t, hrebuild, hsame⟩ := rebuild_returns he hafter hprojects
  refine ⟨t, ?_, hsame⟩
  unfold transition
  refine Call.returns_bind.mpr ⟨e.project.projectId, _, Call.returns_reads.mpr ⟨rfl, rfl⟩, ?_⟩
  refine Call.returns_bind.mpr ⟨_, _, hread, ?_⟩
  rw [hid, if_neg hopen]
  unfold perform
  refine Call.returns_bind.mpr ⟨_, _, onWorld_look_returns he rfl, ?_⟩
  refine Call.returns_bind.mpr ⟨_, _, onWorld_look_returns he rfl, ?_⟩
  refine Call.returns_bind.mpr ⟨_, _, prepare_returns he hvalid hcached hprepared, ?_⟩
  refine Call.returns_bind.mpr ⟨(), _, write_returns he hsite, ?_⟩
  refine Call.returns_bind.mpr ⟨(), _, finish_returns he hcached hcompleted, ?_⟩
  unfold release
  refine Call.returns_bind.mpr ⟨e.identity, _, Call.returns_reads.mpr ⟨rfl, rfl⟩, ?_⟩
  refine Call.returns_bind.mpr ⟨e.project.projectId, _, Call.returns_reads.mpr ⟨rfl, rfl⟩, ?_⟩
  refine Call.returns_bind.mpr ⟨(), _, release_returns he, ?_⟩
  refine Call.returns_bind.mpr ⟨(), _,
    record_returns he (Or.inl (hcached _ (by omega) (by omega))) hreleased, ?_⟩
  refine Call.returns_bind.mpr ⟨(), _,
    record_returns he (Or.inl (hcached _ (by omega) (by omega))) hprojected, ?_⟩
  refine Call.returns_bind.mpr ⟨projection, t, ?_, Call.returns_pure.mpr ⟨rfl, rfl⟩⟩
  rw [List.append_assoc] at hrebuild
  simp only [List.append_assoc]
  exact hrebuild

end Parts

end LegacyAdapter

end Conveyor
