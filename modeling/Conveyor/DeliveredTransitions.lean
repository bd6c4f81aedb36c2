import Conveyor.TransitionProjection
import Conveyor.IntegratedFeatures

/-!
# Delivered transitions

Runs of `_transition_project` calls without kernel ownership: each call may be cut off anywhere,
and is then repeated by a new process with the same arguments. A transaction that the ledger shows
as completed is taken for the call's own. `run_delivered` says when this is right, so that a call
that returned has its document in place and its target in the rebuilt projection.
-/

namespace Conveyor

open Library EventType LegacyAdapter

/-- What the processes of one project have in common. -/
structure Authority where
  platform : Platform
  identity : LedgerIdentity
  projectId : String
  site : AdapterSite

/-- The files of the project, and the last call on them with whether it returned. -/
structure Progress where
  files : AdapterWorld
  last : Option (ProjectCall × Bool)

namespace Progress

variable (A : Authority) (p : Progress) (call : ProjectCall)

/-- A call that did not return is repeated before another one. -/
def Schedules : Prop := ∀ other, p.last = some (other, false) → call = other

/-- The call is a repetition of the last one, and finds a ledger that can be rebuilt if its
    transaction is completed; or its transaction is not completed, and the projection of the
    completed one shows its target. -/
def Allows : Prop :=
  (∃ returned, p.last = some (call, returned)) ∧
      (HasCompleted p.files.world.events (call.transactionId A.site A.projectId) →
        Rebuilds A.platform A.identity p.files.world.events) ∨
    ¬HasCompleted p.files.world.events (call.transactionId A.site A.projectId) ∧
      ∀ s, foldEvents p.files.world.events = .ok s →
        KeepsTarget call A.platform (call.transactionId A.site A.projectId) s

end Progress

/-- The call's document is the persisted one, and the rebuilt projection is at its target. -/
structure Delivered (A : Authority) (call : ProjectCall) (files : AdapterWorld) : Prop where
  document : call.Written A.platform files.document
  projection : ∃ value, rebuiltFrom A.platform A.identity files.world.events = .ok value ∧
    value.get "current_state" = .str call.target

/-- Runs of calls that the machine accepts, each in a process and an environment of its own. -/
inductive ProjectRun (A : Authority) (allowed : Progress → ProjectCall → Prop) : Progress → Prop
  | start (files : AdapterWorld) : ProjectRun A allowed ⟨files, none⟩
  | call {p : Progress} {call : ProjectCall} {e : Environment} {outcome : Outcome Failure Fields}
      {files : AdapterWorld} (hrun : ProjectRun A allowed p) (hallowed : allowed p call)
      (haccepted : call.move.isOk) (hscheduled : p.Schedules call)
      (hplatform : e.platform = A.platform) (hidentity : e.identity = A.identity)
      (hproject : e.project.projectId = A.projectId)
      (hcall : call.run A.site e p.files = (outcome, files)) :
      ProjectRun A allowed ⟨files, some (call, outcome matches .returned _)⟩

/-! ### What a call leaves behind -/

section Steps

variable {A : Authority} {call : ProjectCall} {s t : AdapterWorld} {e : Environment}
  {transactionId : String} {completed : Prop} {events before after : List LedgerEvent}
  {request : Request} {P : Platform}

/-- What holds after a call, whatever its outcome. -/
structure Settling (A : Authority) (call : ProjectCall) (s : AdapterWorld) : Prop where
  completed : HasCompleted s.world.events (call.transactionId A.site A.projectId) →
    call.Written A.platform s.document ∧
      ∀ value, rebuiltFrom A.platform A.identity s.world.events = .ok value →
        value.get "current_state" = .str call.target
  pending : ¬HasCompleted s.world.events (call.transactionId A.site A.projectId) →
    historyOf s.world.events (call.transactionId A.site A.projectId) ≠ [] ∨
      ∀ u, foldEvents s.world.events = .ok u →
        KeepsTarget call A.platform (call.transactionId A.site A.projectId) u

theorem settling_of_untouched (h : Settling A call s) (hsame : Untouched s t) :
    Settling A call t := by
  refine ⟨?_, ?_⟩
  · rw [hsame.events, hsame.document]
    exact h.completed
  · rw [hsame.events]
    exact h.pending

/-- A recorded transaction is known to the ledger, and completed if it was recorded to its end. -/
theorem recorded_history (h : LegacyAdapter.Recorded P request transactionId completed before after)
    (hnew : historyOf before transactionId = []) :
    historyOf after transactionId ≠ [] ∧ (HasCompleted after transactionId ↔ completed) := by
  obtain ⟨start, later, rfl, hstart, hlater, hcompleted⟩ := h
  refine ⟨fun hnil => ?_, ?_⟩
  · exact historyOf_eq_nil.mp hnil start (by simp) hstart.2.1
  · rw [hcompleted]
    constructor
    · rintro ⟨event, hevent, hid, hkind⟩
      simp only [List.mem_append, List.mem_cons] at hevent
      rcases hevent with hevent | rfl | hevent
      · exact absurd hid (historyOf_eq_nil.mp hnew event hevent)
      · rw [hstart.1] at hkind
        cases hkind
      · exact ⟨event, hevent, hkind⟩
    · rintro ⟨event, hevent, hkind⟩
      exact ⟨event, by simp [hevent], (hlater event hevent).1, hkind⟩

/-- The projection of a rebuilt ledger is one of its events. -/
theorem rebuiltFrom_eq_ok {L : LedgerIdentity} {value : Fields}
    (h : rebuiltFrom P L events = .ok value) :
    ∃ sequence fingerprint, project P L sequence fingerprint events none = .ok value := by
  simp only [rebuiltFrom, bind_eq_ok, Prod.exists] at h
  obtain ⟨integrity, found, hvalidate, hvalue⟩ := h
  have hsame : found = events :=
    (List.map_injective_iff.mpr LedgerEvent.toObject_injective (validate_eq_ok hvalidate).1).symm
  subst hsame
  exact ⟨_, _, hvalue⟩

/-- What a completed transaction of a call leaves. -/
theorem settling_of_completed
    (hknown : ∃ state, PORTFOLIO_MACHINE.ofName? call.target = some state)
    (h : Settling A call s)
    (hnew : historyOf s.world.events (call.transactionId A.site A.projectId) = [])
    (hstage : Stage A.platform call.accepted (call.transactionId A.site A.projectId) True
      (call.Written A.platform) s.world.events t) : Settling A call t := by
  have hkeeps := (h.pending (not_hasCompleted_of_new hnew)).resolve_left fun hne => hne hnew
  refine ⟨fun _ => ⟨hstage.document, fun value hvalue => ?_⟩, fun hopen => ?_⟩
  · obtain ⟨sequence, fingerprint, hproject⟩ := rebuiltFrom_eq_ok hvalue
    exact project_target hknown hstage.recorded hkeeps hproject
  · exact absurd ((recorded_history hstage.recorded hnew).2.mpr trivial) hopen

/-- One step: whatever its outcome, a call leaves what settles it, and a call that returned is
    delivered when its ledger can be rebuilt. -/
theorem settling_run (hplatform : e.platform = A.platform) (hidentity : e.identity = A.identity)
    (hproject : e.project.projectId = A.projectId) (h : Settling A call s)
    (hrebuilds : HasCompleted s.world.events (call.transactionId A.site A.projectId) →
      Rebuilds A.platform A.identity s.world.events) :
    (call.run A.site).Runs e s (fun _ t => Settling A call t ∧ Delivered A call t)
      (Settling A call) := by
  have hrun : (call.run A.site).Runs e s _ _ := ProjectCall.run_runs
  rw [hplatform, hidentity, hproject] at hrun
  refine hrun.mono (fun _ t ht => ?_) fun t ht => ?_
  · obtain ⟨hdelivers, hknown⟩ := ht
    rcases hdelivers with ⟨hcompleted, hsame⟩ | ⟨hnew, hstage, value, hvalue⟩
    · obtain ⟨hwritten, hshows⟩ := h.completed hcompleted
      obtain ⟨value, hvalue⟩ := hrebuilds hcompleted
      refine ⟨settling_of_untouched h hsame, hsame.document ▸ hwritten, value, ?_, hshows value hvalue⟩
      rw [hsame.events]
      exact hvalue
    · have hsettling := settling_of_completed hknown h hnew hstage
      refine ⟨hsettling, hstage.document, value, hvalue, ?_⟩
      exact (hsettling.completed ((recorded_history hstage.recorded hnew).2.mpr trivial)).2 value
        hvalue
  · obtain ⟨hleaves, hcase⟩ := ht
    rcases hleaves with ⟨-, hsame⟩ | ⟨hopen, hfate⟩
    · exact settling_of_untouched h hsame
    · cases hfate with
      | untouched hevents =>
          rw [← hevents] at hopen
          refine ⟨fun hcompleted => absurd hcompleted hopen, fun hopen => ?_⟩
          rw [hevents] at hopen ⊢
          exact h.pending hopen
      | started hnew hstage =>
          obtain ⟨hknown, hiff⟩ := recorded_history hstage.recorded hnew
          exact ⟨fun hcompleted => (hiff.mp hcompleted).elim, fun _ => Or.inl hknown⟩
      | completed hnew hstage =>
          rcases hcase with hsame | hknown
          · exact settling_of_untouched h hsame
          · exact settling_of_completed hknown h hnew hstage

end Steps

/-! ### Runs -/

/-- In every run whose calls are repetitions or find their transaction uncompleted, with a target
    that the projection keeps, a call that returned last is delivered. -/
theorem run_delivered (A : Authority) (p : Progress)
    (hrun : ProjectRun A (fun p call => p.Allows A call) p) :
    ∀ call, p.last = some (call, true) → Delivered A call p.files := by
  have hinv : ∀ call returned, p.last = some (call, returned) →
      Settling A call p.files ∧ (returned = true → Delivered A call p.files) := by
    induction hrun with
    | start files =>
        intro call returned h
        cases h
    | @call p call e outcome files _ hallowed _ _ hplatform hidentity hproject hcall ih =>
        intro last returned hlast
        cases hlast
        have hbefore : Settling A call p.files := by
          rcases hallowed with ⟨⟨returned, hsame⟩, -⟩ | ⟨hopen, hkeeps⟩
          · exact (ih call returned hsame).1
          · exact ⟨fun hcompleted => absurd hcompleted hopen, fun _ => Or.inr hkeeps⟩
        have hrebuilds : HasCompleted p.files.world.events
            (call.transactionId A.site A.projectId) →
              Rebuilds A.platform A.identity p.files.world.events := by
          rcases hallowed with ⟨-, hrebuilds⟩ | ⟨hopen, -⟩
          · exact hrebuilds
          · exact fun hcompleted => absurd hcompleted hopen
        obtain ⟨hends, hreturns⟩ := settling_run hplatform hidentity hproject hbefore hrebuilds
        have hafter : Settling A call files := by
          unfold Call.Ends at hends
          rwa [hcall] at hends
        refine ⟨hafter, fun hreturned => ?_⟩
        cases outcome with
        | returned value => exact (hreturns value files hcall).2
        | raised failure => cases hreturned
        | died => cases hreturned
  intro call hlast
  exact (hinv call true hlast).2 rfl

/-! ### Undisturbed calls -/

section Undisturbed

variable {e : Environment} {s : AdapterWorld} {call : ProjectCall}

def STAMP : String := "2026-01-01T00:00:00+00:00"

theorem runEvent_returns (he : Undisturbed e) (s : AdapterWorld) :
    (onWorld (KernelCall.interrupt "run_event")).Returns e s () (s.withWorld s.world.tick) :=
  Call.returns_zoom.mpr ⟨_, KernelCall.returns_interrupt.mpr ⟨he.fault _, rfl⟩, rfl⟩

/-- A call whose transaction is new returns, and leaves its entries and its document. -/
theorem call_returns (he : Undisturbed e) (site : AdapterSite) (s : AdapterWorld) (time : Nat)
    (entries : List LedgerEntry) (document : Option Json) {transition : Transition}
    {transactionId : String} (hmove : call.move = .ok transition) (hsite : ∀ value, site.validateState value = .ok ())
    (hid : call.transactionId site e.project.projectId = transactionId)
    (hvalid : EntriesValid entries)
    (hfresh : ∀ entry ∈ entries, entry.transactionId = transactionId →
      entry.kind ≠ transactionCompleted)
    (hcached : CachedAfter e (time + 3) (time + 20))
    (happend : EntriesAppend entries (transitionEntries e s call.accepted transactionId time))
    (hafter : EntriesValid (entries ++ transitionEntries e s call.accepted transactionId time))
    (hprojects : LegacyAdapter.Projects e
      (entries ++ transitionEntries e s call.accepted transactionId time)) :
    ∃ t, (call.run site).Returns e (placed e s time entries none document)
        (call.updated STAMP) t ∧
      SameButCache (placed e s (time + 23)
        (entries ++ transitionEntries e s call.accepted transactionId time) none
          (some (documentAfter e document (call.updated STAMP)))) t := by
  have haccepted := (ProjectCall.move_eq_ok hmove).1
  obtain ⟨t, htransition, hsame⟩ := transition_returns he site s call.accepted time entries
    document (call.updated STAMP) hsite hid hvalid hfresh hcached happend hafter hprojects
  refine ⟨t.withWorld t.world.tick, ?_, ?_⟩
  · unfold ProjectCall.run
    refine Call.returns_bind.mpr ⟨transition, _, Call.returns_reads.mpr ⟨hmove, rfl⟩, ?_⟩
    refine Call.returns_bind.mpr ⟨STAMP, _, Call.returns_reads.mpr ⟨?_, rfl⟩, ?_⟩
    · exact congrArg Except.ok (he.stamp _)
    rw [haccepted]
    refine Call.returns_bind.mpr ⟨(), t, htransition, ?_⟩
    refine Call.returns_bind.mpr ⟨(), _, runEvent_returns he t, ?_⟩
    exact Call.returns_pure.mpr ⟨rfl, rfl⟩
  · unfold SameButCache at hsame ⊢
    rw [hsame]
    rfl

/-- A call whose transaction is completed returns, and leaves the files as they are. -/
theorem call_repeats (he : Undisturbed e) (site : AdapterSite) {transition : Transition}
    (hmove : call.move = .ok transition)
    (hvalid : Valid e.platform e.identity s.world.events)
    (hcompleted : HasCompleted s.world.events (call.transactionId site e.project.projectId)) :
    ∃ t, (call.run site).Returns e s (call.updated STAMP) t ∧ Untouched s t := by
  obtain ⟨integrity, hvalidate, -⟩ := hvalid.validate_ok
  have hread : (onWorld readLedger).Returns e s s.world.events (s.withWorld s.world.tick) := by
    refine Call.returns_zoom.mpr ⟨_, KernelCall.returns_look.mpr ⟨he.fault _, ?_, rfl⟩, rfl⟩
    simp only [bind_eq_ok, Prod.exists, pure, Except.pure, Except.ok.injEq]
    exact ⟨integrity, _, hvalidate, rfl⟩
  let read := s.withWorld s.world.tick
  refine ⟨read.withWorld read.world.tick, ?_, ⟨rfl, rfl⟩⟩
  · unfold ProjectCall.run
    refine Call.returns_bind.mpr ⟨transition, _, Call.returns_reads.mpr ⟨hmove, rfl⟩, ?_⟩
    refine Call.returns_bind.mpr ⟨STAMP, _, Call.returns_reads.mpr ⟨?_, rfl⟩, ?_⟩
    · exact congrArg Except.ok (he.stamp _)
    rw [(ProjectCall.move_eq_ok hmove).1]
    refine Call.returns_bind.mpr ⟨(), s.withWorld s.world.tick, ?_, ?_⟩
    · unfold LegacyAdapter.transition
      refine Call.returns_bind.mpr ⟨e.project.projectId, _, Call.returns_reads.mpr ⟨rfl, rfl⟩, ?_⟩
      refine Call.returns_bind.mpr ⟨_, _, hread, ?_⟩
      exact Call.returns_ite.mpr (Or.inl ⟨hcompleted, Call.returns_pure.mpr ⟨rfl, rfl⟩⟩)
    refine Call.returns_bind.mpr ⟨(), _, runEvent_returns he _, ?_⟩
    exact Call.returns_pure.mpr ⟨rfl, rfl⟩

end Undisturbed

theorem hasCompleted_ledgerOf {P : Platform} {L : LedgerIdentity} {entries : List LedgerEntry}
    {transactionId : String} : HasCompleted (ledgerOf P L entries) transactionId ↔
      ∃ entry ∈ entries, entry.transactionId = transactionId ∧ entry.kind = transactionCompleted := by
  nth_rewrite 2 [← map_entryOf_ledgerOf P L entries]
  simp only [List.mem_map, exists_exists_and_eq_and]
  exact Iff.rfl

/-! ### A move taken twice -/

/-- The sample process with calls of 23 attempts. -/
def cyclingProcess : Environment :=
  { sampleProcess with cached := fun time => decide (time % 23 ≠ 3) }

theorem cyclingProcess_undisturbed : Undisturbed cyclingProcess where
  fault _ := rfl
  path _ _ := rfl
  stamp _ := rfl
  identity := sampleIdentity_ok
  resolved := rfl

/-- The identifiers that the calls draw. -/
def cyclingUuid5 (name : String) : String :=
  if name = "project:run-1:queue_reconciliation:conveyor_error:attempt_failed" then
    "6ce46493-ea30-53be-befd-7825719d90f4"
  else if name = "project:run-1:conveyor_error:queue_reconciliation:retry" then
    "daed5ccb-f7ee-56b5-a071-dfa343bf8844"
  else name

def cyclingAuthority : Authority where
  platform := Platform.reference
  identity := sampleIdentity
  projectId := "project"
  site := ⟨cyclingUuid5, fun _ => .ok ()⟩

def failingCall : ProjectCall where
  document := [("current_state", .str "queue_reconciliation")]
  target := "conveyor_error"
  runId := "run-1"
  checkpoint := "attempt_failed"
  milestone := some "M001"

def retryingCall : ProjectCall where
  document := [("current_state", .str "conveyor_error")]
  target := "queue_reconciliation"
  runId := "run-1"
  checkpoint := "retry"
  milestone := some "M001"

def failingEntries : List LedgerEntry :=
  transitionEntries cyclingProcess sampleFiles failingCall.accepted
    "6ce46493-ea30-53be-befd-7825719d90f4" 0

def retryingEntries : List LedgerEntry :=
  transitionEntries cyclingProcess sampleFiles retryingCall.accepted
    "daed5ccb-f7ee-56b5-a071-dfa343bf8844" 23

set_option maxRecDepth 100000 in
theorem failingEntries_checked : EntriesValid failingEntries ∧ EntriesAppend [] failingEntries ∧
    LegacyAdapter.Projects cyclingProcess failingEntries :=
  ⟨by decide +kernel, by decide +kernel, projects_of_toBool (by decide +kernel)⟩

set_option maxRecDepth 100000 in
theorem retryingEntries_checked : EntriesValid (failingEntries ++ retryingEntries) ∧
    EntriesAppend failingEntries retryingEntries ∧
    LegacyAdapter.Projects cyclingProcess (failingEntries ++ retryingEntries) ∧
    ∀ entry ∈ failingEntries, entry.transactionId = "daed5ccb-f7ee-56b5-a071-dfa343bf8844" →
      entry.kind ≠ transactionCompleted :=
  ⟨by decide +kernel, by decide +kernel, projects_of_toBool (by decide +kernel), by decide +kernel⟩

def failingMove : Transition := ⟨"queue_reconciliation", "conveyor_error", true⟩

def retryingMove : Transition := ⟨"conveyor_error", "queue_reconciliation", true⟩

theorem cycling_cached {first : Nat} (h : first % 23 = 3) :
    CachedAfter cyclingProcess first (first + 17) := by
  intro time hfirst hlast
  exact decide_eq_true (by omega)

theorem failingCall_move : failingCall.move = .ok failingMove := by decide

theorem retryingCall_move : retryingCall.move = .ok retryingMove := by decide

/-- The first call on an empty ledger. -/
theorem failingCall_returns :
    ∃ t, (failingCall.run cyclingAuthority.site).Returns cyclingProcess sampleFiles
        (failingCall.updated STAMP) t ∧
      SameButCache (placed cyclingProcess sampleFiles 23 failingEntries none
        (some (documentAfter cyclingProcess none (failingCall.updated STAMP)))) t :=
  call_returns cyclingProcess_undisturbed cyclingAuthority.site sampleFiles 0 [] none failingCall_move (fun _ => rfl)
    (by decide) (by decide) (by simp) (cycling_cached (by decide)) failingEntries_checked.2.1
    failingEntries_checked.1 failingEntries_checked.2.2

/-- The second call, on what the first one left. -/
theorem retryingCall_returns {files : AdapterWorld} {document : Option Json}
    (hfiles : SameButCache (placed cyclingProcess sampleFiles 23 failingEntries none document)
      files) :
    ∃ t, (retryingCall.run cyclingAuthority.site).Returns cyclingProcess files
        (retryingCall.updated STAMP) t ∧
      t.world.events = ledgerOf Platform.reference sampleIdentity
        (failingEntries ++ retryingEntries) := by
  have hentries : transitionEntries cyclingProcess files retryingCall.accepted
      "daed5ccb-f7ee-56b5-a071-dfa343bf8844" 23 = retryingEntries := by
    rw [hfiles]
    rfl
  have hsame : placed cyclingProcess files 23 failingEntries none document = files := by
    rw [hfiles]
    rfl
  obtain ⟨t, hreturns, hafter⟩ := call_returns cyclingProcess_undisturbed cyclingAuthority.site
    files 23 failingEntries document retryingCall_move (fun _ => rfl) (by decide)
    failingEntries_checked.1 retryingEntries_checked.2.2.2 (cycling_cached (by decide))
    (hentries ▸ retryingEntries_checked.2.1) (hentries ▸ retryingEntries_checked.1)
    (hentries ▸ retryingEntries_checked.2.2.1)
  rw [hsame] at hreturns
  refine ⟨t, hreturns, ?_⟩
  rw [hafter, hentries]
  rfl

/-- The first call of a project is delivered. -/
theorem run_delivered_failing :
    ∃ p : Progress, p.last = some (failingCall, true) ∧
      Delivered cyclingAuthority failingCall p.files := by
  obtain ⟨t, hreturns, -⟩ := failingCall_returns
  have hallowed : (Progress.mk sampleFiles none).Allows cyclingAuthority failingCall := by
    right
    refine ⟨?_, fun s _ => .ordinary (by decide) (by decide)⟩
    rintro ⟨event, hevent, -⟩
    cases hevent
  refine ⟨⟨t, some (failingCall, true)⟩, rfl, ?_⟩
  exact run_delivered cyclingAuthority _ (.call (.start sampleFiles) hallowed (by decide)
    (fun _ h => by cases h) rfl rfl rfl hreturns) failingCall rfl

/-- A project fails, retries and fails again at the same checkpoint: the second failure is taken
    for the first, and document and projection stay at the retry. -/
theorem repeated_move_lost :
    ∃ p call, ProjectRun cyclingAuthority (fun _ _ => True) p ∧ p.last = some (call, true) ∧
      ¬Delivered cyclingAuthority call p.files := by
  obtain ⟨first, hfirst, hfiles⟩ := failingCall_returns
  obtain ⟨second, hsecond, hevents⟩ := retryingCall_returns hfiles
  have hevents' : first.world.events =
      ledgerOf Platform.reference sampleIdentity failingEntries := by
    rw [hfiles]
    rfl
  -- the retry is delivered
  have hopen : ¬HasCompleted first.world.events
      (retryingCall.transactionId cyclingAuthority.site cyclingAuthority.projectId) := by
    rw [hevents', hasCompleted_ledgerOf]
    decide +kernel
  have hsettling : Settling cyclingAuthority retryingCall first :=
    ⟨fun hcompleted => absurd hcompleted hopen,
      fun _ => Or.inr fun s _ => .ordinary (by decide) (by decide)⟩
  have hdelivered : Delivered cyclingAuthority retryingCall second := by
    have hrun : (retryingCall.run cyclingAuthority.site).Runs cyclingProcess first _ _ :=
      settling_run rfl rfl rfl hsettling fun hcompleted => absurd hcompleted hopen
    exact (hrun.2 _ second hsecond).2
  have hvalid : Valid Platform.reference sampleIdentity second.world.events := by
    rw [hevents]
    exact valid_ledgerOf sampleIdentity_ok retryingEntries_checked.1
  have hcompleted : HasCompleted second.world.events
      (failingCall.transactionId cyclingAuthority.site "project") := by
    rw [hevents, hasCompleted_ledgerOf]
    decide +kernel
  obtain ⟨third, hthird, hsame⟩ := call_repeats cyclingProcess_undisturbed cyclingAuthority.site
    failingCall_move hvalid hcompleted
  refine ⟨⟨third, some (failingCall, true)⟩, failingCall, ?_, rfl, fun hlost => ?_⟩
  · have hrun : ProjectRun cyclingAuthority (fun _ _ => True) ⟨first, some (failingCall, true)⟩ :=
      .call (.start sampleFiles) trivial (by decide) (fun _ h => by cases h) rfl rfl rfl hfirst
    have hrun : ProjectRun cyclingAuthority (fun _ _ => True) ⟨second, some (retryingCall, true)⟩ :=
      .call hrun trivial (by decide) (fun _ h => by cases h) rfl rfl rfl hsecond
    exact .call hrun trivial (by decide) (fun _ h => by cases h) rfl rfl rfl hthird
  · obtain ⟨value, hvalue, hstate⟩ := hdelivered.projection
    obtain ⟨value', hvalue', hstate'⟩ := hlost.projection
    change rebuiltFrom _ _ third.world.events = _ at hvalue'
    rw [hsame.events, hvalue] at hvalue'
    rw [← Except.ok.inj hvalue', hstate] at hstate'
    exact absurd (Json.str.inj hstate') (by decide)

end Conveyor
