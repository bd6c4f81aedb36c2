import Conveyor.WorkflowLease
import Mathlib.Logic.Function.Basic

/-!
# Lease calls, one file-system call at a time

Every call of `WorkflowWriterLease` is a sequence of file-system calls without a lock
(`workflow_lease.py`). Here each process has a program counter and `step` makes one
file-system call of one process; a call that raises puts its process back to `idle`.
The lease path is a directory entry that names a file, so that a process that opened
the old file keeps reading it after another one replaced the entry.

`Inv` is kept by every step that is `Timely`: a child's rename happens before the
lease it read is released. `released_stay_released_iff` is what follows for the path.
-/

namespace Conveyor.LeaseInterleaving

open Library

/-! ### The processes -/

/-- The calls that read the lease file first. `releaseRevalidated` is the second half
    of `release`, whose revalidation reads the file again. -/
inductive Call where
  | heartbeat (expectation : LeaseExpectation)
  | bindSession (expectation : LeaseExpectation) (sessionId : String)
  | bindControllerPlan (transactionId repositoryIdentity : String) (plan : ControllerPlan)
  | heartbeatAdopted (identity : Fields)
  | release (expectation : LeaseExpectation)
  | releaseRevalidated (expectation : LeaseExpectation)

def Call.adopted : Call → Bool
  | .heartbeatAdopted _ => true
  | _ => false

inductive Begin where
  | acquire (request : AcquireRequest)
  | call (call : Call)

/-- Where a process is: the next file-system call it makes. -/
inductive Pc where
  | idle
  | openNew (record : WorkflowLeaseRecord)
  | checkNew (file : Nat) (record : WorkflowLeaseRecord)
  | writeNew (file : Nat) (record : WorkflowLeaseRecord)
  | openRead (call : Call)
  | statRead (call : Call) (file : Nat)
  | loadRead (call : Call) (file : Nat)
  | openOld (call : Call) (record : WorkflowLeaseRecord)
  | statOld (call : Call) (file : Nat) (record : WorkflowLeaseRecord)
  | createTemp (call : Call) (record : WorkflowLeaseRecord)
  | writeTemp (call : Call) (temp : Nat) (record : WorkflowLeaseRecord)
  | replace (call : Call) (temp : Nat) (record : WorkflowLeaseRecord)
  | unlink (record : WorkflowLeaseRecord)

/-- What a step draws from outside: the call an idle process begins, a fresh lease
    identifier, the time, and what is observed of the owner. -/
structure Input where
  begin : Option Begin
  leaseId : String
  now : String
  observed : OwnerObservation

/-- The lease path with the files it named, and the processes. `issued` and `released`
    record the history: who drew which identifier, and which were unlinked by
    `release`. -/
structure State where
  entry : Option Nat
  files : Nat → Option WorkflowLeaseRecord
  nextFile : Nat
  pcs : ProcessIdentity → Pc
  issued : List (String × ProcessIdentity)
  released : List String

def State.initial : State where
  entry := none
  files _ := none
  nextFile := 0
  pcs _ := .idle
  issued := []
  released := []

/-- The lease a reader of the path finds: none while the file is absent or empty. -/
def State.leaseAt (s : State) : Option WorkflowLeaseRecord := s.entry.bind s.files

def State.goto (s : State) (process : ProcessIdentity) (pc : Pc) : State :=
  { s with pcs := Function.update s.pcs process pc }

/-! ### What a call does with the record it read -/

inductive AfterRead where
  | rewrite (record : WorkflowLeaseRecord)
  | readAgain (call : Call)
  | unlink

def afterRead (site : LeaseSite) (process : ProcessIdentity) (input : Input)
    (record : WorkflowLeaseRecord) : Call → Result AfterRead
  | .heartbeat expectation => do
      revalidate site.resolve process expectation record
      return .rewrite { record with lastHeartbeat := input.now }
  | .bindSession expectation sessionId => do
      revalidate site.resolve process expectation record
      return .rewrite { record with sessionId := some sessionId, lastHeartbeat := input.now }
  | .bindControllerPlan transactionId repositoryIdentity plan => do
      revalidate site.resolve process
        { transactionId := transactionId, workflowType := .milestoneIntegration
          repositoryIdentity := repositoryIdentity, projectId := plan.controllerProjectId
          sessionId := some none } record
      let bound ← bindPlan plan input.now record
      return .rewrite bound
  | .heartbeatAdopted identity => do
      revalidateAdopted process input.observed identity record
      return .rewrite { record with lastHeartbeat := input.now }
  | .release expectation => do
      releaseCheck site expectation record
      return .readAgain (.releaseRevalidated expectation)
  | .releaseRevalidated expectation => do
      revalidate site.resolve process expectation record
      return .unlink

/-! ### Steps -/

/-- One file-system call of one process. The checks for symbolic links change nothing
    and are left out; `st_nlink` is one exactly while the entry names the opened file. -/
def step (P : Platform) (site : LeaseSite) (s : State) (process : ProcessIdentity)
    (input : Input) : State :=
  match s.pcs process with
  | .idle =>
      match input.begin with
      | none => s
      | some (.acquire request) =>
          if request.leaseType ≠ WORKFLOW_LEASE request.workflowType then s
          else if s.entry ≠ none then s
          else match acquireRecord P site process request input.leaseId input.now with
            | .error _ => s
            | .ok record =>
                { s.goto process (.openNew record) with
                  issued := (input.leaseId, process) :: s.issued }
      | some (.call call) => s.goto process (.openRead call)
  | .openNew record =>
      match s.entry with
      | some _ => s.goto process .idle
      | none =>
          { s.goto process (.checkNew s.nextFile record) with
            entry := some s.nextFile
            nextFile := s.nextFile + 1 }
  | .checkNew file record =>
      if s.entry = some file then s.goto process (.writeNew file record)
      else s.goto process .idle
  | .writeNew file record =>
      { s.goto process .idle with files := Function.update s.files file (some record) }
  | .openRead call =>
      match s.entry with
      | none => s.goto process .idle
      | some file => s.goto process (.statRead call file)
  | .statRead call file =>
      if s.entry = some file then s.goto process (.loadRead call file)
      else s.goto process .idle
  | .loadRead call file =>
      match s.files file with
      | none => s.goto process .idle
      | some record =>
          match afterRead site process input record call with
          | .error _ => s.goto process .idle
          | .ok (.rewrite rewritten) => s.goto process (.openOld call rewritten)
          | .ok (.readAgain next) => s.goto process (.openRead next)
          | .ok .unlink => s.goto process (.unlink record)
  | .openOld call record =>
      match s.entry with
      | none => s.goto process .idle
      | some file => s.goto process (.statOld call file record)
  | .statOld call file record =>
      if s.entry = some file then s.goto process (.createTemp call record)
      else s.goto process .idle
  | .createTemp call record =>
      { s.goto process (.writeTemp call s.nextFile record) with nextFile := s.nextFile + 1 }
  | .writeTemp call temp record =>
      { s.goto process (.replace call temp record) with
        files := Function.update s.files temp (some record) }
  | .replace _ temp _ => { s.goto process .idle with entry := some temp }
  | .unlink _ =>
      match s.entry with
      | none => s.goto process .idle
      | some file =>
          { s.goto process .idle with
            entry := none
            released := ((s.files file).map (·.leaseId)).toList ++ s.released }

/-- Runs of any processes in any order, as far as `allowed` lets them step. A drawn
    identifier was never drawn before. -/
inductive Run (P : Platform) (site : LeaseSite)
    (allowed : State → ProcessIdentity → Prop) : State → Prop where
  | initial : Run P site allowed State.initial
  | step {s : State} {process : ProcessIdentity} {input : Input} (prior : Run P site allowed s)
      (fresh : ∀ owner, (input.leaseId, owner) ∉ s.issued) (admits : allowed s process) :
      Run P site allowed (step P site s process input)

/-- The process is not about to rename a child's heartbeat over a lease that was
    released since the child read it. -/
def Timely (s : State) (process : ProcessIdentity) : Prop :=
  ∀ identity temp record, s.pcs process = .replace (.heartbeatAdopted identity) temp record →
    record.leaseId ∉ s.released

/-! ### What a program counter holds -/

namespace Pc

/-- The record a rewriting or releasing process read. -/
def held : Pc → Option WorkflowLeaseRecord
  | openOld _ record | statOld _ _ record | createTemp _ record | writeTemp _ _ record
  | replace _ _ record | unlink record => some record
  | _ => none

/-- The record a process holds as its owner. -/
def owned : Pc → Option WorkflowLeaseRecord
  | openOld call record | statOld call _ record | createTemp call record
  | writeTemp call _ record | replace call _ record => if call.adopted then none else some record
  | unlink record => some record
  | _ => none

/-- The record of a lease that is not written yet. -/
def pending : Pc → Option WorkflowLeaseRecord
  | openNew record | checkNew _ record | writeNew _ record => some record
  | _ => none

/-- The opened file a process is about to read. -/
def reads : Pc → Option Nat
  | statRead _ file | loadRead _ file => some file
  | _ => none

/-- The file a process created at the lease path and has not written yet. -/
def creates : Pc → Option Nat
  | checkNew file _ | writeNew file _ => some file
  | _ => none

/-- The temporary file of a rewrite, with its content once it is written. -/
def temp : Pc → Option (Nat × Option WorkflowLeaseRecord)
  | writeTemp _ file _ => some (file, none)
  | replace _ file record => some (file, some record)
  | _ => none

end Pc

/-! ### The invariant -/

/-- A lease identifier that is released or is the one at the path. -/
def Settled (s : State) (leaseId : String) : Prop :=
  leaseId ∈ s.released ∨ ∃ current, s.leaseAt = some current ∧ current.leaseId = leaseId

/-- What holds of the files and the history, whatever the processes do. -/
structure Shared (s : State) : Prop where
  entry : ∀ file, s.entry = some file → file < s.nextFile
  files : ∀ file record, s.files file = some record → file < s.nextFile
  issued : ∀ file record, s.files file = some record → (record.leaseId, record.owner) ∈ s.issued
  settled : ∀ file record, s.files file = some record → Settled s record.leaseId
  current : ∀ record, s.leaseAt = some record → record.leaseId ∉ s.released
  unique : ∀ leaseId owner other, (leaseId, owner) ∈ s.issued → (leaseId, other) ∈ s.issued →
    owner = other
  history : ∀ leaseId ∈ s.released, ∃ owner, (leaseId, owner) ∈ s.issued

/-- What holds of one process at its program counter. -/
structure PcOk (s : State) (process : ProcessIdentity) (pc : Pc) : Prop where
  held : ∀ record, pc.held = some record →
    (record.leaseId, record.owner) ∈ s.issued ∧ Settled s record.leaseId
  owned : ∀ record, pc.owned = some record →
    record.owner = process ∧ record.leaseId ∉ s.released
  pending : ∀ record, pc.pending = some record →
    record.owner = process ∧ (record.leaseId, process) ∈ s.issued ∧ ¬Settled s record.leaseId
  reads : ∀ file, pc.reads = some file → file < s.nextFile ∧
    ∀ record, s.files file = some record → record.owner = process → record.leaseId ∉ s.released
  creates : ∀ file, pc.creates = some file → s.entry = some file ∧ s.files file = none
  temp : ∀ file content, pc.temp = some (file, content) →
    file < s.nextFile ∧ s.entry ≠ some file ∧ s.files file = content

/-- Two processes do not share a temporary file or a new lease file, and none reads
    another's temporary file. -/
structure Apart (first second : Pc) : Prop where
  temps : ∀ file content other, first.temp = some (file, content) →
    second.temp ≠ some (file, other)
  reads : ∀ file content, first.temp = some (file, content) → second.reads ≠ some file
  creates : ∀ file, first.creates = some file → second.creates ≠ some file

structure Inv (s : State) : Prop where
  shared : Shared s
  processes : ∀ process, PcOk s process (s.pcs process)
  apart : ∀ first second, first ≠ second → Apart (s.pcs first) (s.pcs second)

theorem pcOk_idle (s : State) (process : ProcessIdentity) : PcOk s process .idle := by
  constructor <;> intros <;> simp_all [Pc.held, Pc.owned, Pc.pending, Pc.reads, Pc.creates, Pc.temp]

theorem inv_initial : Inv State.initial where
  shared := by constructor <;> simp [State.initial, State.leaseAt]
  processes process := pcOk_idle _ _
  apart _ _ _ := by
    constructor <;> intros <;> simp_all [State.initial, Pc.temp, Pc.creates]

theorem apart_idle_left (pc : Pc) : Apart .idle pc := by
  constructor <;> intros <;> simp_all [Pc.temp, Pc.creates]

theorem apart_idle_right (pc : Pc) : Apart pc .idle := by
  constructor <;> intros <;> simp_all [Pc.temp, Pc.reads, Pc.creates]

variable {s : State} {process : ProcessIdentity} {record : WorkflowLeaseRecord} {file : Nat}

@[simp] theorem goto_pcs_self (s : State) (process : ProcessIdentity) (pc : Pc) :
    (s.goto process pc).pcs process = pc := by
  simp [State.goto]

theorem goto_pcs_of_ne {other : ProcessIdentity} (h : other ≠ process) (pc : Pc) :
    (s.goto process pc).pcs other = s.pcs other := by
  simp [State.goto, h]

/-- A step that changes the processes' shared state in a way all others can bear. -/
theorem inv_of_frame {t : State} {pc : Pc} (h : Inv s)
    (hpcs : t.pcs = Function.update s.pcs process pc) (hshared : Shared t)
    (hself : PcOk t process pc)
    (hothers : ∀ other, other ≠ process → PcOk s other (s.pcs other) →
      PcOk t other (s.pcs other))
    (hleft : ∀ other, other ≠ process → Apart pc (s.pcs other))
    (hright : ∀ other, other ≠ process → Apart (s.pcs other) pc) : Inv t where
  shared := hshared
  processes other := by
    rw [hpcs]
    by_cases hother : other = process
    · rw [hother, Function.update_self]
      exact hself
    · rw [Function.update_of_ne hother]
      exact hothers other hother (h.processes other)
  apart first second hne := by
    rw [hpcs]
    by_cases hfirst : first = process
    · subst hfirst
      rw [Function.update_self, Function.update_of_ne hne.symm]
      exact hleft second hne.symm
    · rw [Function.update_of_ne hfirst]
      by_cases hsecond : second = process
      · subst hsecond
        rw [Function.update_self]
        exact hright first hfirst
      · rw [Function.update_of_ne hsecond]
        exact h.apart first second hne

/-- A step that only moves the process. -/
theorem inv_goto {pc : Pc} (h : Inv s) (hself : PcOk s process pc)
    (hleft : ∀ other, other ≠ process → Apart pc (s.pcs other))
    (hright : ∀ other, other ≠ process → Apart (s.pcs other) pc) : Inv (s.goto process pc) :=
  inv_of_frame h rfl
    ⟨h.shared.entry, h.shared.files, h.shared.issued, h.shared.settled, h.shared.current,
      h.shared.unique, h.shared.history⟩
    ⟨hself.held, hself.owned, hself.pending, hself.reads, hself.creates, hself.temp⟩
    (fun _ _ hok => ⟨hok.held, hok.owned, hok.pending, hok.reads, hok.creates, hok.temp⟩)
    hleft hright

theorem inv_goto_idle (h : Inv s) : Inv (s.goto process .idle) :=
  inv_goto h (pcOk_idle _ _) (fun _ _ => apart_idle_left _) fun _ _ => apart_idle_right _

/-- A program counter without a temporary or a new file is apart from any other that
    does not have what it reads as its temporary file. -/
theorem apart_plain_left {pc other : Pc} (htemp : pc.temp = none) (hcreates : pc.creates = none) :
    Apart pc other := by
  constructor <;> intros <;> simp_all

theorem apart_plain_right {pc other : Pc} (htemp : pc.temp = none) (hcreates : pc.creates = none)
    (hreads : ∀ file content, other.temp = some (file, content) → pc.reads ≠ some file) :
    Apart other pc := by
  constructor
  · intro file content other' _ h
    rw [htemp] at h
    cases h
  · exact hreads
  · intro file _ h
    rw [hcreates] at h
    cases h

theorem Inv.lease_issued (h : Inv s) (hlease : s.leaseAt = some record) :
    (record.leaseId, record.owner) ∈ s.issued := by
  obtain ⟨file, -, hfile⟩ := Option.bind_eq_some_iff.mp hlease
  exact h.shared.issued file record hfile

/-! ### Acquiring -/

/-- A new identifier is issued and its process will create the file. -/
theorem inv_issue {leaseId : String} (h : Inv s) (howner : record.owner = process)
    (hid : record.leaseId = leaseId) (hfresh : ∀ owner, (leaseId, owner) ∉ s.issued) :
    Inv { s.goto process (.openNew record) with issued := (leaseId, process) :: s.issued } := by
  have hunsettled : ¬Settled s record.leaseId := by
    rintro (hmem | ⟨current, hlease, heq⟩)
    · obtain ⟨owner, howner⟩ := h.shared.history _ hmem
      exact hfresh owner (hid ▸ howner)
    · exact hfresh current.owner (hid ▸ heq ▸ h.lease_issued hlease)
  apply inv_of_frame h rfl
  · refine ⟨h.shared.entry, h.shared.files, fun f r hf => ?_, h.shared.settled,
      h.shared.current, fun id owner other h1 h2 => ?_, fun id hid => ?_⟩
    · exact List.mem_cons_of_mem _ (h.shared.issued f r hf)
    · rcases List.mem_cons.mp h1 with h1 | h1 <;> rcases List.mem_cons.mp h2 with h2 | h2
      · rw [Prod.mk.injEq] at h1 h2
        rw [h1.2, h2.2]
      · rw [Prod.mk.injEq] at h1
        exact absurd h2 (h1.1 ▸ hfresh other)
      · rw [Prod.mk.injEq] at h2
        exact absurd h1 (h2.1 ▸ hfresh owner)
      · exact h.shared.unique id owner other h1 h2
    · obtain ⟨owner, howner⟩ := h.shared.history id hid
      exact ⟨owner, List.mem_cons_of_mem _ howner⟩
  · constructor
    · intro r hr; cases hr
    · intro r hr; cases hr
    · intro r hr
      cases hr
      exact ⟨howner, by rw [hid]; exact List.mem_cons_self, hunsettled⟩
    · intro f hf; cases hf
    · intro f hf; cases hf
    · intro f content hf; cases hf
  · intro other _ hok
    refine ⟨fun r hr => ?_, hok.owned, fun r hr => ?_, hok.reads, hok.creates, hok.temp⟩
    · exact ⟨List.mem_cons_of_mem _ (hok.held r hr).1, (hok.held r hr).2⟩
    · obtain ⟨h1, h2, h3⟩ := hok.pending r hr
      exact ⟨h1, List.mem_cons_of_mem _ h2, h3⟩
  · intro other _
    exact apart_plain_left rfl rfl
  · intro other _
    exact apart_plain_right rfl rfl fun f content _ hf => by cases hf

/-- The lease file is created, still empty. -/
theorem inv_create (h : Inv s) (hpc : s.pcs process = .openNew record) (hentry : s.entry = none) :
    Inv { s.goto process (.checkNew s.nextFile record) with
      entry := some s.nextFile
      nextFile := s.nextFile + 1 } := by
  have hempty : s.files s.nextFile = none := by
    cases hfile : s.files s.nextFile with
    | none => rfl
    | some r => exact absurd (h.shared.files _ r hfile) (lt_irrefl _)
  have hlease : s.leaseAt = none := by rw [State.leaseAt, hentry]; rfl
  have hsettled : ∀ leaseId, Settled { s.goto process (.checkNew s.nextFile record) with
      entry := some s.nextFile, nextFile := s.nextFile + 1 } leaseId ↔ Settled s leaseId := by
    intro leaseId
    simp [Settled, State.leaseAt, State.goto, hempty, hentry]
  have hself := h.processes process
  rw [hpc] at hself
  apply inv_of_frame h rfl
  · refine ⟨fun f hf => ?_, fun f r hf => ?_, h.shared.issued, fun f r hf => ?_, fun r hr => ?_,
      h.shared.unique, h.shared.history⟩
    · cases hf
      exact Nat.lt_succ_self _
    · exact Nat.lt_succ_of_lt (h.shared.files f r hf)
    · exact (hsettled _).mpr (h.shared.settled f r hf)
    · have hnone : (some s.nextFile).bind s.files = none := hempty
      rw [State.leaseAt] at hr
      exact absurd (hnone.symm.trans hr) (by simp)
  · constructor
    · intro r hr; cases hr
    · intro r hr; cases hr
    · intro r hr
      obtain ⟨h1, h2, h3⟩ := hself.pending r hr
      exact ⟨h1, h2, fun hs => h3 ((hsettled _).mp hs)⟩
    · intro f hf; cases hf
    · intro f hf
      cases hf
      exact ⟨rfl, hempty⟩
    · intro f content hf; cases hf
  · intro other _ hok
    refine ⟨fun r hr => ?_, hok.owned, fun r hr => ?_, fun f hf => ?_, fun f hf => ?_,
      fun f content hf => ?_⟩
    · exact ⟨(hok.held r hr).1, (hsettled _).mpr (hok.held r hr).2⟩
    · obtain ⟨h1, h2, h3⟩ := hok.pending r hr
      exact ⟨h1, h2, fun hs => h3 ((hsettled _).mp hs)⟩
    · exact ⟨Nat.lt_succ_of_lt (hok.reads f hf).1, (hok.reads f hf).2⟩
    · have := (hok.creates f hf).1
      rw [hentry] at this
      cases this
    · obtain ⟨h1, -, h3⟩ := hok.temp f content hf
      refine ⟨Nat.lt_succ_of_lt h1, fun heq => ?_, h3⟩
      rw [Option.some.injEq] at heq
      omega
  · intro other hother
    refine ⟨fun f content _ hf => (by cases hf), fun f content hf => (by cases hf),
      fun f hf hcreates => ?_⟩
    have := ((h.processes other).creates f hcreates).1
    rw [hentry] at this
    cases this
  · intro other hother
    refine ⟨fun f content _ _ hf => (by cases hf), fun f content _ hf => (by cases hf),
      fun f hcreates _ => ?_⟩
    have := ((h.processes other).creates f hcreates).1
    rw [hentry] at this
    cases this

/-- The record is written into the created file and becomes the lease at the path. -/
theorem inv_write (h : Inv s) (hpc : s.pcs process = .writeNew file record) :
    Inv { s.goto process .idle with files := Function.update s.files file (some record) } := by
  have hself := h.processes process
  rw [hpc] at hself
  obtain ⟨hentry, hempty⟩ := hself.creates file rfl
  obtain ⟨howner, hissued, hunsettled⟩ := hself.pending record rfl
  have hlease : s.leaseAt = none := by rw [State.leaseAt, hentry]; exact hempty
  have hnew : State.leaseAt { s.goto process .idle with
      files := Function.update s.files file (some record) } = some record := by
    simp [State.leaseAt, State.goto, hentry]
  have hreleased : record.leaseId ∉ s.released := fun hmem => hunsettled (Or.inl hmem)
  have hsettled : ∀ leaseId, Settled { s.goto process .idle with
      files := Function.update s.files file (some record) } leaseId ↔
        leaseId ∈ s.released ∨ record.leaseId = leaseId := by
    intro leaseId
    rw [Settled, hnew]
    simp [State.goto]
  have hsettledOld : ∀ leaseId, Settled s leaseId ↔ leaseId ∈ s.released := by
    intro leaseId
    simp [Settled, hlease]
  apply inv_of_frame h rfl
  · refine ⟨h.shared.entry, fun f r hf => ?_, fun f r hf => ?_, fun f r hf => ?_, fun r hr => ?_,
      h.shared.unique, h.shared.history⟩
    · by_cases hfile : f = file
      · exact hfile ▸ h.shared.entry file hentry
      · exact h.shared.files f r (by simpa [hfile] using hf)
    · by_cases hfile : f = file
      · subst hfile
        simp only [Function.update_self, Option.some.injEq] at hf
        rw [← hf, howner]
        exact hissued
      · exact h.shared.issued f r (by simpa [hfile] using hf)
    · rw [hsettled]
      by_cases hfile : f = file
      · subst hfile
        simp only [Function.update_self, Option.some.injEq] at hf
        exact Or.inr (by rw [hf])
      · exact Or.inl ((hsettledOld _).mp (h.shared.settled f r (by simpa [hfile] using hf)))
    · rw [hnew, Option.some.injEq] at hr
      exact hr ▸ hreleased
  · exact pcOk_idle _ _
  · intro other hother hok
    have happart := h.apart other process hother
    rw [hpc] at happart
    refine ⟨fun r hr => ?_, hok.owned, fun r hr => ?_, fun f hf => ?_, fun f hf => ?_,
      fun f content hf => ?_⟩
    · refine ⟨(hok.held r hr).1, (hsettled _).mpr (Or.inl ?_)⟩
      exact (hsettledOld _).mp (hok.held r hr).2
    · obtain ⟨h1, h2, h3⟩ := hok.pending r hr
      refine ⟨h1, h2, fun hs => ?_⟩
      rcases (hsettled _).mp hs with hs | hs
      · exact h3 (Or.inl hs)
      · exact hother (h.shared.unique _ _ _ h2 (hs ▸ hissued))
    · obtain ⟨hlt, hread⟩ := hok.reads f hf
      refine ⟨hlt, fun r hr hrowner => ?_⟩
      by_cases hfile : f = file
      · subst hfile
        simp only [Function.update_self, Option.some.injEq] at hr
        exact absurd (hrowner.symm.trans (hr ▸ howner)) hother
      · exact hread r (by simpa [hfile] using hr) hrowner
    · obtain ⟨h1, h2⟩ := hok.creates f hf
      have hsame : f = file := by
        rw [hentry] at h1
        exact (Option.some.inj h1).symm
      exact absurd rfl (hsame ▸ happart.creates f hf)
    · obtain ⟨h1, h2, h3⟩ := hok.temp f content hf
      refine ⟨h1, h2, ?_⟩
      have hne : f ≠ file := fun heq => h2 (heq ▸ hentry)
      simpa [hne] using h3
  · intro other _
    exact apart_idle_left _
  · intro other _
    exact apart_idle_right _

/-! ### Rewriting -/

/-- A temporary file with a name of its own. -/
theorem inv_createTemp {call : Call} (h : Inv s)
    (hpc : s.pcs process = .createTemp call record) :
    Inv { s.goto process (.writeTemp call s.nextFile record) with
      nextFile := s.nextFile + 1 } := by
  have hself := h.processes process
  rw [hpc] at hself
  have hempty : s.files s.nextFile = none := by
    cases hfile : s.files s.nextFile with
    | none => rfl
    | some r => exact absurd (h.shared.files _ r hfile) (lt_irrefl _)
  apply inv_of_frame h rfl
  · exact ⟨fun f hf => Nat.lt_succ_of_lt (h.shared.entry f hf),
      fun f r hf => Nat.lt_succ_of_lt (h.shared.files f r hf), h.shared.issued,
      h.shared.settled, h.shared.current, h.shared.unique, h.shared.history⟩
  · refine ⟨hself.held, hself.owned, fun r hr => (by cases hr), fun f hf => (by cases hf),
      fun f hf => (by cases hf), fun f content hf => ?_⟩
    cases hf
    refine ⟨Nat.lt_succ_self _, fun heq => ?_, hempty⟩
    exact absurd (h.shared.entry _ heq) (lt_irrefl _)
  · intro other _ hok
    exact ⟨hok.held, hok.owned, hok.pending,
      fun f hf => ⟨Nat.lt_succ_of_lt (hok.reads f hf).1, (hok.reads f hf).2⟩, hok.creates,
      fun f content hf => ⟨Nat.lt_succ_of_lt (hok.temp f content hf).1,
        (hok.temp f content hf).2⟩⟩
  · intro other _
    refine ⟨fun f content content' hf htemp => ?_, fun f content hf hreads => ?_,
      fun f hf => (by cases hf)⟩
    · cases hf
      exact absurd ((h.processes other).temp _ _ htemp).1 (lt_irrefl _)
    · cases hf
      exact absurd ((h.processes other).reads _ hreads).1 (lt_irrefl _)
  · intro other _
    refine ⟨fun f content content' htemp hf => ?_, fun f content _ hf => (by cases hf),
      fun f _ hf => (by cases hf)⟩
    cases hf
    exact absurd ((h.processes other).temp _ _ htemp).1 (lt_irrefl _)

/-- The temporary file is written; no reader sees it. -/
theorem inv_writeTemp {call : Call} {temp : Nat} (h : Inv s)
    (hpc : s.pcs process = .writeTemp call temp record) :
    Inv { s.goto process (.replace call temp record) with
      files := Function.update s.files temp (some record) } := by
  have hself := h.processes process
  rw [hpc] at hself
  obtain ⟨hlt, hentry, -⟩ := hself.temp temp none rfl
  obtain ⟨hissued, hsettled⟩ := hself.held record rfl
  have hlease : State.leaseAt { s.goto process (.replace call temp record) with
      files := Function.update s.files temp (some record) } = s.leaseAt := by
    cases hfile : s.entry with
    | none => simp [State.leaseAt, State.goto, hfile]
    | some f =>
        have hne : f ≠ temp := fun heq => hentry (heq ▸ hfile)
        simp [State.leaseAt, State.goto, hfile, hne]
  have hsettledIff : ∀ leaseId, Settled { s.goto process (.replace call temp record) with
      files := Function.update s.files temp (some record) } leaseId ↔ Settled s leaseId := by
    intro leaseId
    rw [Settled, hlease]
    rfl
  apply inv_of_frame h rfl
  · refine ⟨h.shared.entry, fun f r hf => ?_, fun f r hf => ?_, fun f r hf => ?_, fun r hr => ?_,
      h.shared.unique, h.shared.history⟩
    · by_cases hfile : f = temp
      · exact hfile ▸ hlt
      · exact h.shared.files f r (by simpa [hfile] using hf)
    · by_cases hfile : f = temp
      · subst hfile
        simp only [Function.update_self, Option.some.injEq] at hf
        exact hf ▸ hissued
      · exact h.shared.issued f r (by simpa [hfile] using hf)
    · rw [hsettledIff]
      by_cases hfile : f = temp
      · subst hfile
        simp only [Function.update_self, Option.some.injEq] at hf
        exact hf ▸ hsettled
      · exact h.shared.settled f r (by simpa [hfile] using hf)
    · rw [hlease] at hr
      exact h.shared.current r hr
  · refine ⟨fun r hr => ?_, hself.owned, fun r hr => (by cases hr), fun f hf => (by cases hf),
      fun f hf => (by cases hf), fun f content hf => ?_⟩
    · exact ⟨(hself.held r hr).1, (hsettledIff _).mpr (hself.held r hr).2⟩
    · cases hf
      exact ⟨hlt, hentry, Function.update_self ..⟩
  · intro other hother hok
    have happart := h.apart process other (Ne.symm hother)
    rw [hpc] at happart
    refine ⟨fun r hr => ?_, hok.owned, fun r hr => ?_, fun f hf => ?_, fun f hf => ?_,
      fun f content hf => ?_⟩
    · exact ⟨(hok.held r hr).1, (hsettledIff _).mpr (hok.held r hr).2⟩
    · obtain ⟨h1, h2, h3⟩ := hok.pending r hr
      exact ⟨h1, h2, fun hs => h3 ((hsettledIff _).mp hs)⟩
    · have hne : f ≠ temp := fun heq => happart.reads temp none rfl (heq ▸ hf)
      refine ⟨(hok.reads f hf).1, fun r hr => (hok.reads f hf).2 r (by simpa [hne] using hr)⟩
    · obtain ⟨h1, h2⟩ := hok.creates f hf
      have hne : f ≠ temp := fun heq => hentry (heq ▸ h1)
      exact ⟨h1, by simpa [hne] using h2⟩
    · have hne : f ≠ temp := fun heq => happart.temps temp none content rfl (heq ▸ hf)
      obtain ⟨h1, h2, h3⟩ := hok.temp f content hf
      exact ⟨h1, h2, by simpa [hne] using h3⟩
  · intro other hother
    have happart := h.apart process other (Ne.symm hother)
    rw [hpc] at happart
    refine ⟨fun f content content' hf => ?_, fun f content hf => ?_, fun f hf => (by cases hf)⟩
    · cases hf
      exact happart.temps temp none content' rfl
    · cases hf
      exact happart.reads temp none rfl
  · intro other hother
    have happart := h.apart other process hother
    rw [hpc] at happart
    refine ⟨fun f content content' htemp hf => ?_, fun f content _ hf => (by cases hf),
      fun f _ hf => (by cases hf)⟩
    cases hf
    exact happart.temps temp content none htemp rfl

/-- The rename puts the rewritten lease at the path. Its identifier is not released,
    so it is the identifier of the lease that was there. -/
theorem inv_replace {call : Call} {temp : Nat} (h : Inv s)
    (hpc : s.pcs process = .replace call temp record) (hlive : record.leaseId ∉ s.released) :
    Inv { s.goto process .idle with entry := some temp } := by
  have hself := h.processes process
  rw [hpc] at hself
  obtain ⟨hlt, -, hwritten⟩ := hself.temp temp (some record) rfl
  obtain ⟨-, hsettled⟩ := hself.held record rfl
  obtain ⟨current, hlease, hid⟩ := hsettled.resolve_left hlive
  have hnew : State.leaseAt { s.goto process .idle with entry := some temp } = some record :=
    hwritten
  have hsettledIff : ∀ leaseId,
      Settled { s.goto process .idle with entry := some temp } leaseId ↔ Settled s leaseId := by
    intro leaseId
    rw [Settled, hnew, Settled, hlease]
    simp [State.goto, hid]
  have hfilled : ∀ file, s.entry = some file → s.files file ≠ none := by
    intro file hfile hnone
    rw [State.leaseAt, hfile, Option.bind_some, hnone] at hlease
    cases hlease
  apply inv_of_frame h rfl
  · refine ⟨fun f hf => ?_, h.shared.files, h.shared.issued, fun f r hf => ?_, fun r hr => ?_,
      h.shared.unique, h.shared.history⟩
    · cases hf
      exact hlt
    · exact (hsettledIff _).mpr (h.shared.settled f r hf)
    · rw [hnew, Option.some.injEq] at hr
      exact hr ▸ hlive
  · exact pcOk_idle _ _
  · intro other hother hok
    have happart := h.apart process other (Ne.symm hother)
    rw [hpc] at happart
    refine ⟨fun r hr => ?_, hok.owned, fun r hr => ?_, hok.reads, fun f hf => ?_,
      fun f content hf => ?_⟩
    · exact ⟨(hok.held r hr).1, (hsettledIff _).mpr (hok.held r hr).2⟩
    · obtain ⟨h1, h2, h3⟩ := hok.pending r hr
      exact ⟨h1, h2, fun hs => h3 ((hsettledIff _).mp hs)⟩
    · obtain ⟨h1, h2⟩ := hok.creates f hf
      exact absurd h2 (hfilled f h1)
    · obtain ⟨h1, h2, h3⟩ := hok.temp f content hf
      refine ⟨h1, fun heq => ?_, h3⟩
      rw [Option.some.injEq] at heq
      exact happart.temps temp (some record) content rfl (heq ▸ hf)
  · intro other _
    exact apart_idle_left _
  · intro other _
    exact apart_idle_right _

/-! ### Releasing -/

/-- The owner unlinks the path: what it names is its own lease, which becomes
    released. -/
theorem inv_unlink (h : Inv s) (hpc : s.pcs process = .unlink record) (hentry : s.entry = some file) :
    Inv { s.goto process .idle with
      entry := none
      released := ((s.files file).map (·.leaseId)).toList ++ s.released } := by
  have hself := h.processes process
  rw [hpc] at hself
  obtain ⟨howner, hlive⟩ := hself.owned record rfl
  obtain ⟨hissued, hsettled⟩ := hself.held record rfl
  obtain ⟨current, hlease, hid⟩ := hsettled.resolve_left hlive
  have hfile : s.files file = some current := by
    rwa [State.leaseAt, hentry] at hlease
  have hreleased : ((s.files file).map (·.leaseId)).toList ++ s.released =
      record.leaseId :: s.released := by
    simp [hfile, hid]
  rw [hreleased]
  have hnew : State.leaseAt { s.goto process .idle with
      entry := none, released := record.leaseId :: s.released } = none := rfl
  have hsettledIff : ∀ leaseId, Settled { s.goto process .idle with
      entry := none, released := record.leaseId :: s.released } leaseId ↔
        Settled s leaseId := by
    intro leaseId
    rw [Settled, hnew, Settled, hlease]
    simp [hid, or_comm, eq_comm]
  -- another process never owns this lease: its identifier was issued to one process
  have hforeign : ∀ other, other ≠ process → ∀ r : WorkflowLeaseRecord, r.owner = other →
      (r.leaseId, r.owner) ∈ s.issued → r.leaseId ∉ s.released →
      r.leaseId ∉ record.leaseId :: s.released := by
    intro other hother r hrowner hrissued hrlive hmem
    rcases List.mem_cons.mp hmem with hmem | hmem
    · have hsame := h.shared.unique _ _ _ (hmem ▸ hrissued) hissued
      exact hother (hrowner.symm.trans (hsame.trans howner))
    · exact hrlive hmem
  apply inv_of_frame h rfl
  · refine ⟨fun f hf => (by cases hf), h.shared.files, h.shared.issued, fun f r hf => ?_,
      fun r hr => ?_, h.shared.unique, fun leaseId hmem => ?_⟩
    · exact (hsettledIff _).mpr (h.shared.settled f r hf)
    · rw [hnew] at hr
      cases hr
    · rcases List.mem_cons.mp hmem with hmem | hmem
      · exact ⟨record.owner, hmem ▸ hissued⟩
      · exact h.shared.history leaseId hmem
  · exact pcOk_idle _ _
  · intro other hother hok
    refine ⟨fun r hr => ?_, fun r hr => ?_, fun r hr => ?_, fun f hf => ?_, fun f hf => ?_,
      fun f content hf => ?_⟩
    · exact ⟨(hok.held r hr).1, (hsettledIff _).mpr (hok.held r hr).2⟩
    · obtain ⟨hrowner, hrlive⟩ := hok.owned r hr
      have hheld : (s.pcs other).held = some r := by
        cases hcase : s.pcs other <;> simp_all [Pc.owned, Pc.held]
      exact ⟨hrowner, hforeign other hother r hrowner (hok.held r hheld).1 hrlive⟩
    · obtain ⟨h1, h2, h3⟩ := hok.pending r hr
      exact ⟨h1, h2, fun hs => h3 ((hsettledIff _).mp hs)⟩
    · refine ⟨(hok.reads f hf).1, fun r hr hrowner => ?_⟩
      exact hforeign other hother r hrowner (h.shared.issued f r hr)
        ((hok.reads f hf).2 r hr hrowner)
    · obtain ⟨h1, h2⟩ := hok.creates f hf
      rw [hentry, Option.some.injEq] at h1
      rw [← h1, hfile] at h2
      cases h2
    · exact ⟨(hok.temp f content hf).1, fun heq => (by cases heq), (hok.temp f content hf).2.2⟩
  · intro other _
    exact apart_idle_left _
  · intro other _
    exact apart_idle_right _

/-! ### Reading -/

/-- What a call makes of the record it read: a rewrite keeps the identifier and the
    owner, and only the owner rewrites by a call that is not adopted, or unlinks. -/
structure AfterReadOk (process : ProcessIdentity) (call : Call) (record : WorkflowLeaseRecord)
    (next : AfterRead) : Prop where
  rewrite : ∀ rewritten, next = .rewrite rewritten →
    rewritten.leaseId = record.leaseId ∧ rewritten.owner = record.owner ∧
      (call.adopted = false → record.owner = process)
  unlink : next = .unlink → record.owner = process

theorem bindPlan_same {plan : ControllerPlan} {now : String} {bound : WorkflowLeaseRecord}
    (h : bindPlan plan now record = .ok bound) :
    bound.leaseId = record.leaseId ∧ bound.owner = record.owner := by
  simp only [bindPlan, bind_eq_ok, require_eq_ok, exists_const, pure, Except.pure,
    Except.ok.injEq] at h
  obtain ⟨-, -, -, -, -, -, rfl⟩ := h
  exact ⟨rfl, rfl⟩

theorem afterReadOk_rewrite {call : Call} {rewritten : WorkflowLeaseRecord}
    (hid : rewritten.leaseId = record.leaseId) (howner : rewritten.owner = record.owner)
    (howned : call.adopted = false → record.owner = process) :
    AfterReadOk process call record (.rewrite rewritten) where
  rewrite := by
    intro other heq
    cases heq
    exact ⟨hid, howner, howned⟩
  unlink heq := by cases heq

theorem afterRead_ok {site : LeaseSite} {input : Input} {call : Call} {next : AfterRead}
    (h : afterRead site process input record call = .ok next) :
    AfterReadOk process call record next := by
  cases call with
  | heartbeat expectation =>
      simp only [afterRead, bind_eq_ok, pure, Except.pure, Except.ok.injEq] at h
      obtain ⟨⟨⟩, hvalid, rfl⟩ := h
      exact afterReadOk_rewrite rfl rfl fun _ => owner_of_revalidate hvalid
  | bindSession expectation sessionId =>
      simp only [afterRead, bind_eq_ok, pure, Except.pure, Except.ok.injEq] at h
      obtain ⟨⟨⟩, hvalid, rfl⟩ := h
      exact afterReadOk_rewrite rfl rfl fun _ => owner_of_revalidate hvalid
  | bindControllerPlan transactionId repositoryIdentity plan =>
      simp only [afterRead, bind_eq_ok, pure, Except.pure, Except.ok.injEq] at h
      obtain ⟨⟨⟩, hvalid, bound, hbound, rfl⟩ := h
      obtain ⟨hid, hsame⟩ := bindPlan_same hbound
      exact afterReadOk_rewrite hid hsame fun _ => owner_of_revalidate hvalid
  | heartbeatAdopted identity =>
      simp only [afterRead, bind_eq_ok, pure, Except.pure, Except.ok.injEq] at h
      obtain ⟨⟨⟩, -, rfl⟩ := h
      exact afterReadOk_rewrite rfl rfl fun hcall => by cases hcall
  | release expectation =>
      simp only [afterRead, bind_eq_ok, pure, Except.pure, Except.ok.injEq] at h
      obtain ⟨⟨⟩, -, rfl⟩ := h
      exact ⟨fun _ heq => (by cases heq), fun heq => (by cases heq)⟩
  | releaseRevalidated expectation =>
      simp only [afterRead, bind_eq_ok, pure, Except.pure, Except.ok.injEq] at h
      obtain ⟨⟨⟩, hvalid, rfl⟩ := h
      exact ⟨fun _ heq => (by cases heq), fun _ => owner_of_revalidate hvalid⟩

/-- A process that holds no file moves on. -/
theorem inv_plain {pc : Pc} (h : Inv s) (hself : PcOk s process pc) (htemp : pc.temp = none)
    (hcreates : pc.creates = none)
    (hreads : ∀ file, pc.reads = some file → s.entry = some file) :
    Inv (s.goto process pc) := by
  apply inv_goto h hself
  · intro other _
    exact apart_plain_left htemp hcreates
  · intro other _
    refine apart_plain_right htemp hcreates fun f content hf hpc => ?_
    exact ((h.processes other).temp f content hf).2.1 (hreads f hpc)

theorem pcOk_openRead (s : State) (process : ProcessIdentity) (call : Call) :
    PcOk s process (.openRead call) := by
  constructor <;> intros <;> simp_all [Pc.held, Pc.owned, Pc.pending, Pc.reads, Pc.creates, Pc.temp]

theorem inv_openRead (h : Inv s) (call : Call) : Inv (s.goto process (.openRead call)) :=
  inv_plain h (pcOk_openRead _ _ _) rfl rfl fun f hf => by cases hf

theorem inv_statRead (h : Inv s) (call : Call) (hentry : s.entry = some file) :
    Inv (s.goto process (.statRead call file)) := by
  refine inv_plain h ?_ rfl rfl fun f hf => by cases hf; exact hentry
  refine ⟨fun r hr => (by cases hr), fun r hr => (by cases hr), fun r hr => (by cases hr),
    fun f hf => ?_, fun f hf => (by cases hf), fun f content hf => (by cases hf)⟩
  cases hf
  refine ⟨h.shared.entry file hentry, fun r hr _ => h.shared.current r ?_⟩
  rw [State.leaseAt, hentry]
  exact hr

/-- The process moves to a counter that holds the same files and records. -/
theorem inv_same {pc : Pc} (h : Inv s) (hheld : pc.held = (s.pcs process).held)
    (howned : pc.owned = (s.pcs process).owned) (hpending : pc.pending = (s.pcs process).pending)
    (hreads : pc.reads = (s.pcs process).reads) (hcreates : pc.creates = (s.pcs process).creates)
    (htemp : pc.temp = (s.pcs process).temp) : Inv (s.goto process pc) := by
  have hok := h.processes process
  apply inv_goto h
  · refine ⟨?_, ?_, ?_, ?_, ?_, ?_⟩
    · rw [hheld]; exact hok.held
    · rw [howned]; exact hok.owned
    · rw [hpending]; exact hok.pending
    · rw [hreads]; exact hok.reads
    · rw [hcreates]; exact hok.creates
    · rw [htemp]; exact hok.temp
  · intro other hother
    have hapart := h.apart process other (Ne.symm hother)
    refine ⟨?_, ?_, ?_⟩
    · rw [htemp]; exact hapart.temps
    · rw [htemp]; exact hapart.reads
    · rw [hcreates]; exact hapart.creates
  · intro other hother
    have hapart := h.apart other process hother
    refine ⟨?_, ?_, ?_⟩
    · rw [htemp]; exact hapart.temps
    · rw [hreads]; exact hapart.reads
    · rw [hcreates]; exact hapart.creates

/-- The process goes on with what it read. -/
theorem inv_loadRead {call : Call} {site : LeaseSite} {input : Input} {next : AfterRead}
    (h : Inv s) (hpc : s.pcs process = .loadRead call file) (hfile : s.files file = some record)
    (hnext : afterRead site process input record call = .ok next) :
    Inv (match next with
      | .rewrite rewritten => s.goto process (.openOld call rewritten)
      | .readAgain again => s.goto process (.openRead again)
      | .unlink => s.goto process (.unlink record)) := by
  have hself := h.processes process
  rw [hpc] at hself
  have hread := (hself.reads file rfl).2 record hfile
  have hissued := h.shared.issued file record hfile
  have hsettled := h.shared.settled file record hfile
  have hok := afterRead_ok hnext
  cases next with
  | readAgain again => exact inv_openRead h again
  | rewrite rewritten =>
      obtain ⟨hid, howner, howned⟩ := hok.rewrite rewritten rfl
      refine inv_plain h ?_ rfl rfl fun f hf => by cases hf
      refine ⟨fun r hr => ?_, fun r hr => ?_, fun r hr => (by cases hr), fun f hf => (by cases hf),
        fun f hf => (by cases hf), fun f content hf => (by cases hf)⟩
      · cases hr
        rw [hid, howner]
        exact ⟨hissued, hsettled⟩
      · cases hadopted : call.adopted with
        | true => simp [Pc.owned, hadopted] at hr
        | false =>
            simp only [Pc.owned, hadopted, Bool.false_eq_true, if_false, Option.some.injEq] at hr
            subst hr
            have hmine := howned hadopted
            exact ⟨howner.trans hmine, by rw [hid]; exact hread hmine⟩
  | unlink =>
      have hmine := hok.unlink rfl
      refine inv_plain h ?_ rfl rfl fun f hf => by cases hf
      refine ⟨fun r hr => ?_, fun r hr => ?_, fun r hr => (by cases hr), fun f hf => (by cases hf),
        fun f hf => (by cases hf), fun f content hf => (by cases hf)⟩
      · cases hr
        exact ⟨hissued, hsettled⟩
      · cases hr
        exact ⟨hmine, hread hmine⟩

/-! ### Every timely step keeps the invariant -/

variable {P : Platform} {site : LeaseSite} {input : Input}

/-- An owner never holds a released lease, so only a child's rename can be late. -/
theorem live_of_timely {call : Call} {temp : Nat} (h : Inv s) (htimely : Timely s process)
    (hpc : s.pcs process = .replace call temp record) : record.leaseId ∉ s.released := by
  cases hadopted : call.adopted with
  | true =>
      cases call with
      | heartbeatAdopted identity => exact htimely identity temp record hpc
      | _ => cases hadopted
  | false =>
      have hself := h.processes process
      rw [hpc] at hself
      exact (hself.owned record (by simp [Pc.owned, hadopted])).2

theorem acquireRecord_same {request : AcquireRequest} {leaseId stamp : String}
    (h : acquireRecord P site process request leaseId stamp = .ok record) :
    record.owner = process ∧ record.leaseId = leaseId := by
  simp only [acquireRecord, bind_eq_ok, require_eq_ok, exists_const, pure, Except.pure,
    Except.ok.injEq] at h
  obtain ⟨-, rfl⟩ := h
  exact ⟨rfl, rfl⟩

theorem inv_begin (h : Inv s) (hpc : s.pcs process = .idle)
    (hfresh : ∀ owner, (input.leaseId, owner) ∉ s.issued) :
    Inv (step P site s process input) := by
  simp only [step, hpc]
  split
  · exact h
  · split
    · exact h
    · split
      · exact h
      · split
        · exact h
        · rename_i record hrecord
          obtain ⟨howner, hid⟩ := acquireRecord_same hrecord
          exact inv_issue h howner hid hfresh
  · exact inv_openRead h _

theorem inv_step (h : Inv s) (htimely : Timely s process)
    (hfresh : ∀ owner, (input.leaseId, owner) ∉ s.issued) :
    Inv (step P site s process input) := by
  cases hpc : s.pcs process with
  | idle => exact inv_begin h hpc hfresh
  | openNew record =>
      simp only [step, hpc]
      split
      · exact inv_goto_idle h
      · rename_i hentry
        exact inv_create h hpc hentry
  | checkNew file record =>
      simp only [step, hpc]
      split
      · apply inv_same h <;> rw [hpc] <;> rfl
      · exact inv_goto_idle h
  | writeNew file record =>
      simp only [step, hpc]
      exact inv_write h hpc
  | openRead call =>
      simp only [step, hpc]
      split
      · exact inv_goto_idle h
      · rename_i file hentry
        exact inv_statRead h call hentry
  | statRead call file =>
      simp only [step, hpc]
      split
      · apply inv_same h <;> rw [hpc] <;> rfl
      · exact inv_goto_idle h
  | loadRead call file =>
      simp only [step, hpc]
      split
      · exact inv_goto_idle h
      · rename_i record hfile
        split
        · exact inv_goto_idle h
        · rename_i rewritten hnext
          exact inv_loadRead h hpc hfile hnext
        · rename_i again hnext
          exact inv_loadRead h hpc hfile hnext
        · rename_i hnext
          exact inv_loadRead h hpc hfile hnext
  | openOld call record =>
      simp only [step, hpc]
      split
      · exact inv_goto_idle h
      · apply inv_same h <;> rw [hpc] <;> rfl
  | statOld call file record =>
      simp only [step, hpc]
      split
      · apply inv_same h <;> rw [hpc] <;> rfl
      · exact inv_goto_idle h
  | createTemp call record =>
      simp only [step, hpc]
      exact inv_createTemp h hpc
  | writeTemp call temp record =>
      simp only [step, hpc]
      exact inv_writeTemp h hpc
  | replace call temp record =>
      simp only [step, hpc]
      exact inv_replace h hpc (live_of_timely h htimely hpc)
  | unlink record =>
      simp only [step, hpc]
      split
      · exact inv_goto_idle h
      · rename_i file hentry
        exact inv_unlink h hpc hentry

theorem Run.inv (h : Run P site Timely s) : Inv s := by
  induction h with
  | initial => exact inv_initial
  | step prior fresh admits ih => exact inv_step ih admits fresh

/-! ### Released leases stay released -/

theorem leaseId_of_same {before after : WorkflowLeaseRecord} (hbefore : s.leaseAt = some before)
    (hafter : s.leaseAt = some after) : after.leaseId = before.leaseId := by
  rw [Option.some.inj (hafter.symm.trans hbefore)]

/-- A step that finds a lease at the path and leaves one there leaves the same lease. -/
theorem step_keeps_lease (h : Inv s) (htimely : Timely s process)
    {before after : WorkflowLeaseRecord} (hbefore : s.leaseAt = some before)
    (hafter : (step P site s process input).leaseAt = some after) :
    after.leaseId = before.leaseId := by
  have hself := h.processes process
  cases hpc : s.pcs process with
  | idle =>
      simp only [step, hpc] at hafter
      repeat' split at hafter
      all_goals exact leaseId_of_same hbefore hafter
  | openNew record =>
      simp only [step, hpc] at hafter
      split at hafter
      · exact leaseId_of_same hbefore hafter
      · rename_i hentry
        rw [State.leaseAt, hentry] at hbefore
        cases hbefore
  | writeNew file record =>
      rw [hpc] at hself
      obtain ⟨hentry, hempty⟩ := hself.creates file rfl
      rw [State.leaseAt, hentry, Option.bind_some, hempty] at hbefore
      cases hbefore
  | writeTemp call temp record =>
      rw [hpc] at hself
      obtain ⟨-, hentry, -⟩ := hself.temp temp none rfl
      simp only [step, hpc] at hafter
      cases hfile : s.entry with
      | none =>
          rw [State.leaseAt, hfile] at hbefore
          cases hbefore
      | some file =>
          have hne : file ≠ temp := fun heq => hentry (heq ▸ hfile)
          rw [State.leaseAt, hfile, Option.bind_some] at hbefore
          simp only [State.leaseAt, State.goto, hfile, Option.bind_some,
            Function.update_of_ne hne] at hafter
          rw [Option.some.inj (hafter.symm.trans hbefore)]
  | replace call temp record =>
      have hlive := live_of_timely h htimely hpc
      rw [hpc] at hself
      obtain ⟨-, -, hwritten⟩ := hself.temp temp (some record) rfl
      obtain ⟨current, hcurrent, hid⟩ := ((hself.held record rfl).2).resolve_left hlive
      simp only [step, hpc] at hafter
      have hrecord : after = record := Option.some.inj (hafter.symm.trans hwritten)
      rw [hrecord, ← hid, Option.some.inj (hbefore.symm.trans hcurrent)]
  | unlink record =>
      simp only [step, hpc] at hafter
      split at hafter
      · exact leaseId_of_same hbefore hafter
      · cases hafter
  | checkNew file record | openRead call | statRead call file | loadRead call file
  | openOld call record | statOld call file record | createTemp call record =>
      simp only [step, hpc] at hafter
      repeat' split at hafter
      all_goals exact leaseId_of_same hbefore hafter

/-- A late rename brings a released lease back. -/
theorem late_rename_resurrects (h : Inv s) {call : Call} {temp : Nat}
    (hpc : s.pcs process = .replace call temp record) (hreleased : record.leaseId ∈ s.released) :
    ∃ lease, (step P site s process input).leaseAt = some lease ∧
      lease.leaseId ∈ (step P site s process input).released := by
  have hself := h.processes process
  rw [hpc] at hself
  obtain ⟨-, -, hwritten⟩ := hself.temp temp (some record) rfl
  refine ⟨record, ?_, ?_⟩
  · simp only [step, hpc]
    exact hwritten
  · simp only [step, hpc]
    exact hreleased

/-- In a run whose steps are all timely no lease at the path was ever released, a step
    that leaves a lease at the path leaves the one it found there, and of the steps
    that come next exactly the timely ones keep this so. -/
theorem released_stay_released_iff (h : Run P site Timely s) :
    (∀ lease, s.leaseAt = some lease → lease.leaseId ∉ s.released) ∧
    ∀ process input, (∀ owner, (input.leaseId, owner) ∉ s.issued) →
      ((∀ lease, (step P site s process input).leaseAt = some lease →
        lease.leaseId ∉ (step P site s process input).released) ↔ Timely s process) ∧
      (Timely s process → ∀ before after, s.leaseAt = some before →
        (step P site s process input).leaseAt = some after → after.leaseId = before.leaseId) := by
  have hinv := h.inv
  refine ⟨hinv.shared.current, fun process input hfresh => ⟨⟨fun hkept => ?_, fun htimely => ?_⟩,
    fun htimely before after => step_keeps_lease hinv htimely⟩⟩
  · intro identity temp record hpc hreleased
    obtain ⟨lease, hlease, hmem⟩ :=
      late_rename_resurrects hinv hpc hreleased
    exact hkept lease hlease hmem
  · exact (inv_step hinv htimely hfresh).shared.current

/-! ### A late heartbeat -/

def sampleController : ProcessIdentity := ⟨100, "Thu Jan  1 00:00:00 2026", "host"⟩

def sampleExecutor : ProcessIdentity := ⟨101, "Thu Jan  1 00:00:01 2026", "host"⟩

def sampleSuccessor : ProcessIdentity := ⟨102, "Thu Jan  1 00:00:02 2026", "host"⟩

def sampleSite : LeaseSite := ⟨id, "/work"⟩

def sampleAcquire : AcquireRequest where
  leaseType := .integrationWriter
  repositoryIdentity := "repository"
  repositoryPathFingerprint := "path"
  repositoryPath := none
  projectId := "project"
  transactionId := "transaction-1"
  workflowType := .milestoneIntegration
  milestone := none
  featureId := none
  startingBranch := "milestone"
  startingHead := "head"
  runId := "run-1"
  sessionId := none
  policy := []

def sampleRelease : LeaseExpectation where
  transactionId := "transaction-1"
  workflowType := .milestoneIntegration
  repositoryIdentity := "repository"
  projectId := "project"

def sampleInput (begin : Option Begin) (leaseId : String) : Input where
  begin := begin
  leaseId := leaseId
  now := "2026-01-01T00:00:00+00:00"
  observed := ⟨true, sampleController.start⟩

/-- The lease the controller acquires, as `to_dict` hands it to the executor. -/
def sampleIdentityFields : Fields :=
  match acquireRecord Platform.reference sampleSite sampleController sampleAcquire "lease-1"
      "2026-01-01T00:00:00+00:00" with
  | .ok record => record.toFields
  | .error _ => []

/-- The controller acquires a lease, its executor reads it and writes the temporary
    file of a heartbeat, the controller releases, another process acquires, and the
    executor renames. -/
def lateHeartbeat : List (ProcessIdentity × Input) :=
  [(sampleController, sampleInput (some (.acquire sampleAcquire)) "lease-1"),
   (sampleController, sampleInput none "unused-1"), (sampleController, sampleInput none "unused-1"),
   (sampleController, sampleInput none "unused-1"),
   (sampleExecutor, sampleInput (some (.call (.heartbeatAdopted sampleIdentityFields))) "unused-1"),
   (sampleExecutor, sampleInput none "unused-1"), (sampleExecutor, sampleInput none "unused-1"),
   (sampleExecutor, sampleInput none "unused-1"), (sampleExecutor, sampleInput none "unused-1"),
   (sampleExecutor, sampleInput none "unused-1"), (sampleExecutor, sampleInput none "unused-1"),
   (sampleExecutor, sampleInput none "unused-1"),
   (sampleController, sampleInput (some (.call (.release sampleRelease))) "unused-1"),
   (sampleController, sampleInput none "unused-1"), (sampleController, sampleInput none "unused-1"),
   (sampleController, sampleInput none "unused-1"), (sampleController, sampleInput none "unused-1"),
   (sampleController, sampleInput none "unused-1"), (sampleController, sampleInput none "unused-1"),
   (sampleController, sampleInput none "unused-1"),
   (sampleSuccessor, sampleInput (some (.acquire sampleAcquire)) "lease-2"),
   (sampleSuccessor, sampleInput none "unused-1"), (sampleSuccessor, sampleInput none "unused-1"),
   (sampleSuccessor, sampleInput none "unused-1")]

def runFrom (P : Platform) (site : LeaseSite) (s : State)
    (moves : List (ProcessIdentity × Input)) : State :=
  moves.foldl (fun s move => step P site s move.1 move.2) s

/-- Every move is allowed and draws a new identifier. -/
def admissibleAlong (P : Platform) (site : LeaseSite) (allowed : State → ProcessIdentity → Prop)
    [∀ s process, Decidable (allowed s process)] : State → List (ProcessIdentity × Input) → Bool
  | _, [] => true
  | s, move :: rest =>
      decide (move.2.leaseId ∉ s.issued.map Prod.fst ∧ allowed s move.1) &&
        admissibleAlong P site allowed (step P site s move.1 move.2) rest

theorem run_runFrom {allowed : State → ProcessIdentity → Prop}
    [∀ s process, Decidable (allowed s process)] (moves : List (ProcessIdentity × Input))
    (h : Run P site allowed s) (hadmissible : admissibleAlong P site allowed s moves = true) :
    Run P site allowed (runFrom P site s moves) := by
  induction moves generalizing s with
  | nil => exact h
  | cons move rest ih =>
      simp only [admissibleAlong, Bool.and_eq_true, decide_eq_true_eq] at hadmissible
      obtain ⟨⟨hfresh, hallowed⟩, hrest⟩ := hadmissible
      refine ih (h.step (fun owner hmem => hfresh ?_) hallowed) hrest
      exact List.mem_map_of_mem hmem

def isTimely (s : State) (process : ProcessIdentity) : Bool :=
  match s.pcs process with
  | .replace (.heartbeatAdopted _) _ record => decide (record.leaseId ∉ s.released)
  | _ => true

theorem timely_iff : Timely s process ↔ isTimely s process = true := by
  unfold Timely isTimely
  split
  · rename_i identity temp record hpc
    rw [hpc, decide_eq_true_eq]
    constructor
    · intro h
      exact h identity temp record rfl
    · intro h _ _ _ heq
      cases heq
      exact h
  · rename_i hpc
    refine iff_of_true ?_ rfl
    intro identity temp record heq
    exact absurd heq (hpc identity temp record)

instance (s : State) (process : ProcessIdentity) : Decidable (Timely s process) :=
  decidable_of_iff' _ timely_iff

theorem Run.mono {allowed weaker : State → ProcessIdentity → Prop}
    (hweaker : ∀ s process, allowed s process → weaker s process) (h : Run P site allowed s) :
    Run P site weaker s := by
  induction h with
  | initial => exact .initial
  | step prior fresh admits ih => exact ih.step fresh (hweaker _ _ admits)

def sampleReacquired : State :=
  runFrom Platform.reference sampleSite State.initial lateHeartbeat

theorem lateHeartbeat_facts :
    admissibleAlong Platform.reference sampleSite Timely State.initial lateHeartbeat = true ∧
      sampleReacquired.leaseAt.map (·.leaseId) = some "lease-2" ∧
      sampleReacquired.released = ["lease-1"] ∧
      (step Platform.reference sampleSite sampleReacquired sampleExecutor
        (sampleInput none "unused-1")).leaseAt.map (·.leaseId) = some "lease-1" := by
  decide +kernel

theorem sampleReacquired_run :
    Run Platform.reference sampleSite Timely sampleReacquired :=
  run_runFrom lateHeartbeat .initial lateHeartbeat_facts.1

theorem released_stay_released_reacquired :
    ∃ s : State, s.leaseAt.map (·.leaseId) = some "lease-2" ∧ s.released = ["lease-1"] ∧
      ∀ lease, s.leaseAt = some lease → lease.leaseId ∉ s.released := by
  obtain ⟨-, hlease, hreleased, -⟩ := lateHeartbeat_facts
  exact ⟨_, hlease, hreleased, (released_stay_released_iff sampleReacquired_run).1⟩

/-- The executor's rename comes after the controller released the lease and another
    process acquired its own: it replaces that process's lease by the released one. -/
theorem late_heartbeat_replaces :
    ∃ s, Run Platform.reference sampleSite (fun _ _ => True) s ∧
      s.leaseAt.map (·.leaseId) = some "lease-2" ∧ s.released = ["lease-1"] ∧
      (step Platform.reference sampleSite s sampleExecutor
        (sampleInput none "unused-1")).leaseAt.map (·.leaseId) = some "lease-1" := by
  obtain ⟨-, hlease, hreleased, hlate⟩ := lateHeartbeat_facts
  exact ⟨_, sampleReacquired_run.mono fun _ _ _ => trivial, hlease, hreleased, hlate⟩

end Conveyor.LeaseInterleaving
