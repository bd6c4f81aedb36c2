import Conveyor.AutopilotOwnership
import Conveyor.Redaction
import Mathlib.Logic.Function.Basic
import Mathlib.Tactic.IntervalCases

/-!
# Ownership calls, one file-system call at a time

`acquire`, `heartbeat` and `release` of `AutopilotOwnership` are sequences of file-system
calls without a lock (`autopilot.py`). Each live process has a program counter and `step`
makes one file-system call of one process; a call that raises puts its process back to
`idle`. The paths of the record and of its archives are directory entries that name files,
so that a process that opened a file, or created it, keeps it when the entry moves on.

`Inv` is kept by every step that is `Undisturbed`: a takeover removes the record that it
read, and not the one that meanwhile took its place.
-/

namespace Conveyor.OwnershipInterleaving

open Library

/-! ### The processes -/

inductive Call where
  | acquire (runId : String)
  | heartbeat (event : String) (projection : Fields)
  | release

/-- A takeover: the run that takes over, the run it takes over from, and the file with the
    record that it read. -/
structure Takeover where
  runId : String
  deadRun : String
  file : Nat
  existing : Fields

/-- Where a process is: the next file-system call it makes. The temporary file of a
    heartbeat is nobody else's before `replaceOwn` moves it to the path of the record. -/
inductive Pc where
  | idle
  | openRead (call : Call)
  | loadRead (call : Call) (file : Nat)
  | checkArchive (takeover : Takeover)
  | openArchive (takeover : Takeover)
  | loadArchive (takeover : Takeover) (archived : Nat)
  | unlinkDead (takeover : Takeover)
  | replaceDead (takeover : Takeover)
  | create (runId : String)
  | writeNew (runId : String) (file : Nat) (record : Fields)
  | keepRun (runId : String)
  | replaceOwn (document : Fields)
  | unlinkOwn

/-- What a step draws from outside: the call an idle process begins, and what it observes. -/
structure Input where
  begin : Option Call
  survey : OwnerSurvey

/-- The paths, the files they name and the processes with the run each one keeps. `author`
    and `issued` record who created which file and who drew which run identifier, `owners`
    who returned from `acquire` and did not release since, and `trespasses` who removed or
    replaced the record of which other process. -/
structure State where
  entry : Option Nat
  archives : String → Option Nat
  files : Nat → Option Fields
  author : Nat → Option ProcessIdentity
  nextFile : Nat
  pcs : ProcessIdentity → Pc
  runIds : ProcessIdentity → Option String
  issued : List (String × Option ProcessIdentity)
  owners : List ProcessIdentity
  trespasses : List (ProcessIdentity × ProcessIdentity)

namespace State

def goto (s : State) (process : ProcessIdentity) (pc : Pc) : State :=
  { s with pcs := Function.update s.pcs process pc }

/-- The process whose record, or whose file for one, is at the path. -/
def holder (s : State) : Option ProcessIdentity := s.entry.bind s.author

/-- The trespasses once this process removed or replaced what is at the path. -/
def trespassesBy (s : State) (process : ProcessIdentity) :
    List (ProcessIdentity × ProcessIdentity) :=
  match s.holder with
  | some other => if other = process then s.trespasses else (process, other) :: s.trespasses
  | none => s.trespasses

/-- The process is no owner any more. -/
def disown (s : State) (process : ProcessIdentity) : List ProcessIdentity :=
  s.owners.filter (· ≠ process)

end State

/-! ### Steps -/

/-- What a call does with the record that it read. -/
def afterRead (project : AutopilotProject) (s : State) (process : ProcessIdentity)
    (survey : OwnerSurvey) (file : Nat) (record : Fields) : Call → Result Pc
  | .acquire runId => do
      let deadRun ← takeover project process survey record
      return .checkArchive ⟨runId, deadRun, file, record⟩
  | .heartbeat event projection => do
      ownsRecord process (s.runIds process) record
      return .replaceOwn (heartbeatRecord survey event projection record)
  | .release => do
      releasable (s.runIds process) record
      return .unlinkOwn

/-- `path.exists()`, the first file-system call of each call. -/
def start (s : State) (process : ProcessIdentity) (call : Call) : State :=
  match s.entry, call with
  | some _, call => s.goto process (.openRead call)
  | none, .acquire runId => s.goto process (.create runId)
  | none, .heartbeat _ _ => s
  | none, .release => { s with owners := s.disown process }

/-- The run identifiers drawn once the process begins this call. -/
def issue (s : State) (process : ProcessIdentity) : Call → State
  | .acquire runId => { s with issued := (runId, some process) :: s.issued }
  | _ => s

/-- One file-system call of one process. -/
def step (P : Platform) (project : AutopilotProject) (s : State) (process : ProcessIdentity)
    (input : Input) : State :=
  match s.pcs process with
  | .idle =>
      match input.begin with
      | none => s
      | some call => start (issue s process call) process call
  | .openRead call =>
      match s.entry with
      | none => s.goto process .idle
      | some file => s.goto process (.loadRead call file)
  | .loadRead call file =>
      match s.files file with
      | none => s.goto process .idle
      | some record =>
          match afterRead project s process input.survey file record call with
          | .error _ => s.goto process .idle
          | .ok pc => s.goto process pc
  | .checkArchive t =>
      match s.archives t.deadRun with
      | none => s.goto process (.replaceDead t)
      | some _ => s.goto process (.openArchive t)
  | .openArchive t =>
      match s.archives t.deadRun with
      | none => s.goto process .idle
      | some archived => s.goto process (.loadArchive t archived)
  | .loadArchive t archived =>
      if s.files archived = some t.existing then s.goto process (.unlinkDead t)
      else s.goto process .idle
  | .unlinkDead t =>
      match s.entry with
      | none => s.goto process .idle
      | some _ =>
          { s.goto process (.create t.runId) with
            entry := none
            trespasses := s.trespassesBy process }
  | .replaceDead t =>
      match s.entry with
      | none => s.goto process .idle
      | some file =>
          { s.goto process (.create t.runId) with
            entry := none
            archives := Function.update s.archives t.deadRun (some file)
            trespasses := s.trespassesBy process }
  | .create runId =>
      match s.entry with
      | some _ => s.goto process .idle
      | none =>
          { s.goto process (.writeNew runId s.nextFile
              (ownershipRecord project process input.survey runId .null)) with
            entry := some s.nextFile
            author := Function.update s.author s.nextFile (some process)
            nextFile := s.nextFile + 1 }
  | .writeNew runId file record =>
      { s.goto process (.keepRun runId) with
        files := Function.update s.files file (some record) }
  | .keepRun runId =>
      { s.goto process .idle with
        runIds := Function.update s.runIds process (some runId)
        owners := process :: s.owners }
  | .replaceOwn document =>
      { s.goto process .idle with
        entry := some s.nextFile
        files := Function.update s.files s.nextFile (some (redactFields P document))
        author := Function.update s.author s.nextFile (some process)
        nextFile := s.nextFile + 1
        trespasses := s.trespassesBy process }
  | .unlinkOwn =>
      match s.entry with
      | none => s.goto process .idle
      | some _ =>
          { s.goto process .idle with
            entry := none
            owners := s.disown process
            trespasses := s.trespassesBy process }

/-- No record, or one that none of the live processes wrote; archives of earlier takeovers. -/
structure Start (s : State) : Prop where
  entry : ∀ file, s.entry = some file → file < s.nextFile
  files : ∀ file record, s.files file = some record → file < s.nextFile
  named : ∀ file record runId, s.files file = some record → record.get "run_id" = .str runId →
    (runId, none) ∈ s.issued
  issued : ∀ runId owner, (runId, owner) ∈ s.issued → owner = none
  author : ∀ file, s.author file = none
  pcs : ∀ process, s.pcs process = .idle
  runIds : ∀ process, s.runIds process = none
  owners : s.owners = []
  trespasses : s.trespasses = []

/-- No live process is observed to be dead. -/
def Sound (live : ProcessIdentity → Prop) (process : ProcessIdentity) (survey : OwnerSurvey) :
    Prop :=
  ∀ other, live other → other.host = process.host → survey.alive other.pid ≠ some false

/-- Runs of the live processes in any order, as far as `allowed` lets them step. A drawn run
    identifier was never drawn before. -/
inductive Run (P : Platform) (project : AutopilotProject) (live : ProcessIdentity → Prop)
    (allowed : State → ProcessIdentity → Prop) : State → Prop where
  | start {s : State} (begins : Start s) : Run P project live allowed s
  | step {s : State} {process : ProcessIdentity} {input : Input}
      (prior : Run P project live allowed s) (alive : live process)
      (sound : Sound live process input.survey)
      (fresh : ∀ runId, input.begin = some (.acquire runId) →
        ∀ owner, (runId, owner) ∉ s.issued)
      (admits : allowed s process) :
      Run P project live allowed (step P project s process input)

/-- There is one owner, and nobody removed or replaced another live process's record. -/
structure Exclusive (s : State) : Prop where
  one : ∀ first ∈ s.owners, ∀ second ∈ s.owners, first = second
  untouched : s.trespasses = []

/-- A takeover is about to remove the very file that it read, and a heartbeat to write a
    record whose redaction leaves the run and the host as they are. -/
structure Undisturbed (P : Platform) (s : State) (process : ProcessIdentity) : Prop where
  takeover : ∀ t, s.pcs process = .unlinkDead t ∨ s.pcs process = .replaceDead t →
    s.entry = some t.file
  heartbeat : ∀ document, s.pcs process = .replaceOwn document → ∀ key ∈ ["run_id", "host"],
    Fields.get (redactFields P document) key = Fields.get document key

/-! ### The invariant -/

/-- The record names its owner, and a run that this owner drew. -/
structure Named (issued : List (String × Option ProcessIdentity)) (owner : ProcessIdentity)
    (record : Fields) : Prop where
  names : NamesOwner owner record
  run : ∃ runId, record.get "run_id" = .str runId ∧ (runId, some owner) ∈ issued

/-- The process created the record at the path and has not returned from `acquire` yet. -/
def Pc.arriving : Pc → Bool
  | .writeNew _ _ _ | .keepRun _ => true
  | _ => false

/-- The run that a process is about to own the project for. -/
def Pc.pending : Pc → Option String
  | .openRead (.acquire runId) | .loadRead (.acquire runId) _ | .create runId
  | .writeNew runId _ _ | .keepRun runId => some runId
  | .checkArchive t | .openArchive t | .loadArchive t _ | .unlinkDead t | .replaceDead t =>
      some t.runId
  | _ => none

/-- The file whose owner a process found dead. -/
def Pc.dead : Pc → Option Nat
  | .checkArchive t | .openArchive t | .loadArchive t _ | .unlinkDead t | .replaceDead t =>
      some t.file
  | _ => none

/-- The process acts as the owner. -/
def Pc.owning : Pc → Bool
  | .replaceOwn _ | .unlinkOwn => true
  | _ => false

/-- What holds of one process at its program counter. -/
structure PcOk (s : State) (process : ProcessIdentity) (pc : Pc) : Prop where
  pending : ∀ runId, pc.pending = some runId → (runId, some process) ∈ s.issued
  dead : ∀ file, pc.dead = some file → file < s.nextFile ∧ s.author file = none
  reads : ∀ call file, pc = .loadRead call file → file < s.nextFile ∧
    (s.author file = some process → process ∈ s.owners)
  owning : pc.owning = true → process ∈ s.owners
  writes : ∀ runId file record, pc = .writeNew runId file record → file < s.nextFile ∧
    s.author file = some process ∧ Named s.issued process record
  rewrites : ∀ document, pc = .replaceOwn document → Named s.issued process document

structure Inv (live : ProcessIdentity → Prop) (s : State) : Prop where
  entry : ∀ file, s.entry = some file → file < s.nextFile
  files : ∀ file record, s.files file = some record → file < s.nextFile
  authors : ∀ file owner, s.author file = some owner → live owner ∧ file < s.nextFile
  unique : ∀ runId first second, (runId, first) ∈ s.issued → (runId, second) ∈ s.issued →
    first = second
  runIds : ∀ process runId, s.runIds process = some runId → (runId, some process) ∈ s.issued
  named : ∀ file record owner, s.files file = some record → s.author file = some owner →
    Named s.issued owner record
  old : ∀ file record runId, s.files file = some record → s.author file = none →
    record.get "run_id" = .str runId → (runId, none) ∈ s.issued
  holds : ∀ process, process ∈ s.owners ∨ (s.pcs process).arriving = true ↔
    s.holder = some process
  pcs : ∀ process, PcOk s process (s.pcs process)
  trespasses : s.trespasses = []

variable {P : Platform} {project : AutopilotProject} {live : ProcessIdentity → Prop}
  {s t : State} {process other : ProcessIdentity} {pc : Pc} {record : Fields}

theorem pcOk_idle (s : State) (process : ProcessIdentity) : PcOk s process .idle := by
  constructor <;> intros <;> simp_all [Pc.pending, Pc.dead, Pc.owning]

theorem Start.inv (h : Start s) : Inv live s where
  entry := h.entry
  files := h.files
  authors file owner hauthor := by
    rw [h.author] at hauthor
    cases hauthor
  unique runId first second hfirst hsecond := by
    rw [h.issued _ _ hfirst, h.issued _ _ hsecond]
  runIds process runId hrun := by
    rw [h.runIds] at hrun
    cases hrun
  named file record owner _ hauthor := by
    rw [h.author] at hauthor
    cases hauthor
  old file record runId hfile _ hrun := h.named file record runId hfile hrun
  holds process := by
    have hnone : s.holder = none := by
      rw [State.holder, Option.bind_eq_none_iff]
      intro file _
      exact h.author file
    rw [h.owners, h.pcs, hnone]
    simp [Pc.arriving]
  pcs process := by
    rw [h.pcs]
    exact pcOk_idle s process
  trespasses := h.trespasses

theorem Named.mono {issued later : List (String × Option ProcessIdentity)}
    (h : Named issued process record) (hissued : issued ⊆ later) : Named later process record where
  names := h.names
  run := by
    obtain ⟨runId, hrun, hmem⟩ := h.run
    exact ⟨runId, hrun, hissued hmem⟩

/-- What a process holds survives the steps that leave its ownership and the authors alone. -/
theorem PcOk.mono (h : PcOk s process pc) (hissued : s.issued ⊆ t.issued)
    (hnext : s.nextFile ≤ t.nextFile)
    (hauthor : ∀ file, file < s.nextFile → t.author file = s.author file)
    (howners : process ∈ s.owners → process ∈ t.owners) : PcOk t process pc where
  pending runId hpending := hissued (h.pending runId hpending)
  dead file hdead := by
    obtain ⟨hlt, hnone⟩ := h.dead file hdead
    exact ⟨by omega, (hauthor file hlt).trans hnone⟩
  reads call file hpc := by
    obtain ⟨hlt, hown⟩ := h.reads call file hpc
    refine ⟨by omega, fun hsome => howners (hown ?_)⟩
    rw [← hauthor file hlt]
    exact hsome
  owning howning := howners (h.owning howning)
  writes runId file record hpc := by
    obtain ⟨hlt, hown, hnamed⟩ := h.writes runId file record hpc
    exact ⟨by omega, (hauthor file hlt).trans hown, hnamed.mono hissued⟩
  rewrites document hpc := (h.rewrites document hpc).mono hissued

/-- The program counters after a step of one process. -/
theorem pcs_of_frame (h : Inv live s) (hpcs : t.pcs = Function.update s.pcs process pc)
    (hissued : s.issued ⊆ t.issued) (hnext : s.nextFile ≤ t.nextFile)
    (hauthor : ∀ file, file < s.nextFile → t.author file = s.author file)
    (howners : ∀ other, other ≠ process → other ∈ s.owners → other ∈ t.owners)
    (hself : PcOk t process pc) (other : ProcessIdentity) : PcOk t other (t.pcs other) := by
  rw [hpcs]
  by_cases hother : other = process
  · rw [hother, Function.update_self]
    exact hself
  · rw [Function.update_of_ne hother]
    exact (h.pcs other).mono hissued hnext hauthor (howners other hother)

/-- Who holds the path after a step in which the process neither comes to hold it nor stops. -/
theorem holds_of_frame (h : Inv live s) (hpcs : t.pcs = Function.update s.pcs process pc)
    (howners : t.owners = s.owners) (hholder : t.holder = s.holder)
    (harriving : pc.arriving = (s.pcs process).arriving) (other : ProcessIdentity) :
    other ∈ t.owners ∨ (t.pcs other).arriving = true ↔ t.holder = some other := by
  rw [hpcs, howners, hholder, ← h.holds]
  by_cases hother : other = process
  · rw [hother, Function.update_self, harriving]
  · rw [Function.update_of_ne hother]

/-- A step that only moves the process. -/
theorem inv_goto (h : Inv live s) (harriving : pc.arriving = (s.pcs process).arriving)
    (hself : PcOk s process pc) : Inv live (s.goto process pc) where
  entry := h.entry
  files := h.files
  authors := h.authors
  unique := h.unique
  runIds := h.runIds
  named := h.named
  old := h.old
  holds := holds_of_frame h rfl rfl rfl harriving
  pcs := by
    have hgoto : PcOk (s.goto process pc) process pc :=
      hself.mono (fun _ => id) le_rfl (fun _ _ => rfl) id
    exact pcs_of_frame h rfl (fun _ => id) le_rfl (fun _ _ => rfl) (fun _ _ => id) hgoto
  trespasses := h.trespasses

theorem inv_goto_idle (h : Inv live s) (harriving : (s.pcs process).arriving = false) :
    Inv live (s.goto process .idle) :=
  inv_goto h harriving.symm (pcOk_idle s process)

/-- A process that holds the path trespasses on nobody. -/
theorem trespassesBy_of_holder (h : s.trespasses = [])
    (hholder : ∀ other, s.holder = some other → other = process) : s.trespassesBy process = [] := by
  unfold State.trespassesBy
  cases hother : s.holder with
  | none => exact h
  | some other =>
      simp only [hholder other hother, if_true]
      exact h

/-! ### Beginning a call -/

theorem mem_disown {first second : ProcessIdentity} :
    first ∈ s.disown second ↔ first ∈ s.owners ∧ first ≠ second := by
  simp [State.disown]

/-- A new run identifier is drawn. -/
theorem inv_issue {call : Call} (h : Inv live s)
    (hfresh : ∀ runId, call = .acquire runId → ∀ owner, (runId, owner) ∉ s.issued) :
    Inv live (issue s process call) := by
  cases call with
  | heartbeat event projection => exact h
  | release => exact h
  | acquire runId =>
      have hnew := hfresh runId rfl
      have hissued : s.issued ⊆ (runId, some process) :: s.issued := fun _ =>
        List.mem_cons_of_mem _
      refine ⟨h.entry, h.files, h.authors, fun id first second hfirst hsecond => ?_,
        fun p id hrun => hissued (h.runIds p id hrun),
        fun file record owner hfile hauthor => (h.named file record owner hfile hauthor).mono hissued,
        fun file record id hfile hauthor hrun => hissued (h.old file record id hfile hauthor hrun),
        h.holds, fun other => (h.pcs other).mono hissued le_rfl (fun _ _ => rfl) id, h.trespasses⟩
      rcases List.mem_cons.mp hfirst with hfirst | hfirst <;>
        rcases List.mem_cons.mp hsecond with hsecond | hsecond
      · rw [Prod.mk.injEq] at hfirst hsecond
        rw [hfirst.2, hsecond.2]
      · rw [Prod.mk.injEq] at hfirst
        exact absurd (hfirst.1 ▸ hsecond) (hnew second)
      · rw [Prod.mk.injEq] at hsecond
        exact absurd (hsecond.1 ▸ hfirst) (hnew first)
      · exact h.unique id first second hfirst hsecond

theorem pcOk_openRead {call : Call}
    (hissued : ∀ runId, call = .acquire runId → (runId, some process) ∈ s.issued) :
    PcOk s process (.openRead call) := by
  cases call <;> constructor <;> intros <;> simp_all [Pc.pending, Pc.dead, Pc.owning]

theorem pcOk_create {runId : String} (hissued : (runId, some process) ∈ s.issued) :
    PcOk s process (.create runId) := by
  constructor <;> intros <;> simp_all [Pc.pending, Pc.dead, Pc.owning]

/-- A release that finds no record gives up an ownership that was lost. -/
theorem inv_absent (h : Inv live s) (hentry : s.entry = none) :
    Inv live { s with owners := s.disown process } := by
  have howner : ∀ other, other ∈ s.disown process ↔ other ∈ s.owners := by
    intro other
    have hnot : other ∉ s.owners := fun hmem => by
      have hholds := (h.holds other).mp (Or.inl hmem)
      rw [State.holder, hentry] at hholds
      cases hholds
    exact iff_of_false (fun hmem => hnot (mem_disown.mp hmem).1) hnot
  refine ⟨h.entry, h.files, h.authors, h.unique, h.runIds, h.named, h.old, fun other => ?_,
    fun other => (h.pcs other).mono (fun _ => id) le_rfl (fun _ _ => rfl) (howner other).mpr,
    h.trespasses⟩
  exact (or_congr (howner other) Iff.rfl).trans (h.holds other)

theorem inv_start {call : Call} (h : Inv live s) (hidle : s.pcs process = .idle)
    (hissued : ∀ runId, call = .acquire runId → (runId, some process) ∈ s.issued) :
    Inv live (start s process call) := by
  have harriving : (s.pcs process).arriving = false := by rw [hidle]; rfl
  cases hentry : s.entry with
  | some file =>
      simp only [start, hentry]
      exact inv_goto h harriving.symm (pcOk_openRead hissued)
  | none =>
      cases call with
      | acquire runId =>
          simp only [start, hentry]
          exact inv_goto h harriving.symm (pcOk_create (hissued runId rfl))
      | heartbeat event projection =>
          simp only [start, hentry]
          exact h
      | release =>
          simp only [start, hentry]
          exact hentry ▸ inv_absent h hentry

/-! ### Reading -/

theorem inv_openRead {call : Call} {file : Nat} (h : Inv live s)
    (hpc : s.pcs process = .openRead call) (hentry : s.entry = some file) :
    Inv live (s.goto process (.loadRead call file)) := by
  have hself := h.pcs process
  rw [hpc] at hself
  refine inv_goto h (by rw [hpc]; rfl) ?_
  refine ⟨fun runId hpending => ?_, fun file hdead => (by cases hdead),
    fun call' file' heq => ?_, fun howning => (by cases howning),
    fun runId file record heq => (by cases heq), fun document heq => (by cases heq)⟩
  · cases call with
    | acquire run => exact hself.pending runId hpending
    | heartbeat event projection => cases hpending
    | release => cases hpending
  · cases heq
    refine ⟨h.entry file hentry, fun hauthor => ?_⟩
    have hholder : s.holder = some process := by
      rw [State.holder, hentry]
      exact hauthor
    refine ((h.holds process).mpr hholder).resolve_right fun harriving => ?_
    rw [hpc] at harriving
    cases harriving

/-- The record of a run that a process keeps was created by this process. -/
theorem author_of_run {file : Nat} {runId : String} (h : Inv live s)
    (hfile : s.files file = some record) (hkept : s.runIds process = some runId)
    (hrun : record.get "run_id" = .str runId) : s.author file = some process := by
  have hissued := h.runIds process runId hkept
  cases hauthor : s.author file with
  | none =>
      have hold := h.old file record runId hfile hauthor hrun
      cases h.unique runId _ _ hissued hold
  | some owner =>
      obtain ⟨runId', hrun', hissued'⟩ := (h.named file record owner hfile hauthor).run
      rw [hrun, Json.str.injEq] at hrun'
      subst hrun'
      rw [h.unique runId _ _ hissued hissued']

theorem run_of_kept {runId : Option String} {value : Json}
    (h : runId.map Json.str = some value) : ∃ text, runId = some text ∧ value = .str text := by
  obtain ⟨text, hrun, hvalue⟩ := Option.map_eq_some_iff.mp h
  exact ⟨text, hrun, hvalue.symm⟩

/-- What a call goes on to do with the record it read is what its process may do. -/
theorem pcOk_afterRead {call : Call} {file : Nat} {survey : OwnerSurvey} (h : Inv live s)
    (hsound : Sound live process survey) (hpc : s.pcs process = .loadRead call file)
    (hfile : s.files file = some record)
    (hread : afterRead project s process survey file record call = .ok pc) :
    pc.arriving = false ∧ PcOk s process pc := by
  have hself := h.pcs process
  rw [hpc] at hself
  obtain ⟨hlt, hown⟩ := hself.reads call file rfl
  cases call with
  | acquire runId =>
      simp only [afterRead, bind_eq_ok, pure, Except.pure, Except.ok.injEq] at hread
      obtain ⟨deadRun, htakeover, rfl⟩ := hread
      refine ⟨rfl, fun run hpending => ?_, fun f hdead => ?_, fun call f heq => (by cases heq),
        fun howning => (by cases howning), fun run f record heq => (by cases heq),
        fun document heq => (by cases heq)⟩
      · cases hpending
        exact hself.pending runId rfl
      · cases hdead
        refine ⟨hlt, ?_⟩
        by_contra hne
        obtain ⟨owner, hauthor⟩ := Option.ne_none_iff_exists'.mp hne
        have hnamed := (h.named file record owner hfile hauthor).names
        have hlive := (h.authors file owner hauthor).1
        exact not_takeover_of_namesOwner hnamed (hsound owner hlive) htakeover
  | heartbeat event projection =>
      simp only [afterRead, ownsRecord, bind_eq_ok, require_eq_ok, pure, Except.pure,
        Except.ok.injEq] at hread
      obtain ⟨-, ⟨hkept, -, -⟩, rfl⟩ := hread
      obtain ⟨runId, hkept, hrun⟩ := run_of_kept hkept
      have hauthor := author_of_run h hfile hkept hrun
      obtain ⟨hnames, hissued⟩ := h.named file record process hfile hauthor
      refine ⟨rfl, fun run hpending => (by cases hpending), fun f hdead => (by cases hdead),
        fun call f heq => (by cases heq), fun _ => hown hauthor,
        fun run f record heq => (by cases heq), fun document heq => ?_⟩
      cases heq
      refine ⟨⟨?_, ?_⟩, ?_⟩
      · rw [get_heartbeatRecord _ _ (by decide)]
        exact hnames.processId
      · rw [get_heartbeatRecord _ _ (by decide)]
        exact hnames.host
      · rw [get_heartbeatRecord _ _ (by decide)]
        exact hissued
  | release =>
      simp only [afterRead, releasable, bind_eq_ok, require_eq_ok, pure, Except.pure,
        Except.ok.injEq] at hread
      obtain ⟨-, hkept, rfl⟩ := hread
      obtain ⟨runId, hkept, hrun⟩ := run_of_kept hkept
      have hauthor := author_of_run h hfile hkept hrun
      exact ⟨rfl, fun run hpending => (by cases hpending), fun f hdead => (by cases hdead),
        fun call f heq => (by cases heq), fun _ => hown hauthor,
        fun run f record heq => (by cases heq), fun document heq => (by cases heq)⟩

/-! ### Taking over -/

/-- A step of a takeover that leaves the files alone. -/
theorem inv_takeover {t : Takeover} (h : Inv live s) (harriving : (s.pcs process).arriving = false)
    (hpending : (s.pcs process).pending = some t.runId) (hdead : (s.pcs process).dead = some t.file)
    (hpc : pc.arriving = false ∧ pc.pending = some t.runId ∧ pc.dead = some t.file ∧
      pc.owning = false ∧ (∀ call file, pc ≠ .loadRead call file)) :
    Inv live (s.goto process pc) := by
  have hself := h.pcs process
  obtain ⟨hpc1, hpc2, hpc3, hpc4, hpc5⟩ := hpc
  refine inv_goto h (hpc1.trans harriving.symm) ?_
  refine ⟨fun runId hrun => ?_, fun file hfile => ?_, fun call file heq => absurd heq (hpc5 call file),
    fun howning => ?_, fun runId file record heq => ?_, fun document heq => ?_⟩
  · rw [hpc2] at hrun
    exact hself.pending runId (hpending.trans hrun)
  · rw [hpc3] at hfile
    exact hself.dead file (hdead.trans hfile)
  · rw [hpc4] at howning
    cases howning
  · subst heq
    cases hpc1
  · subst heq
    cases hpc4

/-- The record that a takeover read is moved or unlinked while it is still at the path. -/
theorem inv_remove {t : Takeover} {archives : String → Option Nat} (h : Inv live s)
    (harriving : (s.pcs process).arriving = false)
    (hpending : (s.pcs process).pending = some t.runId) (hdead : (s.pcs process).dead = some t.file)
    (hentry : s.entry = some t.file) :
    Inv live { s.goto process (.create t.runId) with
      entry := none
      archives := archives
      trespasses := s.trespassesBy process } := by
  have hself := h.pcs process
  have hholder : s.holder = none := by
    rw [State.holder, hentry]
    exact (hself.dead t.file hdead).2
  refine ⟨fun file hfile => (by cases hfile), h.files, h.authors, h.unique, h.runIds, h.named, h.old,
    ?_, ?_, ?_⟩
  · exact holds_of_frame h rfl rfl hholder.symm harriving.symm
  · exact pcs_of_frame h rfl (fun _ => id) le_rfl (fun _ _ => rfl) (fun _ _ => id)
      (pcOk_create (hself.pending t.runId hpending))
  · refine trespassesBy_of_holder h.trespasses fun other hother => ?_
    rw [hholder] at hother
    cases hother

/-! ### Creating the record -/

theorem inv_create {runId : String} {survey : OwnerSurvey} (h : Inv live s)
    (hlive : live process) (hpc : s.pcs process = .create runId) (hentry : s.entry = none) :
    Inv live { s.goto process (.writeNew runId s.nextFile
        (ownershipRecord project process survey runId .null)) with
      entry := some s.nextFile
      author := Function.update s.author s.nextFile (some process)
      nextFile := s.nextFile + 1 } := by
  have hself := h.pcs process
  rw [hpc] at hself
  have hissued := hself.pending runId rfl
  have hauthor : ∀ file, file < s.nextFile →
      Function.update s.author s.nextFile (some process) file = s.author file := fun file hlt =>
    Function.update_of_ne (Nat.ne_of_lt hlt) _ _
  have hempty : s.holder = none := by rw [State.holder, hentry]; rfl
  refine ⟨fun file hfile => ?_, fun file record hfile => ?_, fun file owner hfile => ?_, h.unique,
    h.runIds, fun file record owner hfile howner => ?_, fun file record run hfile howner => ?_,
    fun other => ?_, ?_, h.trespasses⟩
  · cases hfile
    exact Nat.lt_succ_self _
  · exact Nat.lt_succ_of_lt (h.files file record hfile)
  · change Function.update s.author s.nextFile (some process) file = some owner at hfile
    by_cases hsame : file = s.nextFile
    · rw [hsame, Function.update_self, Option.some.injEq] at hfile
      exact ⟨hfile ▸ hlive, hsame ▸ Nat.lt_succ_self _⟩
    · rw [Function.update_of_ne hsame] at hfile
      obtain ⟨howner, hlt⟩ := h.authors file owner hfile
      exact ⟨howner, Nat.lt_succ_of_lt hlt⟩
  · change Function.update s.author s.nextFile (some process) file = some owner at howner
    rw [hauthor file (h.files file record hfile)] at howner
    exact h.named file record owner hfile howner
  · change Function.update s.author s.nextFile (some process) file = none at howner
    rw [hauthor file (h.files file record hfile)] at howner
    exact h.old file record run hfile howner
  · have hnone : ∀ other, ¬(other ∈ s.owners ∨ (s.pcs other).arriving = true) := fun other hholds => by
      have hholder := (h.holds other).mp hholds
      rw [hempty] at hholder
      cases hholder
    have hholder : State.holder { s.goto process (.writeNew runId s.nextFile
        (ownershipRecord project process survey runId .null)) with
          entry := some s.nextFile
          author := Function.update s.author s.nextFile (some process)
          nextFile := s.nextFile + 1 } = some process := by
      simp [State.holder]
    rw [hholder]
    by_cases hother : other = process
    · subst hother
      exact iff_of_true (Or.inr (by simp [State.goto, Pc.arriving])) rfl
    · refine iff_of_false (fun hholds => hnone other ?_) fun hsome =>
        hother (Option.some.inj hsome).symm
      simpa [State.goto, hother] using hholds
  · refine pcs_of_frame h rfl (fun _ => id) (Nat.le_succ _) hauthor (fun _ _ => id) ?_
    refine ⟨fun run hpending => ?_, fun f hdead => (by cases hdead), fun call f heq => (by cases heq),
      fun howning => (by cases howning), fun run f record heq => ?_,
      fun document heq => (by cases heq)⟩
    · cases hpending
      exact hissued
    · cases heq
      exact ⟨Nat.lt_succ_self _, Function.update_self _ _ _,
        namesOwner_ownershipRecord .null, runId, get_runId_ownershipRecord .null, hissued⟩

theorem inv_writeNew {runId : String} {file : Nat} (h : Inv live s)
    (hpc : s.pcs process = .writeNew runId file record) :
    Inv live { s.goto process (.keepRun runId) with
      files := Function.update s.files file (some record) } := by
  have hself := h.pcs process
  rw [hpc] at hself
  obtain ⟨hlt, hauthor, hnamed⟩ := hself.writes runId file record rfl
  refine ⟨h.entry, fun f r hfile => ?_, h.authors, h.unique, h.runIds, fun f r owner hfile howner => ?_,
    fun f r run hfile howner => ?_, holds_of_frame h rfl rfl rfl (by rw [hpc]; rfl), ?_,
    h.trespasses⟩
  · change Function.update s.files file (some record) f = some r at hfile
    by_cases hsame : f = file
    · exact hsame ▸ hlt
    · rw [Function.update_of_ne hsame] at hfile
      exact h.files f r hfile
  · change Function.update s.files file (some record) f = some r at hfile
    change s.author f = some owner at howner
    by_cases hsame : f = file
    · rw [hsame, Function.update_self, Option.some.injEq] at hfile
      rw [hsame, hauthor, Option.some.injEq] at howner
      exact hfile ▸ howner ▸ hnamed
    · rw [Function.update_of_ne hsame] at hfile
      exact h.named f r owner hfile howner
  · change Function.update s.files file (some record) f = some r at hfile
    change s.author f = none at howner
    by_cases hsame : f = file
    · rw [hsame, hauthor] at howner
      cases howner
    · rw [Function.update_of_ne hsame] at hfile
      exact h.old f r run hfile howner
  · refine pcs_of_frame h rfl (fun _ => id) le_rfl (fun _ _ => rfl) (fun _ _ => id) ?_
    refine ⟨fun run hpending => ?_, fun f hdead => (by cases hdead), fun call f heq => (by cases heq),
      fun howning => (by cases howning), fun run f record heq => (by cases heq),
      fun document heq => (by cases heq)⟩
    cases hpending
    exact hself.pending runId rfl

/-- The process returns from `acquire`. -/
theorem inv_keepRun {runId : String} (h : Inv live s) (hpc : s.pcs process = .keepRun runId) :
    Inv live { s.goto process .idle with
      runIds := Function.update s.runIds process (some runId)
      owners := process :: s.owners } := by
  have hself := h.pcs process
  rw [hpc] at hself
  refine ⟨h.entry, h.files, h.authors, h.unique, fun p run hrun => ?_, h.named, h.old,
    fun other => ?_, ?_, h.trespasses⟩
  · change Function.update s.runIds process (some runId) p = some run at hrun
    by_cases hsame : p = process
    · rw [hsame, Function.update_self, Option.some.injEq] at hrun
      rw [hsame, ← hrun]
      exact hself.pending runId rfl
    · rw [Function.update_of_ne hsame] at hrun
      exact h.runIds p run hrun
  · refine Iff.trans ?_ (h.holds other)
    by_cases hother : other = process
    · subst hother
      exact iff_of_true (Or.inl List.mem_cons_self) (Or.inr (by rw [hpc]; rfl))
    · simp [State.goto, hother]
  · exact pcs_of_frame h rfl (fun _ => id) le_rfl (fun _ _ => rfl)
      (fun _ _ => List.mem_cons_of_mem _) (pcOk_idle _ _)

/-! ### The owner's own calls -/

/-- The process at the path is the one that acts as the owner. -/
theorem holder_of_owning (h : Inv live s) (howning : (s.pcs process).owning = true) :
    s.holder = some process :=
  (h.holds process).mp (Or.inl ((h.pcs process).owning howning))

theorem not_arriving_of_owning (h : pc.owning = true) : pc.arriving = false := by
  cases pc <;> first | rfl | cases h

theorem inv_replaceOwn {document : Fields} (h : Inv live s) (hlive : live process)
    (hpc : s.pcs process = .replaceOwn document)
    (hkept : ∀ key ∈ ["run_id", "host"],
      Fields.get (redactFields P document) key = Fields.get document key) :
    Inv live { s.goto process .idle with
      entry := some s.nextFile
      files := Function.update s.files s.nextFile (some (redactFields P document))
      author := Function.update s.author s.nextFile (some process)
      nextFile := s.nextFile + 1
      trespasses := s.trespassesBy process } := by
  have hself := h.pcs process
  rw [hpc] at hself
  have hholder := holder_of_owning h (by rw [hpc]; rfl)
  have hnamed : Named s.issued process (redactFields P document) := by
    obtain ⟨⟨hpid, hhost⟩, runId, hrun, hissued⟩ := hself.rewrites document rfl
    refine ⟨⟨?_, ?_⟩, runId, ?_, hissued⟩
    · have hkey : isSensitiveKey P "process_id" = false :=
        isSensitiveKey_of_ascii P (by decide +kernel) (by decide +kernel)
      rw [get_redactFields _ hkey, hpid]
      rfl
    · exact (hkept "host" (by simp)).trans hhost
    · exact (hkept "run_id" (by simp)).trans hrun
  have hauthor : ∀ file, file < s.nextFile →
      Function.update s.author s.nextFile (some process) file = s.author file := fun file hlt =>
    Function.update_of_ne (Nat.ne_of_lt hlt) _ _
  have hfileOf : ∀ file record,
      Function.update s.files s.nextFile (some (redactFields P document)) file = some record →
        file = s.nextFile ∧ record = redactFields P document ∨ s.files file = some record := by
    intro file record hfile
    by_cases hsame : file = s.nextFile
    · rw [hsame, Function.update_self, Option.some.injEq] at hfile
      exact Or.inl ⟨hsame, hfile.symm⟩
    · rw [Function.update_of_ne hsame] at hfile
      exact Or.inr hfile
  refine ⟨fun file hfile => ?_, fun file record hfile => ?_, fun file owner hfile => ?_, h.unique,
    h.runIds, fun file record owner hfile howner => ?_, fun file record run hfile howner => ?_,
    ?_, ?_, ?_⟩
  · cases hfile
    exact Nat.lt_succ_self _
  · rcases hfileOf file record hfile with ⟨rfl, -⟩ | hold
    · exact Nat.lt_succ_self _
    · exact Nat.lt_succ_of_lt (h.files file record hold)
  · change Function.update s.author s.nextFile (some process) file = some owner at hfile
    by_cases hsame : file = s.nextFile
    · rw [hsame, Function.update_self, Option.some.injEq] at hfile
      exact ⟨hfile ▸ hlive, hsame ▸ Nat.lt_succ_self _⟩
    · rw [Function.update_of_ne hsame] at hfile
      obtain ⟨howner, hlt⟩ := h.authors file owner hfile
      exact ⟨howner, Nat.lt_succ_of_lt hlt⟩
  · change Function.update s.author s.nextFile (some process) file = some owner at howner
    rcases hfileOf file record hfile with ⟨rfl, rfl⟩ | hold
    · rw [Function.update_self, Option.some.injEq] at howner
      exact howner ▸ hnamed
    · rw [hauthor file (h.files file record hold)] at howner
      exact h.named file record owner hold howner
  · change Function.update s.author s.nextFile (some process) file = none at howner
    rcases hfileOf file record hfile with ⟨rfl, -⟩ | hold
    · rw [Function.update_self] at howner
      cases howner
    · rw [hauthor file (h.files file record hold)] at howner
      exact h.old file record run hold howner
  · refine holds_of_frame h rfl rfl ?_ (not_arriving_of_owning (by rw [hpc]; rfl)).symm
    rw [hholder]
    simp [State.holder]
  · exact pcs_of_frame h rfl (fun _ => id) (Nat.le_succ _) hauthor (fun _ _ => id) (pcOk_idle _ _)
  · refine trespassesBy_of_holder h.trespasses fun other hother => ?_
    rw [hholder, Option.some.injEq] at hother
    exact hother.symm

theorem inv_unlinkOwn (h : Inv live s) (hpc : s.pcs process = .unlinkOwn) :
    Inv live { s.goto process .idle with
      entry := none
      owners := s.disown process
      trespasses := s.trespassesBy process } := by
  have hholder := holder_of_owning h (by rw [hpc]; rfl)
  have hnone : ∀ other, other ≠ process → other ∉ s.owners ∧ (s.pcs other).arriving = false := by
    intro other hne
    have hnot : ¬(other ∈ s.owners ∨ (s.pcs other).arriving = true) := fun hholds => by
      have hother := (h.holds other).mp hholds
      rw [hholder, Option.some.injEq] at hother
      exact hne hother.symm
    rw [not_or, Bool.not_eq_true] at hnot
    exact hnot
  refine ⟨fun file hfile => (by cases hfile), h.files, h.authors, h.unique, h.runIds, h.named, h.old,
    fun other => ?_, ?_, ?_⟩
  · refine iff_of_false (fun hholds => ?_) fun hsome => by cases hsome
    rcases hholds with hmem | harriving
    · obtain ⟨hmem, hne⟩ := mem_disown.mp hmem
      exact (hnone other hne).1 hmem
    · change (Function.update s.pcs process .idle other).arriving = true at harriving
      by_cases hother : other = process
      · rw [hother, Function.update_self] at harriving
        cases harriving
      · rw [Function.update_of_ne hother, (hnone other hother).2] at harriving
        cases harriving
  · exact pcs_of_frame h rfl (fun _ => id) le_rfl (fun _ _ => rfl)
      (fun other hne hmem => mem_disown.mpr ⟨hmem, hne⟩) (pcOk_idle _ _)
  · refine trespassesBy_of_holder h.trespasses fun other hother => ?_
    rw [hholder, Option.some.injEq] at hother
    exact hother.symm

/-! ### Every step and every run -/

theorem inv_step {input : Input} (h : Inv live s) (hlive : live process)
    (hsound : Sound live process input.survey)
    (hfresh : ∀ runId, input.begin = some (.acquire runId) → ∀ owner, (runId, owner) ∉ s.issued)
    (hundisturbed : Undisturbed P s process) : Inv live (step P project s process input) := by
  unfold step
  cases hpc : s.pcs process with
  | idle =>
      cases hbegin : input.begin with
      | none => exact h
      | some call =>
          have hissue : Inv live (issue s process call) := inv_issue h fun runId hcall =>
            hfresh runId (hbegin.trans (congrArg some hcall))
          refine inv_start hissue ?_ fun runId hcall => ?_
          · cases call <;> exact hpc
          · subst hcall
            exact List.mem_cons_self
  | openRead call =>
      cases hentry : s.entry with
      | none => exact inv_goto_idle h (by rw [hpc]; rfl)
      | some file => exact inv_openRead h hpc hentry
  | loadRead call file =>
      dsimp only
      cases hfile : s.files file with
      | none => exact inv_goto_idle h (by rw [hpc]; rfl)
      | some record =>
          dsimp only
          cases hread : afterRead project s process input.survey file record call with
          | error failure => exact inv_goto_idle h (by rw [hpc]; rfl)
          | ok pc =>
              obtain ⟨harriving, hself⟩ := pcOk_afterRead h hsound hpc hfile hread
              exact inv_goto h (harriving.trans (by rw [hpc]; rfl)) hself
  | checkArchive t =>
      dsimp only
      cases s.archives t.deadRun with
      | none =>
          exact inv_takeover h (by rw [hpc]; rfl) (by rw [hpc]; rfl) (by rw [hpc]; rfl)
            ⟨rfl, rfl, rfl, rfl, fun _ _ => by simp⟩
      | some archived =>
          exact inv_takeover h (by rw [hpc]; rfl) (by rw [hpc]; rfl) (by rw [hpc]; rfl)
            ⟨rfl, rfl, rfl, rfl, fun _ _ => by simp⟩
  | openArchive t =>
      dsimp only
      cases s.archives t.deadRun with
      | none => exact inv_goto_idle h (by rw [hpc]; rfl)
      | some archived =>
          exact inv_takeover h (by rw [hpc]; rfl) (by rw [hpc]; rfl) (by rw [hpc]; rfl)
            ⟨rfl, rfl, rfl, rfl, fun _ _ => by simp⟩
  | loadArchive t archived =>
      dsimp only
      split
      · exact inv_takeover h (by rw [hpc]; rfl) (by rw [hpc]; rfl) (by rw [hpc]; rfl)
          ⟨rfl, rfl, rfl, rfl, fun _ _ => by simp⟩
      · exact inv_goto_idle h (by rw [hpc]; rfl)
  | unlinkDead t =>
      have hentry := hundisturbed.takeover t (Or.inl hpc)
      simp only [hentry]
      exact inv_remove h (by rw [hpc]; rfl) (by rw [hpc]; rfl) (by rw [hpc]; rfl) hentry
  | replaceDead t =>
      have hentry := hundisturbed.takeover t (Or.inr hpc)
      simp only [hentry]
      exact inv_remove h (by rw [hpc]; rfl) (by rw [hpc]; rfl) (by rw [hpc]; rfl) hentry
  | create runId =>
      cases hentry : s.entry with
      | some file => exact inv_goto_idle h (by rw [hpc]; rfl)
      | none => exact inv_create h hlive hpc hentry
  | writeNew runId file record => exact inv_writeNew h hpc
  | keepRun runId => exact inv_keepRun h hpc
  | replaceOwn document =>
      exact inv_replaceOwn h hlive hpc (hundisturbed.heartbeat document hpc)
  | unlinkOwn =>
      cases hentry : s.entry with
      | none => exact inv_goto_idle h (by rw [hpc]; rfl)
      | some file => exact inv_unlinkOwn h hpc

theorem Run.inv (hrun : Run P project live (Undisturbed P) s) : Inv live s := by
  induction hrun with
  | start begins => exact begins.inv
  | step prior alive sound fresh admits ih => exact inv_step ih alive sound fresh admits

/-- However the calls interleave, there is one owner and nobody touches its record, as long
    as takeovers are undisturbed. -/
theorem single_owner (hrun : Run P project live (Undisturbed P) s) : Exclusive s := by
  have hinv := hrun.inv
  refine ⟨fun first hfirst second hsecond => ?_, hinv.trespasses⟩
  have h1 := (hinv.holds first).mp (Or.inl hfirst)
  have h2 := (hinv.holds second).mp (Or.inl hsecond)
  rw [h1, Option.some.injEq] at h2
  exact h2

/-! ### Two takeovers of one record -/

def sampleProject : AutopilotProject := ⟨"project", "/repository", "identity", "path"⟩

def firstProcess : ProcessIdentity := ⟨11, "monday", "host"⟩

def secondProcess : ProcessIdentity := ⟨12, "tuesday", "host"⟩

def samplePair (process : ProcessIdentity) : Prop :=
  process = firstProcess ∨ process = secondProcess

/-- A clean repository without a writer lease, on a host where process 7 is dead. -/
def sampleSurvey : OwnerSurvey where
  now := "2026-01-01T00:00:00+00:00"
  branch := some "main"
  head := "abc"
  isClean := true
  gitOperation := false
  alive pid := some (pid ≠ 7)
  writer := .ok none

def deadRecord : Fields :=
  ownershipRecord sampleProject ⟨7, "sunday", "host"⟩ sampleSurvey "run-7" .null

/-- The record of the dead process is all there is. -/
def sampleStart : State where
  entry := some 0
  archives _ := none
  files file := if file = 0 then some deadRecord else none
  author _ := none
  nextFile := 1
  pcs _ := .idle
  runIds _ := none
  issued := [("run-7", none)]
  owners := []
  trespasses := []

theorem sampleStart_start : Start sampleStart where
  entry file h := by
    cases h
    exact Nat.one_pos
  files file record h := by
    by_cases hfile : file = 0
    · subst hfile
      exact Nat.one_pos
    · simp [sampleStart, hfile] at h
  named file record runId h hrun := by
    by_cases hfile : file = 0
    · subst hfile
      cases h
      rw [deadRecord, get_runId_ownershipRecord, Json.str.injEq] at hrun
      simp [sampleStart, hrun]
    · simp [sampleStart, hfile] at h
  issued runId owner h := by
    simp only [sampleStart, List.mem_singleton, Prod.mk.injEq] at h
    exact h.2
  author file := rfl
  pcs process := rfl
  runIds process := rfl
  owners := rfl
  trespasses := rfl

theorem sampleSurvey_sound (process : ProcessIdentity) :
    Sound samplePair process sampleSurvey := by
  rintro other (rfl | rfl) -
  · decide
  · decide

def beginning (s : State) (process : ProcessIdentity) (runId : String) : State :=
  step Platform.reference sampleProject s process ⟨some (.acquire runId), sampleSurvey⟩

/-- The state after these processes made one file-system call each, in their order. -/
def after (s : State) (schedule : List ProcessIdentity) : State :=
  schedule.foldl (fun s process => step Platform.reference sampleProject s process
    ⟨none, sampleSurvey⟩) s

section Samples

variable {allowed : State → ProcessIdentity → Prop} {runId : String}

theorem run_beginning (hrun : Run Platform.reference sampleProject samplePair allowed s)
    (hlive : samplePair process) (hfresh : ∀ owner, (runId, owner) ∉ s.issued)
    (hallowed : allowed s process) :
    Run Platform.reference sampleProject samplePair allowed (beginning s process runId) := by
  refine hrun.step hlive (sampleSurvey_sound process) (fun run hrun => ?_) hallowed
  cases hrun
  exact hfresh

theorem run_after {schedule : List ProcessIdentity}
    (hrun : Run Platform.reference sampleProject samplePair allowed s)
    (hlive : ∀ process ∈ schedule, samplePair process)
    (hallowed : ∀ earlier process later, schedule = earlier ++ process :: later →
      allowed (after s earlier) process) :
    Run Platform.reference sampleProject samplePair allowed (after s schedule) := by
  induction schedule generalizing s with
  | nil => exact hrun
  | cons process rest ih =>
      have hstep : Run Platform.reference sampleProject samplePair allowed
          (step Platform.reference sampleProject s process ⟨none, sampleSurvey⟩) :=
        hrun.step (hlive process List.mem_cons_self) (sampleSurvey_sound process)
          (fun _ h => by cases h) (hallowed [] process rest rfl)
      refine ih hstep (fun other hother => hlive other (List.mem_cons_of_mem _ hother)) ?_
      intro earlier other later hsplit
      exact hallowed (process :: earlier) other later (by rw [hsplit]; rfl)

end Samples

/-- The states of a process that takes over alone. -/
def takingOver (steps : Nat) : State :=
  after (beginning sampleStart firstProcess "run-11") (List.replicate steps firstProcess)

theorem takingOver_undisturbed {steps : Nat} (h : steps < 7) :
    Undisturbed Platform.reference (takingOver steps) firstProcess := by
  interval_cases steps
  all_goals
    constructor
    · rintro t (h | h)
      · cases h
      · first
          | (cases h; rfl)
          | cases h
    · rintro document h
      cases h

/-- A takeover by one process alone, from the record of the dead owner to its own. -/
theorem single_owner_takingOver : Exclusive (takingOver 7) := by
  refine single_owner (P := Platform.reference) (run_after (run_beginning (.start sampleStart_start)
    (Or.inl rfl) ?_ ?_) (fun process h => Or.inl (List.eq_of_mem_replicate h)) ?_)
  · simp [sampleStart]
  · constructor
    · rintro t (h | h) <;> cases h
    · rintro document h
      cases h
  · intro earlier process later hsplit
    have hlength := congrArg List.length hsplit
    simp only [List.length_replicate, List.length_append, List.length_cons] at hlength
    obtain ⟨hearlier, hprocess⟩ : earlier = List.replicate earlier.length firstProcess ∧
        process = firstProcess := by
      constructor
      · refine List.eq_replicate_of_mem fun other hother => ?_
        exact List.eq_of_mem_replicate (hsplit ▸ List.mem_append_left _ hother)
      · exact List.eq_of_mem_replicate (hsplit ▸ List.mem_append_right _ List.mem_cons_self)
    rw [hearlier, hprocess]
    exact takingOver_undisturbed (by omega)

/-- Both read the record of the dead owner; the first takes over and returns, and the
    second then finds the archive and unlinks what is at the path now. -/
def bothTakeOver : State :=
  let reading := after (beginning sampleStart firstProcess "run-11") [firstProcess, firstProcess]
  after (beginning reading secondProcess "run-12")
    [secondProcess, secondProcess, firstProcess, firstProcess, firstProcess, firstProcess,
     firstProcess, secondProcess, secondProcess, secondProcess, secondProcess, secondProcess,
     secondProcess, secondProcess]

theorem bothTakeOver_not_exclusive :
    takeover sampleProject firstProcess sampleSurvey deadRecord = .ok "run-7" ∧
      Run Platform.reference sampleProject samplePair (fun _ _ => True) bothTakeOver ∧
      bothTakeOver.owners = [secondProcess, firstProcess] ∧ ¬Exclusive bothTakeOver := by
  refine ⟨rfl, ?_, rfl, fun h => ?_⟩
  · refine run_after (run_beginning (run_after (run_beginning (.start sampleStart_start)
      (Or.inl rfl) ?_ trivial) ?_ fun _ _ _ _ => trivial) (Or.inr rfl) ?_ trivial) ?_
      fun _ _ _ _ => trivial
    · simp [sampleStart]
    · simp [samplePair]
    · change ∀ owner, ("run-12", owner) ∉ [("run-11", some firstProcess), ("run-7", none)]
      simp
    · simp [samplePair]
  · exact absurd (h.one secondProcess List.mem_cons_self firstProcess (by decide +kernel)) (by decide)

end Conveyor.OwnershipInterleaving
