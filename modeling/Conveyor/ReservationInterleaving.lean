import Conveyor.LaunchReservation
import Conveyor.Redaction
import Mathlib.Logic.Function.Basic

/-!
# Launch reservations, one file-system call at a time

The calls of `DurableLock` are sequences of file-system calls without a lock (`locks.py`): only
the creation of the reservation is exclusive. Each live process has a program counter and `step`
makes one file-system call of one process; a call that raises puts its process back to `idle`.
The path is a directory entry that names a file, so that a process that opened a file, or created
it, keeps it when the entry moves on.

`Inv` is kept by every step that is `Undisturbed`: a recovery moves the file that it read, and not
the one that meanwhile took its place. `reservation_exclusive_iff` says that nothing less will do.
-/

namespace Conveyor.ReservationInterleaving

open Library

/-! ### The processes -/

inductive Call where
  | heartbeat (phase : String)
  | release
  | recoverStale (expectedRepositoryIdentity : String)

inductive Begin where
  | acquire (record : Fields)
  | call (call : Call)

/-- Where a process is: the next file-system call it makes. The temporary file of a heartbeat is
    nobody else's before `replaceOwn` moves it to the path. -/
inductive Pc where
  | idle
  | create (record : Fields)
  | write (file : Nat) (record : Fields)
  | sync
  | openRead (call : Call)
  | load (call : Call) (file : Nat)
  | replaceOwn (record : Fields)
  | unlinkOwn
  | checkRecovered (file : Nat) (recovered : String)
  | moveStale (file : Nat) (recovered : String)

/-- The host with its processes, the run of each process, and the stem of the path. -/
structure LockSite where
  stem : String
  host : String
  runId : ProcessIdentity → String
  /-- `process_alive`. -/
  processAlive : Int → Option Bool

/-- What a step draws from outside: the call an idle process begins, the time, and whether the
    file-system call of the step fails. -/
structure Input where
  begin : Option Begin
  now : String
  raises : Bool

/-- The path, the names of the recovered reservations, the files, and the processes. `author`
    records who created which file, `holders` who returned from `acquire` and began no release
    since, and `trespasses` who removed, moved or replaced the record of which other process. -/
structure State where
  entry : Option Nat
  recovered : List String
  files : Nat → Option Fields
  author : Nat → Option ProcessIdentity
  nextFile : Nat
  pcs : ProcessIdentity → Pc
  holders : List ProcessIdentity
  trespasses : List (ProcessIdentity × ProcessIdentity)

namespace State

/-- No reservation, or one record that none of the processes wrote. -/
def start (dead : Option Fields) : State where
  entry := dead.map fun _ => 0
  recovered := []
  files file := if file = 0 then dead else none
  author _ := none
  nextFile := 1
  pcs _ := .idle
  holders := []
  trespasses := []

def goto (s : State) (process : ProcessIdentity) (pc : Pc) : State :=
  { s with pcs := Function.update s.pcs process pc }

/-- The process whose reservation is at the path. -/
def holder (s : State) : Option ProcessIdentity := s.entry.bind s.author

/-- The trespasses once this process removed, moved or replaced what is at the path. -/
def trespassesBy (s : State) (process : ProcessIdentity) :
    List (ProcessIdentity × ProcessIdentity) :=
  match s.holder with
  | some other => if other = process then s.trespasses else (process, other) :: s.trespasses
  | none => s.trespasses

/-- A new file of the process, with this content, takes the path. -/
def install (s : State) (process : ProcessIdentity) (content : Option Fields) : State :=
  { s with
    entry := some s.nextFile
    files := Function.update s.files s.nextFile content
    author := Function.update s.author s.nextFile (some process)
    nextFile := s.nextFile + 1 }

end State

/-! ### Steps -/

section Steps

variable (P : Platform) (site : LockSite)

/-- What a call does with the record that it read. -/
def afterRead (process : ProcessIdentity) (now : String) (file : Nat) (record : Fields) :
    Call → Result Pc
  | .heartbeat phase => do
      require (record.get "run_id" = .str (site.runId process))
        (lockError "launch reservation belongs to another run")
      return .replaceOwn
        ((record.set "last_confirmed_time" (.str now)).set "current_phase" (.str phase))
  | .release => do
      require (record.get "run_id" = .str (site.runId process))
        (lockError "refusing to release another run's launch reservation")
      return .unlinkOwn
  | .recoverStale expectedRepositoryIdentity => do
      require (record.get "repository_identity" = .str expectedRepositoryIdentity)
        (ambiguousLockError "lock repository identity does not match")
      require (record.get "host_identity" = .str site.host)
        (ambiguousLockError "foreign-host lock ownership is ambiguous")
      require (∃ pid ∈ asInt? (record.get "process_id"), site.processAlive pid = some false)
        (ambiguousLockError "process identity does not prove the lock stale")
      let run := P.str (record.getD "run_id" (.str "unknown"))
      return .checkRecovered file s!"{site.stem}.recovered-{run}.json"

/-- `path.exists()`, the first file-system call of the calls that read the record. -/
def start (s : State) (process : ProcessIdentity) (call : Call) : State :=
  let begun : State := match call with
    | .release => { s with holders := s.holders.filter (· ≠ process) }
    | _ => s
  match s.entry with
  | none => begun
  | some _ => begun.goto process (.openRead call)

/-- The file-system call at a program counter, when it does not fail. -/
def advance (s : State) (process : ProcessIdentity) (now : String) : Pc → State
  | .idle => s
  | .create record =>
      match s.entry with
      | some _ => s.goto process .idle
      | none => (s.install process none).goto process (.write s.nextFile record)
  | .write file record =>
      { s.goto process .sync with files := Function.update s.files file (some record) }
  | .sync => { s.goto process .idle with holders := process :: s.holders }
  | .openRead call =>
      match s.entry with
      | none => s.goto process .idle
      | some file => s.goto process (.load call file)
  | .load call file =>
      match s.files file with
      | none => s.goto process .idle
      | some record =>
          match afterRead P site process now file record call with
          | .error _ => s.goto process .idle
          | .ok pc => s.goto process pc
  | .replaceOwn record =>
      { (s.install process (some (redactFields P record))).goto process .idle with
        trespasses := s.trespassesBy process }
  | .unlinkOwn =>
      match s.entry with
      | none => s.goto process .idle
      | some _ =>
          { s.goto process .idle with
            entry := none
            trespasses := s.trespassesBy process }
  | .checkRecovered file recovered =>
      if recovered ∈ s.recovered then s.goto process .idle
      else s.goto process (.moveStale file recovered)
  | .moveStale _ recovered =>
      match s.entry with
      | none => s.goto process .idle
      | some _ =>
          { s.goto process .idle with
            entry := none
            recovered := recovered :: s.recovered
            trespasses := s.trespassesBy process }

/-- One file-system call of one process. -/
def step (s : State) (process : ProcessIdentity) (input : Input) : State :=
  match s.pcs process with
  | .idle =>
      match input.begin with
      | none => s
      | some (.acquire record) => s.goto process (.create record)
      | some (.call call) => start s process call
  | pc => if input.raises then s.goto process .idle else advance P site s process input.now pc

/-- The record of a process that takes the reservation. -/
structure Names (process : ProcessIdentity) (record : Fields) : Prop where
  run : record.get "run_id" = .str (site.runId process)
  pid : record.get "process_id" = .int process.pid

/-- The live processes have runs of their own, also where a heartbeat wrote one redacted, and the
    record that was there at first is that of another run. -/
structure Distinct (live : ProcessIdentity → Prop) (dead : Option Fields) : Prop where
  alive : ∀ process, live process → site.processAlive process.pid ≠ some false
  runs : ∀ first second, live first → live second → first ≠ second →
    site.runId first ≠ site.runId second ∧ redactText P (site.runId first) ≠ site.runId second
  dead : ∀ record, dead = some record → ∀ process, live process →
    record.get "run_id" ≠ .str (site.runId process)

/-- Runs of the live processes in any order, as far as `allowed` lets them step. -/
inductive Run (live : ProcessIdentity → Prop) (dead : Option Fields)
    (allowed : State → ProcessIdentity → Input → Prop) : State → Prop where
  | start : Run live dead allowed (State.start dead)
  | step {s : State} {process : ProcessIdentity} {input : Input}
      (prior : Run live dead allowed s) (alive : live process)
      (named : ∀ record, input.begin = some (.acquire record) → Names site process record)
      (admits : allowed s process input) :
      Run live dead allowed (step P site s process input)

end Steps

/-- At most one process holds the reservation, and nobody removed, moved or replaced the record of
    another live process. -/
structure Exclusive (s : State) : Prop where
  one : ∀ first ∈ s.holders, ∀ second ∈ s.holders, first = second
  untouched : s.trespasses = []

/-- A recovery that is about to move a reservation moves the one that it read. -/
def Undisturbed (s : State) (process : ProcessIdentity) (input : Input) : Prop :=
  ∀ file recovered, s.pcs process = .moveStale file recovered → input.raises = false →
    s.entry = some file ∨ s.entry = none

/-! ### The invariant -/

namespace Pc

/-- The process acts on a reservation that is its own. -/
def acting : Pc → Bool
  | write _ _ | sync | replaceOwn _ | unlinkOwn => true
  | _ => false

/-- The process began to release. -/
def leaving : Pc → Bool
  | openRead .release | load .release _ | unlinkOwn => true
  | _ => false

/-- The file whose process was found dead. -/
def stale : Pc → Option Nat
  | checkRecovered file _ | moveStale file _ => some file
  | _ => none

end Pc

/-- The record, or what redaction made of it, names the process. -/
structure Named (P : Platform) (site : LockSite) (process : ProcessIdentity) (record : Fields) :
    Prop where
  run : record.get "run_id" = .str (site.runId process) ∨
    record.get "run_id" = .str (redactText P (site.runId process))
  pid : record.get "process_id" = .int process.pid

/-- What holds of one process at its program counter. -/
structure PcOk (site : LockSite) (s : State) (process : ProcessIdentity) (pc : Pc) : Prop where
  acting : pc.acting = true → s.holder = some process
  leaving : pc.leaving = true → process ∉ s.holders
  creates : ∀ record, pc = .create record → Names site process record
  writes : ∀ file record, pc = .write file record →
    file < s.nextFile ∧ s.author file = some process ∧ Names site process record
  reads : ∀ call file, pc = .load call file → file < s.nextFile ∧
    (s.author file = some process → s.holder = some process) ∧
    (s.author file = none → s.holder ≠ some process)
  rewrites : ∀ record, pc = .replaceOwn record → Names site process record
  stale : ∀ file, pc.stale = some file →
    file < s.nextFile ∧ s.author file = none ∧ s.holder ≠ some process

/-- What holds of the files. -/
structure Shared (P : Platform) (site : LockSite) (live : ProcessIdentity → Prop)
    (dead : Option Fields) (s : State) : Prop where
  entry : ∀ file, s.entry = some file → file < s.nextFile
  files : ∀ file record, s.files file = some record → file < s.nextFile
  authors : ∀ file process, s.author file = some process → live process
  first : ∀ file, file < s.nextFile → s.author file = none → file = 0
  named : ∀ file record process, s.files file = some record → s.author file = some process →
    Named P site process record
  old : ∀ file record, s.files file = some record → s.author file = none → dead = some record

structure Inv (P : Platform) (site : LockSite) (live : ProcessIdentity → Prop)
    (dead : Option Fields) (s : State) : Prop where
  shared : Shared P site live dead s
  held : ∀ process ∈ s.holders, s.holder = some process
  pcs : ∀ process, PcOk site s process (s.pcs process)
  trespasses : s.trespasses = []

section Invariant

variable {P : Platform} {site : LockSite} {live : ProcessIdentity → Prop} {dead : Option Fields}
  {s t : State} {process other : ProcessIdentity} {pc : Pc} {file : Nat} {record : Fields}

theorem pcOk_idle (site : LockSite) (s : State) (process : ProcessIdentity) :
    PcOk site s process .idle := by
  constructor <;> intros <;> simp_all [Pc.acting, Pc.leaving, Pc.stale]

theorem inv_start : Inv P site live dead (State.start dead) where
  shared := by
    refine ⟨fun file h => ?_, fun file record h => ?_, fun file process h => (nomatch h),
      fun file h _ => Nat.lt_one_iff.mp h, fun file record process _ h => (nomatch h),
      fun file record h _ => ?_⟩
    · obtain ⟨_, _, rfl⟩ := Option.map_eq_some_iff.mp h
      exact Nat.one_pos
    · by_cases hfile : file = 0
      · rw [hfile]
        exact Nat.one_pos
      · simp [State.start, hfile] at h
    · by_cases hfile : file = 0
      · simpa [State.start, hfile] using h
      · simp [State.start, hfile] at h
  held _ h := nomatch h
  pcs process := pcOk_idle site _ process
  trespasses := rfl

/-- What a process relies on survives the steps of the others that leave its hold on the path. -/
theorem PcOk.mono (h : PcOk site s process pc) (hnext : s.nextFile ≤ t.nextFile)
    (hauthor : ∀ file, file < s.nextFile → t.author file = s.author file)
    (hholder : t.holder = some process ↔ s.holder = some process)
    (hholders : process ∈ t.holders ↔ process ∈ s.holders) : PcOk site t process pc where
  acting hacting := hholder.mpr (h.acting hacting)
  leaving hleaving := fun hmem => h.leaving hleaving (hholders.mp hmem)
  creates := h.creates
  writes file record hpc := by
    obtain ⟨hlt, hown, hnames⟩ := h.writes file record hpc
    exact ⟨by omega, (hauthor file hlt).trans hown, hnames⟩
  reads call file hpc := by
    obtain ⟨hlt, hown, hold⟩ := h.reads call file hpc
    rw [hauthor file hlt]
    exact ⟨by omega, fun hsome => hholder.mpr (hown hsome),
      fun hnone hsome => hold hnone (hholder.mp hsome)⟩
  rewrites := h.rewrites
  stale file hstale := by
    obtain ⟨hlt, hnone, hnot⟩ := h.stale file hstale
    exact ⟨by omega, (hauthor file hlt).trans hnone, fun hsome => hnot (hholder.mp hsome)⟩

/-- A step that leaves the others' hold on the path. -/
theorem inv_of_frame (h : Inv P site live dead s) (hpcs : t.pcs = Function.update s.pcs process pc)
    (hshared : Shared P site live dead t) (hnext : s.nextFile ≤ t.nextFile)
    (hauthor : ∀ file, file < s.nextFile → t.author file = s.author file)
    (hholder : ∀ other, other ≠ process → (t.holder = some other ↔ s.holder = some other))
    (hholders : ∀ other, other ≠ process → (other ∈ t.holders ↔ other ∈ s.holders))
    (hheld : process ∈ t.holders → t.holder = some process) (hself : PcOk site t process pc)
    (htrespasses : t.trespasses = []) : Inv P site live dead t where
  shared := hshared
  held other hmem := by
    by_cases hother : other = process
    · subst hother
      exact hheld hmem
    · exact (hholder other hother).mpr (h.held other ((hholders other hother).mp hmem))
  pcs other := by
    rw [hpcs]
    by_cases hother : other = process
    · rw [hother, Function.update_self]
      exact hself
    · rw [Function.update_of_ne hother]
      exact (h.pcs other).mono hnext hauthor (hholder other hother) (hholders other hother)
  trespasses := htrespasses

/-- A step that only moves the process. -/
theorem inv_goto (h : Inv P site live dead s) (hself : PcOk site s process pc) :
    Inv P site live dead (s.goto process pc) :=
  inv_of_frame h rfl ⟨h.shared.entry, h.shared.files, h.shared.authors, h.shared.first,
    h.shared.named, h.shared.old⟩ le_rfl (fun _ _ => rfl) (fun _ _ => Iff.rfl) (fun _ _ => Iff.rfl)
    (h.held process) (hself.mono le_rfl (fun _ _ => rfl) Iff.rfl Iff.rfl) h.trespasses

theorem inv_goto_idle (h : Inv P site live dead s) : Inv P site live dead (s.goto process .idle) :=
  inv_goto h (pcOk_idle site s process)

/-- A process that acts on its own reservation, or on nobody's, trespasses on nobody. -/
theorem trespassesBy_of_holder (h : s.trespasses = [])
    (hholder : ∀ other, s.holder = some other → other = process) : s.trespassesBy process = [] := by
  unfold State.trespassesBy
  cases hother : s.holder with
  | none => exact h
  | some other =>
      simp only [hholder other hother, if_true]
      exact h

/-! ### Beginning a call -/

theorem inv_acquire (h : Inv P site live dead s) (hnames : Names site process record) :
    Inv P site live dead (s.goto process (.create record)) := by
  refine inv_goto h ?_
  constructor <;> intros <;> simp_all [Pc.acting, Pc.leaving, Pc.stale]

theorem pcOk_openRead {call : Call} (h : call = .release → process ∉ s.holders) :
    PcOk site s process (.openRead call) := by
  constructor
  case leaving =>
    intro hleaving
    cases call with
    | release => exact h rfl
    | _ => cases hleaving
  all_goals intros; simp_all [Pc.acting, Pc.stale]

/-- The process holds the reservation no more. -/
theorem inv_disown (h : Inv P site live dead s) (hidle : s.pcs process = .idle) :
    Inv P site live dead { s with holders := s.holders.filter (· ≠ process) } := by
  have hself : process ∉ s.holders.filter (· ≠ process) := by simp
  have hpcs : s.pcs = Function.update s.pcs process .idle := by
    rw [← hidle, Function.update_eq_self]
  refine inv_of_frame h hpcs ⟨h.shared.entry, h.shared.files, h.shared.authors,
    h.shared.first, h.shared.named, h.shared.old⟩ le_rfl (fun _ _ => rfl) (fun _ _ => Iff.rfl)
    (fun other hother => ?_) (fun hmem => absurd hmem hself) (pcOk_idle _ _ _) h.trespasses
  · rw [List.mem_filter]
    exact and_iff_left (by simpa using hother)

theorem inv_call (h : Inv P site live dead s) (hidle : s.pcs process = .idle) (call : Call) :
    Inv P site live dead (start s process call) := by
  unfold start
  cases call with
  | release =>
      have hdisowned := inv_disown h hidle
      dsimp only
      split
      · exact hdisowned
      · exact inv_goto hdisowned (pcOk_openRead fun _ => by simp)
  | heartbeat phase =>
      dsimp only
      split
      · exact h
      · exact inv_goto h (pcOk_openRead fun hcall => by cases hcall)
  | recoverStale expected =>
      dsimp only
      split
      · exact h
      · exact inv_goto h (pcOk_openRead fun hcall => by cases hcall)

/-! ### Reading the record -/

theorem inv_openRead {call : Call} (h : Inv P site live dead s)
    (hpc : s.pcs process = .openRead call) (hentry : s.entry = some file) :
    Inv P site live dead (s.goto process (.load call file)) := by
  have hholder : s.holder = s.author file := by rw [State.holder, hentry, Option.bind_some]
  refine inv_goto h ?_
  constructor
  case leaving =>
    intro hleaving
    refine (h.pcs process).leaving ?_
    rw [hpc]
    cases call with
    | release => rfl
    | _ => cases hleaving
  case reads =>
    intro call' file' hload
    cases hload
    refine ⟨h.shared.entry file hentry, fun hsome => hholder.trans hsome, fun hnone => ?_⟩
    rw [hholder, hnone]
    exact Option.some_ne_none process |>.symm
  all_goals intros; simp_all [Pc.acting, Pc.stale]

/-- Only the process itself, or nobody live, wrote a record with its run. -/
theorem author_of_run (hdistinct : Distinct P site live dead) (h : Inv P site live dead s)
    (hlive : live process) (hfile : s.files file = some record)
    (hrun : record.get "run_id" = .str (site.runId process)) : s.author file = some process := by
  cases hauthor : s.author file with
  | none => exact absurd hrun (hdistinct.dead record (h.shared.old file record hfile hauthor)
      process hlive)
  | some other =>
      by_contra hne
      have hother : other ≠ process := fun heq => hne (congrArg some heq)
      obtain ⟨hrun', hredacted⟩ := hdistinct.runs other process
        (h.shared.authors file other hauthor) hlive hother
      rcases (h.shared.named file record other hfile hauthor).run with hname | hname
      · rw [hrun, Json.str.injEq] at hname
        exact hrun' hname.symm
      · rw [hrun, Json.str.injEq] at hname
        exact hredacted hname.symm

/-- A record that shows its process dead is none of a live process. -/
theorem author_of_stale (hdistinct : Distinct P site live dead) (h : Inv P site live dead s)
    (hfile : s.files file = some record)
    (hdead : ∃ pid ∈ asInt? (record.get "process_id"), site.processAlive pid = some false) :
    s.author file = none := by
  cases hauthor : s.author file with
  | none => rfl
  | some other =>
      obtain ⟨pid, hpid, hfalse⟩ := hdead
      rw [(h.shared.named file record other hfile hauthor).pid] at hpid
      cases hpid
      exact absurd hfalse (hdistinct.alive other (h.shared.authors file other hauthor))

theorem pcOk_afterRead {call : Call} {now : String} (hdistinct : Distinct P site live dead)
    (h : Inv P site live dead s) (hlive : live process) (hpc : s.pcs process = .load call file)
    (hfile : s.files file = some record)
    (hread : afterRead P site process now file record call = .ok pc) :
    PcOk site s process pc := by
  obtain ⟨hlt, hown, hold⟩ := (h.pcs process).reads call file hpc
  cases call with
  | heartbeat phase =>
      rw [afterRead, require_bind_eq_ok] at hread
      obtain ⟨hrun, hread⟩ := hread
      cases hread
      have hauthor := author_of_run hdistinct h hlive hfile hrun
      have hpid := (h.shared.named file record process hfile hauthor).pid
      constructor
      case acting => exact fun _ => hown hauthor
      case rewrites =>
        intro rewritten hrewritten
        cases hrewritten
        constructor
        · rw [Fields.get_set_of_ne (by decide), Fields.get_set_of_ne (by decide)]
          exact hrun
        · rw [Fields.get_set_of_ne (by decide), Fields.get_set_of_ne (by decide)]
          exact hpid
      all_goals intros; simp_all [Pc.leaving, Pc.stale]
  | release =>
      rw [afterRead, require_bind_eq_ok] at hread
      obtain ⟨hrun, hread⟩ := hread
      cases hread
      have hauthor := author_of_run hdistinct h hlive hfile hrun
      constructor
      case acting => exact fun _ => hown hauthor
      case leaving => exact fun _ => (h.pcs process).leaving (by rw [hpc]; rfl)
      all_goals intros; simp_all [Pc.stale]
  | recoverStale expected =>
      rw [afterRead, require_bind_eq_ok] at hread
      obtain ⟨-, hread⟩ := hread
      obtain ⟨-, hread⟩ := require_bind_eq_ok.mp hread
      obtain ⟨hdead, hread⟩ := require_bind_eq_ok.mp hread
      cases hread
      have hauthor := author_of_stale hdistinct h hfile hdead
      constructor
      case stale =>
        intro file' hstale
        cases hstale
        exact ⟨hlt, hauthor, hold hauthor⟩
      all_goals intros; simp_all [Pc.acting, Pc.leaving]

/-! ### Changing the path -/

theorem holder_install (s : State) (process : ProcessIdentity) (content : Option Fields) :
    (s.install process content).holder = some process := by
  simp [State.holder, State.install]

theorem author_install (content : Option Fields) (hlt : file < s.nextFile) :
    (s.install process content).author file = s.author file :=
  Function.update_of_ne (Nat.ne_of_lt hlt) _ _

/-- Who wrote a file: the process the new one, others the files there were. -/
theorem author_install_cases {content : Option Fields} {owner : Option ProcessIdentity}
    (howner : (s.install process content).author file = owner) :
    file = s.nextFile ∧ owner = some process ∨ file ≠ s.nextFile ∧ s.author file = owner := by
  change Function.update s.author s.nextFile (some process) file = owner at howner
  by_cases hnew : file = s.nextFile
  · subst hnew
    rw [Function.update_self] at howner
    exact Or.inl ⟨rfl, howner.symm⟩
  · rw [Function.update_of_ne hnew] at howner
    exact Or.inr ⟨hnew, howner⟩

/-- A file is the new one, or it was there before. -/
theorem files_install {content : Option Fields} (h : Shared P site live dead s)
    (hfile : (s.install process content).files file = some record) :
    file = s.nextFile ∧ content = some record ∨ file < s.nextFile ∧ s.files file = some record := by
  change Function.update s.files s.nextFile content file = some record at hfile
  by_cases hnew : file = s.nextFile
  · subst hnew
    rw [Function.update_self] at hfile
    exact Or.inl ⟨rfl, hfile⟩
  · rw [Function.update_of_ne hnew] at hfile
    exact Or.inr ⟨h.files file record hfile, hfile⟩

theorem shared_install {content : Option Fields} (h : Shared P site live dead s)
    (hlive : live process)
    (hnamed : ∀ record, content = some record → Named P site process record) :
    Shared P site live dead (s.install process content) where
  entry file hentry := by
    cases hentry
    exact Nat.lt_succ_self _
  files file record hfile := by
    rcases files_install h hfile with ⟨rfl, -⟩ | ⟨hlt, -⟩
    · exact Nat.lt_succ_self _
    · exact Nat.lt_succ_of_lt hlt
  authors file owner howner := by
    rcases author_install_cases howner with ⟨-, hself⟩ | ⟨-, hold⟩
    · cases hself
      exact hlive
    · exact h.authors file owner hold
  first file hlt hnone := by
    rcases author_install_cases hnone with ⟨-, hself⟩ | ⟨hne, hold⟩
    · cases hself
    · exact h.first file (Nat.lt_of_le_of_ne (Nat.le_of_lt_succ hlt) hne) hold
  named file record owner hfile howner := by
    rcases files_install h hfile with ⟨rfl, hcontent⟩ | ⟨hlt, hold⟩
    · rcases author_install_cases howner with ⟨-, hself⟩ | ⟨hne, -⟩
      · cases hself
        exact hnamed record hcontent
      · exact absurd rfl hne
    · rw [author_install content hlt] at howner
      exact h.named file record owner hold howner
  old file record hfile hnone := by
    rcases files_install h hfile with ⟨rfl, -⟩ | ⟨hlt, hold⟩
    · rcases author_install_cases hnone with ⟨-, hself⟩ | ⟨hne, -⟩
      · cases hself
      · exact absurd rfl hne
    · rw [author_install content hlt] at hnone
      exact h.old file record hold hnone

/-- The path of a reservation that is not another process's goes to the process. -/
theorem inv_install {content : Option Fields} (h : Inv P site live dead s) (hlive : live process)
    (hnamed : ∀ record, content = some record → Named P site process record)
    (hpath : ∀ other, s.holder = some other → other = process)
    (hself : PcOk site (s.install process content) process pc) :
    Inv P site live dead ((s.install process content).goto process pc) := by
  have hshared := shared_install h.shared hlive hnamed
  refine inv_of_frame h rfl ⟨hshared.entry, hshared.files, hshared.authors, hshared.first,
    hshared.named, hshared.old⟩ (Nat.le_succ _) (fun file hlt => author_install content hlt)
    (fun other hother => ?_) (fun _ _ => Iff.rfl) (fun _ => holder_install s process content)
    (hself.mono le_rfl (fun _ _ => rfl) Iff.rfl Iff.rfl) h.trespasses
  refine iff_of_false (fun hsome => ?_) fun hsome => hother (hpath other hsome)
  have hself := (holder_install s process content).symm.trans hsome
  rw [Option.some.injEq] at hself
  exact hother hself.symm

theorem inv_create (h : Inv P site live dead s) (hlive : live process)
    (hpc : s.pcs process = .create record) (hentry : s.entry = none) :
    Inv P site live dead
      ((s.install process none).goto process (.write s.nextFile record)) := by
  refine inv_install h hlive (fun _ hcontent => nomatch hcontent) (fun other hother => ?_) ?_
  · rw [State.holder, hentry] at hother
    cases hother
  · constructor
    case acting => exact fun _ => holder_install s process none
    case writes =>
      intro file record hwrite
      cases hwrite
      exact ⟨Nat.lt_succ_self _, Function.update_self _ _ _, (h.pcs process).creates _ hpc⟩
    all_goals intros; simp_all [Pc.leaving, Pc.stale]

theorem Names.named (h : Names site process record) : Named P site process record :=
  ⟨Or.inl h.run, h.pid⟩

theorem Names.redacted (h : Names site process record) :
    Named P site process (redactFields P record) where
  run := by
    have hkey : isSensitiveKey P "run_id" = false :=
      isSensitiveKey_of_ascii P (by decide) (by decide)
    right
    rw [get_redactFields P hkey, h.run, redactValue]
  pid := by
    have hkey : isSensitiveKey P "process_id" = false :=
      isSensitiveKey_of_ascii P (by decide) (by decide)
    rw [get_redactFields P hkey, h.pid, redactValue]

theorem inv_write (h : Inv P site live dead s) (hpc : s.pcs process = .write file record) :
    Inv P site live dead
      { s.goto process .sync with files := Function.update s.files file (some record) } := by
  obtain ⟨hlt, hauthor, hnames⟩ := (h.pcs process).writes file record hpc
  have hfileOf : ∀ other found, Function.update s.files file (some record) other = some found →
      other = file ∧ found = record ∨ s.files other = some found := by
    intro other found hfound
    by_cases hother : other = file
    · subst hother
      rw [Function.update_self, Option.some.injEq] at hfound
      exact Or.inl ⟨rfl, hfound.symm⟩
    · rw [Function.update_of_ne hother] at hfound
      exact Or.inr hfound
  have hpcs : (s.goto process .sync).pcs = Function.update s.pcs process .sync := rfl
  refine inv_of_frame h hpcs ⟨h.shared.entry, fun other found hfound => ?_,
    h.shared.authors, h.shared.first, fun other found owner hfound howner => ?_,
    fun other found hfound hnone => ?_⟩ le_rfl (fun _ _ => rfl) (fun _ _ => Iff.rfl)
    (fun _ _ => Iff.rfl) (h.held process) ?_ h.trespasses
  · rcases hfileOf other found hfound with ⟨rfl, -⟩ | hold
    · exact hlt
    · exact h.shared.files other found hold
  · rcases hfileOf other found hfound with ⟨rfl, rfl⟩ | hold
    · have howner' : some process = some owner := hauthor.symm.trans howner
      rw [Option.some.injEq] at howner'
      exact howner' ▸ hnames.named
    · exact h.shared.named other found owner hold howner
  · rcases hfileOf other found hfound with ⟨rfl, -⟩ | hold
    · have hself : some process = none := hauthor.symm.trans hnone
      cases hself
    · exact h.shared.old other found hold hnone
  · constructor
    case acting => exact fun _ => (h.pcs process).acting (by rw [hpc]; rfl)
    all_goals intros; simp_all [Pc.leaving, Pc.stale]

/-- The process returns from `acquire`. -/
theorem inv_sync (h : Inv P site live dead s) (hpc : s.pcs process = .sync) :
    Inv P site live dead { s.goto process .idle with holders := process :: s.holders } :=
  inv_of_frame h rfl ⟨h.shared.entry, h.shared.files, h.shared.authors, h.shared.first,
    h.shared.named, h.shared.old⟩ le_rfl (fun _ _ => rfl) (fun _ _ => Iff.rfl)
    (fun _ hother => by rw [List.mem_cons]; exact or_iff_right hother)
    (fun _ => (h.pcs process).acting (by rw [hpc]; rfl)) (pcOk_idle _ _ _) h.trespasses

theorem inv_replaceOwn (h : Inv P site live dead s) (hlive : live process)
    (hpc : s.pcs process = .replaceOwn record) :
    Inv P site live dead
      { (s.install process (some (redactFields P record))).goto process .idle with
        trespasses := s.trespassesBy process } := by
  have hholder := (h.pcs process).acting (by rw [hpc]; rfl)
  have hpath : ∀ other, s.holder = some other → other = process := by
    intro other hother
    rw [hholder, Option.some.injEq] at hother
    exact hother.symm
  have hnamed : ∀ found, some (redactFields P record) = some found →
      Named P site process found := by
    intro found hfound
    cases hfound
    exact ((h.pcs process).rewrites record hpc).redacted
  rw [trespassesBy_of_holder h.trespasses hpath, ← h.trespasses]
  exact inv_install h hlive hnamed hpath (pcOk_idle _ _ _)

/-- The reservation at the path is removed: that of the process itself, which began to release, or
    nobody's. -/
theorem inv_vacate {recovered : List String} (h : Inv P site live dead s)
    (hpath : ∀ other, s.holder = some other → other = process) (hgone : process ∉ s.holders) :
    Inv P site live dead { s.goto process .idle with
      entry := none
      recovered := recovered
      trespasses := s.trespassesBy process } := by
  refine inv_of_frame h rfl ⟨fun _ hentry => (nomatch hentry), h.shared.files, h.shared.authors,
    h.shared.first, h.shared.named, h.shared.old⟩ le_rfl (fun _ _ => rfl)
    (fun other hother => ?_) (fun _ _ => Iff.rfl) (fun hmem => absurd hmem hgone)
    (pcOk_idle _ _ _) (trespassesBy_of_holder h.trespasses hpath)
  exact iff_of_false (fun hsome => by cases hsome) fun hsome => hother (hpath other hsome)

theorem inv_unlinkOwn (h : Inv P site live dead s) (hpc : s.pcs process = .unlinkOwn) :
    Inv P site live dead { s.goto process .idle with
      entry := none
      trespasses := s.trespassesBy process } := by
  have hholder := (h.pcs process).acting (by rw [hpc]; rfl)
  refine inv_vacate h (fun other hother => ?_) ((h.pcs process).leaving (by rw [hpc]; rfl))
  rw [hholder, Option.some.injEq] at hother
  exact hother.symm

theorem inv_moveStale {recovered : String} (h : Inv P site live dead s)
    (hpc : s.pcs process = .moveStale file recovered) (hentry : s.entry = some file) :
    Inv P site live dead { s.goto process .idle with
      entry := none
      recovered := recovered :: s.recovered
      trespasses := s.trespassesBy process } := by
  obtain ⟨-, hauthor, hnot⟩ := (h.pcs process).stale file (by rw [hpc]; rfl)
  refine inv_vacate h (fun other hother => ?_) fun hmem => hnot (h.held process hmem)
  rw [State.holder, hentry, Option.bind_some, hauthor] at hother
  cases hother

/-! ### Every step and every run -/

theorem inv_advance {now : String} (hdistinct : Distinct P site live dead)
    (h : Inv P site live dead s) (hlive : live process)
    (hundisturbed : ∀ file recovered, s.pcs process = .moveStale file recovered →
      s.entry = some file ∨ s.entry = none) :
    Inv P site live dead (advance P site s process now (s.pcs process)) := by
  cases hpc : s.pcs process with
  | idle => exact h
  | create record =>
      rw [advance]
      split
      · exact inv_goto_idle h
      · rename_i hentry
        exact inv_create h hlive hpc hentry
  | write file record => exact inv_write h hpc
  | sync => exact inv_sync h hpc
  | openRead call =>
      rw [advance]
      split
      · exact inv_goto_idle h
      · rename_i hentry
        exact inv_openRead h hpc hentry
  | load call file =>
      rw [advance]
      split
      · exact inv_goto_idle h
      · rename_i record hfile
        split
        · exact inv_goto_idle h
        · rename_i pc hread
          exact inv_goto h (pcOk_afterRead hdistinct h hlive hpc hfile hread)
  | replaceOwn record => exact inv_replaceOwn h hlive hpc
  | unlinkOwn =>
      rw [advance]
      split
      · exact inv_goto_idle h
      · exact inv_unlinkOwn h hpc
  | checkRecovered file recovered =>
      rw [advance]
      split
      · exact inv_goto_idle h
      · obtain ⟨hlt, hauthor, hnot⟩ := (h.pcs process).stale file (by rw [hpc]; rfl)
        refine inv_goto h ?_
        constructor
        case stale =>
          intro file' hstale
          cases hstale
          exact ⟨hlt, hauthor, hnot⟩
        all_goals intros; simp_all [Pc.acting, Pc.leaving]
  | moveStale file recovered =>
      rw [advance]
      split
      · exact inv_goto_idle h
      · rename_i hentry
        rcases hundisturbed file recovered hpc with hsame | hnone
        · exact inv_moveStale h hpc hsame
        · rw [hentry] at hnone
          cases hnone

theorem inv_step {input : Input} (hdistinct : Distinct P site live dead)
    (h : Inv P site live dead s) (hlive : live process)
    (hnames : ∀ record, input.begin = some (.acquire record) → Names site process record)
    (hundisturbed : Undisturbed s process input) :
    Inv P site live dead (step P site s process input) := by
  unfold step
  split
  · rename_i hidle
    split
    · exact h
    · rename_i record hbegin
      exact inv_acquire h (hnames record hbegin)
    · exact inv_call h hidle _
  · split
    · exact inv_goto_idle h
    · rename_i hraises
      exact inv_advance hdistinct h hlive fun file recovered hpc =>
        hundisturbed file recovered hpc (Bool.eq_false_iff.mpr hraises)

theorem Run.inv (hdistinct : Distinct P site live dead)
    (hrun : Run P site live dead Undisturbed s) : Inv P site live dead s := by
  induction hrun with
  | start => exact inv_start
  | step prior alive named admits ih => exact inv_step hdistinct ih alive named admits

theorem Inv.exclusive (h : Inv P site live dead s) : Exclusive s := by
  refine ⟨fun first hfirst second hsecond => ?_, h.trespasses⟩
  have hheld := h.held first hfirst
  rw [h.held second hsecond, Option.some.injEq] at hheld
  exact hheld.symm

/-- A recovery that finds another reservation than it read moves that of a live process. -/
theorem disturbed_trespasses {input : Input} (h : Inv P site live dead s)
    (hdisturbed : ¬Undisturbed s process input) :
    ¬Exclusive (step P site s process input) := by
  simp only [Undisturbed, not_forall, not_or] at hdisturbed
  obtain ⟨file, recovered, hpc, hraises, hother, hsome⟩ := hdisturbed
  obtain ⟨found, hentry⟩ := Option.ne_none_iff_exists'.mp hsome
  obtain ⟨hlt, hauthor, hnot⟩ := (h.pcs process).stale file (by rw [hpc]; rfl)
  have hholder : s.holder = s.author found := by rw [State.holder, hentry, Option.bind_some]
  have hfound : s.author found ≠ none := by
    intro hnone
    refine hother ?_
    rw [hentry, h.shared.first found (h.shared.entry found hentry) hnone,
      h.shared.first file hlt hauthor]
  obtain ⟨other, howner⟩ := Option.ne_none_iff_exists'.mp hfound
  have hne : other ≠ process := by
    rintro rfl
    exact hnot (hholder.trans howner)
  intro hexclusive
  have huntouched := hexclusive.untouched
  unfold step at huntouched
  rw [hpc] at huntouched
  simp only [hraises, Bool.false_eq_true, if_false, advance, hentry, State.trespassesBy, hholder,
    howner, hne] at huntouched
  cases huntouched

/-- However the calls interleave, one process at most holds the reservation and nobody touches
    another's, as long as recoveries are undisturbed; and the step that is not breaks it. -/
theorem reservation_exclusive_iff (hdistinct : Distinct P site live dead)
    (hrun : Run P site live dead Undisturbed s) :
    Exclusive s ∧ ∀ process input, live process →
      (∀ record, input.begin = some (.acquire record) → Names site process record) →
        (Exclusive (step P site s process input) ↔ Undisturbed s process input) := by
  have hinv := hrun.inv hdistinct
  refine ⟨hinv.exclusive, fun process input hlive hnames =>
    ⟨fun hexclusive => ?_, fun hadmits => ?_⟩⟩
  · by_contra hdisturbed
    exact disturbed_trespasses hinv hdisturbed hexclusive
  · exact (inv_step hdistinct hinv hlive hnames hadmits).exclusive

end Invariant

/-! ### Two recoveries of one reservation -/

theorem names_makeLockRecord {site : LockSite} {process : ProcessIdentity} {stamp : String}
    {request : LaunchReservation.LockRequest} (hrun : request.runId = site.runId process) :
    Names site process (LaunchReservation.makeLockRecord process stamp request) where
  run := by rw [LaunchReservation.makeLockRecord_runId, hrun]
  pid := by
    simp [LaunchReservation.makeLockRecord, Fields.get, Fields.get?_ofPairs, Fields.get?_cons]

def sampleFirst : ProcessIdentity := ⟨11, "monday", "host"⟩

def sampleSecond : ProcessIdentity := ⟨12, "tuesday", "host"⟩

def sampleLive (process : ProcessIdentity) : Prop :=
  process = sampleFirst ∨ process = sampleSecond

/-- A host where process 7 is dead. -/
def sampleSite : LockSite where
  stem := "launch"
  host := "host"
  runId process := if process.pid = 11 then "run-11" else "run-12"
  processAlive pid := some (pid ≠ 7)

def sampleRequest (runId : String) : LaunchReservation.LockRequest :=
  ⟨"project", "repository", runId, some "F1", "feature"⟩

def sampleRecord (process : ProcessIdentity) : Fields :=
  LaunchReservation.makeLockRecord process "2026-01-01T00:00:00+00:00"
    (sampleRequest (sampleSite.runId process))

def sampleDead : Fields :=
  LaunchReservation.makeLockRecord ⟨7, "sunday", "host"⟩ "2025-12-31T00:00:00+00:00"
    (sampleRequest "run-7")

theorem sampleDistinct : Distinct Platform.reference sampleSite sampleLive (some sampleDead) where
  alive := by
    rintro process (rfl | rfl) <;> decide
  runs := by
    rintro first second (rfl | rfl) (rfl | rfl) hne
    · exact absurd rfl hne
    · decide +kernel
    · decide +kernel
    · exact absurd rfl hne
  dead := by
    intro record hrecord
    cases hrecord
    rintro process (rfl | rfl) <;> decide +kernel

/-- One file-system call of a process, or the beginning of one of its calls. -/
abbrev Turn := ProcessIdentity × Option Begin

def Turn.input (turn : Turn) : Input := ⟨turn.2, "2026-01-01T00:00:00+00:00", false⟩

def Turn.step (s : State) (turn : Turn) : State :=
  ReservationInterleaving.step Platform.reference sampleSite s turn.1 turn.input

def after (s : State) (turns : List Turn) : State := turns.foldl Turn.step s

def recovers (process : ProcessIdentity) : Turn :=
  (process, some (.call (.recoverStale "repository")))

def acquires (process : ProcessIdentity) : Turn := (process, some (.acquire (sampleRecord process)))

def goes (process : ProcessIdentity) : Turn := (process, none)

/-- What the turns may be: the beginnings of recoveries and acquisitions, and their steps. -/
def Legal (turn : Turn) : Prop :=
  ∃ process, sampleLive process ∧ (turn = recovers process ∨ turn = acquires process ∨
    turn = goes process)

theorem Legal.live {turn : Turn} (h : Legal turn) : sampleLive turn.1 := by
  obtain ⟨process, hlive, rfl | rfl | rfl⟩ := h <;> exact hlive

theorem Legal.names {turn : Turn} (h : Legal turn) {record : Fields}
    (hbegin : turn.input.begin = some (.acquire record)) : Names sampleSite turn.1 record := by
  obtain ⟨process, -, rfl | rfl | rfl⟩ := h
  · cases hbegin
  · cases hbegin
    exact names_makeLockRecord rfl
  · cases hbegin

def isUndisturbed (s : State) (turn : Turn) : Bool :=
  match s.pcs turn.1 with
  | .moveStale file _ => decide (s.entry = some file ∨ s.entry = none)
  | _ => true

theorem undisturbed_of_check {s : State} {turn : Turn} (h : isUndisturbed s turn = true) :
    Undisturbed s turn.1 turn.input := by
  intro file recovered hpc _
  rw [isUndisturbed, hpc] at h
  exact of_decide_eq_true h

def undisturbedAlong : State → List Turn → Bool
  | _, [] => true
  | s, turn :: rest => isUndisturbed s turn && undisturbedAlong (turn.step s) rest

theorem run_undisturbed {s : State} {turns : List Turn}
    (hrun : Run Platform.reference sampleSite sampleLive (some sampleDead) Undisturbed s)
    (hlegal : ∀ turn ∈ turns, Legal turn) (h : undisturbedAlong s turns = true) :
    Run Platform.reference sampleSite sampleLive (some sampleDead) Undisturbed (after s turns) := by
  induction turns generalizing s with
  | nil => exact hrun
  | cons turn rest ih =>
      rw [undisturbedAlong, Bool.and_eq_true] at h
      have hturn := hlegal turn List.mem_cons_self
      exact ih (hrun.step hturn.live (fun _ => hturn.names) (undisturbed_of_check h.1))
        (fun other hother => hlegal other (List.mem_cons_of_mem _ hother)) h.2

theorem run_legal {s : State} {turns : List Turn}
    (hrun : Run Platform.reference sampleSite sampleLive (some sampleDead) (fun _ _ _ => True) s)
    (hlegal : ∀ turn ∈ turns, Legal turn) :
    Run Platform.reference sampleSite sampleLive (some sampleDead) (fun _ _ _ => True)
      (after s turns) := by
  induction turns generalizing s with
  | nil => exact hrun
  | cons turn rest ih =>
      have hturn := hlegal turn List.mem_cons_self
      exact ih (hrun.step hturn.live (fun _ => hturn.names) trivial)
        (fun other hother => hlegal other (List.mem_cons_of_mem _ hother))

/-- Both find the reservation of the dead process and no earlier recovery; the second recovers it
    and takes the reservation for itself. -/
def bothRecover : List Turn :=
  [recovers sampleFirst, goes sampleFirst, goes sampleFirst, goes sampleFirst,
   recovers sampleSecond, goes sampleSecond, goes sampleSecond, goes sampleSecond,
   goes sampleSecond, acquires sampleSecond, goes sampleSecond, goes sampleSecond,
   goes sampleSecond]

/-- The first moves the reservation of the second, and takes it for itself too. -/
def bothHold : List Turn :=
  bothRecover ++ [goes sampleFirst, acquires sampleFirst, goes sampleFirst, goes sampleFirst,
    goes sampleFirst]

theorem legal_bothHold : ∀ turn ∈ bothHold, Legal turn := by
  intro turn hturn
  simp only [bothHold, bothRecover, List.cons_append, List.nil_append, List.mem_cons,
    List.not_mem_nil, or_false] at hturn
  rcases hturn with rfl | rfl | rfl | rfl | rfl | rfl | rfl | rfl | rfl | rfl | rfl | rfl | rfl |
    rfl | rfl | rfl | rfl | rfl
  all_goals
    first
      | exact ⟨sampleFirst, Or.inl rfl, by simp⟩
      | exact ⟨sampleSecond, Or.inr rfl, by simp⟩

/-- The second process holds the reservation until the first goes on. -/
theorem bothRecover_exclusive :
    Exclusive (after (State.start (some sampleDead)) bothRecover) ∧
      ¬Exclusive (after (State.start (some sampleDead)) (bothRecover ++ [goes sampleFirst])) := by
  have hlegal : ∀ turn ∈ bothRecover, Legal turn :=
    fun turn hturn => legal_bothHold turn (List.mem_append_left _ hturn)
  have hrun := run_undisturbed .start hlegal (by decide +kernel)
  obtain ⟨hexclusive, hnext⟩ := reservation_exclusive_iff sampleDistinct hrun
  refine ⟨hexclusive, ?_⟩
  have hfirst := hnext sampleFirst (goes sampleFirst).input (Or.inl rfl) fun _ h => nomatch h
  rw [after, List.foldl_append]
  refine fun hlater => absurd (hfirst.mp hlater 0 "launch.recovered-run-7.json" rfl rfl) ?_
  have hentry : (after (State.start (some sampleDead)) bothRecover).entry = some 1 := by
    decide +kernel
  rw [hentry]
  decide

/-- Two processes hold the reservation. -/
theorem bothHold_not_exclusive :
    Distinct Platform.reference sampleSite sampleLive (some sampleDead) ∧
      Run Platform.reference sampleSite sampleLive (some sampleDead) (fun _ _ _ => True)
        (after (State.start (some sampleDead)) bothHold) ∧
      (after (State.start (some sampleDead)) bothHold).holders = [sampleFirst, sampleSecond] ∧
      ¬Exclusive (after (State.start (some sampleDead)) bothHold) := by
  have hholders : (after (State.start (some sampleDead)) bothHold).holders =
      [sampleFirst, sampleSecond] := by decide +kernel
  refine ⟨sampleDistinct, run_legal .start legal_bothHold, hholders, fun hexclusive => ?_⟩
  have hsame := hexclusive.one sampleFirst (by rw [hholders]; exact List.mem_cons_self)
    sampleSecond (by rw [hholders]; simp)
  revert hsame
  decide

end Conveyor.ReservationInterleaving
