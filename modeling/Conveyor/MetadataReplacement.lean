import Conveyor.Library.Outcomes
import Conveyor.Repository
import Mathlib.Algebra.Order.BigOperators.Group.List

/-!
# Replacing the acceptance metadata

`_write_rendered_metadata_transactionally` (`accepted_commit.py`): every replacement is first
prepared beside its target, then all of them are moved into place, and a failure of either loop
writes back what was already replaced. `metadata_replaced_atomically` says what the files are
after either outcome.
-/

namespace Conveyor

open Library

namespace MetadataReplacement

/-! ### Files and system calls -/

structure StoredFile where
  content : Bytes
  mode : Nat
deriving DecidableEq

/-- The loops over the rendered files, or what follows their failure. -/
inductive Stage where
  | replacing | rollback

structure FileSite where
  /-- What the system call made at this time in this stage raises, if it raises. -/
  fault : Stage → Nat → Option Failure
  /-- What of the content is in the file when a write at this time ends. -/
  written : Nat → Bytes
  /-- The name that `mkstemp` draws. -/
  unused : String → Dict StoredFile → Nat → String
  unused_free : ∀ target files time, Dict.get? files (unused target files time) = none

/-- The files below the root, and the two local variables of the function. -/
structure Disk where
  clock : Nat
  files : Dict StoredFile
  prepared : Dict String
  replaced : List String

abbrev DiskCall (α : Type) := Call FileSite Disk Failure α

namespace Disk

def tick (disk : Disk) : Disk := { disk with clock := disk.clock + 1 }

/-- An open file is changed through its descriptor. -/
def change (disk : Disk) (name : String) (edit : StoredFile → StoredFile) : Disk :=
  match Dict.get? disk.files name with
  | none => disk
  | some file => { disk with files := disk.files.insert name (edit file) }

def temporaries (disk : Disk) : List String := disk.prepared.map Prod.snd

end Disk

/-- One system call: it raises and does nothing, or it does what it is for. -/
def syscall {α : Type} (stage : Stage) (f : FileSite → Disk → Result (α × Disk)) : DiskCall α :=
  Call.attempt (fun site disk => (site.fault stage disk.clock).elim .none .raises) Disk.tick f

def keyError (key : String) : Failure := ⟨.keyError, s!"'{key}'"⟩

/-- `values[key]`. -/
def item {α : Type} (values : Dict α) (key : String) : DiskCall α := Call.reads fun _ _ =>
  (Dict.get? values key).elim (.error (keyError key)) .ok

/-- `tempfile.mkstemp` in the directory of the target. -/
def makeTemporary (stage : Stage) (target : String) : DiskCall String :=
  syscall stage fun site disk =>
  let name := site.unused target disk.files disk.clock
  .ok (name, { disk with files := disk.files.insert name ⟨[], 0o600⟩ })

/-- `os.fchmod`. -/
def setMode (stage : Stage) (name : String) (mode : Nat) : DiskCall Unit :=
  syscall stage fun _ disk => .ok ((), disk.change name fun file => { file with mode := mode })

/-- `stream.write`: whether it fails or not, a part of the content may stay in the buffer. -/
def write (stage : Stage) (name : String) : DiskCall Unit :=
  Call.attempt (fun site disk => (site.fault stage disk.clock).elim .none .raisesAfter) Disk.tick
    fun site disk =>
      .ok ((), disk.change name fun file => { file with content := site.written disk.clock })

/-- `stream.flush`. -/
def flush (stage : Stage) (name : String) (content : Bytes) : DiskCall Unit :=
  syscall stage fun _ disk =>
    .ok ((), disk.change name fun file => { file with content := content })

/-- `os.fsync`. -/
def sync (stage : Stage) : DiskCall Unit := syscall stage fun _ disk => .ok ((), disk)

/-- `os.replace`. -/
def replaceFile (stage : Stage) (source target : String) : DiskCall Unit :=
  syscall stage fun _ disk =>
    match Dict.get? disk.files source with
    | none => .error ⟨.osError, s!"No such file or directory: '{source}'"⟩
    | some file => .ok ((), { disk with files := (disk.files.erase source).insert target file })

/-- `unlink(missing_ok=True)`. -/
def unlink (stage : Stage) (name : String) : DiskCall Unit := syscall stage fun _ disk =>
  .ok ((), { disk with files := disk.files.erase name })

/-- The temporary file gets its mode and its content. -/
def fill (stage : Stage) (name : String) (content : Bytes) : DiskCall Unit := do
  write stage name
  flush stage name content
  sync stage

/-! ### The replacement -/

/-- `except Exception: try: os.unlink(temporary) except OSError: pass; raise`. -/
def discardTemporary (stage : Stage) (name : String) (failure : Failure) : DiskCall Unit := do
  Call.handle (unlink stage name) fun other =>
    if other.kind = .osError then pure () else Call.raise other
  Call.raise failure

/-- `atomic_write_bytes`. -/
def atomicWriteBytes (stage : Stage) (path : String) (value : Bytes) (mode : Nat) :
    DiskCall Unit := do
  let temporary ← makeTemporary stage path
  Call.handle
    (do
      setMode stage temporary mode
      fill stage temporary value
      replaceFile stage temporary path)
    (discardTemporary stage temporary)

variable (rendered worktreeOriginals : Dict Bytes) (worktreeModes : Dict Nat)

/-- `prepared[relative] = temporary`. -/
def keepTemporary (relative temporary : String) : DiskCall Unit := Call.update fun _ disk =>
  .ok ((), { disk with prepared := disk.prepared.insert relative temporary })

/-- A pass of the first loop. Its inner handler closes the descriptor. -/
def prepareReplacement (relative : String) : DiskCall Unit := do
  let temporary ← makeTemporary .replacing relative
  keepTemporary relative temporary
  let mode ← item worktreeModes relative
  setMode .replacing temporary mode
  let content ← item rendered relative
  fill .replacing temporary content

/-- `replaced.append(relative)`, `prepared.pop(relative, None)`. -/
def noteReplaced (relative : String) : DiskCall Unit := Call.update fun _ disk =>
  .ok ((), { disk with
    replaced := disk.replaced ++ [relative]
    prepared := disk.prepared.erase relative })

/-- A pass of the second loop. -/
def replaceTarget (relative : String) : DiskCall Unit := do
  let prepared ← Call.reads fun _ disk => .ok disk.prepared
  let temporary ← item prepared relative
  replaceFile .replacing temporary relative
  noteReplaced relative

def restoreOriginal (relative : String) : DiskCall Unit := do
  let original ← item worktreeOriginals relative
  let mode ← item worktreeModes relative
  atomicWriteBytes .rollback relative original mode

/-- `except Exception: restore what was replaced; raise`. -/
def rollBack (failure : Failure) : DiskCall Unit := do
  let replaced ← Call.reads fun _ disk => .ok disk.replaced
  let _ ← Call.forEach replaced (restoreOriginal worktreeOriginals worktreeModes)
  Call.raise failure

/-- `finally: unlink what is still prepared`. -/
def removeTemporaries : DiskCall Unit := do
  let temporaries ← Call.reads fun _ disk => .ok disk.temporaries
  let _ ← Call.forEach temporaries (unlink .rollback)
  return ()

/-- The paths in the order of the loops. -/
def targets : List String := sortedSet rendered.keys

def replaceAll : DiskCall Unit := do
  let _ ← Call.forEach (targets rendered) (prepareReplacement rendered worktreeModes)
  let _ ← Call.forEach (targets rendered) replaceTarget
  return ()

/-- `_write_rendered_metadata_transactionally`. -/
def writeRenderedMetadata : DiskCall Unit := do
  Call.update fun _ disk => .ok ((), { disk with prepared := [], replaced := [] })
  Call.ensure
    (Call.handle (replaceAll rendered worktreeModes) (rollBack worktreeOriginals worktreeModes))
    removeTemporaries

/-! ### System calls and their failures -/

section Syscalls

variable {α : Type} {stage : Stage} {f : FileSite → Disk → Result (α × Disk)} {site : FileSite}
  {disk : Disk} {returned : α → Disk → Prop} {raised : Failure → Disk → Prop}

theorem meets_syscall (hdone : ∀ value t, f site disk = .ok (value, t) → returned value t.tick)
    (hfailed : ∀ failure, f site disk = .error failure → raised failure disk.tick)
    (hfault : ∀ failure, site.fault stage disk.clock = some failure → raised failure disk.tick) :
    (syscall stage f).Meets site disk returned raised := by
  unfold syscall Call.Meets Call.attempt
  cases hfault' : site.fault stage disk.clock with
  | some failure =>
      simp only [hfault', Option.elim_some]
      exact hfault failure hfault'
  | none =>
      cases hf : f site disk with
      | error failure =>
          simp only [hfault', Option.elim_none]
          exact hfailed failure hf
      | ok found =>
          simp only [hfault', Option.elim_none]
          exact hdone found.1 found.2 hf

theorem meets_item {values : Dict α} {key : String} {value : α}
    (hkey : Dict.get? values key = some value) (h : returned value disk) :
    (item values key).Meets site disk returned raised := by
  refine Call.meets_reads (fun found hfound => ?_) fun failure hfailure => ?_
  · rw [hkey] at hfound
    cases hfound
    exact h
  · rw [hkey] at hfailure
    cases hfailure

/-- A call whose stage has no faults and that cannot fail. -/
theorem meets_quiet (hquiet : ∀ time, site.fault stage time = none) {value : α} {t : Disk}
    (hf : f site disk = .ok (value, t)) (h : returned value t.tick) :
    (syscall stage f).Meets site disk returned raised := by
  refine meets_syscall (fun found u hfound => ?_) (fun failure hfailure => ?_)
    fun failure hfailure => ?_
  · rw [hf] at hfound
    cases hfound
    exact h
  · rw [hf] at hfailure
    cases hfailure
  · rw [hquiet] at hfailure
    cases hfailure

theorem meets_write {name : String} {returned : Unit → Disk → Prop}
    (hdone : returned ()
      (disk.change name fun file => { file with content := site.written disk.clock }).tick)
    (hfault : ∀ failure, site.fault stage disk.clock = some failure → raised failure
      (disk.change name fun file => { file with content := site.written disk.clock }).tick) :
    (write stage name).Meets site disk returned raised := by
  unfold write Call.Meets Call.attempt
  cases hfault' : site.fault stage disk.clock with
  | some failure =>
      simp only [hfault', Option.elim_some]
      exact hfault failure hfault'
  | none =>
      simp only [hfault', Option.elim_none]
      exact hdone

theorem get?_change {name path : String} {edit : StoredFile → StoredFile} :
    Dict.get? (disk.change name edit).files path =
      if path = name then (Dict.get? disk.files name).map edit else Dict.get? disk.files path := by
  unfold Disk.change
  cases hfound : Dict.get? disk.files name with
  | none =>
      change Dict.get? disk.files path = _
      split
      · rename_i heq
        rw [heq, hfound]
        rfl
      · rfl
  | some file => exact Dict.get?_insert _ _ _ _

@[simp] theorem change_prepared {name : String} {edit : StoredFile → StoredFile} :
    (disk.change name edit).prepared = disk.prepared := by
  unfold Disk.change
  split <;> rfl

@[simp] theorem change_replaced {name : String} {edit : StoredFile → StoredFile} :
    (disk.change name edit).replaced = disk.replaced := by
  unfold Disk.change
  split <;> rfl

end Syscalls

/-! ### Writing back -/

section Rollback

variable {site : FileSite} {disk t : Disk} {raised : Failure → Disk → Prop}

/-- The files are those of the other disk, but for one path. -/
structure Rewrites (disk : Disk) (path : String) (file : StoredFile) (t : Disk) : Prop where
  prepared : t.prepared = disk.prepared
  replaced : t.replaced = disk.replaced
  files : ∀ other, Dict.get? t.files other =
    if other = path then some file else Dict.get? disk.files other

/-- A write that the system lets through replaces the target and nothing else. -/
theorem meets_atomicWriteBytes (hquiet : ∀ time, site.fault .rollback time = none) {path : String}
    {value : Bytes} {mode : Nat} : (atomicWriteBytes .rollback path value mode).Meets site disk
      (fun _ t => Rewrites disk path ⟨value, mode⟩ t) fun _ _ => False := by
  unfold atomicWriteBytes
  set name := site.unused path disk.files disk.clock with hname
  have hfree : Dict.get? disk.files name = none := site.unused_free _ _ _
  -- while the temporary file is filled, everything else stays
  let filling (file : StoredFile) (t : Disk) : Prop := Rewrites disk name file t
  have hchange : ∀ (edit : StoredFile → StoredFile) (file : StoredFile) (u : Disk),
      filling file u → filling (edit file) (u.change name edit).tick := by
    intro edit file u hu
    refine ⟨?_, ?_, fun other => ?_⟩
    · exact change_prepared.trans hu.prepared
    · exact change_replaced.trans hu.replaced
    · change Dict.get? (u.change name edit).files other = _
      rw [get?_change, hu.files, hu.files, if_pos rfl]
      split <;> rfl
  refine Call.Meets.via (fun found t => found = name ∧ filling ⟨[], 0o600⟩ t) ?_ ?_
  · refine meets_quiet hquiet rfl ⟨rfl, rfl, rfl, fun other => ?_⟩
    exact Dict.get?_insert _ _ _ _
  · rintro _ t ⟨rfl, ht⟩
    suffices hfilled : Call.Meets _ site t
        (fun _ t => Rewrites disk path ⟨value, mode⟩ t) fun _ _ => False from
      hfilled.handle fun _ _ h => h.elim
    refine Call.Meets.via (fun _ t => filling ⟨[], mode⟩ t)
      (meets_quiet hquiet rfl (hchange (fun file => { file with mode := mode }) _ _ ht)) ?_
    intro _ t ht
    refine Call.Meets.via (fun _ t => filling ⟨value, mode⟩ t) ?_ ?_
    · refine Call.Meets.via (fun _ t => ∃ part, filling ⟨part, mode⟩ t)
        (meets_write ⟨_, hchange (fun file => { file with content := site.written t.clock }) _ _ ht⟩
          fun failure hfailure => ?_) ?_
      · rw [hquiet] at hfailure
        cases hfailure
      rintro _ t ⟨part, ht⟩
      refine Call.Meets.via (fun _ t => filling ⟨value, mode⟩ t)
        (meets_quiet hquiet rfl (hchange (fun file => { file with content := value }) _ _ ht)) ?_
      intro _ t ht
      exact meets_quiet hquiet rfl ⟨ht.prepared, ht.replaced, ht.files⟩
    · intro _ t ht
      have hsource : Dict.get? t.files name = some ⟨value, mode⟩ := by
        rw [ht.files, if_pos rfl]
      have hreplace : (match Dict.get? t.files name with
          | none => .error ⟨.osError, s!"No such file or directory: '{name}'"⟩
          | some file => .ok ((), { t with files := (t.files.erase name).insert path file }) :
            Result (Unit × Disk)) =
          .ok ((), { t with files := (t.files.erase name).insert path ⟨value, mode⟩ }) := by
        rw [hsource]
      refine meets_quiet hquiet hreplace ⟨ht.prepared, ht.replaced, fun other => ?_⟩
      · change Dict.get? ((t.files.erase name).insert path ⟨value, mode⟩) other = _
        rw [Dict.get?_insert, Dict.get?_erase, ht.files]
        by_cases hpath : other = path
        · rw [if_pos hpath, if_pos hpath]
        · rw [if_neg hpath, if_neg hpath]
          split
          · rename_i heq
            rw [heq, hfree]
          · rfl

end Rollback

/-! ### What the loops keep -/

section Loops

variable {rendered worktreeOriginals : Dict Bytes} {worktreeModes : Dict Nat} {site : FileSite}
  {files : Dict StoredFile} {disk t : Disk} {done rest : List String} {relative : String}

/-- What the caller captured of the files it is about to replace. -/
def Captured (rendered worktreeOriginals : Dict Bytes) (worktreeModes : Dict Nat)
    (files : Dict StoredFile) : Prop :=
  ∀ path ∈ rendered.keys, ∃ original mode,
    Dict.get? worktreeOriginals path = some original ∧
      Dict.get? worktreeModes path = some mode ∧ Dict.get? files path = some ⟨original, mode⟩

/-- The file that a target has in the end. -/
def renderedFile (rendered : Dict Bytes) (worktreeModes : Dict Nat) (path : String) :
    Option StoredFile := do
  let content ← Dict.get? rendered path
  let mode ← Dict.get? worktreeModes path
  return ⟨content, mode⟩

/-- Nothing but temporary files and replaced targets differs from the files at the start. -/
structure Disturbed (rendered : Dict Bytes) (files : Dict StoredFile) (disk : Disk) : Prop where
  keys : disk.prepared.keys.Nodup
  free : ∀ temporary ∈ disk.temporaries, Dict.get? files temporary = none
  targets : ∀ path ∈ disk.replaced, path ∈ rendered.keys
  others : ∀ path, path ∉ disk.temporaries → path ∉ disk.replaced →
    Dict.get? disk.files path = Dict.get? files path

/-- What a failure of the loops leaves. -/
def Failed (rendered : Dict Bytes) (files : Dict StoredFile) (site : FileSite) (failure : Failure)
    (disk : Disk) : Prop :=
  (∃ time, site.fault .replacing time = some failure) ∧ Disturbed rendered files disk

theorem mem_targets : relative ∈ targets rendered ↔ relative ∈ rendered.keys := mem_sortedSet

theorem mem_temporaries {temporary : String} (hkeys : disk.prepared.keys.Nodup) :
    temporary ∈ disk.temporaries ↔ ∃ key, Dict.get? disk.prepared key = some temporary := by
  unfold Disk.temporaries
  rw [List.mem_map]
  constructor
  · rintro ⟨⟨key, found⟩, hmem, rfl⟩
    exact ⟨key, Dict.get?_of_mem hkeys hmem⟩
  · rintro ⟨key, hkey⟩
    exact ⟨(key, temporary), Dict.mem_of_get? hkey, rfl⟩

/-- In the first loop: the files of the finished passes lie ready. -/
structure Preparing (rendered : Dict Bytes) (worktreeModes : Dict Nat) (files : Dict StoredFile)
    (done : List String) (disk : Disk) : Prop where
  disturbed : Disturbed rendered files disk
  unreplaced : disk.replaced = []
  present : ∀ temporary ∈ disk.temporaries, Dict.get? disk.files temporary ≠ none
  distinct : disk.temporaries.Nodup
  prepared : ∀ key ∈ disk.prepared.keys, key ∈ done
  filled : ∀ relative ∈ done, ∃ temporary, Dict.get? disk.prepared relative = some temporary ∧
    Dict.get? disk.files temporary = renderedFile rendered worktreeModes relative

/-- A pass of the first loop: its own temporary file has this content by now. -/
structure Filling (rendered : Dict Bytes) (worktreeModes : Dict Nat) (files : Dict StoredFile)
    (done : List String) (relative temporary : String) (file : StoredFile) (disk : Disk) :
    Prop where
  disturbed : Disturbed rendered files disk
  unreplaced : disk.replaced = []
  present : ∀ other ∈ disk.temporaries, Dict.get? disk.files other ≠ none
  distinct : disk.temporaries.Nodup
  prepared : ∀ key ∈ disk.prepared.keys, key ∈ done ∨ key = relative
  filled : ∀ other ∈ done, ∃ ready, ready ≠ temporary ∧
    Dict.get? disk.prepared other = some ready ∧
      Dict.get? disk.files ready = renderedFile rendered worktreeModes other
  own : Dict.get? disk.prepared relative = some temporary
  content : Dict.get? disk.files temporary = some file

theorem Disturbed.tick (h : Disturbed rendered files disk) : Disturbed rendered files disk.tick :=
  ⟨h.keys, h.free, h.targets, h.others⟩

theorem Filling.tick {temporary : String} {file : StoredFile}
    (h : Filling rendered worktreeModes files done relative temporary file disk) :
    Filling rendered worktreeModes files done relative temporary file disk.tick :=
  ⟨h.disturbed.tick, h.unreplaced, h.present, h.distinct, h.prepared, h.filled, h.own, h.content⟩

theorem Filling.change {temporary : String} {file : StoredFile}
    (h : Filling rendered worktreeModes files done relative temporary file disk)
    (edit : StoredFile → StoredFile) :
    Filling rendered worktreeModes files done relative temporary (edit file)
      (disk.change temporary edit) := by
  have htemporaries : (disk.change temporary edit).temporaries = disk.temporaries := by
    unfold Disk.temporaries
    rw [change_prepared]
  have hown : temporary ∈ disk.temporaries := (mem_temporaries h.disturbed.keys).mpr ⟨_, h.own⟩
  refine ⟨⟨?_, ?_, ?_, ?_⟩, ?_, ?_, ?_, ?_, ?_, ?_, ?_⟩
  · rw [change_prepared]
    exact h.disturbed.keys
  · rw [htemporaries]
    exact h.disturbed.free
  · rw [change_replaced]
    exact h.disturbed.targets
  · intro path hpath hreplaced
    rw [htemporaries] at hpath
    rw [change_replaced] at hreplaced
    have hne : path ≠ temporary := fun heq => hpath (heq ▸ hown)
    rw [get?_change, if_neg hne]
    exact h.disturbed.others path hpath hreplaced
  · rw [change_replaced]
    exact h.unreplaced
  · intro other hother
    rw [htemporaries] at hother
    rw [get?_change]
    split
    · rw [h.content]
      simp
    · exact h.present other hother
  · rw [htemporaries]
    exact h.distinct
  · rw [change_prepared]
    exact h.prepared
  · intro other hother
    obtain ⟨ready, hne, hkey, hfile⟩ := h.filled other hother
    refine ⟨ready, hne, ?_, ?_⟩
    · rw [change_prepared]
      exact hkey
    · rw [get?_change, if_neg hne]
      exact hfile
  · rw [change_prepared]
    exact h.own
  · rw [get?_change, if_pos rfl, h.content]
    rfl

/-- A system call of the first loop on the descriptor. -/
theorem Filling.meets {temporary : String} {file : StoredFile}
    (h : Filling rendered worktreeModes files done relative temporary file disk)
    {f : FileSite → Disk → Result (Unit × Disk)} {after : Disk}
    (hf : f site disk = .ok ((), after)) {returned : Unit → Disk → Prop}
    (hafter : returned () after.tick) :
    (syscall .replacing f).Meets site disk returned (Failed rendered files site) := by
  refine meets_syscall (fun found u hfound => ?_) (fun failure hfailure => ?_)
    fun failure hfailure => ?_
  · rw [hf] at hfound
    cases hfound
    exact hafter
  · rw [hf] at hfailure
    cases hfailure
  · exact ⟨⟨_, hfailure⟩, h.disturbed.tick⟩

theorem Filling.ready {temporary : String} {file : StoredFile}
    (h : Filling rendered worktreeModes files done relative temporary file disk)
    (hfile : renderedFile rendered worktreeModes relative = some file) :
    Preparing rendered worktreeModes files (done ++ [relative]) disk := by
  refine ⟨h.disturbed, h.unreplaced, h.present, h.distinct, fun key hkey => ?_,
    fun other hother => ?_⟩
  · rw [List.mem_append, List.mem_singleton]
    exact h.prepared key hkey
  · rw [List.mem_append, List.mem_singleton] at hother
    rcases hother with hother | rfl
    · obtain ⟨ready, -, hkey, hready⟩ := h.filled other hother
      exact ⟨ready, hkey, hready⟩
    · exact ⟨temporary, h.own, by rw [h.content, hfile]⟩

/-- `mkstemp` and the entry in `prepared`. -/
theorem Preparing.begin (h : Preparing rendered worktreeModes files done disk)
    (hnew : relative ∉ done) :
    Filling rendered worktreeModes files done relative (site.unused relative disk.files disk.clock)
      ⟨[], 0o600⟩ (Disk.mk (disk.clock + 1)
        (disk.files.insert (site.unused relative disk.files disk.clock) ⟨[], 0o600⟩)
        (disk.prepared.insert relative (site.unused relative disk.files disk.clock)) disk.replaced) := by
  set name := site.unused relative disk.files disk.clock with hname
  have hfree : Dict.get? disk.files name = none := site.unused_free _ _ _
  have hkey : Dict.get? disk.prepared relative = none :=
    Dict.get?_eq_none.mpr fun hmem => hnew (h.prepared _ hmem)
  have hnot : name ∉ disk.temporaries := fun hmem => h.present name hmem hfree
  have htemporaries : ∀ clock files' replaced, Disk.temporaries
      ⟨clock, files', disk.prepared.insert relative name, replaced⟩ =
        disk.temporaries ++ [name] := by
    intro clock files' replaced
    unfold Disk.temporaries
    simp only [Dict.insert_of_get?_eq_none hkey, List.map_append, List.map_cons, List.map_nil]
  refine ⟨⟨?_, ?_, ?_, ?_⟩, h.unreplaced, ?_, ?_, ?_, ?_, ?_, ?_⟩
  · exact Dict.nodup_keys_insert h.disturbed.keys _ _
  · intro temporary hmem
    rw [htemporaries, List.mem_append, List.mem_singleton] at hmem
    rcases hmem with hmem | rfl
    · exact h.disturbed.free temporary hmem
    · have hsame := h.disturbed.others name hnot (by rw [h.unreplaced]; exact List.not_mem_nil)
      rw [← hsame]
      exact hfree
  · exact h.disturbed.targets
  · intro path hpath hreplaced
    rw [htemporaries, List.mem_append, List.mem_singleton, not_or] at hpath
    change Dict.get? (disk.files.insert name _) path = _
    rw [Dict.get?_insert, if_neg hpath.2]
    exact h.disturbed.others path hpath.1 hreplaced
  · intro other hother
    rw [htemporaries, List.mem_append, List.mem_singleton] at hother
    change Dict.get? (disk.files.insert name _) other ≠ none
    rw [Dict.get?_insert]
    split
    · simp
    · rename_i hne
      exact h.present other (hother.resolve_right hne)
  · rw [htemporaries]
    exact List.nodup_append.mpr ⟨h.distinct, List.nodup_singleton _, fun a ha b hb => by
      rw [List.mem_singleton] at hb
      rintro rfl
      exact hnot (hb ▸ ha)⟩
  · intro key hmem
    change key ∈ (disk.prepared.insert relative name).keys at hmem
    rcases Dict.mem_keys_insert.mp hmem with rfl | hold
    · exact Or.inr rfl
    · exact Or.inl (h.prepared key hold)
  · intro other hother
    obtain ⟨ready, hready, hfile⟩ := h.filled other hother
    have hmem : ready ∈ disk.temporaries := (mem_temporaries h.disturbed.keys).mpr ⟨_, hready⟩
    have hne : ready ≠ name := fun heq => hnot (heq ▸ hmem)
    have hother' : other ≠ relative := fun heq => hnew (heq ▸ hother)
    refine ⟨ready, hne, ?_, ?_⟩
    · change Dict.get? (disk.prepared.insert relative name) other = _
      rw [Dict.get?_insert, if_neg hother']
      exact hready
    · change Dict.get? (disk.files.insert name _) ready = _
      rw [Dict.get?_insert, if_neg hne]
      exact hfile
  · change Dict.get? (disk.prepared.insert relative name) relative = _
    rw [Dict.get?_insert, if_pos rfl]
  · change Dict.get? (disk.files.insert name _) name = _
    rw [Dict.get?_insert, if_pos rfl]

/-- A pass of the first loop. -/
theorem meets_prepareReplacement
    (hcaptured : Captured rendered worktreeOriginals worktreeModes files)
    (h : Preparing rendered worktreeModes files done disk) (hnew : relative ∉ done)
    (hrelative : relative ∈ rendered.keys) :
    (prepareReplacement rendered worktreeModes relative).Meets site disk
      (fun _ t => Preparing rendered worktreeModes files (done ++ [relative]) t)
      (Failed rendered files site) := by
  obtain ⟨original, mode, -, hmode, -⟩ := hcaptured relative hrelative
  obtain ⟨content, hcontent⟩ : ∃ content, Dict.get? rendered relative = some content := by
    cases hfound : Dict.get? rendered relative with
    | none => exact absurd hrelative (Dict.get?_eq_none.mp hfound)
    | some content => exact ⟨content, rfl⟩
  have hfile : renderedFile rendered worktreeModes relative = some ⟨content, mode⟩ := by
    simp [renderedFile, hcontent, hmode]
  set name := site.unused relative disk.files disk.clock with hname
  let filling (file : StoredFile) (t : Disk) : Prop :=
    Filling rendered worktreeModes files done relative name file t
  unfold prepareReplacement
  refine Call.Meets.via (fun found t => found = name ∧
    t = Disk.mk (disk.clock + 1) (disk.files.insert name ⟨[], 0o600⟩) disk.prepared disk.replaced)
    ?_ ?_
  · refine meets_syscall (fun found u hfound => ?_) (fun failure hfailure => ?_)
      fun failure hfailure => ⟨⟨_, hfailure⟩, h.disturbed.tick⟩
    · cases hfound
      exact ⟨rfl, rfl⟩
    · cases hfailure
  rintro _ t ⟨rfl, rfl⟩
  refine Call.Meets.via (fun _ t => filling ⟨[], 0o600⟩ t) ?_ ?_
  · refine Call.meets_update (fun found u hfound => ?_) fun failure hfailure => ?_
    · cases hfound
      exact h.begin hnew
    · cases hfailure
  intro _ t ht
  refine Call.Meets.via (fun found t => mode = found ∧ filling ⟨[], 0o600⟩ t)
    (meets_item hmode ⟨rfl, ht⟩) ?_
  rintro _ t ⟨rfl, ht⟩
  refine Call.Meets.via (fun _ t => filling ⟨[], mode⟩ t)
    (ht.meets rfl (ht.change fun file => { file with mode := mode }).tick) ?_
  intro _ t ht
  refine Call.Meets.via (fun found t => content = found ∧ filling ⟨[], mode⟩ t)
    (meets_item hcontent ⟨rfl, ht⟩) ?_
  rintro _ t ⟨rfl, ht⟩
  refine Call.Meets.via (fun _ t => ∃ part, filling ⟨part, mode⟩ t)
    (meets_write ⟨_, (ht.change fun file => { file with content := site.written t.clock }).tick⟩
      fun failure hfailure => ⟨⟨_, hfailure⟩, (ht.change _).disturbed.tick⟩) ?_
  rintro _ t ⟨part, ht⟩
  refine Call.Meets.via (fun _ t => filling ⟨content, mode⟩ t)
    (ht.meets rfl (ht.change fun file => { file with content := content }).tick) ?_
  intro _ t ht
  exact ht.meets rfl (ht.tick.ready hfile)

/-- In the second loop: the targets of the finished passes are replaced. -/
structure Replacing (rendered : Dict Bytes) (worktreeModes : Dict Nat) (files : Dict StoredFile)
    (done : List String) (disk : Disk) : Prop where
  disturbed : Disturbed rendered files disk
  replaced : disk.replaced = done
  distinct : disk.temporaries.Nodup
  prepared : ∀ key ∈ disk.prepared.keys, key ∈ targets rendered ∧ key ∉ done
  filled : ∀ relative ∈ targets rendered, relative ∉ done → ∃ temporary,
    Dict.get? disk.prepared relative = some temporary ∧
      Dict.get? disk.files temporary = renderedFile rendered worktreeModes relative
  moved : ∀ relative ∈ done,
    Dict.get? disk.files relative = renderedFile rendered worktreeModes relative

theorem Preparing.replacing
    (h : Preparing rendered worktreeModes files (targets rendered) disk) :
    Replacing rendered worktreeModes files [] disk :=
  ⟨h.disturbed, h.unreplaced, h.distinct,
    fun key hkey => ⟨h.prepared key hkey, List.not_mem_nil⟩, fun relative hmem _ =>
      h.filled relative hmem, fun _ hmem => absurd hmem List.not_mem_nil⟩

/-- No temporary file is the file of two targets. -/
theorem temporary_unique {key other temporary : String} (hdistinct : disk.temporaries.Nodup)
    (hkey : (key, temporary) ∈ disk.prepared) (hother : (other, temporary) ∈ disk.prepared) :
    key = other :=
  congrArg Prod.fst (List.inj_on_of_nodup_map hdistinct hkey hother rfl)

theorem mem_erase {prepared : Dict String} {key other temporary : String} :
    (other, temporary) ∈ prepared.erase key ↔ (other, temporary) ∈ prepared ∧ other ≠ key := by
  simp [Dict.erase]

/-- A target is no temporary file, for it was there at the start. -/
theorem target_not_temporary
    (hcaptured : Captured rendered worktreeOriginals worktreeModes files)
    (h : Disturbed rendered files disk) (hrelative : relative ∈ rendered.keys) :
    relative ∉ disk.temporaries := by
  intro hmem
  obtain ⟨original, mode, -, -, hfile⟩ := hcaptured relative hrelative
  rw [h.free relative hmem] at hfile
  cases hfile

/-- A pass of the second loop. -/
theorem Replacing.move (hcaptured : Captured rendered worktreeOriginals worktreeModes files)
    (h : Replacing rendered worktreeModes files done disk) (hnew : relative ∉ done)
    (hrelative : relative ∈ rendered.keys) {temporary : String} {file : StoredFile}
    (hown : Dict.get? disk.prepared relative = some temporary)
    (hfile : renderedFile rendered worktreeModes relative = some file) :
    Replacing rendered worktreeModes files (done ++ [relative]) (Disk.mk (disk.clock + 1)
      ((disk.files.erase temporary).insert relative file) (disk.prepared.erase relative)
      (disk.replaced ++ [relative])) := by
  have hmem : (relative, temporary) ∈ disk.prepared := Dict.mem_of_get? hown
  have htemporary : temporary ∈ disk.temporaries := List.mem_map_of_mem hmem
  have htemporaries : ∀ clock files' replaced other, other ∈ Disk.temporaries
      ⟨clock, files', disk.prepared.erase relative, replaced⟩ ↔
        other ∈ disk.temporaries ∧ other ≠ temporary := by
    intro clock files' replaced other
    unfold Disk.temporaries
    simp only [List.mem_map, Prod.exists, exists_eq_right, mem_erase]
    constructor
    · rintro ⟨key, hkey, hne⟩
      refine ⟨⟨key, hkey⟩, ?_⟩
      rintro rfl
      exact hne (temporary_unique h.distinct hkey hmem)
    · rintro ⟨⟨key, hkey⟩, hne⟩
      refine ⟨key, hkey, ?_⟩
      rintro rfl
      have hsame := Dict.get?_of_mem h.disturbed.keys hkey
      rw [hown] at hsame
      exact hne (Option.some.inj hsame).symm
  have htarget : ∀ path ∈ rendered.keys, path ∉ disk.temporaries :=
    fun path hpath => target_not_temporary hcaptured h.disturbed hpath
  have hgone : Dict.get? files temporary = none := h.disturbed.free temporary htemporary
  refine ⟨⟨?_, ?_, ?_, ?_⟩, ?_, ?_, ?_, ?_, ?_⟩
  · exact h.disturbed.keys.sublist (List.filter_sublist.map _)
  · intro other hother
    exact h.disturbed.free other ((htemporaries _ _ _ other).mp hother).1
  · intro path hpath
    rw [List.mem_append, List.mem_singleton] at hpath
    rcases hpath with hpath | rfl
    · exact h.disturbed.targets path hpath
    · exact hrelative
  · intro path hpath hreplaced
    rw [htemporaries, not_and_not_right] at hpath
    rw [List.mem_append, List.mem_singleton, not_or] at hreplaced
    change Dict.get? ((disk.files.erase temporary).insert relative file) path = _
    rw [Dict.get?_insert, if_neg hreplaced.2, Dict.get?_erase]
    split
    · rename_i heq
      rw [heq, hgone]
    · rename_i hne
      exact h.disturbed.others path (fun hmem => hne (hpath hmem)) hreplaced.1
  · change disk.replaced ++ [relative] = _
    rw [h.replaced]
  · exact h.distinct.sublist (List.filter_sublist.map _)
  · intro key hkey
    obtain ⟨⟨found, value⟩, hentry, rfl⟩ := List.mem_map.mp hkey
    obtain ⟨hentry, hne⟩ := mem_erase.mp hentry
    obtain ⟨htargets, hdone⟩ := h.prepared found (List.mem_map_of_mem hentry)
    refine ⟨htargets, ?_⟩
    rw [List.mem_append, List.mem_singleton, not_or]
    exact ⟨hdone, hne⟩
  · intro other hother hdone
    rw [List.mem_append, List.mem_singleton, not_or] at hdone
    obtain ⟨ready, hready, hcontent⟩ := h.filled other hother hdone.1
    have hentry : (other, ready) ∈ disk.prepared := Dict.mem_of_get? hready
    refine ⟨ready, ?_, ?_⟩
    · change Dict.get? (disk.prepared.erase relative) other = _
      rw [Dict.get?_erase, if_neg hdone.2]
      exact hready
    · change Dict.get? ((disk.files.erase temporary).insert relative file) ready = _
      have hne : ready ≠ temporary := by
        rintro rfl
        exact hdone.2 (temporary_unique h.distinct hentry hmem)
      have hne' : ready ≠ relative := by
        rintro rfl
        exact htarget ready hrelative (List.mem_map_of_mem hentry)
      rw [Dict.get?_insert, if_neg hne', Dict.get?_erase, if_neg hne]
      exact hcontent
  · intro other hother
    change Dict.get? ((disk.files.erase temporary).insert relative file) other = _
    rw [List.mem_append, List.mem_singleton] at hother
    rw [Dict.get?_insert, Dict.get?_erase]
    by_cases heq : other = relative
    · rw [if_pos heq, heq, hfile]
    · have hdone := hother.resolve_right heq
      have hne : other ≠ temporary := by
        rintro rfl
        exact htarget other (h.disturbed.targets other (h.replaced ▸ hdone)) htemporary
      rw [if_neg heq, if_neg hne]
      exact h.moved other hdone

theorem meets_replaceTarget (hcaptured : Captured rendered worktreeOriginals worktreeModes files)
    (h : Replacing rendered worktreeModes files done disk) (hnew : relative ∉ done)
    (hrelative : relative ∈ rendered.keys) :
    (replaceTarget relative).Meets site disk
      (fun _ t => Replacing rendered worktreeModes files (done ++ [relative]) t)
      (Failed rendered files site) := by
  obtain ⟨original, mode, -, hmode, -⟩ := hcaptured relative hrelative
  obtain ⟨content, hcontent⟩ : ∃ content, Dict.get? rendered relative = some content := by
    cases hfound : Dict.get? rendered relative with
    | none => exact absurd hrelative (Dict.get?_eq_none.mp hfound)
    | some content => exact ⟨content, rfl⟩
  have hfile : renderedFile rendered worktreeModes relative = some ⟨content, mode⟩ := by
    simp [renderedFile, hcontent, hmode]
  obtain ⟨temporary, hown, hready⟩ := h.filled relative (mem_targets.mpr hrelative) hnew
  rw [hfile] at hready
  unfold replaceTarget
  refine Call.Meets.via (fun prepared t => prepared = disk.prepared ∧ t = disk) ?_ ?_
  · refine Call.meets_reads (fun found hfound => ?_) fun failure hfailure => ?_
    · cases hfound
      exact ⟨rfl, rfl⟩
    · cases hfailure
  rintro _ t ⟨rfl, rfl⟩
  refine Call.Meets.via (fun found u => temporary = found ∧ u = t)
    (meets_item hown ⟨rfl, rfl⟩) ?_
  rintro _ u ⟨rfl, rfl⟩
  refine Call.Meets.via (fun _ t => t = Disk.mk (u.clock + 1)
    ((u.files.erase temporary).insert relative ⟨content, mode⟩) u.prepared u.replaced) ?_ ?_
  · refine meets_syscall (fun found v hfound => ?_) (fun failure hfailure => ?_)
      fun failure hfailure => ⟨⟨_, hfailure⟩, h.disturbed.tick⟩
    · simp only [hready] at hfound
      cases hfound
      rfl
    · simp only [hready] at hfailure
      cases hfailure
  rintro _ _ rfl
  refine Call.meets_update (fun found v hfound => ?_) fun failure hfailure => ?_
  · cases hfound
    exact h.move hcaptured hnew hrelative hown hfile
  · cases hfailure

/-- The loops replace every target, or fail and leave temporary files and replaced targets. -/
theorem meets_replaceAll (hcaptured : Captured rendered worktreeOriginals worktreeModes files)
    (h : Preparing rendered worktreeModes files [] disk) :
    (replaceAll rendered worktreeModes).Meets site disk
      (fun _ t => Replacing rendered worktreeModes files (targets rendered) t)
      (Failed rendered files site) := by
  have hnew : ∀ done item rest, targets rendered = done ++ item :: rest →
      item ∉ done ∧ item ∈ rendered.keys := by
    intro done item rest hsplit
    have hnodup : (targets rendered).Nodup := nodup_sortedSet _
    have hmem : item ∈ targets rendered := by
      rw [hsplit]
      simp
    rw [hsplit] at hnodup
    obtain ⟨-, -, hdisjoint⟩ := List.nodup_append.mp hnodup
    exact ⟨fun hdone => hdisjoint item hdone item List.mem_cons_self rfl, mem_targets.mp hmem⟩
  unfold replaceAll
  refine Call.Meets.via (fun _ t => Preparing rendered worktreeModes files (targets rendered) t) ?_ ?_
  · refine Call.meets_forEach (fun done t => Preparing rendered worktreeModes files done t) ?_ h
    intro done item rest hsplit s hs
    obtain ⟨hfresh, hkey⟩ := hnew done item rest hsplit
    exact meets_prepareReplacement hcaptured hs hfresh hkey
  intro _ t ht
  refine Call.Meets.via (fun _ t => Replacing rendered worktreeModes files (targets rendered) t) ?_ ?_
  · refine Call.meets_forEach (fun done t => Replacing rendered worktreeModes files done t) ?_ ht.replacing
    intro done item rest hsplit s hs
    obtain ⟨hfresh, hkey⟩ := hnew done item rest hsplit
    exact meets_replaceTarget hcaptured hs hfresh hkey
  intro _ t ht
  exact Call.meets_pure ht

/-! ### After the loops -/

/-- After the rollback nothing but temporary files is left. -/
structure RolledBack (files : Dict StoredFile) (disk : Disk) : Prop where
  free : ∀ temporary ∈ disk.temporaries, Dict.get? files temporary = none
  others : ∀ path, path ∉ disk.temporaries → Dict.get? disk.files path = Dict.get? files path

theorem meets_rollBack (hquiet : ∀ time, site.fault .rollback time = none)
    (hcaptured : Captured rendered worktreeOriginals worktreeModes files) {failure : Failure}
    (h : Disturbed rendered files disk) {returned : Unit → Disk → Prop} :
    (rollBack worktreeOriginals worktreeModes failure).Meets site disk returned
      (fun found t => found = failure ∧ RolledBack files t) := by
  -- the targets before the current one have their captured file again
  let restored (done : List String) (t : Disk) : Prop :=
    t.prepared = disk.prepared ∧ ∀ path, path ∉ disk.temporaries →
      (path ∉ disk.replaced ∨ path ∈ done) → Dict.get? t.files path = Dict.get? files path
  unfold rollBack
  refine Call.Meets.via (fun found t => found = disk.replaced ∧ t = disk) ?_ ?_
  · refine Call.meets_reads (fun found hfound => ?_) fun failure hfailure => ?_
    · cases hfound
      exact ⟨rfl, rfl⟩
    · cases hfailure
  rintro _ t ⟨rfl, rfl⟩
  refine Call.Meets.via (fun _ u => restored t.replaced u) ?_ ?_
  · refine Call.meets_forEach restored ?_ ⟨rfl, fun path hpath hcase => ?_⟩
    · intro done relative rest hsplit s ⟨hprepared, hfiles⟩
      have hmem : relative ∈ t.replaced := by
        rw [hsplit]
        simp
      obtain ⟨original, mode, horiginal, hmode, hfile⟩ :=
        hcaptured relative (h.targets relative hmem)
      unfold restoreOriginal
      refine Call.Meets.via (fun found u => found = original ∧ u = s)
        (meets_item horiginal ⟨rfl, rfl⟩) ?_
      rintro _ u ⟨rfl, rfl⟩
      refine Call.Meets.via (fun found v => found = mode ∧ v = u)
        (meets_item hmode ⟨rfl, rfl⟩) ?_
      rintro _ v ⟨rfl, rfl⟩
      refine (meets_atomicWriteBytes hquiet).mono (fun _ w hw => ⟨hw.prepared.trans hprepared, ?_⟩)
        fun _ _ hfalse => hfalse.elim
      intro path hpath hcase
      rw [hw.files]
      split
      · rename_i heq
        rw [heq, hfile]
      · rename_i hne
        refine hfiles path hpath (hcase.imp_right fun hdone => ?_)
        rw [List.mem_append, List.mem_singleton] at hdone
        exact hdone.resolve_right hne
    · exact h.others path hpath (hcase.resolve_right List.not_mem_nil)
  rintro _ u ⟨hprepared, hfiles⟩
  have hsame : u.temporaries = t.temporaries := by
    unfold Disk.temporaries
    rw [hprepared]
  refine Call.meets_raise ⟨rfl, fun temporary hmem => ?_, fun path hpath => ?_⟩
  · exact h.free temporary (hsame ▸ hmem)
  · rw [hsame] at hpath
    exact hfiles path hpath (em' _)

theorem removeTemporaries_returns (hquiet : ∀ time, site.fault .rollback time = none)
    (h : RolledBack files disk) : ∃ t, removeTemporaries.Returns site disk () t ∧
      ∀ path, Dict.get? t.files path = Dict.get? files path := by
  let removed (done : List String) (t : Disk) : Prop := ∀ path,
    (path ∉ disk.temporaries ∨ path ∈ done) → Dict.get? t.files path = Dict.get? files path
  refine Call.Meets.returns ?_
  unfold removeTemporaries
  refine Call.Meets.via (fun found t => found = disk.temporaries ∧ t = disk) ?_ ?_
  · refine Call.meets_reads (fun found hfound => ?_) fun failure hfailure => ?_
    · cases hfound
      exact ⟨rfl, rfl⟩
    · cases hfailure
  rintro _ t ⟨rfl, rfl⟩
  refine Call.Meets.via (fun _ u => removed t.temporaries u) ?_ ?_
  · refine Call.meets_forEach removed ?_ fun path hcase => ?_
    · intro done temporary rest hsplit s hs
      refine meets_quiet hquiet rfl fun path hcase => ?_
      change Dict.get? (s.files.erase temporary) path = _
      have hmem : temporary ∈ t.temporaries := by
        rw [hsplit]
        simp
      rw [Dict.get?_erase]
      split
      · rename_i heq
        rw [heq, h.free temporary hmem]
      · rename_i hne
        refine hs path (hcase.imp_right fun hdone => ?_)
        rw [List.mem_append, List.mem_singleton] at hdone
        exact hdone.resolve_right hne
    · exact h.others path (hcase.resolve_right List.not_mem_nil)
  intro _ u hu
  exact Call.meets_pure fun path => hu path (em' _)

/-- Once every target is replaced no temporary file is left. -/
theorem Replacing.finished
    (h : Replacing rendered worktreeModes files (targets rendered) disk) :
    disk.temporaries = [] ∧ ∀ path, Dict.get? disk.files path =
      if path ∈ rendered.keys then renderedFile rendered worktreeModes path
      else Dict.get? files path := by
  have hnone : disk.prepared = [] := by
    rw [List.eq_nil_iff_forall_not_mem]
    rintro ⟨key, temporary⟩ hmem
    obtain ⟨htarget, hnot⟩ := h.prepared key (List.mem_map_of_mem hmem)
    exact hnot htarget
  have htemporaries : disk.temporaries = [] := by
    unfold Disk.temporaries
    rw [hnone]
    rfl
  refine ⟨htemporaries, fun path => ?_⟩
  split
  · rename_i hkey
    exact h.moved path (mem_targets.mpr hkey)
  · rename_i hkey
    refine h.disturbed.others path ?_ ?_
    · rw [htemporaries]
      exact List.not_mem_nil
    · rw [h.replaced]
      exact fun hmem => hkey (mem_targets.mp hmem)

end Loops

/-! ### The whole replacement -/

/-- What the replacement leaves of the files it found: all of them replaced when it returns, all
    of them unchanged when it raises a failure of its loops. -/
def Atomic (rendered : Dict Bytes) (worktreeModes : Dict Nat) (site : FileSite) (disk : Disk)
    (result : Outcome Failure Unit × Disk) : Prop :=
  (result.1 = .returned () ∧ ∀ path, Dict.get? result.2.files path =
      if path ∈ rendered.keys then renderedFile rendered worktreeModes path
      else Dict.get? disk.files path) ∨
    ∃ failure, result.1 = .raised failure ∧
      (∃ time, site.fault .replacing time = some failure) ∧
      ∀ path, Dict.get? result.2.files path = Dict.get? disk.files path

def longestName (files : Dict StoredFile) : Nat := (files.keys.map String.length).sum

/-- A name in the directory of the target that is longer than every name there. -/
def longName (target : String) (files : Dict StoredFile) (_ : Nat) : String :=
  target ++ String.ofList (List.replicate (longestName files + 1) '_')

theorem longName_free (target : String) (files : Dict StoredFile) (time : Nat) :
    Dict.get? files (longName target files time) = none := by
  refine Dict.get?_eq_none.mpr fun hmem => ?_
  have hle : (longName target files time).length ≤ longestName files :=
    List.single_le_sum (fun _ _ => Nat.zero_le _) _ (List.mem_map_of_mem hmem)
  unfold longName at hle
  rw [String.length_append, String.length_ofList, List.length_replicate] at hle
  omega

/-- The file system is full when the second target is replaced. -/
def sampleSite : FileSite where
  fault stage time :=
    match stage with
    | .replacing => if time = 11 then some ⟨.osError, "No space left on device"⟩ else none
    | .rollback => none
  written _ := []
  unused := longName
  unused_free := longName_free

def sampleRendered : Dict Bytes :=
  [("docs/RUN_LOG.md", [97, 98]), ("docs/CURRENT_STATUS.md", [99])]

def sampleOriginals : Dict Bytes := [("docs/RUN_LOG.md", [97]), ("docs/CURRENT_STATUS.md", [100])]

def sampleModes : Dict Nat := [("docs/RUN_LOG.md", 0o644), ("docs/CURRENT_STATUS.md", 0o600)]

def sampleDisk : Disk where
  clock := 0
  files := [("docs/RUN_LOG.md", ⟨[97], 0o644⟩), ("docs/CURRENT_STATUS.md", ⟨[100], 0o600⟩),
    ("AGENTS.md", ⟨[101], 0o644⟩)]
  prepared := []
  replaced := []

theorem sample_captured :
    Captured sampleRendered sampleOriginals sampleModes sampleDisk.files := by
  intro path hpath
  simp only [sampleRendered, Dict.keys, List.map_cons, List.map_nil, List.mem_cons,
    List.not_mem_nil, or_false] at hpath
  rcases hpath with rfl | rfl
  · exact ⟨[97], 0o644, by decide, by decide, by decide⟩
  · exact ⟨[100], 0o600, by decide, by decide, by decide⟩

end MetadataReplacement

end Conveyor
