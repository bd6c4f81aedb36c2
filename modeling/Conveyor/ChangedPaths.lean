import Conveyor.Kernel
import Conveyor.Library.PathListing

/-!
# The changed paths of a worktree

`_changed_paths` takes the tracked paths from the lines of `git diff --name-only HEAD`, where Git
quotes names and leaves out the source of a rename, and the untracked ones from the items of
`git status -z`, where the source of a rename is an item of its own. Both outputs are read as
text streams. Here is what the two commands print and what the controller makes of it: when every
changed file is among the paths (`every_change_seen`).
-/

namespace Conveyor

open Library

/-! ### Reading files -/

/-- A worktree as `safe_worktree_file_bytes` finds it. -/
structure Files where
  worktree : Tree
  problem : String → Option PathProblem
  /-- What is opened under a path that is not the name of a file of the worktree. -/
  elsewhere : String → Option Bytes

namespace Files

variable (files : Files)

def content (relative : String) : Option Bytes :=
  (files.worktree.get? relative).or (files.elsewhere relative)

/-- `safe_worktree_file_bytes(relative, allow_missing=True)`. -/
def safeWorktreeFileBytes (relative : String) : Result (Option Bytes) :=
  match files.problem relative with
  | some problem => .error (problem.readError relative)
  | none => .ok (files.content relative)

/-- `safe_worktree_file_bytes(relative)`. -/
def presentBytes (relative : String) : Result Bytes := do
  match ← files.safeWorktreeFileBytes relative with
  | none => .error (repositoryError s!"worktree path is missing: {relative}")
  | some payload => return payload

def readEntry (path : String) : Result Entry := do
  let content ← files.safeWorktreeFileBytes path
  return (path, content)

/-- The contents that `content_diff_fingerprint` hashes. -/
def read (paths : List String) : Result (List Entry) := (sortedSet paths).mapM files.readEntry

/-- `content_diff_fingerprint(paths)`. -/
def contentDiffFingerprint (P : Platform) (paths : List String) : Result String := do
  let entries ← files.read paths
  return contentFingerprint P entries

/-- The worktree with other bytes in one of its files. -/
def edit (path : String) (bytes : Bytes) : Files :=
  { files with worktree := files.worktree.insert path bytes }

variable {files : Files} {path relative : String} {paths : List String} {entries : List Entry}
  {bytes : Bytes}

@[simp] theorem problem_edit : (files.edit path bytes).problem = files.problem := rfl

theorem content_edit :
    (files.edit path bytes).content relative =
      if relative = path then some bytes else files.content relative := by
  rw [content, edit, Dict.get?_insert]
  split
  · rfl
  · rfl

theorem safeWorktreeFileBytes_eq_ok {found : Option Bytes} :
    files.safeWorktreeFileBytes relative = .ok found ↔
      files.problem relative = none ∧ files.content relative = found := by
  rw [safeWorktreeFileBytes]
  split <;> simp_all

theorem presentBytes_eq_ok :
    files.presentBytes relative = .ok bytes ↔
      files.problem relative = none ∧ files.content relative = some bytes := by
  rw [presentBytes, bind_eq_ok]
  simp only [safeWorktreeFileBytes_eq_ok]
  constructor
  · rintro ⟨found, ⟨hproblem, hcontent⟩, hfound⟩
    cases found with
    | none => cases hfound
    | some payload =>
        cases hfound
        exact ⟨hproblem, hcontent⟩
  · rintro ⟨hproblem, hcontent⟩
    exact ⟨_, ⟨hproblem, hcontent⟩, rfl⟩

theorem readEntry_eq_ok {entry : Entry} :
    files.readEntry path = .ok entry ↔
      files.problem path = none ∧ entry = (path, files.content path) := by
  rw [readEntry, bind_eq_ok]
  simp only [safeWorktreeFileBytes_eq_ok, pure, Except.pure, Except.ok.injEq]
  constructor
  · rintro ⟨_, ⟨hproblem, rfl⟩, rfl⟩
    exact ⟨hproblem, rfl⟩
  · rintro ⟨hproblem, rfl⟩
    exact ⟨_, ⟨hproblem, rfl⟩, rfl⟩

theorem forall₂_readEntry {listed : List String} :
    List.Forall₂ (fun path entry => files.readEntry path = .ok entry) listed entries ↔
      (∀ path ∈ listed, files.problem path = none) ∧
        entries = listed.map fun path => (path, files.content path) := by
  induction listed generalizing entries with
  | nil => simp
  | cons path listed ih =>
      cases entries with
      | nil => simp
      | cons entry entries =>
          rw [List.forall₂_cons, ih, readEntry_eq_ok, List.forall_mem_cons, List.map_cons,
            List.cons.injEq]
          exact and_and_and_comm

theorem read_eq_ok :
    files.read paths = .ok entries ↔
      (∀ path ∈ paths, files.problem path = none) ∧
        entries = (sortedSet paths).map fun path => (path, files.content path) := by
  rw [read, mapM_eq_ok, forall₂_readEntry]
  simp only [mem_sortedSet]

/-- Two fingerprints that should differ do, or there is a collision at hand: of the digests of
    the contents, or of the fingerprints of what they were taken from. -/
structure ToldApart (P : Platform) (files : Files) (paths : List String) (path : String)
    (content content' : Bytes) : Prop where
  told : ∃ entries entries', files.read paths = .ok entries ∧
    (files.edit path content').read paths = .ok entries' ∧
    (contentFingerprint P entries = contentFingerprint P entries' →
      P.sha256 content = P.sha256 content' ∨
        entries.flatMap (entryMaterial P) ≠ entries'.flatMap (entryMaterial P))

/-- The bytes hashed for a set of paths show those of each file, up to its digest. -/
theorem sha256_eq_of_material {P : Platform} {content content' : Bytes}
    (hpath : path ∈ paths) (hcontent : files.content path = some content)
    (h : ((sortedSet paths).map fun path => (path, files.content path)).flatMap (entryMaterial P) =
      ((sortedSet paths).map fun other =>
        (other, (files.edit path content').content other)).flatMap (entryMaterial P)) :
    P.sha256 content = P.sha256 content' := by
  have hmem : path ∈ sortedSet paths := mem_sortedSet.mpr hpath
  have hnodup := nodup_sortedSet paths
  obtain ⟨before, after, hsplit⟩ := List.append_of_mem hmem
  rw [hsplit] at h hnodup
  have hbefore : path ∉ before := by
    intro hin
    rw [List.nodup_append] at hnodup
    exact hnodup.2.2 path hin path List.mem_cons_self rfl
  have hafter : path ∉ after := by
    intro hin
    rw [List.nodup_append, List.nodup_cons] at hnodup
    exact hnodup.2.1.1 hin
  have hsame : ∀ others : List String, path ∉ others →
      (others.map fun other => (other, (files.edit path content').content other)) =
        others.map fun other => (other, files.content other) := by
    intro others hothers
    apply List.map_congr_left
    intro other hother
    have hne : other ≠ path := by
      rintro rfl
      exact hothers hother
    rw [content_edit, if_neg hne]
  rw [List.map_append, List.map_append, List.map_cons, List.map_cons, hsame _ hbefore,
    hsame _ hafter, content_edit, if_pos rfl, hcontent] at h
  simpa [entryMaterial] using h

theorem toldApart (P : Platform) {content content' : Bytes} (hpath : path ∈ paths)
    (hproblem : ∀ other ∈ paths, files.problem other = none)
    (hcontent : files.worktree.get? path = some content) :
    ToldApart P files paths path content content' := by
  have hfound : files.content path = some content := by rw [Files.content, hcontent]; rfl
  refine ⟨_, _, read_eq_ok.mpr ⟨hproblem, rfl⟩, read_eq_ok.mpr ⟨hproblem, rfl⟩, fun _ => ?_⟩
  by_contra hcollision
  rw [not_or, not_not] at hcollision
  exact hcollision.1 (sha256_eq_of_material hpath hfound hcollision.2)

theorem ToldApart.problem {P : Platform} {content content' : Bytes}
    (h : ToldApart P files paths path content content') :
    ∀ other ∈ paths, files.problem other = none := by
  obtain ⟨entries, _, hread, -⟩ := h.told
  exact (read_eq_ok.mp hread).1

end Files

/-! ### What Git lists -/

/-- A letter of a `git status` code for a tracked path. -/
inductive StatusLetter where
  | unmodified | modified | typeChanged | added | deleted | renamed | copied | unmerged
deriving DecidableEq, Repr

def StatusLetter.letter : StatusLetter → Char
  | unmodified => ' '
  | modified => 'M'
  | typeChanged => 'T'
  | added => 'A'
  | deleted => 'D'
  | renamed => 'R'
  | copied => 'C'
  | unmerged => 'U'

/-- What `git status` says of a tracked path: for a rename also where it came from. -/
structure StatusItem where
  index : StatusLetter
  worktree : StatusLetter
  path : String
  origin : Option String

def StatusItem.items (item : StatusItem) : List (List Char) :=
  (item.index.letter :: item.worktree.letter :: ' ' :: item.path.toList) ::
    (item.origin.map String.toList).toList

/-- A name Git can track. -/
def IsPathName (path : String) : Prop := path.toList ≠ [] ∧ '\x00' ∉ path.toList

instance (path : String) : Decidable (IsPathName path) := inferInstanceAs (Decidable (_ ∧ _))

/-- A repository with its worktree, and what the two listings say of its tracked paths beyond
    their contents: the sources of the renames `git diff` finds, and the items of `git status`.
    Where there is a rename, something changed. -/
structure Checkout extends Files where
  repository : Repository
  ignored : String → Bool
  renamed : List String
  status : List StatusItem
  changed_named : ∀ path ∈ repository.trackedChangedPaths worktree, IsPathName path
  untracked_named : ∀ path ∈ repository.untrackedPaths ignored worktree, IsPathName path
  status_named : ∀ item ∈ status, IsPathName item.path ∧ ∀ origin ∈ item.origin, IsPathName origin
  origin_changed : ∀ item ∈ status, item.origin ≠ none →
    repository.trackedChangedPaths worktree ≠ []

/-- The name of an untracked path, from an item of `git status -z`. -/
def untrackedName (item : List Char) : Option String :=
  if "?? ".toList.isPrefixOf item then some (String.ofList (item.drop 3)) else none

namespace Checkout

variable (checkout : Checkout)

/-- The tracked paths whose content differs from `HEAD`. -/
def tracked : List String := checkout.repository.trackedChangedPaths checkout.worktree

def untracked : List String :=
  checkout.repository.untrackedPaths checkout.ignored checkout.worktree

/-- The untracked paths outside the controller's runtime files. -/
def foreign : List String := checkout.untracked.filter fun path => !Repository.isRuntimePath path

/-- Every changed path. -/
def changed : List String := checkout.tracked ++ checkout.foreign

/-- The paths `git diff` shows: of a rename only where it went to. -/
def shown : List String := checkout.tracked.filter fun path => path ∉ checkout.renamed

/-- `git diff --name-only HEAD --`. -/
def diffOutput : List Char := listLines (checkout.shown.map String.toList)

/-- `git status --porcelain=v1 -z --untracked-files=all`. -/
def statusOutput : List Char :=
  listItems (checkout.status.flatMap StatusItem.items ++
    checkout.untracked.map fun path => "?? ".toList ++ path.toList)

/-- `tracked_changed_paths`. -/
def trackedChangedPaths : List String :=
  ((readLines checkout.diffOutput).map String.ofList).insertionSort (· ≤ ·)

/-- The paths `untracked_file_hashes` reads. -/
def listedUntracked : List String :=
  ((readItems checkout.statusOutput).filterMap untrackedName).filter fun path =>
    !Repository.isRuntimePath path

/-- `untracked_file_hashes`. -/
def untrackedFileHashes (P : Platform) : Result (Dict String) := do
  let payloads ← checkout.listedUntracked.mapM checkout.presentBytes
  let hashes := (checkout.listedUntracked.zip payloads).foldl
    (fun hashes item => Dict.insert hashes item.1 (P.hexdigest item.2)) []
  return hashes.insertionSort fun first second => first.1 ≤ second.1

/-- `_changed_paths` of a transaction that may start from a dirty worktree. -/
def changedFromBaseline (transaction : PhaseTransaction) (snapshot : RepositorySnapshot)
    (tracked untracked : List String) : Result (List String) :=
  if WorkflowKernel.SnapshotIsStart transaction snapshot then return []
  else do
    require (tracked ≠ [] ∨ untracked ≠ [])
      (transactionError "observation-only dirty baseline changed after recovery start")
    return sortedSet (tracked ++ untracked)

/-- `_changed_paths`, with what `capture_repository_snapshot` gives. -/
def changedPaths (P : Platform) (transaction : PhaseTransaction)
    (snapshot : Result RepositorySnapshot) : Result (List String) := do
  let tracked := checkout.trackedChangedPaths
  let hashes ← checkout.untrackedFileHashes P
  let untracked := Dict.keys hashes
  if transaction.allowedMutationPolicy.requireCleanStart then return sortedSet (tracked ++ untracked)
  else do
    let snapshot ← snapshot
    changedFromBaseline transaction snapshot tracked untracked

/-! ### What the two listings come to -/

def quoted (path : String) : String := String.ofList (quoteName path.toList)

/-- A path as a text stream reads it. -/
def streamed (path : String) : String := String.ofList (universalNewlines path.toList)

/-- The sources of renames that read as untracked paths. -/
def misread : List String :=
  ((checkout.status.filterMap StatusItem.origin).filterMap fun origin =>
    untrackedName (universalNewlines origin.toList)).filter fun path =>
      !Repository.isRuntimePath path

variable {checkout : Checkout} {P : Platform} {path : String}

theorem mem_tracked_of_mem_shown (h : path ∈ checkout.shown) : path ∈ checkout.tracked :=
  List.mem_of_mem_filter h

theorem mem_trackedChangedPaths :
    path ∈ checkout.trackedChangedPaths ↔ ∃ name ∈ checkout.shown, path = quoted name := by
  have hnames : ∀ name ∈ checkout.shown.map String.toList, name ≠ [] := by
    intro name hname
    obtain ⟨shown, hshown, rfl⟩ := List.mem_map.mp hname
    exact (checkout.changed_named shown (mem_tracked_of_mem_shown hshown)).1
  rw [trackedChangedPaths, List.mem_insertionSort, diffOutput, readLines_listLines hnames]
  simp only [List.map_map, List.mem_map, Function.comp_apply]
  exact exists_congr fun name => and_congr_right fun _ => eq_comm

theorem untrackedName_untracked (rest : List Char) :
    untrackedName ("?? ".toList ++ rest) = some (String.ofList rest) := rfl

theorem universalNewlines_untracked (name : List Char) :
    universalNewlines ("?? ".toList ++ name) = "?? ".toList ++ universalNewlines name :=
  universalNewlines_plain (by simp) name

/-- The item of a tracked path does not read as that of an untracked one. -/
theorem untrackedName_tracked (item : StatusItem) :
    untrackedName (universalNewlines
      (item.index.letter :: item.worktree.letter :: ' ' :: item.path.toList)) = none := by
  have hplain : ∀ letter : StatusLetter, letter.letter ≠ '\r' ∧ letter.letter ≠ '?' := by
    intro letter
    cases letter <;> decide
  have hletter : ∀ c ∈ [item.index.letter], c ≠ '\r' := by simpa using (hplain item.index).1
  have hread := universalNewlines_plain hletter (item.worktree.letter :: ' ' :: item.path.toList)
  rw [List.singleton_append] at hread
  have hnot : "?? ".toList.isPrefixOf (item.index.letter ::
      universalNewlines (item.worktree.letter :: ' ' :: item.path.toList)) = false := by
    simp [List.isPrefixOf, (hplain item.index).2.symm]
  rw [hread, List.singleton_append, untrackedName, hnot]
  rfl

/-- An untracked path is listed under the name a text stream reads; a rename source only where
    it looks like one. -/
theorem mem_listedUntracked :
    path ∈ checkout.listedUntracked ↔
      path ∈ checkout.misread ∨
        (∃ name ∈ checkout.untracked, path = streamed name) ∧
          Repository.isRuntimePath path = false := by
  have hnames : ∀ item ∈ checkout.status.flatMap StatusItem.items ++
      checkout.untracked.map (fun path => "?? ".toList ++ path.toList),
      item ≠ [] ∧ '\x00' ∉ item := by
    intro item hitem
    rw [List.mem_append, List.mem_flatMap, List.mem_map] at hitem
    rcases hitem with ⟨status, hstatus, hitem⟩ | ⟨name, hname, rfl⟩
    · have hnamed := checkout.status_named status hstatus
      rw [StatusItem.items, List.mem_cons] at hitem
      rcases hitem with rfl | hitem
      · have hletters : ∀ letter : StatusLetter, '\x00' ≠ letter.letter := by
          intro letter
          cases letter <;> decide
        refine ⟨List.cons_ne_nil _ _, ?_⟩
        simp [hletters, hnamed.1.2]
      · obtain ⟨origin, horigin, rfl⟩ : ∃ origin ∈ status.origin, origin.toList = item := by
          cases ho : status.origin <;> simp_all
        exact hnamed.2 origin horigin
    · have hnamed := checkout.untracked_named name hname
      refine ⟨by simp, ?_⟩
      simp [hnamed.2]
  rw [listedUntracked, statusOutput, readItems_listItems hnames, misread, List.mem_filter,
    List.mem_filter, List.map_append, List.filterMap_append, List.mem_append, or_and_right]
  have hforeign : path ∈ ((checkout.untracked.map fun path => "?? ".toList ++ path.toList).map
        universalNewlines).filterMap untrackedName ↔
      ∃ name ∈ checkout.untracked, path = streamed name := by
    simp only [List.map_map, List.mem_filterMap, List.mem_map, Function.comp_apply]
    constructor
    · rintro ⟨_, ⟨name, hname, rfl⟩, hpath⟩
      rw [universalNewlines_untracked, untrackedName_untracked] at hpath
      exact ⟨name, hname, (Option.some.inj hpath).symm⟩
    · rintro ⟨name, hname, rfl⟩
      refine ⟨_, ⟨name, hname, rfl⟩, ?_⟩
      rw [universalNewlines_untracked, untrackedName_untracked, streamed]
  have hstatus : path ∈ ((checkout.status.flatMap StatusItem.items).map
        universalNewlines).filterMap untrackedName ↔
      path ∈ (checkout.status.filterMap StatusItem.origin).filterMap fun origin =>
        untrackedName (universalNewlines origin.toList) := by
    simp only [List.mem_filterMap, List.mem_map, List.mem_flatMap]
    constructor
    · rintro ⟨_, ⟨item, ⟨status, hin, hitem⟩, rfl⟩, hpath⟩
      rw [StatusItem.items, List.mem_cons] at hitem
      rcases hitem with rfl | hitem
      · rw [untrackedName_tracked] at hpath
        cases hpath
      · obtain ⟨origin, horigin, rfl⟩ : ∃ origin, status.origin = some origin ∧
            origin.toList = item := by
          cases ho : status.origin <;> simp_all
        exact ⟨origin, ⟨status, hin, horigin⟩, hpath⟩
    · rintro ⟨origin, ⟨status, hin, horigin⟩, hpath⟩
      refine ⟨_, ⟨origin.toList, ⟨status, hin, ?_⟩, rfl⟩, hpath⟩
      simp [StatusItem.items, horigin]
  rw [hforeign, hstatus]
  simp

theorem streamed_eq_self (h : '\r' ∉ path.toList) : streamed path = path := by
  have hreturn : ∀ c ∈ path.toList, c ≠ '\r' := by
    rintro c hc rfl
    exact h hc
  have hread := universalNewlines_plain hreturn []
  rw [List.append_nil, universalNewlines, List.append_nil] at hread
  rw [streamed, hread, String.ofList_toList]

theorem return_not_mem_streamed : '\r' ∉ (streamed path).toList := by
  rw [streamed, String.toList_ofList]
  exact return_not_mem_universalNewlines _

theorem return_not_mem_quoted : '\r' ∉ (quoted path).toList := by
  rw [quoted, String.toList_ofList]
  intro hreturn
  cases isPrintableAscii_quoteName _ _ hreturn

theorem return_not_mem_misread (h : path ∈ checkout.misread) : '\r' ∉ path.toList := by
  rw [misread, List.mem_filter, List.mem_filterMap] at h
  obtain ⟨⟨origin, -, hname⟩, -⟩ := h
  rw [untrackedName] at hname
  split at hname
  · cases hname
    rw [String.toList_ofList]
    exact fun hreturn => return_not_mem_universalNewlines _ (List.mem_of_mem_drop hreturn)
  · cases hname

theorem isRuntimePath_streamed (h : Repository.isRuntimePath path = true) :
    Repository.isRuntimePath (streamed path) = true := by
  have hprefix : ∀ rest, universalNewlines (".factory/runtime/".toList ++ rest) =
      ".factory/runtime/".toList ++ universalNewlines rest := fun rest =>
    universalNewlines_plain (by simp) rest
  rw [Repository.isRuntimePath, Bool.or_eq_true, decide_eq_true_eq,
    List.isPrefixOf_iff_prefix] at h
  rcases h with (rfl | rfl) | ⟨rest, hrest⟩
  · decide
  · decide
  · rw [streamed, ← hrest, hprefix, Repository.isRuntimePath, Bool.or_eq_true]
    refine Or.inr (List.isPrefixOf_iff_prefix.mpr ?_)
    -- the first of the two texts is the literal
    rw [String.toList_ofList, String.toList_ofList]
    exact List.prefix_append _ _

theorem mem_foreign :
    path ∈ checkout.foreign ↔ path ∈ checkout.untracked ∧
      Repository.isRuntimePath path = false := by
  rw [foreign, List.mem_filter, Bool.not_eq_true']

/-- Where no untracked name holds a carriage return, the untracked paths are read as they are. -/
theorem mem_listedUntracked_of_streamed
    (h : ∀ path ∈ checkout.foreign, '\r' ∉ path.toList) :
    path ∈ checkout.listedUntracked ↔ path ∈ checkout.misread ∨ path ∈ checkout.foreign := by
  rw [mem_listedUntracked, mem_foreign]
  constructor
  · rintro (hmisread | ⟨⟨name, hname, rfl⟩, hruntime⟩)
    · exact Or.inl hmisread
    · have hforeign : Repository.isRuntimePath name = false := by
        by_contra hruns
        rw [isRuntimePath_streamed (by simpa using hruns)] at hruntime
        cases hruntime
      rw [streamed_eq_self (h name (mem_foreign.mpr ⟨hname, hforeign⟩))]
      exact Or.inr ⟨hname, hforeign⟩
  · rintro (hmisread | ⟨hname, hruntime⟩)
    · exact Or.inl hmisread
    · have hsame := streamed_eq_self (h path (mem_foreign.mpr ⟨hname, hruntime⟩))
      exact Or.inr ⟨⟨path, hname, hsame.symm⟩, hruntime⟩

/-! ### The paths the controller takes -/

theorem mem_keys_insertionSort (hashes : Dict String) :
    path ∈ Dict.keys (hashes.insertionSort fun first second => first.1 ≤ second.1) ↔
      path ∈ Dict.keys hashes := by
  simp only [Dict.keys, List.mem_map, List.mem_insertionSort]

theorem mem_keys_foldl_insert (items : List (String × Bytes)) (hashes : Dict String) :
    path ∈ Dict.keys (items.foldl
      (fun hashes item => Dict.insert hashes item.1 (P.hexdigest item.2)) hashes) ↔
      path ∈ Dict.keys hashes ∨ path ∈ items.map Prod.fst := by
  induction items generalizing hashes with
  | nil => simp
  | cons item items ih =>
      rw [List.foldl_cons, ih, Dict.mem_keys_insert, List.map_cons, List.mem_cons]
      tauto

/-- The untracked paths can be told when each listed one can be read. -/
def Readable (files : Files) (path : String) : Prop :=
  files.problem path = none ∧ files.content path ≠ none

theorem readable_iff {files : Files} :
    Readable files path ↔ ∃ bytes, files.presentBytes path = .ok bytes := by
  simp only [Files.presentBytes_eq_ok, Readable, Option.ne_none_iff_exists']
  exact ⟨fun ⟨hproblem, bytes, hbytes⟩ => ⟨bytes, hproblem, hbytes⟩,
    fun ⟨bytes, hproblem, hbytes⟩ => ⟨hproblem, bytes, hbytes⟩⟩

theorem exists_of_mapM {f : String → Result Bytes} {listed : List String} {payloads : List Bytes}
    (h : listed.mapM f = .ok payloads) (hpath : path ∈ listed) : ∃ bytes, f path = .ok bytes := by
  rw [mapM_eq_ok] at h
  induction h with
  | nil => cases hpath
  | cons hfirst _ ih =>
      rcases List.mem_cons.mp hpath with rfl | hpath
      · exact ⟨_, hfirst⟩
      · exact ih hpath

theorem untrackedFileHashes_eq_ok {hashes : Dict String}
    (h : checkout.untrackedFileHashes P = .ok hashes) :
    (∀ path ∈ checkout.listedUntracked, Readable checkout.toFiles path) ∧
      ∀ path, path ∈ Dict.keys hashes ↔ path ∈ checkout.listedUntracked := by
  rw [untrackedFileHashes, bind_eq_ok] at h
  obtain ⟨payloads, hpayloads, h⟩ := h
  cases h
  refine ⟨fun path hpath => readable_iff.mpr (exists_of_mapM hpayloads hpath), fun path => ?_⟩
  · rw [mem_keys_insertionSort, mem_keys_foldl_insert,
      List.map_fst_zip (mapM_eq_ok.mp hpayloads).length_eq.le]
    simp [Dict.keys]

theorem exists_untrackedFileHashes
    (h : ∀ path ∈ checkout.listedUntracked, Readable checkout.toFiles path) :
    ∃ hashes, checkout.untrackedFileHashes P = .ok hashes := by
  have hpayloads : ∃ payloads, checkout.listedUntracked.mapM checkout.presentBytes = .ok payloads := by
    generalize checkout.listedUntracked = listed at h
    induction listed with
    | nil => exact ⟨[], rfl⟩
    | cons path listed ih =>
        obtain ⟨bytes, hbytes⟩ := readable_iff.mp (h path List.mem_cons_self)
        obtain ⟨payloads, hpayloads⟩ := ih fun other hother =>
          h other (List.mem_cons_of_mem _ hother)
        exact ⟨bytes :: payloads, mapM_eq_ok.mpr (.cons hbytes (mapM_eq_ok.mp hpayloads))⟩
  obtain ⟨payloads, hpayloads⟩ := hpayloads
  exact ⟨_, by rw [untrackedFileHashes, hpayloads]; rfl⟩

/-- The paths the two listings give. -/
def Listed (checkout : Checkout) (path : String) : Prop :=
  (∃ name ∈ checkout.shown, path = quoted name) ∨ path ∈ checkout.listedUntracked

theorem changedFromBaseline_eq_ok {transaction : PhaseTransaction} {found : RepositorySnapshot}
    {tracked untracked paths : List String} :
    changedFromBaseline transaction found tracked untracked = .ok paths ↔
      (WorkflowKernel.SnapshotIsStart transaction found ∧ paths = []) ∨
        (¬WorkflowKernel.SnapshotIsStart transaction found ∧ tracked ++ untracked ≠ [] ∧
          paths = sortedSet (tracked ++ untracked)) := by
  rw [changedFromBaseline]
  by_cases hstart : WorkflowKernel.SnapshotIsStart transaction found
  · rw [if_pos hstart]
    constructor
    · intro h
      exact Or.inl ⟨hstart, (Except.ok.inj h).symm⟩
    · rintro (⟨-, rfl⟩ | ⟨hnot, -⟩)
      · rfl
      · exact absurd hstart hnot
  · rw [if_neg hstart, require_bind_eq_ok]
    constructor
    · rintro ⟨hsome, h⟩
      refine Or.inr ⟨hstart, ?_, (Except.ok.inj h).symm⟩
      rw [Ne, List.append_eq_nil_iff, not_and_or]
      exact hsome
    · rintro (⟨hstart', -⟩ | ⟨-, hsome, rfl⟩)
      · exact absurd hstart' hstart
      · rw [Ne, List.append_eq_nil_iff, not_and_or] at hsome
        exact ⟨hsome, rfl⟩

/-- The call returns when everything listed can be read, and then the listed paths, except where
    a transaction only observes. -/
theorem changedPaths_eq_ok {transaction : PhaseTransaction} {snapshot : Result RepositorySnapshot}
    {paths : List String} (h : checkout.changedPaths P transaction snapshot = .ok paths) :
    (∀ path ∈ checkout.listedUntracked, Readable checkout.toFiles path) ∧
      ((transaction.allowedMutationPolicy.requireCleanStart = false ∧
          (∃ found, snapshot = .ok found ∧ WorkflowKernel.SnapshotIsStart transaction found) ∧
          paths = []) ∨
        ((transaction.allowedMutationPolicy.requireCleanStart = true ∨
            paths ≠ [] ∧ ∃ found, snapshot = .ok found ∧
              ¬WorkflowKernel.SnapshotIsStart transaction found) ∧
          ∀ path, path ∈ paths ↔ checkout.Listed path)) := by
  rw [changedPaths, bind_eq_ok] at h
  obtain ⟨hashes, hhashes, h⟩ := h
  obtain ⟨hreadable, hkeys⟩ := untrackedFileHashes_eq_ok hhashes
  have hlisted : ∀ path, path ∈ sortedSet (checkout.trackedChangedPaths ++ Dict.keys hashes) ↔
      checkout.Listed path := by
    intro path
    rw [mem_sortedSet, List.mem_append, mem_trackedChangedPaths, hkeys, Listed]
  refine ⟨hreadable, ?_⟩
  cases hpolicy : transaction.allowedMutationPolicy.requireCleanStart with
  | true =>
      simp only [hpolicy, if_true] at h
      obtain rfl := Except.ok.inj h
      exact Or.inr ⟨Or.inl rfl, hlisted⟩
  | false =>
      simp only [hpolicy, Bool.false_eq_true, if_false, bind_eq_ok,
        changedFromBaseline_eq_ok] at h
      obtain ⟨found, hfound, ⟨hstart, rfl⟩ | ⟨hstart, hsome, rfl⟩⟩ := h
      · exact Or.inl ⟨rfl, ⟨found, hfound, hstart⟩, rfl⟩
      · refine Or.inr ⟨Or.inr ⟨?_, found, hfound, hstart⟩, hlisted⟩
        intro hnone
        refine hsome (List.eq_nil_iff_forall_not_mem.mpr fun path hpath => ?_)
        have hin := mem_sortedSet.mpr hpath
        rw [hnone] at hin
        cases hin

theorem exists_changedPaths {transaction : PhaseTransaction}
    {snapshot : Result RepositorySnapshot}
    (hreadable : ∀ path ∈ checkout.listedUntracked, Readable checkout.toFiles path)
    (hpolicy : transaction.allowedMutationPolicy.requireCleanStart = true ∨
      ∃ found, snapshot = .ok found ∧ (WorkflowKernel.SnapshotIsStart transaction found ↔
        ∀ path, ¬checkout.Listed path)) :
    ∃ paths, checkout.changedPaths P transaction snapshot = .ok paths ∧
      ∀ path, path ∈ paths ↔ checkout.Listed path := by
  obtain ⟨hashes, hhashes⟩ := exists_untrackedFileHashes (P := P) hreadable
  obtain ⟨-, hkeys⟩ := untrackedFileHashes_eq_ok hhashes
  have hlisted : ∀ path, path ∈ checkout.trackedChangedPaths ++ Dict.keys hashes ↔
      checkout.Listed path := by
    intro path
    rw [List.mem_append, mem_trackedChangedPaths, hkeys, Listed]
  have hsorted : ∀ path, path ∈ sortedSet (checkout.trackedChangedPaths ++ Dict.keys hashes) ↔
      checkout.Listed path := fun path => mem_sortedSet.trans (hlisted path)
  simp only [changedPaths, hhashes, ok_bind]
  rcases hpolicy with hclean | ⟨found, rfl, hstart⟩
  · rw [if_pos hclean]
    exact ⟨_, rfl, hsorted⟩
  · by_cases hclean : transaction.allowedMutationPolicy.requireCleanStart = true
    · rw [if_pos hclean]
      exact ⟨_, rfl, hsorted⟩
    · simp only [if_neg hclean, ok_bind, changedFromBaseline_eq_ok]
      by_cases hunchanged : WorkflowKernel.SnapshotIsStart transaction found
      · refine ⟨[], Or.inl ⟨hunchanged, rfl⟩, fun path => ?_⟩
        constructor
        · intro hpath
          cases hpath
        · intro hpath
          exact absurd hpath (hstart.mp hunchanged path)
      · refine ⟨_, Or.inr ⟨hunchanged, ?_, rfl⟩, hsorted⟩
        intro hnone
        refine hunchanged (hstart.mpr fun path hpath => ?_)
        rw [← hlisted, hnone] at hpath
        cases hpath

/-! ### When every change is seen -/

/-- The paths are the changed ones, and other bytes in a changed file give another
    fingerprint. -/
def SeesEveryChange (P : Platform) (checkout : Checkout) (transaction : PhaseTransaction)
    (snapshot : Result RepositorySnapshot) : Prop :=
  ∃ paths, checkout.changedPaths P transaction snapshot = .ok paths ∧
    (∀ path, path ∈ paths ↔ path ∈ checkout.changed) ∧
    ∀ path ∈ checkout.changed, ∀ content content',
      checkout.worktree.get? path = some content → content' ≠ content →
      checkout.repository.headTree.get? path ≠ some content' →
      Files.ToldApart P checkout.toFiles paths path content content'

/-- A name that Git writes on a line as it is. -/
def IsPlainName (path : String) : Prop := path.toList.all isPlain = true

instance (path : String) : Decidable (IsPlainName path) := inferInstanceAs (Decidable (_ = true))

/-- A path that `git status` names as it is, as an untracked one. -/
def ListedRaw (checkout : Checkout) (path : String) : Prop :=
  path ∈ checkout.misread ∨ path ∈ checkout.foreign

/-- The names of changed tracked paths that Git quotes or leaves out are made up for: some such
    path is also listed as untracked, as one that was only dropped from the index is, and each is
    listed so or is what Git prints for another one, while what it prints is a changed path. -/
structure MadeUp (checkout : Checkout) : Prop where
  doubled : ∃ path ∈ checkout.tracked, checkout.ListedRaw path
  listed : ∀ path ∈ checkout.tracked,
    checkout.ListedRaw path ∨ ∃ name ∈ checkout.shown, path = quoted name
  changed : ∀ name ∈ checkout.shown, quoted name ∈ checkout.changed

/-- What the listings and the reads have to meet. -/
structure AllListed (checkout : Checkout) (transaction : PhaseTransaction)
    (snapshot : Result RepositorySnapshot) : Prop where
  /-- Git quotes no tracked name and leaves none out. -/
  names : (∀ path ∈ checkout.tracked, IsPlainName path ∧ path ∉ checkout.renamed) ∨
    checkout.MadeUp
  /-- No untracked name changes in a text stream. -/
  streamed : ∀ path ∈ checkout.foreign, '\r' ∉ path.toList
  /-- No source of a rename reads as an untracked path that is not there. -/
  origins : ∀ path ∈ checkout.misread, path ∈ checkout.changed
  readable : ∀ path, checkout.ListedRaw path → Readable checkout.toFiles path
  /-- Where there is a file to fingerprint, no changed path is unfit to be read. -/
  fit : (∃ path ∈ checkout.changed, checkout.worktree.get? path ≠ none) →
    ∀ path ∈ checkout.changed, checkout.problem path = none
  /-- A transaction that only observes is not at its unchanged baseline, unless there is none. -/
  policy : transaction.allowedMutationPolicy.requireCleanStart = true ∨
    ∃ found, snapshot = .ok found ∧
      (WorkflowKernel.SnapshotIsStart transaction found ↔ checkout.changed = [])

variable {transaction : PhaseTransaction} {snapshot : Result RepositorySnapshot}

theorem quoted_eq_self (h : IsPlainName path) : quoted path = path := by
  rw [quoted, quoteName_plain h, String.ofList_toList]

theorem length_lt_length_quoted (h : ¬IsPlainName path) :
    path.toList.length < (quoted path).toList.length := by
  rw [quoted, String.toList_ofList]
  exact length_lt_length_quoteName (by simpa [IsPlainName] using h)

/-- Paths that are all printed for one another are plain: a quoted one would be printed for a
    shorter quoted one. -/
theorem plain_of_quoted {paths : List String}
    (h : ∀ path ∈ paths, ∃ name ∈ paths, path = quoted name) :
    ∀ path ∈ paths, IsPlainName path := by
  have hlength : ∀ n, ∀ path ∈ paths, path.toList.length = n → IsPlainName path := by
    intro n
    induction n using Nat.strong_induction_on with
    | _ n ih =>
        intro path hpath hn
        by_contra hplain
        obtain ⟨name, hname, rfl⟩ := h path hpath
        by_cases hsame : IsPlainName name
        · rw [quoted_eq_self hsame] at hplain
          exact hplain hsame
        · exact hsame (ih _ (hn ▸ length_lt_length_quoted hsame) name hname rfl)
  exact fun path hpath => hlength _ path hpath rfl

theorem mem_changed :
    path ∈ checkout.changed ↔ path ∈ checkout.tracked ∨ path ∈ checkout.foreign :=
  List.mem_append

theorem listed_iff_changed (h : checkout.AllListed transaction snapshot) :
    checkout.Listed path ↔ path ∈ checkout.changed := by
  have hraw : path ∈ checkout.listedUntracked ↔ checkout.ListedRaw path :=
    mem_listedUntracked_of_streamed h.streamed
  have hknown : checkout.ListedRaw path → path ∈ checkout.changed := by
    rintro (hmisread | hforeign)
    · exact h.origins path hmisread
    · exact mem_changed.mpr (Or.inr hforeign)
  rw [Listed, hraw]
  rcases h.names with hplain | hmade
  · constructor
    · rintro (⟨name, hname, rfl⟩ | hlisted)
      · have htracked := mem_tracked_of_mem_shown hname
        rw [quoted_eq_self (hplain name htracked).1]
        exact mem_changed.mpr (Or.inl htracked)
      · exact hknown hlisted
    · intro hchanged
      rcases mem_changed.mp hchanged with htracked | hforeign
      · have hname := hplain path htracked
        refine Or.inl ⟨path, ?_, (quoted_eq_self hname.1).symm⟩
        exact List.mem_filter.mpr ⟨htracked, by simpa using hname.2⟩
      · exact Or.inr (Or.inr hforeign)
  · constructor
    · rintro (⟨name, hname, rfl⟩ | hlisted)
      · exact hmade.changed name hname
      · exact hknown hlisted
    · intro hchanged
      rcases mem_changed.mp hchanged with htracked | hforeign
      · exact (hmade.listed path htracked).symm
      · exact Or.inr (Or.inr hforeign)

theorem sees_of_allListed (h : checkout.AllListed transaction snapshot) :
    SeesEveryChange P checkout transaction snapshot := by
  have hreadable : ∀ path ∈ checkout.listedUntracked, Readable checkout.toFiles path :=
    fun path hpath => h.readable path ((mem_listedUntracked_of_streamed h.streamed).mp hpath)
  have hnone : (∀ path, ¬checkout.Listed path) ↔ checkout.changed = [] := by
    rw [List.eq_nil_iff_forall_not_mem]
    exact forall_congr' fun path => not_congr (listed_iff_changed h)
  have hpolicy := h.policy
  simp only [← hnone] at hpolicy
  obtain ⟨paths, hpaths, hlisted⟩ := exists_changedPaths (P := P) hreadable hpolicy
  have hchanged : ∀ path, path ∈ paths ↔ path ∈ checkout.changed := fun path =>
    (hlisted path).trans (listed_iff_changed h)
  refine ⟨paths, hpaths, hchanged, fun path hpath content content' hcontent _ _ => ?_⟩
  refine Files.toldApart P ((hchanged path).mpr hpath) (fun other hother => ?_) hcontent
  exact h.fit ⟨path, hpath, by simp [hcontent]⟩ other ((hchanged other).mp hother)

/-- Where no tracked path changed, no rename is listed. -/
theorem not_mem_misread (h : checkout.tracked = []) : path ∉ checkout.misread := by
  intro hpath
  rw [misread, List.mem_filter, List.mem_filterMap] at hpath
  obtain ⟨⟨origin, horigin, -⟩, -⟩ := hpath
  obtain ⟨item, hitem, horigin⟩ := List.mem_filterMap.mp horigin
  exact checkout.origin_changed item hitem (by simp [horigin]) h

theorem streamed_of_listed (h : checkout.Listed path) : '\r' ∉ path.toList := by
  rcases h with ⟨name, -, rfl⟩ | hlisted
  · exact return_not_mem_quoted
  · rcases mem_listedUntracked.mp hlisted with hmisread | ⟨⟨name, -, rfl⟩, -⟩
    · exact return_not_mem_misread hmisread
    · exact return_not_mem_streamed

theorem names_of_listed (h : ∀ path, checkout.Listed path ↔ path ∈ checkout.changed)
    (hstreamed : ∀ path ∈ checkout.foreign, '\r' ∉ path.toList) :
    (∀ path ∈ checkout.tracked, IsPlainName path ∧ path ∉ checkout.renamed) ∨
      checkout.MadeUp := by
  have hlisted : ∀ path ∈ checkout.tracked,
      checkout.ListedRaw path ∨ ∃ name ∈ checkout.shown, path = quoted name := by
    intro path hpath
    rcases (h path).mpr (mem_changed.mpr (Or.inl hpath)) with hquoted | hraw
    · exact Or.inr hquoted
    · exact Or.inl ((mem_listedUntracked_of_streamed hstreamed).mp hraw)
  by_cases hdoubled : ∃ path ∈ checkout.tracked, checkout.ListedRaw path
  · exact Or.inr ⟨hdoubled, hlisted, fun name hname => (h _).mp (Or.inl ⟨name, hname, rfl⟩)⟩
  · left
    have hquoted : ∀ path ∈ checkout.tracked, ∃ name ∈ checkout.shown, path = quoted name :=
      fun path hpath => (hlisted path hpath).resolve_left fun hraw =>
        hdoubled ⟨path, hpath, hraw⟩
    have hplain : ∀ path ∈ checkout.tracked, IsPlainName path := by
      refine plain_of_quoted fun path hpath => ?_
      obtain ⟨name, hname, hsame⟩ := hquoted path hpath
      exact ⟨name, mem_tracked_of_mem_shown hname, hsame⟩
    intro path hpath
    obtain ⟨name, hname, rfl⟩ := hquoted path hpath
    rw [quoted_eq_self (hplain name (mem_tracked_of_mem_shown hname))]
    refine ⟨hplain name (mem_tracked_of_mem_shown hname), ?_⟩
    simpa using (List.mem_filter.mp hname).2

/-- There are always further bytes for a file. -/
theorem exists_other_bytes (content : Bytes) (committed : Option Bytes) :
    ∃ content', content' ≠ content ∧ committed ≠ some content' := by
  refine ⟨content ++ committed.getD [] ++ [0], ?_, ?_⟩
  · intro h
    have hlength := congrArg List.length h
    simp at hlength
  · intro h
    have hlength := congrArg (fun found => (found.getD []).length) h
    simp at hlength
    omega

theorem fit_of_sees {paths : List String}
    (hsame : ∀ path, path ∈ paths ↔ path ∈ checkout.changed)
    (htold : ∀ path ∈ checkout.changed, ∀ content content',
      checkout.worktree.get? path = some content → content' ≠ content →
      checkout.repository.headTree.get? path ≠ some content' →
      Files.ToldApart P checkout.toFiles paths path content content')
    (h : ∃ path ∈ checkout.changed, checkout.worktree.get? path ≠ none) :
    ∀ path ∈ checkout.changed, checkout.problem path = none := by
  obtain ⟨path, hpath, hpresent⟩ := h
  obtain ⟨content, hcontent⟩ := Option.ne_none_iff_exists'.mp hpresent
  obtain ⟨content', hother, hcommitted⟩ :=
    exists_other_bytes content (checkout.repository.headTree.get? path)
  intro other hother'
  exact (htold path hpath content content' hcontent hother hcommitted).problem other
    ((hsame other).mpr hother')

theorem allListed_of_sees (h : SeesEveryChange P checkout transaction snapshot) :
    checkout.AllListed transaction snapshot := by
  obtain ⟨paths, hpaths, hsame, htold⟩ := h
  obtain ⟨hreadable, hcases⟩ := changedPaths_eq_ok hpaths
  rcases hcases with ⟨hpolicy, ⟨found, hfound, hstart⟩, rfl⟩ | ⟨hpolicy, hlisted⟩
  · -- an observing transaction at its baseline takes no path at all
    have hnone : checkout.changed = [] :=
      List.eq_nil_iff_forall_not_mem.mpr fun path hpath => by cases (hsame path).mpr hpath
    obtain ⟨htracked, hforeign⟩ := List.append_eq_nil_iff.mp hnone
    have hraw : ∀ path, ¬checkout.ListedRaw path := by
      rintro path (hmisread | hpath)
      · exact not_mem_misread htracked hmisread
      · rw [hforeign] at hpath
        cases hpath
    refine ⟨Or.inl ?_, ?_, ?_, ?_, fit_of_sees hsame htold, ?_⟩
    · simp [htracked]
    · simp [hforeign]
    · exact fun path hpath => absurd (Or.inl hpath) (hraw path)
    · exact fun path hpath => absurd hpath (hraw path)
    · exact Or.inr ⟨found, hfound, by simp [hstart, hnone]⟩
  · have hchanged : ∀ path, checkout.Listed path ↔ path ∈ checkout.changed := fun path =>
      (hlisted path).symm.trans (hsame path)
    have hstreamed : ∀ path ∈ checkout.foreign, '\r' ∉ path.toList := fun path hpath =>
      streamed_of_listed ((hchanged path).mpr (mem_changed.mpr (Or.inr hpath)))
    have hraw : ∀ path, checkout.ListedRaw path → path ∈ checkout.listedUntracked :=
      fun path hpath => (mem_listedUntracked_of_streamed hstreamed).mpr hpath
    refine ⟨names_of_listed hchanged hstreamed, hstreamed, ?_, ?_, fit_of_sees hsame htold, ?_⟩
    · exact fun path hpath => (hchanged path).mp (Or.inr (hraw path (Or.inl hpath)))
    · exact fun path hpath => hreadable path (hraw path hpath)
    · rcases hpolicy with hclean | ⟨hsome, found, hfound, hstart⟩
      · exact Or.inl hclean
      · refine Or.inr ⟨found, hfound, iff_of_false hstart fun hnone => ?_⟩
        obtain ⟨path, hpath⟩ := List.exists_mem_of_ne_nil paths hsome
        have hin := (hsame path).mp hpath
        rw [hnone] at hin
        cases hin

/-- Where Git quotes no name and leaves none out, its lines give the paths the kernel's model
    takes for the tracked ones. -/
theorem trackedChangedPaths_eq
    (h : ∀ path ∈ checkout.tracked, IsPlainName path ∧ path ∉ checkout.renamed) :
    checkout.trackedChangedPaths =
      checkout.repository.trackedChangedPaths checkout.worktree := by
  have hnames : ∀ name ∈ checkout.tracked.map String.toList, name ≠ [] := by
    intro name hname
    obtain ⟨path, hpath, rfl⟩ := List.mem_map.mp hname
    exact (checkout.changed_named path hpath).1
  have hshown : checkout.shown = checkout.tracked :=
    List.filter_eq_self.mpr fun path hpath => by simpa using (h path hpath).2
  have hquoted : checkout.tracked.map quoted = checkout.tracked := by
    conv_rhs => rw [← List.map_id checkout.tracked]
    exact List.map_congr_left fun path hpath => quoted_eq_self (h path hpath).1
  have hmap : ((checkout.tracked.map String.toList).map quoteName).map String.ofList =
      checkout.tracked.map quoted := by
    rw [List.map_map, List.map_map]
    rfl
  have hsorted : checkout.tracked.Pairwise (· ≤ ·) := List.pairwise_insertionSort _ _
  rw [trackedChangedPaths, diffOutput, hshown, readLines_listLines hnames, hmap, hquoted]
  exact hsorted.insertionSort_eq

def accentedCheckout : Checkout where
  worktree := [("é.txt", [98])]
  problem _ := none
  elsewhere _ := none
  repository := {
    identity := "repository", pathFingerprint := "path"
    commits := [("c0", ⟨none, [("é.txt", [97])], "start"⟩)]
    branches := [("main", "c0")], branch := some "main", head := "c0"
    index := [("é.txt", [97])] }
  ignored _ := false
  renamed := []
  status := [⟨.unmodified, .modified, "é.txt", none⟩]
  changed_named := by decide
  untracked_named := by decide
  status_named := by decide
  origin_changed := by decide

def accentedTransaction : PhaseTransaction where
  transactionId := "t"
  workflowType := .featureExecution
  projectId := "p"
  repositoryIdentity := "repository"
  repositoryPathFingerprint := "path"
  milestone := none
  featureId := none
  runId := "r"
  startingBranch := "main"
  startingHead := "c0"
  startingQueueFingerprint := none
  startingTrackedDiffFingerprint := ""
  startingUntrackedFingerprint := ""
  allowedMutationPolicy := { allowedPaths := [] }

end Checkout

end Conveyor
