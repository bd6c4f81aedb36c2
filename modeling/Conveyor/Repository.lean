import Conveyor.Contracts
import Conveyor.Library.Dict
import Mathlib.Data.List.Dedup
import Mathlib.Data.List.Sort

/-!
# The repository

What the controller reads from and writes to a Git repository (`repository.py`): the
commits and branches, the checked-out branch with its index, and the worktree beside
them. A tree maps each path to the bytes of its file.

The worktree is not part of a `Repository`: other processes write to it at any time, so
every reader of this module takes the worktree it reads.
-/

namespace Conveyor

open Library

def repositoryError (message : String) : Failure := ⟨.repositoryError, message⟩

abbrev Bytes := List UInt8

abbrev Tree := Dict Bytes

/-- A path with the content found there; `none` where there is no file. -/
abbrev Entry := String × Option Bytes

/-- `sorted(set(items))`. -/
def sortedSet (items : List String) : List String := items.dedup.insertionSort (· ≤ ·)

theorem mem_sortedSet {items : List String} {item : String} :
    item ∈ sortedSet items ↔ item ∈ items := by
  rw [sortedSet, List.mem_insertionSort, List.mem_dedup]

theorem nodup_sortedSet (items : List String) : (sortedSet items).Nodup := by
  rw [sortedSet, (List.perm_insertionSort _ _).nodup_iff]
  exact List.nodup_dedup items

structure Commit where
  parent : Option String
  tree : Tree
  subject : String
deriving DecidableEq

/-- What Git computes from contents: the name of a commit, the text of a diff, and the
    merge of two trees over their base. -/
structure Git where
  commitId : Commit → String
  commitId_hex : ∀ commit, (commitId commit).toList.all Platform.isHexLower = true
  diff : Tree → Tree → Bytes
  merge : Tree → Tree → Tree → Option Tree

structure Repository where
  identity : String
  pathFingerprint : String
  commits : Dict Commit
  branches : Dict String
  branch : Option String
  head : String
  index : Tree
deriving DecidableEq

/-! ### Trees -/

namespace Tree

def write (tree : Tree) (entries : List Entry) : Tree :=
  entries.foldl (fun acc entry =>
    match entry.2 with
    | some content => acc.insert entry.1 content
    | none => acc.erase entry.1) tree

theorem get?_write_of_not_mem {entries : List Entry} {path : String}
    (h : path ∉ entries.map Prod.fst) (tree : Tree) :
    (write tree entries).get? path = Dict.get? tree path := by
  induction entries generalizing tree with
  | nil => rfl
  | cons entry rest ih =>
      obtain ⟨p, content⟩ := entry
      rw [List.map_cons, List.mem_cons, not_or] at h
      rw [write, List.foldl_cons, ← write, ih h.2]
      cases content with
      | some content => rw [Dict.get?_insert, if_neg h.1]
      | none => rw [Dict.get?_erase, if_neg h.1]

/-- A tree holds at each written path what was written there. -/
theorem get?_write {entries : List Entry} (hnodup : (entries.map Prod.fst).Nodup) {entry : Entry}
    (h : entry ∈ entries) (tree : Tree) : (write tree entries).get? entry.1 = entry.2 := by
  induction entries generalizing tree with
  | nil => cases h
  | cons first rest ih =>
      rw [List.map_cons, List.nodup_cons] at hnodup
      rw [write, List.foldl_cons, ← write]
      rcases List.mem_cons.mp h with rfl | h
      · rw [get?_write_of_not_mem hnodup.1]
        rcases entry with ⟨p, content | content⟩
        · rw [Dict.get?_erase, if_pos rfl]
        · rw [Dict.get?_insert, if_pos rfl]
      · exact ih hnodup.2 h _

/-- The paths at which two trees differ. -/
def changedBetween (first second : Tree) : List String :=
  sortedSet ((Dict.keys first ++ Dict.keys second).filter fun path =>
    Dict.get? first path ≠ Dict.get? second path)

end Tree

/-! ### Fingerprints of contents -/

/-- The bytes `content_diff_fingerprint` hashes for one path. -/
def entryMaterial (P : Platform) (entry : Entry) : Bytes :=
  entry.1.toUTF8.toList ++ [0] ++
    (match entry.2 with
      | none => "deleted".toUTF8.toList ++ [0]
      | some content => "file".toUTF8.toList ++ [0] ++ P.sha256 content) ++ [0]

/-- `content_diff_fingerprint`, on the contents it read in path order. -/
def contentFingerprint (P : Platform) (entries : List Entry) : String :=
  P.hexdigest (entries.flatMap (entryMaterial P))

/-! ### Reading -/

namespace Repository

/-- `rev_parse(value, check=False)`, for the name of a branch or of a commit. -/
def revParse (repository : Repository) (value : String) : Option String :=
  if value = "HEAD" then some repository.head
  else (repository.branches.get? value).or
    (if value ∈ repository.commits.keys then some value else none)

/-- `rev_parse(f"{commit}^", check=False)`. -/
def parentOf (repository : Repository) (commit : String) : Option String :=
  (repository.commits.get? commit).bind fun found => found.parent

def treeOf (repository : Repository) (commit : String) : Tree :=
  ((repository.commits.get? commit).map fun found => found.tree).getD []

def headTree (repository : Repository) : Tree := repository.treeOf repository.head

/-- The worktree as far as the index tracks it. -/
def trackedWorktree (repository : Repository) (worktree : Tree) : Tree :=
  worktree.filter fun item => item.1 ∈ repository.index.keys

/-- `git diff --name-only HEAD --`. -/
def trackedChangedPaths (repository : Repository) (worktree : Tree) : List String :=
  Tree.changedBetween repository.headTree (repository.trackedWorktree worktree)

/-- `git diff --cached --name-only --`. -/
def stagedChangedPaths (repository : Repository) : List String :=
  Tree.changedBetween repository.headTree repository.index

/-- The untracked paths `git status` lists. -/
def untrackedPaths (repository : Repository) (ignored : String → Bool) (worktree : Tree) :
    List String :=
  sortedSet ((Dict.keys worktree).filter fun path =>
    path ∉ repository.index.keys ∧ ignored path = false)

/-- `git status --porcelain` lists nothing. -/
def isClean (repository : Repository) (ignored : String → Bool) (worktree : Tree) : Bool :=
  decide (repository.stagedChangedPaths = [] ∧
    Tree.changedBetween repository.index (repository.trackedWorktree worktree) = [] ∧
    repository.untrackedPaths ignored worktree = [])

/-- The controller's own runtime files, which are no untracked content. -/
def isRuntimePath (path : String) : Bool :=
  decide (path = ".factory/locks/writer.json" ∨ path = ".factory/conveyor-state.json") ||
    ".factory/runtime/".toList.isPrefixOf path.toList

/-- `git show --format= --name-only commit`. -/
def changedPaths (repository : Repository) (commit : String) : List String :=
  Tree.changedBetween
    (((repository.parentOf commit).map repository.treeOf).getD []) (repository.treeOf commit)

def patchFingerprint (P : Platform) (git : Git) (repository : Repository) (commit : String) :
    Result String :=
  match repository.parentOf commit with
  | none => .error (repositoryError "fatal: Needed a single revision")
  | some parent =>
      .ok (P.hexdigest (git.diff (repository.treeOf parent) (repository.treeOf commit)))

/-- `content_diff_fingerprint(paths, commit=commit)`. -/
def commitFingerprint (P : Platform) (repository : Repository) (commit : String)
    (paths : List String) : String :=
  contentFingerprint P ((sortedSet paths).map fun path =>
    (path, (repository.treeOf commit).get? path))

def commitSubject (repository : Repository) (commit : String) : String :=
  ((repository.commits.get? commit).map fun found => found.subject).getD ""

def isAncestorWithin (repository : Repository) (ancestor : String) : Nat → String → Bool
  | 0, commit => commit = ancestor
  | fuel + 1, commit =>
      decide (commit = ancestor) ||
        match repository.parentOf commit with
        | none => false
        | some parent => repository.isAncestorWithin ancestor fuel parent

def historyWithin (repository : Repository) : Nat → String → List String
  | 0, _ => []
  | fuel + 1, commit =>
      commit :: match repository.parentOf commit with
        | none => []
        | some parent => repository.historyWithin fuel parent

/-- `git rev-list commit`: a chain of parents is no longer than the commits. -/
def history (repository : Repository) (commit : String) : List String :=
  repository.historyWithin repository.commits.length commit

/-- `git merge-base --is-ancestor`: a chain of parents is no longer than the commits. -/
def isAncestor (repository : Repository) (ancestor descendant : String) : Bool :=
  match repository.revParse ancestor, repository.revParse descendant with
  | some ancestor, some descendant =>
      repository.isAncestorWithin ancestor repository.commits.length descendant
  | _, _ => false

/-! ### Writing -/

/-- `git add -- paths`, with the contents it read. -/
def add (repository : Repository) (entries : List Entry) : Repository :=
  { repository with index := repository.index.write entries }

/-- `git commit -m subject -- paths`: the commit takes the named paths from the worktree,
    with the contents it read, and every other path from `HEAD`. -/
def commit (git : Git) (repository : Repository) (subject : String) (entries : List Entry) :
    Result (String × Repository) := do
  let tree := repository.headTree.write entries
  require (Tree.changedBetween repository.headTree tree ≠ [])
    (repositoryError "nothing to commit")
  let commit : Commit := ⟨some repository.head, tree, subject⟩
  let name := git.commitId commit
  require (∀ known ∈ repository.commits.get? name, known = commit)
    (repositoryError "fatal: hash collision")
  return (name, { repository with
    commits := repository.commits.insert name commit
    branches := match repository.branch with
      | some branch => repository.branches.insert branch name
      | none => repository.branches
    head := name
    index := repository.index.write entries })

/-- `git switch branch`. -/
def switch (repository : Repository) (branch : String) : Result Repository :=
  match repository.branches.get? branch with
  | none => .error (repositoryError s!"fatal: invalid reference: {branch}")
  | some head => .ok { repository with
      branch := some branch, head := head, index := repository.treeOf head }

/-- `git switch -c branch start`. -/
def switchCreate (repository : Repository) (branch start : String) : Result Repository := do
  require (repository.branches.get? branch = none)
    (repositoryError s!"fatal: a branch named '{branch}' already exists")
  return { repository with
    branches := repository.branches.insert branch start
    branch := some branch, head := start, index := repository.treeOf start }

/-- `git cherry-pick --no-commit commit`. -/
def cherryPick (git : Git) (repository : Repository) (commit : String) : Result Repository :=
  let base := ((repository.parentOf commit).map repository.treeOf).getD []
  match git.merge base repository.headTree (repository.treeOf commit) with
  | none => .error (repositoryError s!"error: could not apply {commit}")
  | some tree => .ok { repository with index := tree }

/-- A new commit holds at the named paths what `git commit` read there. -/
theorem treeOf_commit {git : Git} {repository after : Repository} {subject name : String}
    {entries : List Entry} (h : repository.commit git subject entries = .ok (name, after)) :
    after.treeOf name = repository.headTree.write entries ∧ after.head = name := by
  simp only [commit, require_bind_eq_ok, pure, Except.pure, Except.ok.injEq, Prod.mk.injEq] at h
  obtain ⟨-, -, rfl, rfl⟩ := h
  exact ⟨by simp [treeOf, Dict.get?_insert], rfl⟩

end Repository

end Conveyor
