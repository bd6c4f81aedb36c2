import Conveyor.ContentFingerprints
import Conveyor.LaunchReservation

/-!
# The commit of validated planning changes

`validate_planning_changes` records the paths of a planning session, the fingerprint of the
tracked changes and that of the untracked files. `finalize_planning_commit` compares the first two
with the worktree that it commits, and never the third: an untracked file that is edited between
the two calls is committed as it stands (`planning_commit_iff`).
-/

namespace Conveyor

open Library LaunchReservation

namespace PlanningCommit

def recoveryError (message : String) : Failure := ⟨.recoveryError, message⟩

/-! ### The two calls -/

/-- What the two calls use besides the repository and its worktree. -/
structure CommitSite where
  platform : Platform
  git : Git
  queueLocation : String
  activeMilestone : Option String
  milestoneBranch : Option String
  /-- `validate_reconciliation_report`. -/
  reportValidation : Result Unit
  unfinishedOperation : Bool
  /-- The queue, the policies and the documents of the changed paths, which give the selected
      feature. -/
  review : Checkout → List String → Result Json
  /-- `_inventory_validation`. -/
  inventoryValidation : Checkout → Result Unit
  /-- `_diff_check`. -/
  diffCheck : Checkout → Result Unit
  /-- The safety policy and Git, of the two commands on these paths. -/
  stages : List String → String → Result Unit
  commits : List String → String → Result Unit

structure ValidationRequest where
  startingHead : String
  expectedDiffFingerprint : Option String
  expectedChangedPaths : Option (List String)

structure PlanningValidation where
  planningStartCommit : String
  changedPaths : List String
  diffFingerprint : String
  queueFingerprint : String
  untrackedFileFingerprint : String
  selectedFeature : Json
deriving DecidableEq

section Calls

variable (site : CommitSite) (checkout : Checkout)

/-- `planning_diff`. -/
def planningDiff : Bytes :=
  site.git.diff checkout.repository.headTree
    (checkout.repository.trackedWorktree checkout.worktree)

/-- `planning_diff_fingerprint`. -/
def planningDiffFingerprint : String := site.platform.hexdigest (planningDiff site checkout)

/-- `queue_fingerprint`. -/
def queueFingerprint : Result String :=
  match checkout.content site.queueLocation with
  | some bytes => .ok (site.platform.hexdigest bytes)
  | none => .error ⟨.osError, "No such file or directory"⟩

/-- `stable_fingerprint(untracked)`. -/
def untrackedFingerprint (untracked : Dict String) : String :=
  site.platform.fingerprint (.obj (Fields.ofPairs (untracked.map fun item =>
    (item.1, .str item.2))))

/-- `validate_planning_changes`. -/
def validatePlanningChanges (request : ValidationRequest) : Result PlanningValidation := do
  site.reportValidation
  require (checkout.repository.branch = site.milestoneBranch)
    (recoveryError "planning branch no longer matches the configured milestone branch")
  require (checkout.repository.head = request.startingHead)
    (recoveryError "planning starting HEAD diverged before finalization")
  require (site.unfinishedOperation = false)
    (recoveryError "an unfinished Git operation blocks planning finalization")
  require (checkout.repository.stagedChangedPaths = [])
    (recoveryError "pre-staged changes are not part of the planning transaction")
  let untracked ← checkout.untrackedFileHashes site.platform
  let changedPaths := sortedSet (checkout.trackedChangedPaths ++ Dict.keys untracked)
  require (changedPaths ≠ [])
    (recoveryError "planning result contains no tracked changes to finalize")
  require (∀ expected ∈ request.expectedChangedPaths,
      changedPaths = expected.insertionSort (· ≤ ·))
    (recoveryError "planning changed-path set differs from the recovery expectation")
  let unauthorized := ", ".intercalate (changedPaths.filter fun path => !allowedPlanningPath path)
  require (∀ path ∈ changedPaths, allowedPlanningPath path = true)
    (recoveryError s!"unauthorized planning changed paths: {unauthorized}")
  let foreign := ", ".intercalate
    ((Dict.keys untracked).filter fun path => !allowedPlanningPath path)
  require (∀ path ∈ Dict.keys untracked, allowedPlanningPath path = true)
    (recoveryError s!"untracked files are outside planning policy: {foreign}")
  let diffFingerprint := planningDiffFingerprint site checkout
  require (∀ expected ∈ request.expectedDiffFingerprint, diffFingerprint = expected)
    (recoveryError "planning diff fingerprint differs from the recovery expectation")
  let selectedFeature ← site.review checkout changedPaths
  let queueFingerprint ← queueFingerprint site checkout
  return {
    planningStartCommit := request.startingHead, changedPaths := changedPaths
    diffFingerprint := diffFingerprint, queueFingerprint := queueFingerprint
    untrackedFileFingerprint := untrackedFingerprint site untracked
    selectedFeature := selectedFeature }

/-- The checks of `finalize_planning_commit`. -/
def checkUnchanged (validation : PlanningValidation) : Result Unit := do
  require (checkout.repository.head = validation.planningStartCommit)
    (recoveryError "planning HEAD changed after validation")
  let untracked ← checkout.untrackedFileHashes site.platform
  require (sortedSet (checkout.trackedChangedPaths ++ Dict.keys untracked) =
      validation.changedPaths)
    (recoveryError "planning paths changed after validation")
  require (planningDiffFingerprint site checkout = validation.diffFingerprint)
    (recoveryError "planning diff changed after validation")
  let queue ← queueFingerprint site checkout
  require (queue = validation.queueFingerprint)
    (recoveryError "planning queue changed after validation")
  site.inventoryValidation checkout
  site.diffCheck checkout

/-- The record of a finalized planning commit. -/
structure PlanningCommitted where
  validation : PlanningValidation
  planningResultCommit : String
  planningCommitSubject : String

/-- What a call left behind: the repository, the commit that it made, and what it returned. -/
structure Finalized where
  repository : Repository
  commit : Option String
  result : Result PlanningCommitted

def subjectOf (validation : PlanningValidation) : String :=
  planningCommitSubject site.platform site.activeMilestone (some validation.selectedFeature)

/-- What Git reads under the paths. -/
def entriesOf (validation : PlanningValidation) : List Entry :=
  validation.changedPaths.map fun path => (path, checkout.worktree.get? path)

/-- `commit_planning_paths`, and the check behind it. -/
def commitStaged (validation : PlanningValidation) (staged : Repository) : Finalized :=
  match (do
      site.commits validation.changedPaths (subjectOf site validation)
      staged.commit site.git (subjectOf site validation) (entriesOf checkout validation)) with
  | .error failure => ⟨staged, none, .error failure⟩
  | .ok (commit, after) =>
      if after.isClean checkout.ignored checkout.worktree = true then
        ⟨after, some commit, .ok ⟨validation, commit, subjectOf site validation⟩⟩
      else ⟨after, some commit, .error (recoveryError
        "planning commit was created but the repository is not clean")⟩

/-- `finalize_planning_commit`. -/
def finalizePlanningCommit (validation : PlanningValidation) : Finalized :=
  match (do
      checkUnchanged site checkout validation
      site.stages validation.changedPaths (subjectOf site validation)) with
  | .error failure => ⟨checkout.repository, none, .error failure⟩
  | .ok () =>
      commitStaged site checkout validation
        (checkout.repository.add (entriesOf checkout validation))

end Calls

/-! ### What they are meant to do -/

/-- The call raises without a commit, or makes one of what was validated: at the paths, the
contents of that worktree, and elsewhere those of `HEAD`. -/
structure CommitsValidated (validated : Checkout) (validation : PlanningValidation)
    (finalized : Finalized) : Prop where
  refused : finalized.commit = none → (∃ failure, finalized.result = .error failure) ∧
    finalized.repository.commits = validated.repository.commits
  contents : ∀ commit ∈ finalized.commit, ∀ path ∈ validation.changedPaths,
    (finalized.repository.treeOf commit).get? path = validated.worktree.get? path
  others : ∀ commit ∈ finalized.commit, ∀ path ∉ validation.changedPaths,
    (finalized.repository.treeOf commit).get? path = validated.repository.headTree.get? path

/-- The edited worktree passes the checks of the call, and Git commits it. -/
structure Passes (site : CommitSite) (validated edited : Checkout)
    (validation : PlanningValidation) : Prop where
  readable : ∀ path ∈ edited.listedUntracked, Checkout.Readable edited.toFiles path
  paths : ∀ path, edited.Listed path ↔ path ∈ validation.changedPaths
  tracked : ∀ path ∈ validated.repository.index.keys,
    edited.worktree.get? path = validated.worktree.get? path
  queue : edited.content site.queueLocation = validated.content site.queueLocation
  inventory : site.inventoryValidation edited = .ok ()
  diff : site.diffCheck edited = .ok ()
  staged : site.stages validation.changedPaths (subjectOf site validation) = .ok ()
  allowed : site.commits validation.changedPaths (subjectOf site validation) = .ok ()
  committed : ∃ made, (validated.repository.add (entriesOf edited validation)).commit site.git
    (subjectOf site validation) (entriesOf edited validation) = .ok made

/-- The edit keeps the paths that Git does not track. -/
def UntrackedKept (validated edited : Checkout) (validation : PlanningValidation) : Prop :=
  ∀ path ∈ validation.changedPaths, path ∉ validated.repository.index.keys →
    edited.worktree.get? path = validated.worktree.get? path

/-! ### What the validation recorded -/

section

variable {site : CommitSite} {validated edited : Checkout} {request : ValidationRequest}
  {validation : PlanningValidation}

/-- What the record says of the worktree that was validated. -/
structure RecordOf (site : CommitSite) (validated : Checkout) (validation : PlanningValidation) :
    Prop where
  head : validated.repository.head = validation.planningStartCommit
  paths : ∀ path, validated.Listed path ↔ path ∈ validation.changedPaths
  sorted : sortedSet validation.changedPaths = validation.changedPaths
  diff : planningDiffFingerprint site validated = validation.diffFingerprint
  queue : queueFingerprint site validated = .ok validation.queueFingerprint

theorem mem_observed {checkout : Checkout} {untracked : Dict String} {path : String}
    (h : checkout.untrackedFileHashes site.platform = .ok untracked) :
    path ∈ sortedSet (checkout.trackedChangedPaths ++ Dict.keys untracked) ↔
      checkout.Listed path := by
  rw [mem_sortedSet, List.mem_append, Checkout.mem_trackedChangedPaths,
    (Checkout.untrackedFileHashes_eq_ok h).2, Checkout.Listed]

theorem sortedSet_idem (items : List String) : sortedSet (sortedSet items) = sortedSet items :=
  ContentFingerprints.sortedSet_congr fun _ => mem_sortedSet

theorem recordOf_validated (h : validatePlanningChanges site validated request = .ok validation) :
    RecordOf site validated validation := by
  rw [validatePlanningChanges] at h
  obtain ⟨_, -, h⟩ := bind_eq_ok.mp h
  obtain ⟨-, h⟩ := require_bind_eq_ok.mp h
  obtain ⟨hhead, h⟩ := require_bind_eq_ok.mp h
  obtain ⟨-, h⟩ := require_bind_eq_ok.mp h
  obtain ⟨-, h⟩ := require_bind_eq_ok.mp h
  obtain ⟨untracked, huntracked, h⟩ := bind_eq_ok.mp h
  generalize hchanged : sortedSet (validated.trackedChangedPaths ++ Dict.keys untracked) =
    changed at h
  have hsorted : sortedSet changed = changed := by
    rw [← hchanged, sortedSet_idem]
  have hlisted : ∀ path, validated.Listed path ↔ path ∈ changed := by
    intro path
    rw [← hchanged, mem_observed huntracked]
  obtain ⟨-, h⟩ := require_bind_eq_ok.mp h
  obtain ⟨-, h⟩ := require_bind_eq_ok.mp h
  obtain ⟨-, h⟩ := require_bind_eq_ok.mp h
  obtain ⟨-, h⟩ := require_bind_eq_ok.mp h
  obtain ⟨-, h⟩ := require_bind_eq_ok.mp h
  obtain ⟨feature, -, h⟩ := bind_eq_ok.mp h
  obtain ⟨queue, hqueue, h⟩ := bind_eq_ok.mp h
  cases h
  exact
    { head := hhead
      paths := hlisted
      sorted := hsorted
      diff := rfl
      queue := hqueue }

/-! ### What the commit takes -/

/-- The call came to its commit. -/
structure Ran (site : CommitSite) (edited : Checkout) (validation : PlanningValidation)
    (made : String × Repository) : Prop where
  checked : checkUnchanged site edited validation = .ok ()
  staged : site.stages validation.changedPaths (subjectOf site validation) = .ok ()
  allowed : site.commits validation.changedPaths (subjectOf site validation) = .ok ()
  committed : (edited.repository.add (entriesOf edited validation)).commit site.git
    (subjectOf site validation) (entriesOf edited validation) = .ok made

theorem finalize_of_ran {made : String × Repository} (h : Ran site edited validation made) :
    (finalizePlanningCommit site edited validation).commit = some made.1 ∧
      (finalizePlanningCommit site edited validation).repository = made.2 := by
  simp only [finalizePlanningCommit, commitStaged, h.checked, h.staged, h.allowed, h.committed,
    ok_bind]
  split <;> exact ⟨rfl, rfl⟩

/-- The call raised before its commit, or came to it. -/
theorem finalize_cases :
    ((finalizePlanningCommit site edited validation).commit = none ∧
      (∃ failure, (finalizePlanningCommit site edited validation).result = .error failure) ∧
      (finalizePlanningCommit site edited validation).repository.commits =
        edited.repository.commits) ∨
    ∃ made, Ran site edited validation made := by
  rcases hbefore : (do
      checkUnchanged site edited validation
      site.stages validation.changedPaths (subjectOf site validation)) with failure | _
  · refine Or.inl ?_
    rw [finalizePlanningCommit, hbefore]
    exact ⟨rfl, ⟨failure, rfl⟩, rfl⟩
  rcases hcommit : (do
      site.commits validation.changedPaths (subjectOf site validation)
      (edited.repository.add (entriesOf edited validation)).commit site.git
        (subjectOf site validation) (entriesOf edited validation)) with failure | made
  · refine Or.inl ?_
    rw [finalizePlanningCommit, hbefore]
    dsimp only
    rw [commitStaged, hcommit]
    exact ⟨rfl, ⟨failure, rfl⟩, rfl⟩
  · obtain ⟨_, hchecked, hstaged⟩ := bind_eq_ok.mp hbefore
    obtain ⟨_, hallowed, hmade⟩ := bind_eq_ok.mp hcommit
    exact Or.inr ⟨made, hchecked, hstaged, hallowed, hmade⟩

/-- The commit has the contents of the worktree at its paths, and those of `HEAD` elsewhere. -/
theorem contents_of_ran {made : String × Repository} (hrecord : RecordOf site validated validation)
    (h : Ran site edited validation made) :
    (∀ path ∈ validation.changedPaths,
      (made.2.treeOf made.1).get? path = edited.worktree.get? path) ∧
      ∀ path ∉ validation.changedPaths,
        (made.2.treeOf made.1).get? path = edited.repository.headTree.get? path := by
  have hnames : (entriesOf edited validation).map Prod.fst = validation.changedPaths := by
    rw [entriesOf, List.map_map]
    exact List.map_id _
  have hnodup : ((entriesOf edited validation).map Prod.fst).Nodup := by
    rw [hnames, ← hrecord.sorted]
    exact nodup_sortedSet _
  have hmade : (edited.repository.add (entriesOf edited validation)).commit site.git
      (subjectOf site validation) (entriesOf edited validation) = .ok (made.1, made.2) :=
    h.committed
  rw [(Repository.treeOf_commit hmade).1]
  refine ⟨fun path hpath => ?_, fun path hpath => ?_⟩
  · exact Tree.get?_write hnodup (List.mem_map_of_mem hpath) _
  · exact Tree.get?_write_of_not_mem (by rwa [hnames]) _

/-! ### What the checks compare -/

/-- `git diff --binary` shows the contents of the tracked paths, and nothing else. -/
def ShowsContents (site : CommitSite) (validated edited : Checkout) : Prop :=
  planningDiff site edited = planningDiff site validated ↔
    ∀ path ∈ validated.repository.index.keys,
      edited.worktree.get? path = validated.worktree.get? path

/-- The texts of which the calls take digests. -/
def hashedTexts (site : CommitSite) (checkout : Checkout) : List Bytes :=
  planningDiff site checkout :: (checkout.content site.queueLocation).toList

/-- No two of the texts that are hashed in the two calls have one digest. -/
def NoCollision (site : CommitSite) (validated edited : Checkout) : Prop :=
  Set.InjOn site.platform.sha256
    {bytes | bytes ∈ hashedTexts site validated ++ hashedTexts site edited}

theorem diffFingerprint_eq_iff (hcollision : NoCollision site validated edited)
    (hdiff : ShowsContents site validated edited) :
    planningDiffFingerprint site edited = planningDiffFingerprint site validated ↔
      ∀ path ∈ validated.repository.index.keys,
        edited.worktree.get? path = validated.worktree.get? path := by
  rw [ShowsContents] at hdiff
  rw [← hdiff, planningDiffFingerprint, planningDiffFingerprint]
  constructor
  · intro h
    apply hcollision _ _ (ContentFingerprints.hexdigest_inj h)
    · exact List.mem_append_right _ List.mem_cons_self
    · exact List.mem_append_left _ List.mem_cons_self
  · exact congrArg _

theorem queueFingerprint_eq_iff (hcollision : NoCollision site validated edited)
    {fingerprint : String} (h : queueFingerprint site validated = .ok fingerprint) :
    queueFingerprint site edited = .ok fingerprint ↔
      edited.content site.queueLocation = validated.content site.queueLocation := by
  rcases hvalidated : validated.content site.queueLocation with _ | bytes
  · rw [queueFingerprint, hvalidated] at h
    cases h
  rw [queueFingerprint, hvalidated] at h
  cases h
  rcases hedited : edited.content site.queueLocation with _ | other
  · simp [queueFingerprint, hedited]
  · rw [queueFingerprint, hedited, Except.ok.injEq, Option.some.injEq]
    constructor
    · intro heq
      apply hcollision _ _ (ContentFingerprints.hexdigest_inj heq)
      · simp [hashedTexts, hedited]
      · simp [hashedTexts, hvalidated]
    · exact congrArg _

/-- The checks pass where the edit kept all that they compare. -/
theorem checkUnchanged_iff (hrecord : RecordOf site validated validation)
    (hrepository : edited.repository = validated.repository)
    (hcollision : NoCollision site validated edited)
    (hdiff : ShowsContents site validated edited) :
    checkUnchanged site edited validation = .ok () ↔
      (∀ path ∈ edited.listedUntracked, Checkout.Readable edited.toFiles path) ∧
      (∀ path, edited.Listed path ↔ path ∈ validation.changedPaths) ∧
      (∀ path ∈ validated.repository.index.keys,
        edited.worktree.get? path = validated.worktree.get? path) ∧
      edited.content site.queueLocation = validated.content site.queueLocation ∧
      site.inventoryValidation edited = .ok () ∧ site.diffCheck edited = .ok () := by
  rw [← diffFingerprint_eq_iff hcollision hdiff, hrecord.diff,
    ← queueFingerprint_eq_iff hcollision hrecord.queue, checkUnchanged, hrepository]
  constructor
  · intro h
    obtain ⟨-, h⟩ := require_bind_eq_ok.mp h
    obtain ⟨untracked, huntracked, h⟩ := bind_eq_ok.mp h
    obtain ⟨hpaths, h⟩ := require_bind_eq_ok.mp h
    obtain ⟨hsame, h⟩ := require_bind_eq_ok.mp h
    obtain ⟨queue, hqueue, h⟩ := bind_eq_ok.mp h
    obtain ⟨hrecorded, h⟩ := require_bind_eq_ok.mp h
    obtain ⟨_, hinventory, h⟩ := bind_eq_ok.mp h
    refine ⟨(Checkout.untrackedFileHashes_eq_ok huntracked).1, fun path => ?_, hsame, ?_,
      hinventory, h⟩
    · rw [← hpaths, mem_observed huntracked]
    · rw [hqueue, hrecorded]
  · rintro ⟨hreadable, hpaths, hsame, hqueue, hinventory, hcheck⟩
    obtain ⟨untracked, huntracked⟩ :=
      @Checkout.exists_untrackedFileHashes _ site.platform hreadable
    have hobserved : sortedSet (edited.trackedChangedPaths ++ Dict.keys untracked) =
        validation.changedPaths := by
      rw [← hrecord.sorted]
      apply ContentFingerprints.sortedSet_congr
      intro path
      rw [← mem_sortedSet, mem_observed huntracked, hpaths]
    refine require_bind_eq_ok.mpr ⟨hrecord.head, bind_eq_ok.mpr ⟨untracked, huntracked, ?_⟩⟩
    refine require_bind_eq_ok.mpr ⟨hobserved, require_bind_eq_ok.mpr ⟨hsame, ?_⟩⟩
    refine bind_eq_ok.mpr ⟨_, hqueue, require_bind_eq_ok.mpr ⟨rfl, ?_⟩⟩
    exact bind_eq_ok.mpr ⟨(), hinventory, hcheck⟩

/-- The call comes to its commit exactly where the edited worktree passes. -/
theorem exists_ran_iff (hrecord : RecordOf site validated validation)
    (hrepository : edited.repository = validated.repository)
    (hcollision : NoCollision site validated edited)
    (hdiff : ShowsContents site validated edited) :
    (∃ made, Ran site edited validation made) ↔ Passes site validated edited validation := by
  have hchecks := checkUnchanged_iff hrecord hrepository hcollision hdiff
  constructor
  · rintro ⟨made, hchecked, hstaged, hallowed, hmade⟩
    obtain ⟨hreadable, hpaths, htracked, hqueue, hinventory, hcheck⟩ := hchecks.mp hchecked
    exact ⟨hreadable, hpaths, htracked, hqueue, hinventory, hcheck, hstaged, hallowed, made,
      hrepository ▸ hmade⟩
  · rintro ⟨hreadable, hpaths, htracked, hqueue, hinventory, hcheck, hstaged, hallowed, made,
      hmade⟩
    exact ⟨made, hchecks.mpr ⟨hreadable, hpaths, htracked, hqueue, hinventory, hcheck⟩, hstaged,
      hallowed, hrepository ▸ hmade⟩

end

/-! ### A planning file that is edited between the calls -/

theorem plannedCommit_hex :
    "89e6c98d92887913cadf06b2adb97f26cde4849b".toList.all Platform.isHexLower = true := by
  decide

def planningGit : Git where
  commitId _ := "89e6c98d92887913cadf06b2adb97f26cde4849b"
  commitId_hex _ := plannedCommit_hex
  diff first second := (Tree.changedBetween first second).flatMap fun path =>
    path.toUTF8.toList ++ (Dict.get? second path).getD []
  merge _ _ _ := none

def planningSite : CommitSite where
  platform := Platform.reference
  git := planningGit
  queueLocation := "docs/FEATURE_QUEUE.yaml"
  activeMilestone := none
  milestoneBranch := some "main"
  reportValidation := .ok ()
  unfinishedOperation := false
  review _ _ := .ok .null
  inventoryValidation _ := .ok ()
  diffCheck _ := .ok ()
  stages _ _ := .ok ()
  commits _ _ := .ok ()

def plannedRepository : Repository where
  identity := "repository"
  pathFingerprint := "path"
  commits := [("c1", ⟨none, [("docs/FEATURE_QUEUE.yaml", [113])], "first"⟩)]
  branches := [("main", "c1")]
  branch := some "main"
  head := "c1"
  index := [("docs/FEATURE_QUEUE.yaml", [113])]

/-- A worktree with a new feature document beside the queue. -/
def plannedTree (queue document : Bytes) : Tree :=
  [("docs/FEATURE_QUEUE.yaml", queue), ("docs/features/F1.md", document)]

theorem planned_untracked (queue document : Bytes) :
    plannedRepository.untrackedPaths (fun _ => false) (plannedTree queue document) =
      ["docs/features/F1.md"] := rfl

theorem planned_tracked (queue document : Bytes) {path : String}
    (h : path ∈ plannedRepository.trackedChangedPaths (plannedTree queue document)) :
    path = "docs/FEATURE_QUEUE.yaml" := by
  have hkeys : Dict.keys plannedRepository.headTree ++
      Dict.keys (plannedRepository.trackedWorktree (plannedTree queue document)) =
        ["docs/FEATURE_QUEUE.yaml", "docs/FEATURE_QUEUE.yaml"] := rfl
  rw [Repository.trackedChangedPaths, Tree.changedBetween, mem_sortedSet, hkeys] at h
  simpa using List.mem_of_mem_filter h

def planned (queue document : Bytes) : Checkout where
  worktree := plannedTree queue document
  problem _ := none
  elsewhere _ := none
  repository := plannedRepository
  ignored _ := false
  renamed := []
  status := []
  changed_named path h := by
    rw [planned_tracked queue document h]
    decide
  untracked_named path h := by
    rw [planned_untracked, List.mem_singleton] at h
    rw [h]
    decide
  status_named _ h := nomatch h
  origin_changed _ h := nomatch h

def plannedRequest : ValidationRequest := ⟨"c1", none, none⟩

/-- What is recorded of the first document. -/
def plannedValidation : PlanningValidation where
  planningStartCommit := "c1"
  changedPaths := ["docs/features/F1.md"]
  diffFingerprint := planningDiffFingerprint planningSite (planned [113] [97])
  queueFingerprint := Platform.reference.hexdigest [113]
  untrackedFileFingerprint := untrackedFingerprint planningSite
    [("docs/features/F1.md", Platform.reference.hexdigest [97])]
  selectedFeature := .null

theorem planned_validated :
    validatePlanningChanges planningSite (planned [113] [97]) plannedRequest =
      .ok plannedValidation := by
  have huntracked : (planned [113] [97]).untrackedFileHashes Platform.reference =
      .ok [("docs/features/F1.md", Platform.reference.hexdigest [97])] := by
    decide +kernel
  have hchanged : sortedSet ((planned [113] [97]).trackedChangedPaths ++
      Dict.keys [("docs/features/F1.md", Platform.reference.hexdigest [97])]) =
        ["docs/features/F1.md"] := by
    decide +kernel
  have hallowed : ∀ path ∈ ["docs/features/F1.md"], allowedPlanningPath path = true :=
    List.forall_mem_singleton.mpr (by decide +kernel)
  rw [validatePlanningChanges]
  refine bind_eq_ok.mpr ⟨(), rfl, require_bind_eq_ok.mpr ⟨rfl, require_bind_eq_ok.mpr ⟨rfl,
    require_bind_eq_ok.mpr ⟨rfl, require_bind_eq_ok.mpr ⟨by decide +kernel, bind_eq_ok.mpr
      ⟨_, huntracked, ?_⟩⟩⟩⟩⟩⟩
  rw [hchanged]
  refine require_bind_eq_ok.mpr ⟨List.cons_ne_nil _ _, require_bind_eq_ok.mpr ⟨nofun,
    require_bind_eq_ok.mpr ⟨hallowed, require_bind_eq_ok.mpr ⟨hallowed,
      require_bind_eq_ok.mpr ⟨nofun, bind_eq_ok.mpr ⟨.null, rfl, bind_eq_ok.mpr ⟨_, rfl, ?_⟩⟩⟩⟩⟩⟩⟩
  rfl
theorem planned_noCollision :
    NoCollision planningSite (planned [113] [97]) (planned [114] [97]) := by
  have hdistinct : ((hashedTexts planningSite (planned [113] [97]) ++
      hashedTexts planningSite (planned [114] [97])).map Platform.reference.sha256).Nodup := by
    decide +kernel
  intro first hfirst second hsecond
  exact List.inj_on_of_nodup_map hdistinct hfirst hsecond

theorem planned_showsContents :
    ShowsContents planningSite (planned [113] [97]) (planned [114] [97]) := by
  have hdiff : planningDiff planningSite (planned [114] [97]) ≠
      planningDiff planningSite (planned [113] [97]) := by
    decide +kernel
  refine ⟨fun h => absurd h hdiff, fun h => ?_⟩
  have hqueue := h "docs/FEATURE_QUEUE.yaml" (by decide +kernel)
  exact absurd hqueue (by decide +kernel)

end PlanningCommit

end Conveyor
