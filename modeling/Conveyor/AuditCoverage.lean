import Conveyor.IntegrationAudit
import Mathlib.Data.List.Dedup

/-!
# What the audit of an accepted commit covers

The cherry-pick takes the whole range between two commits. The results here say when the audit
has looked at everything that the range brings in: the modes of its paths, which the audit reads
of the last commit only, and its added lines, which the audit reads of the text of the
difference.
-/

namespace Conveyor

open Library

variable {repository : AuditRepository} {base commit : String}

/-! ### The two demands -/

def GitCommit.modeAt (commit : GitCommit) (path : String) : Option String :=
  (commit.files.get? path).map TreeEntry.mode

/-- The pattern matches somewhere in the text. -/
def Finds (pattern : String × Regex) (text : List Char) : Prop := pattern.2.search none text = true

/-- The range brings in no symbolic link, no submodule and no line with a secret. -/
structure Clean (repository : AuditRepository) (base commit : String) : Prop where
  modes : ∀ first tip, repository.commits base = some first → repository.commits commit = some tip →
    ∀ path mode, first.modeAt path ≠ tip.modeAt path → tip.modeAt path = some mode →
      mode ∉ RISKY_MODES
  secrets : ∀ content, .added content ∈ repository.diff base commit →
    ∀ pattern ∈ secretPatterns repository.platform, ¬ Finds pattern content

/-- The last commit of the range changes what is at the path. -/
def ChangedByTip (repository : AuditRepository) (tip : GitCommit) (path : String) : Prop :=
  ∃ parent before, tip.parents = [parent] ∧ repository.commits parent = some before ∧
    before.files.get? path ≠ tip.files.get? path

/-- The match is in a piece of the line that starts with one plus sign, and not with three: a
    piece is what stands between two places where a text stream or `splitlines` breaks a line. -/
def Shown (pattern : String × Regex) (content : List Char) : Prop :=
  ∃ piece ∈ piecesOf ('+' :: content), isAddedLine piece = true ∧ Finds pattern piece.tail

/-- What the range brings in of either kind is where the audit looks. -/
structure InSight (repository : AuditRepository) (base commit : String) : Prop where
  modes : ∀ first tip, repository.commits base = some first → repository.commits commit = some tip →
    ∀ path mode, first.modeAt path ≠ tip.modeAt path → tip.modeAt path = some mode →
      mode ∈ RISKY_MODES → ChangedByTip repository tip path
  secrets : ∀ content, .added content ∈ repository.diff base commit →
    ∀ pattern ∈ secretPatterns repository.platform, Finds pattern content → Shown pattern content

/-! ### What the audit found -/

theorem mem_diffTree {before after : Dict TreeEntry} {path : String}
    (h : before.get? path ≠ after.get? path) :
    ∃ entry ∈ diffTree before after,
      entry.newMode = ((after.get? path).map TreeEntry.mode).getD "000000" := by
  have hkey : path ∈ before.keys ++ after.keys := by
    by_contra hmissing
    rw [List.mem_append, not_or] at hmissing
    rw [Dict.get?_eq_none.mpr hmissing.1, Dict.get?_eq_none.mpr hmissing.2] at h
    exact h rfl
  refine ⟨⟨_, _, path⟩, List.mem_map.mpr ⟨path, ?_, rfl⟩, rfl⟩
  rw [List.mem_filter, List.mem_dedup]
  exact ⟨hkey, decide_eq_true h⟩

theorem unanchored_secretPatterns {P : Platform} {pattern : String × Regex}
    (h : pattern ∈ secretPatterns P) : Regex.Unanchored pattern.2 := by
  have hword : P.isWord '\n' = false := by
    rw [Platform.isWord, P.alphanumeric_ascii _ (by decide)]
    decide
  have htext : ∀ s, Regex.Unanchored (.text s) := fun s => Regex.unanchored_textWith
  simp only [secretPatterns, List.mem_cons, List.not_mem_nil, or_false] at h
  rcases h with rfl | rfl | rfl
  · refine Regex.unanchored_cat fun r hr => ?_
    simp only [List.mem_cons, List.not_mem_nil, or_false] at hr
    rcases hr with rfl | rfl | rfl
    · exact htext _
    · refine ⟨Regex.unanchored_oneOf fun r hr => ?_, trivial⟩
      simp only [List.mem_cons, List.not_mem_nil, or_false] at hr
      rcases hr with rfl | rfl | rfl <;> exact htext _
    · exact htext _
  · refine Regex.unanchored_cat fun r hr => ?_
    simp only [List.mem_cons, List.not_mem_nil, or_false] at hr
    rcases hr with rfl | rfl | rfl | rfl | rfl | rfl
    · exact hword
    · exact htext _
    · trivial
    · exact htext _
    · exact Regex.unanchored_atLeast trivial
    · exact hword
  · refine Regex.unanchored_cat fun r hr => ?_
    simp only [List.mem_cons, List.not_mem_nil, or_false] at hr
    rcases hr with rfl | rfl | rfl | rfl
    · exact hword
    · exact htext _
    · refine Regex.unanchored_cat fun r hr => ?_
      rw [List.eq_of_mem_replicate hr]
      trivial
    · exact hword

/-- What the audit shows of an added line is in the text that it searches. -/
theorem finds_addedText {pattern : String × Regex} {content : List Char}
    (hpattern : pattern ∈ secretPatterns repository.platform)
    (hadded : .added content ∈ repository.diff base commit) (hshown : Shown pattern content) :
    Finds pattern (addedText (repository.diffText base commit)) := by
  obtain ⟨piece, hpiece, hadds, hfinds⟩ := hshown
  refine Regex.search_intercalate (unanchored_secretPatterns hpattern) ?_ hfinds (.inl rfl)
  refine List.mem_map.mpr ⟨piece, List.mem_filter.mpr ⟨?_, hadds⟩, rfl⟩
  have hlines : (repository.diff base commit).flatMap (fun line => line.render ++ ['\n']) =
      ((repository.diff base commit).map DiffLine.render).flatMap fun line => line ++ ['\n'] := by
    rw [List.flatMap_map]
  rw [AuditRepository.diffText, hlines, splitlines_flatMap, List.flatMap_map, List.mem_flatMap]
  exact ⟨.added content, hadded, hpiece⟩

/-- What a passed audit says of the last commit and of the searched text. -/
structure Audited (repository : AuditRepository) (base commit : String) : Prop where
  modes : ∀ tip, repository.commits commit = some tip → ∀ path mode,
    ChangedByTip repository tip path → tip.modeAt path = some mode → mode ∉ RISKY_MODES
  secrets : ∀ pattern ∈ secretPatterns repository.platform,
    ¬ Finds pattern (addedText (repository.diffText base commit))

theorem audited_of_ok {changedPaths : List String} {report : AuditReport}
    (h : auditAcceptedCommit repository base commit changedPaths = .ok report) :
    Audited repository base commit := by
  obtain ⟨usage, -, h⟩ := bind_eq_ok.mp h
  obtain ⟨raw, hraw, h⟩ := bind_eq_ok.mp h
  obtain ⟨hmodes, h⟩ := require_bind_eq_ok.mp h
  obtain ⟨hfound, -⟩ := require_bind_eq_ok.mp h
  constructor
  · rintro tip htip path mode ⟨parent, before, hparents, hbefore, hchanged⟩ hmode hrisky
    have hentries : repository.rawEntries commit = .ok (diffTree before.files tip.files) := by
      have hfirst : repository.commitOf commit = .ok tip := by
        rw [IntegrationRepository.commitOf, htip]
      have hsecond : repository.commitOf parent = .ok before := by
        rw [IntegrationRepository.commitOf, hbefore]
      rw [AuditRepository.rawEntries, hfirst, ok_bind, hparents]
      dsimp only
      rw [hsecond]
      rfl
    cases hentries.symm.trans hraw
    obtain ⟨entry, hentry, hnew⟩ := mem_diffTree hchanged
    rw [GitCommit.modeAt] at hmode
    rw [hmode, Option.getD_some] at hnew
    rw [List.isEmpty_iff, List.filter_eq_nil_iff] at hmodes
    refine hmodes entry hentry ?_
    rw [RawEntry.isRisky, hnew]
    simp [hrisky]
  · intro pattern hpattern hfinds
    rw [List.map_eq_nil_iff, List.filter_eq_nil_iff] at hfound
    exact hfound pattern hpattern hfinds

/-- A range that passed its audit is clean exactly if what it brings in is in sight. -/
theorem Audited.clean_iff (h : Audited repository base commit) :
    Clean repository base commit ↔ InSight repository base commit := by
  constructor
  · intro hclean
    exact {
      modes := fun first tip hfirst htip path mode hdiffers hmode hrisky =>
        absurd hrisky (hclean.modes first tip hfirst htip path mode hdiffers hmode)
      secrets := fun content hadded pattern hpattern hfinds =>
        absurd hfinds (hclean.secrets content hadded pattern hpattern) }
  · intro hsight
    constructor
    · intro first tip hfirst htip path mode hdiffers hmode hrisky
      have hchanged := hsight.modes first tip hfirst htip path mode hdiffers hmode hrisky
      exact h.modes tip htip path mode hchanged hmode hrisky
    · intro content hadded pattern hpattern hfinds
      have hshown := hsight.secrets content hadded pattern hpattern hfinds
      exact h.secrets pattern hpattern (finds_addedText hpattern hadded hshown)

def demoAdapter : Fields :=
  [("content_policy", .obj []), ("project", .obj [("id", .str "demo")]),
   ("project_profile", .obj [("usage", .str "personal_private")])]

/-- The queue of an accepted feature, as its accepted commit carries it. -/
def demoQueue : Fields :=
  [("features", .arr [.obj
      [("acceptance", .obj [("documentation_current", .bool true), ("review_passed", .bool true),
         ("tests_passed", .bool true)]),
       ("accepted_commit", .str "SELF"), ("branch", .str "feature/f1"), ("id", .str "F1"),
       ("implementation_status", .str "Completed"), ("integration_base_commit", .str "c0"),
       ("integration_status", .str "pending"), ("milestone", .str "M1"),
       ("status", .str "integration_pending")]]),
   ("milestones", .arr [.obj
      [("id", .str "M1"), ("integrated_features", .arr []),
       ("integration_branch", .str "milestone/one")]])]

def demoFiles : String → Option Json
  | ".factory/project.yaml" => some (.obj demoAdapter)
  | ".factory/approved-content.yaml" =>
      some (.obj [("approved", .arr []), ("schema_version", .int 1)])
  | _ => some (.obj demoQueue)

/-- A commit `c1` on the milestone head `c0`, with these lines in its difference. -/
def demoRepository (lines : List DiffLine) : AuditRepository where
  platform := .reference
  repositoryId := "repository"
  pathFingerprint := "path"
  isClean := true
  gitOperation := false
  revParse name := if name = "feature/f1" then some "c1" else some "c0"
  treeId _ := none
  isAncestor _ _ := true
  mergesBetween _ _ := []
  commits
    | "c1" => some ⟨["c0"], [("src/a.py", ⟨"100644", "b1"⟩)]⟩
    | _ => some ⟨[], []⟩
  shown _ path := some (demoFiles path)
  shownDigest _ _ := "queue"
  liveAdapter := some (.obj demoAdapter)
  diffNames _ _ := ["src/a.py"]
  tipNames _ := ["src/a.py"]
  adapterCommands _ := .ok (.arr [])
  diff _ _ := lines

def demoSite (lines : List DiffLine) : ExecutionSite where
  repository := demoRepository lines
  bound _ := .ok ()
  events := []
  prepared _ := .ok ()

def demoBoundPlan : BoundIntegrationPlan where
  createdAt := "2025-01-01T00:00:00Z"
  featureId := "F1"
  featureBranch := "feature/f1"
  acceptedCommit := "c1"
  acceptedMetadataRef := "c1"
  milestoneId := "M1"
  preIntegrationHead := "c0"
  controllerProjectId := "demo"
  adapterProjectId := "demo"
  milestoneBranch := "milestone/one"
  queuePath := "docs/FEATURE_QUEUE.yaml"
  acceptedQueueFingerprint := "queue"
  acceptedChangedPaths := ["src/a.py"]
  validationCommands := .arr []
  metadataPaths := ["docs/CURRENT_STATUS.md", "docs/FEATURE_QUEUE.yaml", "docs/RUN_LOG.md"]
  ledgerSequence := 1

end Conveyor
