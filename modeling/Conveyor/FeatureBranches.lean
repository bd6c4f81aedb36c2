import Conveyor.FeatureDecisions
import Conveyor.Library.JsonRoundTrip
import Conveyor.TranscriptRedaction
import Conveyor.DependencyGates
import Conveyor.Library.Raises
import Conveyor.StartupReconciliation
import Mathlib.Data.List.Infix

/-!
# Feature branches

The branch of a queued feature (`canonical_feature_branch` in `feature_branches.py`): the one
that the queue records, or else the expansion of the pattern of the repository adapter.
`GitBranch` says which names Git takes for a branch.
-/

namespace Conveyor

open Library

/-- What the branch of a feature is derived from: the text of the repository adapter, and
    `pattern.format(feature_id=…, feature_id_lower=…, slug=…)`, which may reach the items and the
    attributes of the three texts. -/
structure BranchSite where
  platform : Platform
  decoding : JsonText.Decoding
  adapterText : Result String
  format : String → String → String → String → Result String

namespace FeatureBranches

variable (site : BranchSite)

/-! ### The branch of a feature -/

/-- `json.loads` of the adapter, with the failures that are caught. -/
def readAdapter : Result Json :=
  let unavailable := fun reason : String =>
    recoveryError s!"cannot derive feature branch from repository adapter: {reason}"
  match site.adapterText with
  | .error failure =>
      if failure.kind = .osError then .error (unavailable failure.message) else .error failure
  | .ok text =>
      match Json.loads site.decoding text.toList with
      | .ok adapter => .ok adapter
      | .error .malformed => .error (unavailable "invalid JSON")
      | .error .tooManyDigits => .error ⟨.valueError,
          "Exceeds the limit (4300 digits) for integer string conversion"⟩

/-- `(adapter.get("git") or {}).get("feature_branch_pattern")`. -/
def adapterPattern : Json → Result Json
  | .obj adapter => do
      let git ← objectOrEmpty (Fields.get adapter "git")
      return git.get "feature_branch_pattern"
  | _ => .error ⟨.attributeError, "object has no attribute 'get'"⟩

/-- `re.sub(r"[^a-z0-9]+", "-", title.lower()).strip("-")`. -/
def titleSlug (P : Platform) (title : String) : String :=
  String.ofList (Platform.trim (· = '-') (replaceRuns '-' false (P.lowerText title).toList))

/-- `[A-Za-z0-9]+(?:-[A-Za-z0-9]+)*`. -/
def isBranchId (featureId : String) : Bool :=
  (featureId.toList.splitOn '-').all fun part => !part.isEmpty && part.all Char.isAlphanum

/-- The pattern, the identifier and the slug of the title, where all three are there. -/
def branchMetadata (P : Platform) (pattern : Json) (feature : Fields) :
    Result (String × String × String) :=
  match pattern, feature.get "id", firstTruthy [feature.get "name", feature.get "title"] with
  | .str pattern, .str featureId, .str title => do
      let slug := titleSlug P title
      require (isBranchId featureId = true ∧ slug ≠ "")
        (recoveryError "feature ID or title cannot produce a safe feature branch")
      return (pattern, featureId, slug)
  | _, _, _ => .error
      (recoveryError "feature branch is absent and adapter branch metadata is incomplete")

/-- `except (KeyError, ValueError)`. -/
def formatCaught (kind : ErrorKind) : Prop :=
  kind ∈ [ErrorKind.keyError, .valueError, .unicodeDecodeError, .unicodeEncodeError]

instance (kind : ErrorKind) : Decidable (formatCaught kind) :=
  inferInstanceAs (Decidable (_ ∈ _))

/-- The expansion of the pattern. -/
def derivedBranch (pattern featureId slug : String) : Result String :=
  match site.format pattern featureId (site.platform.lowerText featureId) slug with
  | .ok derived => .ok derived
  | .error failure =>
      if formatCaught failure.kind then
        .error (recoveryError s!"feature branch pattern is unsupported: {pattern}")
      else .error failure

/-- `recorded if isinstance(recorded, str) and recorded else derived`. -/
def chosenBranch (feature : Fields) (derived : String) : String :=
  match feature.get "branch" with
  | .str recorded => if recorded = "" then derived else recorded
  | _ => derived

def isRefChar (c : Char) : Bool := c.isAlphanum || decide (c ∈ ['.', '_', '/', '-'])

/-- A letter or digit, then letters, digits, dots, underscores, slashes and hyphens. -/
def isRefText : List Char → Bool
  | [] => false
  | first :: rest => first.isAlphanum && rest.all isRefChar

/-- The branch has the prefix and the characters of a feature branch. -/
structure Allowed (branch : String) : Prop where
  codexPrefix : "codex/".toList <+: branch.toList
  noSpace : branch.toList.any Platform.isSpace = false
  refText : isRefText branch.toList = true
  noDots : ¬['.', '.'] <:+: branch.toList
  noSlash : branch.toList.getLast? ≠ some '/'

/-- The stem of the branch is the identifier, or goes on with a hyphen behind it. -/
def Identifies (P : Platform) (featureId branch : String) : Prop :=
  let stem := P.lower (branch.toList.drop "codex/".length)
  let featureStem := P.lower featureId.toList
  stem = featureStem ∨ featureStem ++ ['-'] <+: stem

instance (P : Platform) (featureId branch : String) : Decidable (Identifies P featureId branch) :=
  inferInstanceAs (Decidable (_ ∨ _))

def checkBranch (P : Platform) (featureId branch : String) : Result Unit := do
  require ("codex/".toList <+: branch.toList ∧ branch.toList.any Platform.isSpace = false)
    (recoveryError "feature branch must use the allowed codex/ prefix and contain no whitespace")
  require (isRefText branch.toList = true ∧ ¬['.', '.'] <:+: branch.toList ∧
      branch.toList.getLast? ≠ some '/')
    (recoveryError "feature branch contains invalid ref characters")
  require (Identifies P featureId branch)
    (recoveryError "explicit feature branch does not identify the selected feature")

/-- `canonical_feature_branch`. -/
def canonicalFeatureBranch (feature : Fields) : Result String := do
  let adapter ← readAdapter site
  let pattern ← adapterPattern adapter
  let (pattern, featureId, slug) ← branchMetadata site.platform pattern feature
  let derived ← derivedBranch site pattern featureId slug
  let branch := chosenBranch feature derived
  checkBranch site.platform featureId branch
  return branch

/-! ### Names of branches -/

/-- A name that Git takes for a branch (`git check-ref-format`). -/
structure GitBranch (name : String) : Prop where
  components : ∀ part ∈ name.toList.splitOn '/',
    part ≠ [] ∧ part.head? ≠ some '.' ∧ ¬".lock".toList <:+ part
  noTrailingDot : name.toList.getLast? ≠ some '.'
  noDots : ¬['.', '.'] <:+: name.toList
  noBrace : ¬"@\x7b".toList <:+: name.toList
  noHyphen : name.toList.head? ≠ some '-'
  notAt : name ≠ "@"
  characters : ∀ c ∈ name.toList,
    32 < c.toNat ∧ c.toNat ≠ 127 ∧ c ∉ ['~', '^', ':', '?', '*', '[', '\\']

/-- No component is empty, starts with a dot or ends in `.lock`, and no dot ends the name. -/
def PlainComponents (name : String) : Prop :=
  (∀ part ∈ name.toList.splitOn '/',
    part ≠ [] ∧ part.head? ≠ some '.' ∧ ¬".lock".toList <:+ part) ∧
    name.toList.getLast? ≠ some '.'

theorem isRefChar_of_isRefText {text : List Char} (h : isRefText text = true) {c : Char}
    (hc : c ∈ text) : isRefChar c = true := by
  cases text with
  | nil => cases hc
  | cons first rest =>
      rw [isRefText, Bool.and_eq_true, List.all_eq_true] at h
      rcases List.mem_cons.mp hc with rfl | hmem
      · rw [isRefChar, h.1, Bool.true_or]
      · exact h.2 c hmem

theorem alphanum_bounds {c : Char} (h : c.isAlphanum = true) : 48 ≤ c.toNat ∧ c.toNat ≤ 122 := by
  have hunfold : c.isAlphanum = ((decide (65 ≤ c.val ∧ c.val ≤ 90) ||
    decide (97 ≤ c.val) && decide (c.val ≤ 122)) ||
      decide (48 ≤ c.val) && decide (c.val ≤ 57)) := rfl
  simp only [hunfold, Bool.or_eq_true, Bool.and_eq_true, decide_eq_true_eq,
    UInt32.le_iff_toNat_le] at h
  simp only [Char.toNat]
  rcases h with (⟨hlow, hhigh⟩ | ⟨hlow, hhigh⟩) | ⟨hlow, hhigh⟩
  all_goals exact ⟨le_trans (by decide) hlow, hhigh.trans (by decide)⟩

/-- A character of a branch is one that Git allows. -/
theorem isRefChar_allowed {c : Char} (h : isRefChar c = true) :
    32 < c.toNat ∧ c.toNat ≠ 127 ∧ c ∉ ['~', '^', ':', '?', '*', '[', '\\'] := by
  have hbounds : 45 ≤ c.toNat ∧ c.toNat ≤ 122 := by
    rw [isRefChar, Bool.or_eq_true, decide_eq_true_eq] at h
    rcases h with halphanum | hmem
    · obtain ⟨hlow, hhigh⟩ := alphanum_bounds halphanum
      exact ⟨by omega, hhigh⟩
    · simp only [List.mem_cons, List.not_mem_nil, or_false] at hmem
      rcases hmem with rfl | rfl | rfl | rfl <;> decide
  refine ⟨by omega, by omega, fun hmem => ?_⟩
  have hrefused : ['~', '^', ':', '?', '*', '[', '\\'].all (fun d => !isRefChar d) = true := by
    decide
  have hnot := List.all_eq_true.mp hrefused c hmem
  rw [h] at hnot
  exact absurd hnot Bool.false_ne_true

/-- Of the rules of Git the checks leave only those about the components to the name. -/
theorem gitBranch_iff {name : String} (h : Allowed name) :
    GitBranch name ↔ PlainComponents name := by
  have hchars : ∀ c ∈ name.toList, isRefChar c = true :=
    fun c hc => isRefChar_of_isRefText h.refText hc
  constructor
  · intro hgit
    exact ⟨hgit.components, hgit.noTrailingDot⟩
  · rintro ⟨hcomponents, hdot⟩
    refine ⟨hcomponents, hdot, h.noDots, fun hbrace => ?_, fun hhyphen => ?_, fun hat => ?_,
      fun c hc => isRefChar_allowed (hchars c hc)⟩
    · exact absurd (hchars '@' (hbrace.subset (by decide))) (by decide)
    · obtain ⟨rest, hrest⟩ := h.codexPrefix
      rw [← hrest] at hhyphen
      exact absurd hhyphen (by simp)
    · exact absurd (hchars '@' (by rw [hat]; decide)) (by decide)

/-! ### Identifiers that extend one another -/

/-- The identifiers are the same but for their case, or one of them goes on with a hyphen behind
    the other. -/
def Nested (P : Platform) (featureId other : String) : Prop :=
  P.lower featureId.toList = P.lower other.toList ∨
    P.lower featureId.toList ++ ['-'] <+: P.lower other.toList ∨
    P.lower other.toList ++ ['-'] <+: P.lower featureId.toList

/-- One branch identifies two features only if their identifiers extend one another. -/
theorem nested_of_identifies {P : Platform} {featureId other name : String}
    (h : Identifies P featureId name) (hother : Identifies P other name) :
    Nested P featureId other := by
  rcases h with heq | hprefix
  · rcases hother with heq' | hprefix'
    · exact Or.inl (heq.symm.trans heq')
    · rw [heq] at hprefix'
      exact Or.inr (Or.inr hprefix')
  · rcases hother with heq' | hprefix'
    · rw [heq'] at hprefix
      exact Or.inr (Or.inl hprefix)
    · rcases List.prefix_or_prefix_of_prefix hprefix hprefix' with hle | hle
      · rcases List.prefix_concat_iff.mp hle with hsame | hle
        · exact Or.inl (List.append_cancel_right hsame)
        · exact Or.inr (Or.inl hle)
      · rcases List.prefix_concat_iff.mp hle with hsame | hle
        · exact Or.inl (List.append_cancel_right hsame).symm
        · exact Or.inr (Or.inr hle)

/-! ### What the branch is derived from -/

section Derived

variable {site} {feature : Fields} {pattern featureId slug name : String}

/-- The adapter and the feature have a pattern, an identifier and a slug. -/
def Expands (site : BranchSite) (feature : Fields) (pattern featureId slug : String) : Prop :=
  ∃ adapter value, readAdapter site = .ok adapter ∧ adapterPattern adapter = .ok value ∧
    branchMetadata site.platform value feature = .ok (pattern, featureId, slug)

/-- The recorded branch of the feature, or else the expansion of the pattern for it. -/
def BranchText (site : BranchSite) (feature : Fields) (featureId name : String) : Prop :=
  ∃ pattern slug derived, Expands site feature pattern featureId slug ∧
    site.format pattern featureId (site.platform.lowerText featureId) slug = .ok derived ∧
    name = chosenBranch feature derived

theorem checkBranch_eq_ok {P : Platform} :
    checkBranch P featureId name = .ok () ↔ Allowed name ∧ Identifies P featureId name := by
  simp only [checkBranch, bind_eq_ok, require_eq_ok]
  constructor
  · rintro ⟨_, ⟨hcodex, hspace⟩, _, ⟨htext, hdots, hslash⟩, hidentifies⟩
    exact ⟨⟨hcodex, hspace, htext, hdots, hslash⟩, hidentifies⟩
  · rintro ⟨hallowed, hidentifies⟩
    exact ⟨(), ⟨hallowed.codexPrefix, hallowed.noSpace⟩, (),
      ⟨hallowed.refText, hallowed.noDots, hallowed.noSlash⟩, hidentifies⟩

theorem derivedBranch_eq_ok {derived : String} :
    derivedBranch site pattern featureId slug = .ok derived ↔
      site.format pattern featureId (site.platform.lowerText featureId) slug = .ok derived := by
  unfold derivedBranch
  cases site.format pattern featureId (site.platform.lowerText featureId) slug with
  | ok text => exact Iff.rfl
  | error failure =>
      dsimp only
      split <;> exact iff_of_false (fun h => nomatch h) (fun h => nomatch h)

theorem canonicalFeatureBranch_eq_ok :
    canonicalFeatureBranch site feature = .ok name ↔
      ∃ featureId, BranchText site feature featureId name ∧ Allowed name ∧
        Identifies site.platform featureId name := by
  unfold canonicalFeatureBranch
  constructor
  · intro h
    obtain ⟨adapter, hadapter, h⟩ := bind_eq_ok.mp h
    obtain ⟨value, hvalue, h⟩ := bind_eq_ok.mp h
    obtain ⟨⟨pattern, featureId, slug⟩, hmetadata, h⟩ := bind_eq_ok.mp h
    obtain ⟨derived, hderived, h⟩ := bind_eq_ok.mp h
    obtain ⟨_, hchecked, h⟩ := bind_eq_ok.mp h
    cases h
    exact ⟨featureId, ⟨pattern, slug, derived, ⟨adapter, value, hadapter, hvalue, hmetadata⟩,
      derivedBranch_eq_ok.mp hderived, rfl⟩, checkBranch_eq_ok.mp hchecked⟩
  · rintro ⟨featureId, ⟨pattern, slug, derived, ⟨adapter, value, hadapter, hvalue, hmetadata⟩,
      hderived, rfl⟩, hchecked⟩
    exact bind_eq_ok.mpr ⟨adapter, hadapter, bind_eq_ok.mpr ⟨value, hvalue, bind_eq_ok.mpr
      ⟨_, hmetadata, bind_eq_ok.mpr ⟨derived, derivedBranch_eq_ok.mpr hderived,
        bind_eq_ok.mpr ⟨(), checkBranch_eq_ok.mpr hchecked, rfl⟩⟩⟩⟩⟩

end Derived

/-! ### What a derivation raises -/

section Raised

variable {site} {feature : Fields}

/-- The failure is not the one that the derivation is documented to raise. -/
def Unrecovered (failure : Failure) : Prop := failure.kind ≠ .recoveryError

theorem recoveryError_own (message : String) : ¬Unrecovered (recoveryError message) :=
  fun h => h rfl

/-- The adapter is an object with the metadata of Git in an object, and nothing on the way there
    nor the expansion of the pattern fails in a way that is not caught. -/
structure StaysInside (site : BranchSite) (feature : Fields) : Prop where
  reads : ∀ failure, site.adapterText = .error failure →
    failure.kind = .osError ∨ ¬Unrecovered failure
  digits : ∀ text, site.adapterText = .ok text →
    Json.loads site.decoding text.toList ≠ .error .tooManyDigits
  object : ∀ adapter, readAdapter site = .ok adapter → ∃ fields, adapter = .obj fields ∧
    ((Fields.get fields "git").truthy = true → ∃ git, Fields.get fields "git" = .obj git)
  expands : ∀ pattern featureId slug, Expands site feature pattern featureId slug →
    ∀ failure, site.format pattern featureId (site.platform.lowerText featureId) slug =
      .error failure → formatCaught failure.kind ∨ ¬Unrecovered failure

theorem readAdapter_raises : Raises Unrecovered (readAdapter site) ↔
    (∃ failure, site.adapterText = .error failure ∧ failure.kind ≠ .osError ∧
      Unrecovered failure) ∨
    ∃ text, site.adapterText = .ok text ∧
      Json.loads site.decoding text.toList = .error .tooManyDigits := by
  unfold readAdapter
  cases site.adapterText with
  | error failure =>
      by_cases hkind : failure.kind = .osError
      · simp [hkind, recoveryError_own]
      · simp [hkind]
  | ok text =>
      dsimp only
      split
      · rename_i hloads
        simp [hloads]
      · rename_i hloads
        simp [hloads, recoveryError_own]
      · rename_i hloads
        simp [hloads, Unrecovered]

theorem adapterPattern_raises {adapter : Json} : Raises Unrecovered (adapterPattern adapter) ↔
    ¬∃ fields, adapter = .obj fields ∧
      ((Fields.get fields "git").truthy = true → ∃ git, Fields.get fields "git" = .obj git) := by
  cases adapter with
  | obj fields =>
      have hread : Raises Unrecovered (adapterPattern (.obj fields)) ↔
          Raises Unrecovered (objectOrEmpty (Fields.get fields "git")) := by
        rw [adapterPattern, raises_bind]
        exact or_iff_left fun ⟨_, _, h⟩ => raises_pure _ h
      rw [hread]
      cases hgit : Fields.get fields "git" with
      | obj git => simp [objectOrEmpty, hgit]
      | _ =>
          simp only [objectOrEmpty, Json.obj.injEq, exists_eq_left', hgit, reduceCtorEq,
            exists_false, imp_false, not_not]
          split <;> simp_all [Unrecovered]
  | _ => simp [adapterPattern, Unrecovered]

theorem branchMetadata_raises {P : Platform} {pattern : Json} :
    ¬Raises Unrecovered (branchMetadata P pattern feature) := by
  unfold branchMetadata
  split
  · dsimp only
    rw [raises_require_bind (recoveryError_own _)]
    exact fun h => raises_pure _ h.2
  · rw [raises_error]
    exact recoveryError_own _

theorem derivedBranch_raises {pattern featureId slug : String} :
    Raises Unrecovered (derivedBranch site pattern featureId slug) ↔
      ∃ failure, site.format pattern featureId (site.platform.lowerText featureId) slug =
        .error failure ∧ ¬formatCaught failure.kind ∧ Unrecovered failure := by
  unfold derivedBranch
  cases site.format pattern featureId (site.platform.lowerText featureId) slug with
  | ok text => simp
  | error failure =>
      by_cases hcaught : formatCaught failure.kind
      · simp [hcaught, recoveryError_own]
      · simp [hcaught]

theorem checkBranch_raises {P : Platform} {featureId branch : String} :
    ¬Raises Unrecovered (checkBranch P featureId branch) := by
  unfold checkBranch
  rw [raises_require_bind (recoveryError_own _), raises_require_bind (recoveryError_own _)]
  rintro ⟨_, _, hlast⟩
  exact not_raises_require (recoveryError_own _) hlast

/-- The derivation fails as it is documented exactly where nothing inside fails otherwise. -/
theorem canonicalFeatureBranch_raises :
    ¬Raises Unrecovered (canonicalFeatureBranch site feature) ↔ StaysInside site feature := by
  have hraises : Raises Unrecovered (canonicalFeatureBranch site feature) ↔
      Raises Unrecovered (readAdapter site) ∨
      (∃ adapter, readAdapter site = .ok adapter ∧ Raises Unrecovered (adapterPattern adapter)) ∨
      ∃ pattern featureId slug, Expands site feature pattern featureId slug ∧
        Raises Unrecovered (derivedBranch site pattern featureId slug) := by
    unfold canonicalFeatureBranch
    constructor
    · intro h
      rcases raises_bind.mp h with h | ⟨adapter, hadapter, h⟩
      · exact Or.inl h
      rcases raises_bind.mp h with h | ⟨value, hvalue, h⟩
      · exact Or.inr (Or.inl ⟨adapter, hadapter, h⟩)
      rcases raises_bind.mp h with h | ⟨⟨pattern, featureId, slug⟩, hmetadata, h⟩
      · exact absurd h branchMetadata_raises
      rcases raises_bind.mp h with h | ⟨derived, _, h⟩
      · exact Or.inr (Or.inr ⟨pattern, featureId, slug,
          ⟨adapter, value, hadapter, hvalue, hmetadata⟩, h⟩)
      rcases raises_bind.mp h with h | ⟨_, _, h⟩
      · exact absurd h checkBranch_raises
      · exact absurd h (raises_pure _)
    · rintro (h | ⟨adapter, hadapter, h⟩ |
        ⟨pattern, featureId, slug, ⟨adapter, value, hadapter, hvalue, hmetadata⟩, h⟩)
      · exact raises_bind.mpr (Or.inl h)
      · exact raises_bind.mpr (Or.inr ⟨adapter, hadapter, raises_bind.mpr (Or.inl h)⟩)
      · exact raises_bind.mpr (Or.inr ⟨adapter, hadapter, raises_bind.mpr (Or.inr ⟨value, hvalue,
          raises_bind.mpr (Or.inr ⟨_, hmetadata, raises_bind.mpr (Or.inl h)⟩)⟩)⟩)
  rw [hraises, readAdapter_raises]
  simp only [adapterPattern_raises, derivedBranch_raises]
  constructor
  · intro h
    rw [not_or, not_or, not_or] at h
    obtain ⟨⟨hreads, hdigits⟩, hobject, hexpands⟩ := h
    refine ⟨fun failure hfailure => ?_, fun text htext hloads => hdigits ⟨text, htext, hloads⟩,
      fun adapter hadapter => ?_, fun pattern featureId slug hpattern failure hfailure => ?_⟩
    · by_contra hnot
      exact hreads ⟨failure, hfailure, fun hkind => hnot (Or.inl hkind),
        not_not.mp fun hown => hnot (Or.inr hown)⟩
    · by_contra hnot
      exact hobject ⟨adapter, hadapter, hnot⟩
    · by_contra hnot
      exact hexpands ⟨pattern, featureId, slug, hpattern, failure, hfailure,
        fun hcaught => hnot (Or.inl hcaught), not_not.mp fun hown => hnot (Or.inr hown)⟩
  · rintro h ((⟨failure, hfailure, hkind, hbad⟩ | ⟨text, htext, hloads⟩) |
      ⟨adapter, hadapter, hnot⟩ |
      ⟨pattern, featureId, slug, hpattern, failure, hfailure, hcaught, hbad⟩)
    · exact (h.reads failure hfailure).elim hkind fun hown => hown hbad
    · exact h.digits text htext hloads
    · exact hnot (h.object adapter hadapter)
    · exact (h.expands pattern featureId slug hpattern failure hfailure).elim hcaught
        fun hown => hown hbad

end Raised

/-! ### The branches of a queue -/

/-- Each feature of the queue has a name that Git takes or is refused as documented, and no name
    is that of two features. -/
structure BranchesSound (site : BranchSite) (queue : FeatureQueue) : Prop where
  raised : ∀ feature ∈ queue.features, ¬Raises Unrecovered (canonicalFeatureBranch site feature)
  valid : ∀ feature ∈ queue.features, ∀ name, canonicalFeatureBranch site feature = .ok name →
    GitBranch name
  unique : ∀ first ∈ queue.features, ∀ second ∈ queue.features,
    first.get "id" ≠ second.get "id" → ∀ name, canonicalFeatureBranch site first = .ok name →
      canonicalFeatureBranch site second ≠ .ok name

/-- What the checks leave to the queue and to the pattern: no failure that is not caught, plain
    components, and other texts where one of two identifiers extends the other. -/
structure BranchesApart (site : BranchSite) (queue : FeatureQueue) : Prop where
  inside : ∀ feature ∈ queue.features, StaysInside site feature
  plain : ∀ feature ∈ queue.features, ∀ featureId name, BranchText site feature featureId name →
    Allowed name → Identifies site.platform featureId name → PlainComponents name
  apart : ∀ first ∈ queue.features, ∀ second ∈ queue.features, ∀ firstId secondId,
    firstId ≠ secondId → Nested site.platform firstId secondId → ∀ name,
      BranchText site first firstId name → BranchText site second secondId name →
      Allowed name → Identifies site.platform firstId name →
      ¬Identifies site.platform secondId name

theorem BranchText.id {feature : Fields} {featureId name : String}
    (h : BranchText site feature featureId name) : feature.get "id" = .str featureId := by
  obtain ⟨pattern, slug, derived, ⟨adapter, value, -, -, hmetadata⟩, -, -⟩ := h
  unfold branchMetadata at hmetadata
  split at hmetadata
  · rename_i hid _
    dsimp only at hmetadata
    obtain ⟨_, _, hpure⟩ := bind_eq_ok.mp hmetadata
    cases hpure
    exact hid
  · cases hmetadata

/-- The names are sound exactly for the queues that keep the texts of nested identifiers apart. -/
theorem feature_branches_iff (queue : FeatureQueue) :
    BranchesSound site queue ↔ BranchesApart site queue := by
  constructor
  · intro h
    refine ⟨fun feature hmem => canonicalFeatureBranch_raises.mp (h.raised feature hmem),
      fun feature hmem featureId name htext hallowed hidentifies => ?_,
      fun first hfirst second hsecond firstId secondId hne _ name htext htext' hallowed
        hidentifies hidentifies' => ?_⟩
    · exact (gitBranch_iff hallowed).mp (h.valid feature hmem name
        (canonicalFeatureBranch_eq_ok.mpr ⟨featureId, htext, hallowed, hidentifies⟩))
    · refine h.unique first hfirst second hsecond (fun hid => hne ?_) name
        (canonicalFeatureBranch_eq_ok.mpr ⟨firstId, htext, hallowed, hidentifies⟩)
        (canonicalFeatureBranch_eq_ok.mpr ⟨secondId, htext', hallowed, hidentifies'⟩)
      rw [htext.id, htext'.id] at hid
      exact Json.str.inj hid
  · intro h
    refine ⟨fun feature hmem => canonicalFeatureBranch_raises.mpr (h.inside feature hmem),
      fun feature hmem name hname => ?_,
      fun first hfirst second hsecond hne name hname hname' => ?_⟩
    · obtain ⟨featureId, htext, hallowed, hidentifies⟩ := canonicalFeatureBranch_eq_ok.mp hname
      exact (gitBranch_iff hallowed).mpr (h.plain feature hmem featureId name htext hallowed
        hidentifies)
    · obtain ⟨firstId, htext, hallowed, hidentifies⟩ := canonicalFeatureBranch_eq_ok.mp hname
      obtain ⟨secondId, htext', -, hidentifies'⟩ := canonicalFeatureBranch_eq_ok.mp hname'
      have hids : firstId ≠ secondId := by
        rintro rfl
        exact hne (htext.id.trans htext'.id.symm)
      exact h.apart first hfirst second hsecond firstId secondId hids
        (nested_of_identifies hidentifies hidentifies') name htext htext' hallowed hidentifies
        hidentifies'

/-! ### Titles that begin with the rest of an identifier -/

/-- `pattern.format(**fields)` for a pattern whose fields are plain names. -/
def formatChars (fields : List (String × String)) : Option (List Char) → List Char →
    Result (List Char)
  | none, [] => .ok []
  | some _, [] => .error ⟨.valueError, "expected '\x7d' before end of string"⟩
  | none, c :: rest =>
      if c = '\x7b' then formatChars fields (some []) rest
      else do
        let out ← formatChars fields none rest
        return c :: out
  | some name, c :: rest =>
      if c = '\x7d' then do
        let some text := fields.lookup (String.ofList name.reverse)
          | .error ⟨.keyError, String.ofList name.reverse⟩
        let out ← formatChars fields none rest
        return text.toList ++ out
      else formatChars fields (some (c :: name)) rest

def plainFormat (pattern featureId lower slug : String) : Result String := do
  let out ← formatChars [("feature_id", featureId), ("feature_id_lower", lower), ("slug", slug)]
    none pattern.toList
  return String.ofList out

/-- An adapter with the given pattern. -/
def patternAdapter (pattern : String) : Json :=
  .obj [("git", .obj [("feature_branch_pattern", .str pattern)])]

def patternSite (pattern : String) : BranchSite where
  platform := .reference
  decoding := plainDecoding
  adapterText := .ok (String.ofList (Json.dumpsChars (patternAdapter pattern)))
  format := plainFormat

theorem readAdapter_patternSite (pattern : String) :
    readAdapter (patternSite pattern) = .ok (patternAdapter pattern) := by
  have hloads : Json.loads plainDecoding (Json.dumpsChars (patternAdapter pattern)) =
      .ok (patternAdapter pattern) :=
    Json.loads_dumpsChars plainDecoding
      ⟨List.pairwise_singleton _ _, ⟨List.pairwise_singleton _ _, trivial, trivial⟩, trivial⟩
  simp only [readAdapter, patternSite, String.toList_ofList, hloads]

/-- A queue of two features with the given identifiers and titles. -/
def titledQueue (first second : String × String) : Fields :=
  let entry := fun feature : String × String => Json.obj
    [("id", .str feature.1), ("milestone", .str "M1"), ("status", .str "ready"),
     ("title", .str feature.2)]
  [("features", .arr [entry first, entry second]),
   ("milestones", .arr [.obj [("id", .str "M1")]])]

def lowerPattern : String := "codex/\x7bfeature_id_lower\x7d-\x7bslug\x7d"

/-- A feature without a recorded branch has the branch of its identifier and its title. -/
theorem canonicalFeatureBranch_titled {feature : Fields} {pattern featureId title name : String}
    (slug : String) (hid : feature.get "id" = .str featureId)
    (htitle : feature.get "title" = .str title) (hname : feature.get "name" = .null)
    (hbranch : feature.get "branch" = .null)
    (hmetadata : branchMetadata Platform.reference (.str pattern)
      [("id", .str featureId), ("title", .str title)] = .ok (pattern, featureId, slug))
    (hformat : plainFormat pattern featureId (Platform.reference.lowerText featureId) slug =
      .ok name)
    (hallowed : Allowed name) (hidentifies : Identifies Platform.reference featureId name) :
    canonicalFeatureBranch (patternSite pattern) feature = .ok name := by
  refine canonicalFeatureBranch_eq_ok.mpr ⟨featureId, ⟨pattern, slug, name,
    ⟨patternAdapter pattern, .str pattern, readAdapter_patternSite pattern, rfl, ?_⟩, hformat,
    ?_⟩, hallowed, hidentifies⟩
  · rw [← hmetadata]
    unfold branchMetadata
    rw [hid, htitle, hname]
    rfl
  · rw [chosenBranch, hbranch]

/-- What the derivation reads of the features of the queue. -/
def branchFields (feature : Fields) : Json × Json × Json × Json :=
  (feature.get "id", feature.get "title", feature.get "name", feature.get "branch")

theorem allowed_f1 : Allowed "codex/f1-2-x" :=
  ⟨by decide, by decide, by decide, fun h => absurd (h.subset List.mem_cons_self) (by decide),
    by decide⟩

theorem canonicalFeatureBranch_f1 {feature : Fields}
    (h : branchFields feature = (.str "F1", .str "2 x", .null, .null)) :
    canonicalFeatureBranch (patternSite lowerPattern) feature = .ok "codex/f1-2-x" := by
  simp only [branchFields, Prod.mk.injEq] at h
  obtain ⟨hid, htitle, hname, hbranch⟩ := h
  exact canonicalFeatureBranch_titled "2-x" hid htitle hname hbranch (by decide +kernel)
    (by decide +kernel) allowed_f1 (by decide)

/-- The identifier of the second feature goes on as the title of the first begins. -/
theorem nested_titles_share_branch :
    ∃ queue first second, FeatureQueue.ofFields .plain
        (titledQueue ("F1", "2 x") ("F1-2", "x")) = .ok queue ∧
      queue.features = [first, second] ∧ first.get "id" ≠ second.get "id" ∧
      canonicalFeatureBranch (patternSite lowerPattern) first = .ok "codex/f1-2-x" ∧
      canonicalFeatureBranch (patternSite lowerPattern) second = .ok "codex/f1-2-x" ∧
      ¬BranchesSound (patternSite lowerPattern) queue := by
  obtain ⟨queue, hqueue, first, second, hfeatures, hfirst, hsecond⟩ : ∃ queue,
      FeatureQueue.ofFields .plain (titledQueue ("F1", "2 x") ("F1-2", "x")) = .ok queue ∧
        ∃ first second, queue.features = [first, second] ∧
          branchFields first = (.str "F1", .str "2 x", .null, .null) ∧
          branchFields second = (.str "F1-2", .str "x", .null, .null) :=
    ⟨_, rfl, _, _, rfl, rfl, rfl⟩
  have hfirstName := canonicalFeatureBranch_f1 hfirst
  simp only [branchFields, Prod.mk.injEq] at hfirst hsecond
  have hsecondName : canonicalFeatureBranch (patternSite lowerPattern) second =
      .ok "codex/f1-2-x" :=
    canonicalFeatureBranch_titled "x" hsecond.1 hsecond.2.1 hsecond.2.2.1 hsecond.2.2.2
      (by decide +kernel) (by decide +kernel) allowed_f1 (by decide)
  have hid : first.get "id" ≠ second.get "id" := by
    rw [hfirst.1, hsecond.1]
    decide
  refine ⟨queue, first, second, hqueue, hfeatures, hid, hfirstName, hsecondName, fun hsound => ?_⟩
  have hmem : first ∈ queue.features ∧ second ∈ queue.features := by
    rw [hfeatures]
    exact ⟨List.mem_cons_self, List.mem_cons_of_mem _ List.mem_cons_self⟩
  exact hsound.unique first hmem.1 second hmem.2 hid _ hfirstName hsecondName

end FeatureBranches

end Conveyor
