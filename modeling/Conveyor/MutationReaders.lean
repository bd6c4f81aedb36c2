import Conveyor.KernelRestore

/-!
# Readers of a recorded mutation policy

A started transaction records the policy of the paths that it may change, and four recoveries read
that record again: two of the planning recovery, that of a feature's result, and the recovery
planner. Only the last reads the denied paths and prefixes (`policy_readers_agree_iff`).
-/

namespace Conveyor

open Library WorkflowKernel

namespace MutationReaders

/-! ### The readers -/

/-- The path is one of the prefixes or lies under one of them. -/
def underAny (prefixes : List String) (path : String) : Bool :=
  prefixes.any fun root => decide (path = root) || (root ++ "/").toList.isPrefixOf path.toList

/-- The record of a start, `payload.get("allowed_mutation_policy") or {}`. -/
def recordOf (payload : Fields) : Fields := fieldsOf (payload.get "allowed_mutation_policy")

section Readers

variable (P : Platform) (payload : Fields)

/-- `path_authorized` of `_validate_transparent_planning_checkpoints`. -/
def pathAuthorized (path : String) : Bool :=
  let allowedPaths := WorkflowKernel.itemsOf ((recordOf payload).get "allowed_paths")
  let prefixes := WorkflowKernel.itemsOf ((recordOf payload).get "allowed_prefixes")
  let allowedPrefixes := prefixes.map fun item => stripSlashes (P.str item)
  decide (Json.str path ∈ allowedPaths) || underAny allowedPrefixes path

/-- `policy_authorized` of the retained planning recovery. -/
def policyAuthorized (currentPaths : List String) : Bool :=
  currentPaths.all (pathAuthorized P payload)

/-- `unauthorized` of `FeatureResultRecovery`. -/
def unauthorized (changedPaths : List String) : Result (List String) := do
  let allowedPaths := WorkflowKernel.itemsOf ((recordOf payload).get "allowed_paths")
  let allowedPrefixes ← recordedTexts ((recordOf payload).get "allowed_prefixes")
  return changedPaths.filter fun path =>
    decide (Json.str path ∉ allowedPaths) && !underAny allowedPrefixes path

/-- `policy_authorizes` of `RecoveryPlanner`. -/
def policyAuthorizes (paths : List String) : Result Bool := do
  let policy ← restoredPolicy (recordOf payload)
  return match policy.validate paths with
    | .ok observed => decide (observed = paths.insertionSort (· ≤ ·))
    | .error _ => false

end Readers

/-! ### What they are meant to say -/

/-- The policy accepts the paths. -/
def Accepts (policy : MutationPolicy) (paths : List String) : Prop :=
  ∃ observed, policy.validate paths = .ok observed

/-- Each of the readers accepts the paths exactly where the policy does. -/
structure ReadersAgree (P : Platform) (policy : MutationPolicy) (payload : Fields)
    (paths : List String) : Prop where
  planning : paths.all (pathAuthorized P payload) = true ↔ Accepts policy paths
  retained : policyAuthorized P payload paths = true ↔ Accepts policy paths
  feature : unauthorized payload paths = .ok [] ↔ Accepts policy paths
  planner : policyAuthorizes payload paths = .ok true ↔ Accepts policy paths

/-! ### The policy -/

section

variable {P : Platform} {policy : MutationPolicy} {payload : Fields} {paths : List String}

/-- The policy says that none of the paths is denied and all are allowed. -/
theorem accepts_iff (hsafe : ∀ path ∈ paths, isSafeRelativePath path = true) :
    Accepts policy paths ↔ (∀ path ∈ paths, policy.isDenied path = false) ∧
      ∀ path ∈ paths, policy.isAllowed path = true := by
  have hpaths : requireAll safeRelativePath paths = .ok () := by
    apply requireAll_eq_ok.mpr
    intro path hpath
    exact require_of (hsafe path hpath)
  unfold Accepts MutationPolicy.validate
  rw [hpaths]
  simp only [ok_bind, require_bind_eq_ok, List.filter_eq_nil_iff, mem_sortedSet]
  constructor
  · rintro ⟨observed, hdenied, hallowed, -⟩
    exact ⟨fun path hpath => by simpa using hdenied path hpath,
      fun path hpath => by simpa using hallowed path hpath⟩
  · rintro ⟨hdenied, hallowed⟩
    exact ⟨_, fun path hpath => by simp [hdenied path hpath],
      fun path hpath => by simp [hallowed path hpath], rfl⟩

theorem validate_eq_sortedSet {observed : List String} (h : policy.validate paths = .ok observed) :
    observed = sortedSet paths := by
  unfold MutationPolicy.validate at h
  simp only [bind_eq_ok, require_eq_ok] at h
  obtain ⟨_, _, _, _, _, _, h⟩ := h
  cases h
  rfl

theorem stripSlashes_stripSlashes (path : String) :
    stripSlashes (stripSlashes path) = stripSlashes path := by
  unfold stripSlashes
  rw [String.toList_ofList, List.reverse_reverse, List.dropWhile_idempotent]

/-- The prefixes of a policy that was checked have no slash at their end. -/
theorem stripSlashes_prefix {items : List String} (h : sortedSet (items.map stripSlashes) = items)
    {item : String} (hitem : item ∈ items) : stripSlashes item = item := by
  rw [← h, mem_sortedSet] at hitem
  obtain ⟨raw, -, rfl⟩ := List.mem_map.mp hitem
  exact stripSlashes_stripSlashes raw

/-- What a policy that was checked has to have. -/
structure Normalized (policy : MutationPolicy) : Prop where
  allowedSafe : ∀ path ∈ policy.allowedPaths, safeRelativePath path = .ok ()
  allowedSorted : sortedSet policy.allowedPaths = policy.allowedPaths
  prefixesSafe : ∀ root ∈ policy.allowedPrefixes, safeRelativePath (stripSlashes root) = .ok ()
  prefixesSorted : sortedSet (policy.allowedPrefixes.map stripSlashes) = policy.allowedPrefixes
  deniedSafe : ∀ path ∈ policy.deniedPaths, safeRelativePath path = .ok ()
  deniedSorted : sortedSet policy.deniedPaths = policy.deniedPaths
  deniedPrefixesSafe : ∀ root ∈ policy.deniedPrefixes,
    safeRelativePath (stripSlashes root) = .ok ()
  deniedPrefixesSorted :
    sortedSet (policy.deniedPrefixes.map stripSlashes) = policy.deniedPrefixes

theorem checked_iff : policy.checked = .ok policy ↔ Normalized policy := by
  simp only [MutationPolicy.checked, bind_eq_ok, require_eq_ok, requireAll_eq_ok]
  constructor
  · rintro ⟨_, h1, _, h2, _, h3, _, h4, _, h5, _, h6, _, h7, _, h8, -⟩
    exact ⟨h1, h2, h3, h4, h5, h6, h7, h8⟩
  · intro h
    exact ⟨(), h.allowedSafe, (), h.allowedSorted, (), h.prefixesSafe, (), h.prefixesSorted, (),
      h.deniedSafe, (), h.deniedSorted, (), h.deniedPrefixesSafe, (), h.deniedPrefixesSorted,
      rfl⟩

/-! ### The record -/

theorem get_toFields (policy : MutationPolicy) :
    policy.toFields.get "allowed_paths" = MutationPolicy.textArray policy.allowedPaths ∧
      policy.toFields.get "allowed_prefixes" = MutationPolicy.textArray policy.allowedPrefixes ∧
      policy.toFields.get "denied_paths" = MutationPolicy.textArray policy.deniedPaths ∧
      policy.toFields.get "denied_prefixes" = MutationPolicy.textArray policy.deniedPrefixes ∧
      policy.toFields.get "commit_subject" = .ofOption policy.commitSubject := by
  simp [MutationPolicy.toFields, Fields.get, Fields.get?_ofPairs, Fields.get?_cons]

theorem recordedTexts_textArray (items : List String) :
    recordedTexts (MutationPolicy.textArray items) = .ok items := by
  have htexts : SessionResultEnvelope.textItems (items.map Json.str) = some items := by
    induction items with
    | nil => rfl
    | cons item rest ih =>
        rw [List.map_cons, SessionResultEnvelope.textItems, ih]
        rfl
  simp only [recordedTexts, MutationPolicy.textArray, WorkflowKernel.itemsOf, htexts]

/-- The policy that is read from a record validates as the one that was recorded. -/
theorem restoredPolicy_toFields (h : Normalized policy) :
    ∃ restored, restoredPolicy policy.toFields = .ok restored ∧
      restored.validate = policy.validate := by
  obtain ⟨hpaths, hprefixes, hdenied, hdeniedPrefixes, hsubject⟩ := get_toFields policy
  have hcommit : optionalText (Json.ofOption policy.commitSubject) = .ok policy.commitSubject := by
    rcases policy.commitSubject with _ | subject <;> rfl
  simp only [restoredPolicy, hpaths, hprefixes, hdenied, hdeniedPrefixes, hsubject,
    recordedTexts_textArray, hcommit, ok_bind]
  refine ⟨_, checked_iff.mpr ?_, rfl⟩
  exact ⟨h.allowedSafe, h.allowedSorted, h.prefixesSafe, h.prefixesSorted, h.deniedSafe,
    h.deniedSorted, h.deniedPrefixesSafe, h.deniedPrefixesSorted⟩

/-! ### What the readers say of a record -/

theorem str_mem_textArray {items : List String} {path : String} :
    Json.str path ∈ WorkflowKernel.itemsOf (MutationPolicy.textArray items) ↔
      path ∈ items := by
  simp [WorkflowKernel.itemsOf, MutationPolicy.textArray]

section Recorded

variable (hchecked : policy.checked = .ok policy)
  (hstored : payload.get "allowed_mutation_policy" = .obj policy.toFields)

include hstored

theorem recordOf_eq : recordOf payload = policy.toFields := by
  rw [recordOf, hstored]
  rfl

theorem unauthorized_iff :
    unauthorized payload paths = .ok [] ↔ ∀ path ∈ paths, policy.isAllowed path = true := by
  obtain ⟨hpaths, hprefixes, -, -, -⟩ := get_toFields policy
  simp only [unauthorized, recordOf_eq hstored, hpaths, hprefixes, recordedTexts_textArray,
    ok_bind, str_mem_textArray]
  simp only [pure, Except.pure, Except.ok.injEq, List.filter_eq_nil_iff]
  apply forall₂_congr
  intro path _
  simp [MutationPolicy.isAllowed, coveredBy, underAny, or_iff_not_imp_left]

include hchecked

/-- The planning readers accept a path that the policy allows, whatever it denies. -/
theorem pathAuthorized_eq (path : String) :
    pathAuthorized P payload path = policy.isAllowed path := by
  obtain ⟨hpaths, hprefixes, -, -, -⟩ := get_toFields policy
  have hsame : (WorkflowKernel.itemsOf (MutationPolicy.textArray policy.allowedPrefixes)).map
      (fun item => stripSlashes (P.str item)) = policy.allowedPrefixes := by
    simp only [WorkflowKernel.itemsOf, MutationPolicy.textArray, List.map_map]
    refine (List.map_congr_left ?_).trans (List.map_id _)
    intro root hroot
    rw [Function.comp_apply, Platform.str_str,
      stripSlashes_prefix (checked_iff.mp hchecked).prefixesSorted hroot]
    rfl
  simp only [pathAuthorized, recordOf_eq hstored, hpaths, hprefixes, hsame, str_mem_textArray]
  rfl

theorem policyAuthorized_iff :
    policyAuthorized P payload paths = true ↔ ∀ path ∈ paths, policy.isAllowed path = true := by
  simp only [policyAuthorized, List.all_eq_true, pathAuthorized_eq hchecked hstored]

/-- The recovery planner accepts what the policy accepts. -/
theorem policyAuthorizes_iff (hnodup : paths.Nodup) :
    policyAuthorizes payload paths = .ok true ↔ Accepts policy paths := by
  obtain ⟨restored, hrestored, hvalidate⟩ := restoredPolicy_toFields (checked_iff.mp hchecked)
  simp only [policyAuthorizes, recordOf_eq hstored, hrestored, ok_bind, hvalidate, Accepts]
  rcases hread : policy.validate paths with reason | observed
  · simp [pure, Except.pure]
  · simp [pure, Except.pure, validate_eq_sortedSet hread, sortedSet, hnodup.dedup]

end Recorded

/-- The readers agree about a set of paths exactly where no path that is denied keeps the rest from
being accepted: where all paths are allowed, none of them may be denied. -/
theorem policy_readers_agree_iff (hchecked : policy.checked = .ok policy)
    (hstored : payload.get "allowed_mutation_policy" = .obj policy.toFields)
    (hnodup : paths.Nodup) (hsafe : ∀ path ∈ paths, isSafeRelativePath path = true) :
    ReadersAgree P policy payload paths ↔
      ((∀ path ∈ paths, policy.isAllowed path = true) →
        ∀ path ∈ paths, policy.isDenied path = false) := by
  have haccepts := @accepts_iff policy paths hsafe
  have hplanning : policyAuthorized P payload paths = true ↔
      ∀ path ∈ paths, policy.isAllowed path = true := policyAuthorized_iff hchecked hstored
  constructor
  · intro h hallowed
    exact (haccepts.mp (h.retained.mp (hplanning.mpr hallowed))).1
  · intro h
    have hiff : (∀ path ∈ paths, policy.isAllowed path = true) ↔ Accepts policy paths :=
      ⟨fun hallowed => haccepts.mpr ⟨h hallowed, hallowed⟩, fun h => (haccepts.mp h).2⟩
    exact
      { planning := hplanning.trans hiff
        retained := hplanning.trans hiff
        feature := (unauthorized_iff hstored).trans hiff
        planner := policyAuthorizes_iff hchecked hstored hnodup }

end

/-! ### A policy that denies one path below an allowed prefix -/

def docsPolicy : MutationPolicy :=
  { allowedPaths := [], allowedPrefixes := ["docs"], deniedPaths := ["docs/x"] }

def docsPayload : Fields := [("allowed_mutation_policy", .obj docsPolicy.toFields)]

theorem docs_checked : docsPolicy.checked = .ok docsPolicy := by decide +kernel

/-- The planning recoveries accept the path that the policy denies. -/
theorem denied_path_accepted : docsPolicy.checked = .ok docsPolicy ∧
    docsPayload.get "allowed_mutation_policy" = .obj docsPolicy.toFields ∧
    isSafeRelativePath "docs/x" = true ∧
    policyAuthorized Platform.reference docsPayload ["docs/x"] = true ∧
    ¬Accepts docsPolicy ["docs/x"] ∧
    ¬ReadersAgree Platform.reference docsPolicy docsPayload ["docs/x"] := by
  have hread : policyAuthorized Platform.reference docsPayload ["docs/x"] = true := by
    decide +kernel
  have hdenied : ¬Accepts docsPolicy ["docs/x"] := by
    intro h
    have hsafe : ∀ path ∈ ["docs/x"], isSafeRelativePath path = true :=
      List.forall_mem_singleton.mpr (by decide +kernel)
    have hfree := ((accepts_iff hsafe).mp h).1 "docs/x" List.mem_cons_self
    exact absurd hfree (by decide +kernel)
  refine ⟨docs_checked, rfl, by decide +kernel, hread, hdenied, ?_⟩
  intro h
  exact hdenied (h.retained.mp hread)

/-- About the other paths below the prefix they agree. -/
theorem other_path_agreed : ReadersAgree Platform.reference docsPolicy docsPayload ["docs/y"] :=
  (policy_readers_agree_iff docs_checked rfl (List.nodup_singleton _)
    (List.forall_mem_singleton.mpr (by decide +kernel))).mpr
    fun _ => List.forall_mem_singleton.mpr (by decide +kernel)

end MutationReaders

end Conveyor
