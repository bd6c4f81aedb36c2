import Conveyor.QueueReading
import Mathlib.Data.List.Perm.Basic

/-!
# Edits that keep a queue readable

A controller writes into the raw entries of a queue document. An edit of a feature that leaves
its names alone, and gives it a supported status and a commit with text, leaves an accepted
document: the copies keep their identifiers, milestones and dependencies.
-/

namespace Conveyor

open Library

variable {site : QueueSite} {document document' : Fields} {queue : FeatureQueue}

/-! ### Names -/

/-- The same identifier, as written and normalized. -/
def SameNames (first second : Fields) : Prop :=
  second.get "id" = first.get "id" ∧ second.get "normalized_id" = first.get "normalized_id"

/-- A name finds the same place in both lists, or none. -/
theorem only_rel {items items' : List Fields} {key : String} {R : Fields → Fields → Prop}
    (value : String) (h : List.Forall₂ R items items') (hkey : ∀ a b, R a b → b.get key = a.get key) :
    Option.Rel R (FeatureQueue.only items key value) (FeatureQueue.only items' key value) := by
  have hfilter : List.Forall₂ R (items.filter fun item => item.get key = .str value)
      (items'.filter fun item => item.get key = .str value) := by
    refine List.rel_filter (fun a b hab => ?_) h
    dsimp only
    rw [hkey a b hab]
  unfold FeatureQueue.only
  generalize (items.filter fun item => item.get key = .str value) = found at hfilter ⊢
  generalize (items'.filter fun item => item.get key = .str value) = found' at hfilter ⊢
  cases hfilter with
  | nil => exact .none
  | cons hab hrest =>
      cases hrest with
      | nil => exact .some hab
      | cons _ _ => exact .none

theorem milestoneOf_rel (P : Platform) {milestones milestones' : List Fields} (id : String)
    (h : List.Forall₂ SameNames milestones milestones') :
    Option.Rel SameNames (FeatureQueue.milestoneOf P milestones id)
      (FeatureQueue.milestoneOf P milestones' id) := by
  have hid := only_rel id h fun a b hab => hab.1
  have hname := only_rel (normalizeMilestoneName P id) h fun a b hab => hab.2
  unfold FeatureQueue.milestoneOf
  cases hfirst : FeatureQueue.only milestones "id" id <;>
    cases hsecond : FeatureQueue.only milestones' "id" id <;>
    rw [hfirst, hsecond] at hid
  · exact hname
  · cases hid
  · cases hid
  · exact hid

/-! ### Features -/

/-- The fields of a feature that the queue reads, its status and its accepted commit apart. -/
def KEPT_FIELDS : List String :=
  ["id", "title", "name", "milestone", "dependencies", "depends_on", "commit"] ++ OPTIONAL_FIELDS

theorem kept_of_optional {key : String} (h : key ∈ OPTIONAL_FIELDS) : key ∈ KEPT_FIELDS :=
  List.mem_append_right _ h

/-- An edit of a feature that leaves its names alone. -/
structure FeatureEdit (P : Platform) (raw raw' : Fields) : Prop where
  keeps : ∀ key ∈ KEPT_FIELDS, raw'.get? key = raw.get? key
  status : ∃ text, raw'.get "status" = .str text ∧ Platform.hasText text = true ∧
    statusName P text ∈ SUPPORTED_STATUSES
  commit : raw'.get? "accepted_commit" = raw.get? "accepted_commit" ∨
    ∃ text, raw'.get? "accepted_commit" = some (.str text) ∧ Platform.hasText text = true

/-- What an edit leaves of the copy of a feature. -/
structure SameFeature (first second : Fields) : Prop where
  id : second.get "id" = first.get "id"
  milestone : second.get "milestone" = first.get "milestone"
  dependencies : second.get "dependencies" = first.get "dependencies"

theorem FeatureAccepted.edit {milestones milestones' : List Fields} {path : String}
    {raw raw' : Fields} {parts : FeatureParts}
    (h : FeatureAccepted site milestones path raw parts)
    (hedit : FeatureEdit site.platform raw raw')
    (hnames : List.Forall₂ SameNames milestones milestones') :
    ∃ parts', FeatureAccepted site milestones' path raw' parts' ∧
      SameFeature (parts.copy raw) (parts'.copy raw') := by
  obtain ⟨status, hstatus, hstatusText, hsupported⟩ := hedit.status
  have hget : ∀ key ∈ KEPT_FIELDS, raw'.get key = raw.get key := by
    intro key hkey
    rw [Fields.get, hedit.keeps key hkey, Fields.get]
  have hgetD : ∀ key ∈ KEPT_FIELDS, ∀ default, raw'.getD key default = raw.getD key default := by
    intro key hkey default
    rw [Fields.getD, hedit.keeps key hkey, Fields.getD]
  have hkeys : ∀ key ∈ KEPT_FIELDS, key ∈ raw'.keys ↔ key ∈ raw.keys := by
    intro key hkey
    rw [mem_keys_iff_get?, mem_keys_iff_get?, hedit.keeps key hkey]
  have hdependencies : rawDependencies raw' = rawDependencies raw := by
    rw [rawDependencies, hgetD _ (by decide), hgetD _ (by decide), rawDependencies]
  obtain ⟨milestoneId, milestone, hmilestoneId, hmilestoneText, hfound, hown⟩ := h.milestone
  have hrel := milestoneOf_rel site.platform milestoneId hnames
  rw [hfound] at hrel
  obtain ⟨milestone', hfound', hsame⟩ : ∃ milestone',
      FeatureQueue.milestoneOf site.platform milestones' milestoneId = some milestone' ∧
        SameNames milestone milestone' := by
    cases hresult : FeatureQueue.milestoneOf site.platform milestones' milestoneId with
    | none =>
        rw [hresult] at hrel
        cases hrel
    | some milestone' =>
        rw [hresult] at hrel
        cases hrel with
        | some hab => exact ⟨milestone', rfl, hab⟩
  let commit := raw'.getD "accepted_commit" (raw'.get "commit")
  have hcommitText : FeatureQueue.checkCommit path commit = .ok () := by
    rcases hedit.commit with hsame | ⟨text, htext, hhas⟩
    · have heq : commit = parts.commit := by
        simp only [commit]
        rw [Fields.getD, hsame, hget "commit" (by decide), ← Fields.getD, ← h.commit]
      rw [heq]
      exact h.commitText
    · have heq : commit = .str text := by
        simp only [commit]
        rw [Fields.getD, htext, Option.getD_some]
      rw [heq]
      exact bind_eq_ok.mpr ⟨text, textOf_eq_ok.mpr ⟨rfl, hhas⟩, rfl⟩
  have hown' : raw'.get "milestone" = .str milestoneId :=
    (hget "milestone" (by decide)).trans hmilestoneId
  refine ⟨⟨parts.id, parts.title, statusName site.platform status, parts.milestone,
    parts.dependencies, commit⟩, ?_, ?_⟩
  · exact {
      id := (hget "id" (by decide)).trans h.id
      idText := h.idText
      title := by
        dsimp only
        rw [hgetD _ (by decide), hgetD _ (by decide)]
        exact h.title
      titleText := h.titleText
      status := by
        dsimp only
        exact ⟨status, hstatus, hstatusText, rfl, hsupported⟩
      milestone := ⟨milestoneId, milestone', hown', hmilestoneText, hfound',
        hown.trans hsame.1.symm⟩
      agree := by
        rw [hkeys _ (by decide), hkeys _ (by decide), hget _ (by decide), hget _ (by decide)]
        exact h.agree
      dependencies := by
        rw [hdependencies]
        exact h.dependencies
      commit := rfl
      commitText := hcommitText
      legacyCommit := by
        rw [hget "commit" (by decide)]
        exact h.legacyCommit
      optional := by
        have hkept := fun key hkey => hedit.keeps key (kept_of_optional hkey)
        rw [checkOptional_congr hkept]
        exact h.optional }
  · constructor
    · rw [FeatureParts.get_copy_id, FeatureParts.get_copy_id]
    · rw [FeatureParts.get_copy_milestone, FeatureParts.get_copy_milestone]
    · rw [FeatureParts.get_copy_dependencies, FeatureParts.get_copy_dependencies]

/-- A feature that is left alone. -/
theorem FeatureAccepted.edit_refl {milestones : List Fields} {path : String} {raw : Fields}
    {parts : FeatureParts} (h : FeatureAccepted site milestones path raw parts) :
    FeatureEdit site.platform raw raw where
  keeps _ _ := rfl
  status := by
    obtain ⟨text, hvalue, htext, hname, hsupported⟩ := h.status
    exact ⟨text, hvalue, htext, hname ▸ hsupported⟩
  commit := .inl rfl

/-! ### Documents -/

/-- The document with other entries, each of them an edit of the one before. -/
structure DocumentEdit (P : Platform) (document document' : Fields)
    (milestones features : List Fields) : Prop where
  milestoneObjects : document'.get "milestones" = .arr (milestones.map .obj)
  featureObjects : document'.get "features" = .arr (features.map .obj)
  milestones : List.Forall₂ (fun raw raw' : Fields => raw'.get "id" = raw.get "id")
    (entries document "milestones") milestones
  features : List.Forall₂ (FeatureEdit P) (entries document "features") features

/-- The copy of a milestone with a text for its identifier. -/
def readAgain (P : Platform) (raw : Fields) : Fields :=
  milestoneCopy P raw ((raw.get "id").asString?.getD "")

theorem MilestoneRead.edit {P : Platform} {raw raw' milestone : Fields}
    (h : MilestoneRead P raw milestone) (hid : raw'.get "id" = raw.get "id") :
    MilestoneRead P raw' (readAgain P raw') ∧ SameNames milestone (readAgain P raw') := by
  obtain ⟨id, hvalue, htext, rfl⟩ := h
  have hvalue' : raw'.get "id" = .str id := hid.trans hvalue
  have hcopy : readAgain P raw' = milestoneCopy P raw' id := by
    rw [readAgain, hvalue']
    rfl
  refine ⟨⟨id, hvalue', htext, hcopy⟩, ?_, ?_⟩
  · rw [hcopy, milestoneCopy, milestoneCopy]
    simp [Fields.get, Fields.get?_set]
  · rw [hcopy, milestoneCopy, milestoneCopy]
    simp [Fields.get]

/-- Lists of objects that agree on a field hold the same values of it. -/
theorem map_get_eq {items items' : List Fields} {R : Fields → Fields → Prop} {key : String}
    (h : List.Forall₂ R items items') (hkey : ∀ a b, R a b → b.get key = a.get key) :
    (items'.map fun item => item.get key) = items.map fun item => item.get key := by
  induction h with
  | nil => rfl
  | cons hab _ ih => rw [List.map_cons, List.map_cons, ih, hkey _ _ hab]

/-- An edited document is accepted, and its queue has the same names. -/
theorem QueueRead.edit (h : QueueRead site document queue) {milestones features : List Fields}
    (hedit : DocumentEdit site.platform document document' milestones features) :
    ∃ queue', QueueRead site document' queue' ∧
      List.Forall₂ SameNames queue.milestones queue'.milestones ∧
      List.Forall₂ SameFeature queue.features queue'.features := by
  have hmilestoneEntries := entries_of_objects hedit.milestoneObjects
  have hfeatureEntries := entries_of_objects hedit.featureObjects
  obtain ⟨hmilestoneCount, hmilestoneEdits⟩ := forall₂_iff_places.mp hedit.milestones
  obtain ⟨hfeatureCount, hfeatureEdits⟩ := forall₂_iff_places.mp hedit.features
  -- the copies of the milestones
  have hmilestoneReads : ∀ (i : Nat) (raw' milestone : Fields), milestones[i]? = some raw' →
      queue.milestones[i]? = some milestone →
      MilestoneRead site.platform raw' (readAgain site.platform raw') ∧
        SameNames milestone (readAgain site.platform raw') := by
    intro i raw' milestone hraw' hmilestone
    have hi : i < (entries document "milestones").length := by
      rw [hmilestoneCount]
      exact (List.getElem?_eq_some_iff.mp hraw').1
    exact (h.milestones i _ milestone (List.getElem?_eq_getElem hi) hmilestone).edit
      (hmilestoneEdits i _ raw' (List.getElem?_eq_getElem hi) hraw')
  have hnames : List.Forall₂ SameNames queue.milestones
      (milestones.map (readAgain site.platform)) := by
    refine forall₂_iff_places.mpr ⟨?_, fun i milestone copied hmilestone hcopied => ?_⟩
    · rw [List.length_map, ← hmilestoneCount, h.milestoneCount]
    · rw [List.getElem?_map, Option.map_eq_some_iff] at hcopied
      obtain ⟨raw', hraw', rfl⟩ := hcopied
      exact (hmilestoneReads i raw' milestone hraw' hmilestone).2
  -- the copies of the features
  have hfeatureReads : ∀ i : Nat, ∃ feature' : Fields, ∀ (raw' feature : Fields),
      features[i]? = some raw' → queue.features[i]? = some feature →
      (∃ parts, FeatureAccepted site (milestones.map (readAgain site.platform))
        s!"$.features[{i}]" raw' parts ∧ feature' = parts.copy raw') ∧
      SameFeature feature feature' := by
    intro i
    by_cases hi : i < features.length
    · have hraw : i < (entries document "features").length := hfeatureCount ▸ hi
      have hfeature : i < queue.features.length := h.featureCount ▸ hraw
      obtain ⟨parts, hparts, heq⟩ := h.features i _ _ (List.getElem?_eq_getElem hraw)
        (List.getElem?_eq_getElem hfeature)
      obtain ⟨parts', hparts', hsame⟩ := hparts.edit (hfeatureEdits i _ _
        (List.getElem?_eq_getElem hraw) (List.getElem?_eq_getElem hi)) hnames
      refine ⟨parts'.copy features[i], fun raw' feature hraw' hfeature' => ?_⟩
      cases (List.getElem?_eq_getElem hi).symm.trans hraw'
      cases (List.getElem?_eq_getElem hfeature).symm.trans hfeature'
      exact ⟨⟨parts', hparts', rfl⟩, heq ▸ hsame⟩
    · refine ⟨[], fun raw' feature hraw' _ => ?_⟩
      exact absurd (List.getElem?_eq_some_iff.mp hraw').1 hi
  choose copyOf hcopyOf using hfeatureReads
  have hcopies : ∀ (i : Nat) (feature' : Fields),
      ((List.range features.length).map copyOf)[i]? = some feature' →
      i < features.length ∧ feature' = copyOf i := by
    intro i feature' hfeature'
    rw [List.getElem?_map, Option.map_eq_some_iff] at hfeature'
    obtain ⟨j, hj, rfl⟩ := hfeature'
    rw [List.getElem?_eq_some_iff] at hj
    obtain ⟨hlt, heq⟩ := hj
    rw [List.length_range] at hlt
    rw [List.getElem_range] at heq
    exact ⟨hlt, by rw [heq]⟩
  have hsame : List.Forall₂ SameFeature queue.features
      ((List.range features.length).map copyOf) := by
    refine forall₂_iff_places.mpr ⟨?_, fun i feature feature' hfeature hfeature' => ?_⟩
    · rw [List.length_map, List.length_range, ← hfeatureCount, h.featureCount]
    · obtain ⟨hi, rfl⟩ := hcopies i feature' hfeature'
      exact (hcopyOf i _ feature (List.getElem?_eq_getElem hi) hfeature).2
  refine ⟨⟨milestones.map (readAgain site.platform), (List.range features.length).map copyOf⟩,
    ?_, hnames, hsame⟩
  exact {
    milestoneObjects := hmilestoneEntries.symm ▸ hedit.milestoneObjects
    featureObjects := hfeatureEntries.symm ▸ hedit.featureObjects
    milestoneCount := by rw [hmilestoneEntries, List.length_map]
    milestones := by
      rw [hmilestoneEntries]
      intro i raw' milestone' hraw' hmilestone'
      rw [List.getElem?_map, hraw', Option.map_some, Option.some.injEq] at hmilestone'
      have hi : i < queue.milestones.length := by
        rw [← h.milestoneCount, hmilestoneCount]
        exact (List.getElem?_eq_some_iff.mp hraw').1
      rw [← hmilestone']
      exact (hmilestoneReads i raw' _ hraw' (List.getElem?_eq_getElem hi)).1
    milestoneIds := by
      rw [map_get_eq hnames fun a b hab => hab.1]
      exact h.milestoneIds
    normalizedIds := by
      rw [map_get_eq hnames fun a b hab => hab.2]
      exact h.normalizedIds
    featureCount := by rw [hfeatureEntries, List.length_map, List.length_range]
    features := by
      rw [hfeatureEntries]
      intro i raw' feature' hraw' hfeature'
      obtain ⟨hi, rfl⟩ := hcopies i feature' hfeature'
      have hfeature : i < queue.features.length := by
        rw [← h.featureCount, hfeatureCount]
        exact hi
      exact (hcopyOf i raw' _ hraw' (List.getElem?_eq_getElem hfeature)).1
    featureIds := by
      rw [map_get_eq hsame fun a b hab => hab.id]
      exact h.featureIds
    known := by
      intro feature' hmem dependencyId hdependency
      obtain ⟨i, hi, rfl⟩ := List.mem_iff_getElem.mp hmem
      have hfeature : i < queue.features.length := by
        rw [hsame.length_eq]
        exact hi
      have hab := (forall₂_iff_places.mp hsame).2 i _ _ (List.getElem?_eq_getElem hfeature)
        (List.getElem?_eq_getElem hi)
      rw [map_get_eq hsame fun a b hab => hab.id]
      refine h.known _ (List.getElem_mem hfeature) dependencyId ?_
      rw [FeatureQueue.dependencyIds, hab.dependencies] at hdependency
      exact hdependency }

/-! ### Entries in another order -/

/-- The verdict on an execution policy is the same in every place. -/
def QueueSite.PlaceFree (site : QueueSite) : Prop :=
  ∀ value path path', site.validateFeatureExecutionPolicy value path = .ok () →
    site.validateFeatureExecutionPolicy value path' = .ok ()

section

variable {path path' : String} {item : Fields}

theorem FeatureQueue.checkCommit_repath {value : Json}
    (h : checkCommit path value = .ok ()) :
    checkCommit path' value = .ok () := by
  unfold checkCommit at h ⊢
  split at h
  · rfl
  · obtain ⟨text, htext, -⟩ := bind_eq_ok.mp h
    exact bind_eq_ok.mpr ⟨text, textOf_eq_ok.mpr (textOf_eq_ok.mp htext), rfl⟩

theorem FeatureQueue.checkSpecification_repath {value : Json}
    (h : checkSpecification site path value = .ok ()) :
    checkSpecification site path' value = .ok () := by
  unfold checkSpecification at h ⊢
  split at h
  · rfl
  · obtain ⟨text, htext, hrest⟩ := bind_eq_ok.mp h
    obtain ⟨hleaves, hescapes⟩ := require_bind_eq_ok.mp hrest
    exact bind_eq_ok.mpr ⟨text, textOf_eq_ok.mpr (textOf_eq_ok.mp htext),
      require_bind_eq_ok.mpr ⟨hleaves, require_of (require_eq_ok.mp hescapes)⟩⟩

/-- What a feature is asked for in the fields that it may leave out. -/
theorem FeatureQueue.checkOptional_eq_ok :
    checkOptional site path item = .ok () ↔
      (item.get "acceptance_criteria" = .null ∨ ∃ criteria,
        item.get "acceptance_criteria" = .arr criteria ∧
          criteria.all isCriterion = true) ∧
      (item.get "requires_human_decision" = .null ∨ ∃ decided,
        item.get "requires_human_decision" = .bool decided) ∧
      (∀ policy ∈ item.get? "execution_policy",
        site.validateFeatureExecutionPolicy policy s!"{path}.execution_policy" = .ok ()) ∧
      checkSpecification site path (specificationOf item) = .ok () := by
  unfold checkOptional
  cases item.get? "execution_policy" <;> cases item.get "acceptance_criteria" <;>
    cases item.get "requires_human_decision" <;>
    simp +contextual [bind_eq_ok, require_eq_ok, Unique.exists_iff]

theorem FeatureQueue.checkOptional_repath
    (hpolicy : site.PlaceFree)
    (h : checkOptional site path item = .ok ()) :
    checkOptional site path' item = .ok () := by
  obtain ⟨hcriteria, hhuman, hpolicies, hspecification⟩ := checkOptional_eq_ok.mp h
  exact checkOptional_eq_ok.mpr ⟨hcriteria, hhuman,
    fun policy hmem => hpolicy _ _ _ (hpolicies policy hmem),
    checkSpecification_repath hspecification⟩

/-- A feature is accepted in every place or in none. -/
theorem FeatureAccepted.repath {milestones : List Fields} {parts : FeatureParts}
    (hpolicy : site.PlaceFree) (h : FeatureAccepted site milestones path item parts) :
    FeatureAccepted site milestones path' item parts :=
  { h with
    commitText := FeatureQueue.checkCommit_repath h.commitText
    legacyCommit := FeatureQueue.checkCommit_repath h.legacyCommit
    optional := FeatureQueue.checkOptional_repath hpolicy h.optional }

end

/-- A document with its features in another order is accepted, and so is its queue. -/
theorem QueueRead.permute (hpolicy : site.PlaceFree) (h : QueueRead site document queue)
    {features : List Fields} (hmilestones : document'.get "milestones" = document.get "milestones")
    (hfeatures : document'.get "features" = .arr (features.map .obj))
    (hperm : features.Perm (entries document "features")) :
    ∃ queue', QueueRead site document' queue' ∧ queue'.milestones = queue.milestones ∧
      queue'.features.Perm queue.features := by
  have hreads : List.Forall₂ (fun raw feature => ∃ parts, (∀ path,
      FeatureAccepted site queue.milestones path raw parts) ∧ feature = parts.copy raw)
      (entries document "features") queue.features := by
    refine forall₂_iff_places.mpr ⟨h.featureCount, fun i raw feature hraw hfeature => ?_⟩
    obtain ⟨parts, hparts, heq⟩ := h.features i raw feature hraw hfeature
    exact ⟨parts, fun path => hparts.repath hpolicy, heq⟩
  obtain ⟨copies, hcopies, hsame⟩ := List.perm_comp_forall₂ hperm hreads
  have hfeatureEntries := entries_of_objects hfeatures
  have hmilestoneEntries : entries document' "milestones" = entries document "milestones" := by
    rw [entries, entries, hmilestones]
  obtain ⟨hcount, hplaces⟩ := forall₂_iff_places.mp hcopies
  refine ⟨⟨queue.milestones, copies⟩, ?_, rfl, hsame⟩
  exact {
    milestoneObjects := by
      rw [hmilestones, hmilestoneEntries]
      exact h.milestoneObjects
    featureObjects := hfeatureEntries.symm ▸ hfeatures
    milestoneCount := by
      rw [hmilestoneEntries]
      exact h.milestoneCount
    milestones := by
      rw [hmilestoneEntries]
      exact h.milestones
    milestoneIds := h.milestoneIds
    normalizedIds := h.normalizedIds
    featureCount := by
      rw [hfeatureEntries]
      exact hcount
    features := by
      rw [hfeatureEntries]
      intro i raw feature hraw hfeature
      obtain ⟨parts, hparts, heq⟩ := hplaces i raw feature hraw hfeature
      exact ⟨parts, hparts _, heq⟩
    featureIds := (hsame.map _).nodup_iff.mpr h.featureIds
    known := by
      intro feature hmem dependencyId hdependency
      have hknown := h.known feature (hsame.subset hmem) dependencyId hdependency
      exact (hsame.map _).symm.subset hknown }

end Conveyor
