import Conveyor.IntegrationQueue
import Conveyor.QueueReading

/-!
# Two gates on the dependencies of a feature

A feature starts when `FeatureQueue` finds its dependencies complete, and is integrated when
`inspect_two_refs` does. Each gate has its own reading of the queue document; the results here
say, of one document, what each gate asks of a dependency and when the two agree.
-/

namespace Conveyor

open Library

variable {site : QueueSite} {document : Fields} {queue : FeatureQueue}

/-! ### Finding features and milestones -/

namespace FeatureQueue

theorem only_eq_some {items : List Fields} {key value : String} {item : Fields}
    (hnodup : (items.map fun item => item.get key).Nodup) :
    only items key value = some item ↔ item ∈ items ∧ item.get key = .str value := by
  have hcount : ∀ item ∈ items, item.get key = .str value →
      (items.filter fun item => item.get key = .str value) = [item] := by
    clear item
    induction items with
    | nil => simp
    | cons head rest ih =>
        rw [List.map_cons, List.nodup_cons] at hnodup
        intro item hitem hvalue
        rcases List.mem_cons.mp hitem with rfl | hitem
        · have hrest : (rest.filter fun other => other.get key = .str value) = [] := by
            rw [List.filter_eq_nil_iff]
            intro other hother heq
            exact hnodup.1 (List.mem_map.mpr
              ⟨other, hother, (of_decide_eq_true heq).trans hvalue.symm⟩)
          rw [List.filter_cons, if_pos (decide_eq_true hvalue), hrest]
        · have hhead : ¬ decide (head.get key = .str value) = true := by
            intro heq
            exact hnodup.1 (List.mem_map.mpr
              ⟨item, hitem, hvalue.trans (of_decide_eq_true heq).symm⟩)
          rw [List.filter_cons, if_neg hhead]
          exact ih hnodup.2 item hitem hvalue
  unfold only
  constructor
  · intro h
    split at h
    · rename_i found hfound
      cases h
      have hmem : item ∈ items.filter fun item => item.get key = .str value := by
        rw [hfound]
        exact List.mem_singleton_self item
      rw [List.mem_filter] at hmem
      exact ⟨hmem.1, of_decide_eq_true hmem.2⟩
    · cases h
  · rintro ⟨hitem, hvalue⟩
    rw [hcount item hitem hvalue]

theorem feature_eq_some (h : QueueRead site document queue) {featureId : String}
    {feature : Fields} :
    queue.feature featureId = some feature ↔
      feature ∈ queue.features ∧ feature.get "id" = .str featureId :=
  only_eq_some h.featureIds

/-- A milestone is found under its own identifier. -/
theorem milestone_of_mem (h : QueueRead site document queue) {P : Platform} {id : String}
    {milestone : Fields} (hmem : milestone ∈ queue.milestones)
    (hid : milestone.get "id" = .str id) : queue.milestone P id = some milestone := by
  have hfound : only queue.milestones "id" id = some milestone :=
    (only_eq_some h.milestoneIds).mpr ⟨hmem, hid⟩
  rw [FeatureQueue.milestone, milestoneOf, hfound]

end FeatureQueue

/-! ### Entries and copies -/

/-- A feature of the queue is the copy of an entry of the document. -/
theorem QueueRead.feature_copy (h : QueueRead site document queue) {feature : Fields}
    (hmem : feature ∈ queue.features) :
    ∃ (i : Nat) (raw : Fields) (parts : FeatureParts), (entries document "features")[i]? = some raw ∧
      queue.features[i]? = some feature ∧
      FeatureAccepted site queue.milestones s!"$.features[{i}]" raw parts ∧
      feature = parts.copy raw := by
  obtain ⟨i, hi, rfl⟩ := List.mem_iff_getElem.mp hmem
  have hraw : i < (entries document "features").length := by
    rw [h.featureCount]
    exact hi
  obtain ⟨parts, hparts, heq⟩ := h.features i _ _ (List.getElem?_eq_getElem hraw)
    (List.getElem?_eq_getElem hi)
  exact ⟨i, _, parts, List.getElem?_eq_getElem hraw, List.getElem?_eq_getElem hi, hparts, heq⟩

/-- An entry of the document has its copy in the queue. -/
theorem QueueRead.feature_entry (h : QueueRead site document queue) {raw : Fields}
    (hmem : raw ∈ entries document "features") :
    ∃ (i : Nat) (feature : Fields) (parts : FeatureParts), (entries document "features")[i]? = some raw ∧
      queue.features[i]? = some feature ∧
      FeatureAccepted site queue.milestones s!"$.features[{i}]" raw parts ∧
      feature = parts.copy raw := by
  obtain ⟨i, hi, rfl⟩ := List.mem_iff_getElem.mp hmem
  have hfeature : i < queue.features.length := by
    rw [← h.featureCount]
    exact hi
  obtain ⟨parts, hparts, heq⟩ := h.features i _ _ (List.getElem?_eq_getElem hi)
    (List.getElem?_eq_getElem hfeature)
  exact ⟨i, _, parts, List.getElem?_eq_getElem hi, List.getElem?_eq_getElem hfeature, hparts, heq⟩

theorem QueueRead.milestone_copy (h : QueueRead site document queue) {milestone : Fields}
    (hmem : milestone ∈ queue.milestones) :
    ∃ raw ∈ entries document "milestones", MilestoneRead site.platform raw milestone := by
  obtain ⟨i, hi, rfl⟩ := List.mem_iff_getElem.mp hmem
  have hraw : i < (entries document "milestones").length := by
    rw [h.milestoneCount]
    exact hi
  exact ⟨_, List.getElem_mem hraw, h.milestones i _ _ (List.getElem?_eq_getElem hraw)
    (List.getElem?_eq_getElem hi)⟩

theorem MilestoneRead.get {P : Platform} {raw milestone : Fields} {key : String}
    (h : MilestoneRead P raw milestone) (hid : key ≠ "id") (hname : key ≠ "normalized_id") :
    milestone.get key = raw.get key := by
  obtain ⟨id, -, -, rfl⟩ := h
  rw [milestoneCopy, Fields.get, Fields.get?_set_of_ne hname, Fields.get?_set_of_ne hid, Fields.get]

theorem MilestoneRead.getD {P : Platform} {raw milestone : Fields} {key : String}
    (h : MilestoneRead P raw milestone) (hid : key ≠ "id") (hname : key ≠ "normalized_id")
    (default : Json) : milestone.getD key default = raw.getD key default := by
  obtain ⟨id, -, -, rfl⟩ := h
  rw [milestoneCopy, Fields.getD, Fields.get?_set_of_ne hname, Fields.get?_set_of_ne hid,
    Fields.getD]

theorem MilestoneRead.ids {P : Platform} {raw milestone : Fields}
    (h : MilestoneRead P raw milestone) :
    ∃ id, raw.get "id" = .str id ∧ milestone.get "id" = .str (Platform.strip id) := by
  obtain ⟨id, hid, -, rfl⟩ := h
  refine ⟨id, hid, ?_⟩
  rw [milestoneCopy, Fields.get, Fields.get?_set_of_ne (by decide), Fields.get?_set_self,
    Option.getD_some]

theorem MilestoneRead.copy_id {P : Platform} {raw milestone : Fields} {id : String}
    (h : MilestoneRead P raw milestone) (hid : raw.get "id" = .str id) :
    milestone.get "id" = .str (Platform.strip id) := by
  obtain ⟨text, htext, hcopy⟩ := h.ids
  cases htext.symm.trans hid
  exact hcopy

theorem MilestoneRead.unique {P : Platform} {raw milestone other : Fields}
    (h : MilestoneRead P raw milestone) (hother : MilestoneRead P raw other) :
    milestone = other := by
  obtain ⟨id, hid, -, rfl⟩ := h
  obtain ⟨id', hid', -, rfl⟩ := hother
  cases hid.symm.trans hid'
  rfl

/-- A lowercase text is its own slug on every platform. -/
theorem statusName_ascii {P : Platform} {text : String}
    (hascii : (Platform.strip text).toList.all isAscii = true)
    (hlower : (Platform.strip text).toList.map Char.toLower = text.toList)
    (hslug : String.ofList (Platform.trim (· = '_') (replaceRuns '_' false text.toList)) = text)
    (halias : STATUS_ALIASES.lookup text = none) : statusName P text = text := by
  have hname : slug P '_' text = text := by
    rw [slug, Platform.lowerText, P.lower_ascii _ (List.all_eq_true.mp hascii), hlower,
      String.toList_ofList]
    exact hslug
  rw [statusName, hname, halias]
  rfl

/-- A status that is written as one of the complete ones is read as the same. -/
theorem statusName_complete {P : Platform} {status : String} (h : status ∈ COMPLETE_STATUSES) :
    statusName P status = status := by
  simp only [COMPLETE_STATUSES, List.mem_cons, List.not_mem_nil, or_false] at h
  rcases h with rfl | rfl <;> exact statusName_ascii (by decide) (by decide) (by decide) (by decide)

theorem mem_of_only {items : List Fields} {key value : String} {item : Fields}
    (h : FeatureQueue.only items key value = some item) : item ∈ items := by
  unfold FeatureQueue.only at h
  split at h
  · rename_i found hfound
    cases h
    exact List.mem_of_mem_filter (hfound ▸ List.mem_singleton_self item)
  · cases h

theorem mem_of_milestoneOf {P : Platform} {milestones : List Fields} {id : String}
    {milestone : Fields} (h : FeatureQueue.milestoneOf P milestones id = some milestone) :
    milestone ∈ milestones := by
  unfold FeatureQueue.milestoneOf at h
  split at h
  · rename_i found hfound
    cases h
    exact mem_of_only hfound
  · exact mem_of_only h

/-- A feature belongs to a milestone of the queue. -/
theorem QueueRead.own_milestone (h : QueueRead site document queue) {feature : Fields}
    (hmem : feature ∈ queue.features) :
    ∃ milestone ∈ queue.milestones, ∃ id, milestone.get "id" = .str id ∧
      feature.get "milestone" = .str id := by
  obtain ⟨i, raw, parts, -, -, hparts, rfl⟩ := h.feature_copy hmem
  obtain ⟨text, milestone, -, -, hfound, heq⟩ := hparts.milestone
  have hmilestone := mem_of_milestoneOf hfound
  obtain ⟨raw', -, hread⟩ := h.milestone_copy hmilestone
  obtain ⟨id, -, hid⟩ := hread.ids
  refine ⟨milestone, hmilestone, _, hid, ?_⟩
  rw [parts.get_copy_milestone, heq, hid]

/-- Two entries with one identifier are one entry. -/
theorem QueueRead.entry_unique (h : QueueRead site document queue) {raw other : Fields}
    (hraw : raw ∈ entries document "features") (hother : other ∈ entries document "features")
    (hid : raw.get "id" = other.get "id") : raw = other := by
  obtain ⟨i, feature, parts, hi, hfeature, hparts, rfl⟩ := h.feature_entry hraw
  obtain ⟨j, feature', parts', hj, hfeature', hparts', rfl⟩ := h.feature_entry hother
  have hsame : parts.id = parts'.id := by
    have heq := hparts.id.symm.trans (hid.trans hparts'.id)
    exact Json.str.inj heq
  have hcopies : (queue.features.map fun item => item.get "id")[i]? =
      (queue.features.map fun item => item.get "id")[j]? := by
    rw [List.getElem?_map, List.getElem?_map, hfeature, hfeature', Option.map_some,
      Option.map_some, parts.get_copy_id, parts'.get_copy_id, hsame]
  have hlength : i < (queue.features.map fun item => item.get "id").length := by
    rw [List.length_map]
    exact (List.getElem?_eq_some_iff.mp hfeature).1
  cases (List.getElem?_inj hlength h.featureIds).mp hcopies
  exact Option.some.inj (hi.symm.trans hj)

/-! ### What the start gate asks -/

/-- The milestone lists the feature as integrated. -/
def Lists (milestone : Fields) (featureId : String) : Prop :=
  ∃ values, milestone.get "integrated_features" = .arr values ∧ Json.str featureId ∈ values

/-- Every milestone of the document has an array of identifiers of integrated features. -/
def IdArrays (document : Fields) : Prop :=
  ∀ milestone ∈ entries document "milestones", ∃ ids : List String,
    milestone.get "integrated_features" = .arr (ids.map Json.str) ∧ ∀ id ∈ ids, id ≠ ""

/-- The status of the feature is not one of the complete ones. -/
def Unfinished (queue : FeatureQueue) (featureId : String) : Prop :=
  ∃ feature, queue.feature featureId = some feature ∧
    FeatureQueue.hasStatus feature COMPLETE_STATUSES = false

/-- The feature is integrated, but has not passed, names no commit, or is missing from the list
    of its own milestone. -/
def Unrecorded (queue : FeatureQueue) (featureId : String) : Prop :=
  ∃ feature, queue.feature featureId = some feature ∧ feature.get "status" = .str "integrated" ∧
    (feature.get "integration_status" ≠ .str "passed" ∨
      (feature.get "integrated_commit").asString? = none ∨
      ∀ milestone ∈ queue.milestones, milestone.get "id" = feature.get "milestone" →
        ¬ Lists milestone featureId)

theorem hasStatus_iff {item : Fields} {statuses : List String} :
    FeatureQueue.hasStatus item statuses = true ↔
      ∃ status ∈ statuses, item.get "status" = .str status := by
  unfold FeatureQueue.hasStatus
  cases item.get "status" <;> simp [Json.asString?]

theorem FeatureQueue.allComplete_eq_ok {P : Platform} {ids : List String} :
    queue.allComplete P ids = .ok true ↔ ∀ id ∈ ids, queue.dependencyComplete P id = .ok true := by
  induction ids with
  | nil => simp [allComplete]
  | cons id rest ih =>
      rw [allComplete, bind_eq_ok, List.forall_mem_cons, ← ih]
      constructor
      · rintro ⟨complete, hcomplete, hrest⟩
        cases complete with
        | true => exact ⟨hcomplete, hrest⟩
        | false => cases hrest
      · rintro ⟨hcomplete, hrest⟩
        exact ⟨true, hcomplete, hrest⟩

/-- The start gate takes a dependency that is done, or integrated and recorded. -/
theorem dependencyComplete_iff (h : QueueRead site document queue) (harrays : IdArrays document)
    {featureId : String} {feature : Fields} (hfeature : queue.feature featureId = some feature) :
    queue.dependencyComplete site.platform featureId = .ok true ↔
      ¬ Unfinished queue featureId ∧ ¬ Unrecorded queue featureId := by
  have hmem := (FeatureQueue.feature_eq_some h).mp hfeature
  obtain ⟨milestone, hmilestone, id, hid, hown⟩ := h.own_milestone hmem.1
  obtain ⟨raw, hraw, hread⟩ := h.milestone_copy hmilestone
  obtain ⟨ids, hids, -⟩ := harrays raw hraw
  have hlist : milestone.get "integrated_features" = .arr (ids.map Json.str) := by
    rw [hread.get (by decide) (by decide), hids]
  have hlists : (∀ other ∈ queue.milestones, other.get "id" = feature.get "milestone" →
      ¬ Lists other featureId) ↔ featureId ∉ ids := by
    constructor
    · intro hnone hin
      refine hnone milestone hmilestone (hid.trans hown.symm) ⟨_, hlist, ?_⟩
      exact List.mem_map.mpr ⟨featureId, hin, rfl⟩
    · rintro hnot other hother hsame ⟨values, hvalues, hin⟩
      have heq : other = milestone := by
        have hfound := (FeatureQueue.only_eq_some h.milestoneIds).mpr
          ⟨hother, hsame.trans hown⟩
        have hfound' := (FeatureQueue.only_eq_some h.milestoneIds).mpr ⟨hmilestone, hid⟩
        exact Option.some.inj (hfound.symm.trans hfound')
      rw [heq, hlist] at hvalues
      cases hvalues
      obtain ⟨text, htext, hstr⟩ := List.mem_map.mp hin
      exact hnot (Json.str.inj hstr ▸ htext)
  have hunfinished : Unfinished queue featureId ↔
      FeatureQueue.hasStatus feature COMPLETE_STATUSES = false := by
    simp [Unfinished, hfeature]
  have hunrecorded : Unrecorded queue featureId ↔ feature.get "status" = .str "integrated" ∧
      (feature.get "integration_status" ≠ .str "passed" ∨
        (feature.get "integrated_commit").asString? = none ∨ featureId ∉ ids) := by
    simp only [Unrecorded, hfeature, Option.some.injEq, exists_eq_left', hlists]
  have hmissing : (∀ status ∈ COMPLETE_STATUSES, feature.get "status" ≠ .str status) ↔
      FeatureQueue.hasStatus feature COMPLETE_STATUSES = false := by
    rw [← Bool.not_eq_true, hasStatus_iff]
    simp
  have hlisted : ((queue.milestone site.platform (site.platform.str (feature.get "milestone"))).map
      fun milestone => milestone.getD "integrated_features" (.arr [])).getD (.arr []) =
      .arr (ids.map Json.str) := by
    rw [hown, Platform.str_str, FeatureQueue.milestone_of_mem h hmilestone hid, Option.map_some,
      Option.getD_some, Fields.getD, Fields.get?_of_get hlist (by simp), Option.getD_some]
  rw [hunfinished, hunrecorded]
  unfold FeatureQueue.dependencyComplete
  rw [hfeature]
  dsimp only
  rw [hlisted]
  split
  · rename_i hstatus
    rw [hmissing] at hstatus
    simp [hstatus]
  · rename_i hstatus
    rw [hmissing, Bool.not_eq_false] at hstatus
    rw [hstatus]
    split
    · rename_i hintegrated
      split
      · rename_i hfailed
        refine iff_of_false (by simp) fun hboth => hboth.2 ⟨hintegrated, ?_⟩
        exact hfailed.elim .inl fun hcommit => .inr (.inl hcommit)
      · rename_i hpassed
        rw [not_or] at hpassed
        simp [FeatureQueue.isIn, hintegrated, hpassed]
    · rename_i hdone
      simp [hdone]

/-! ### What the integration gate asks -/

/-- The document has no entry under exactly this identifier that is complete as it is written,
    names a commit, and is listed by some milestone. -/
def Unmerged (document : Fields) (featureId : String) : Prop :=
  ∀ raw ∈ entries document "features", raw.get "id" = .str featureId →
    FeatureQueue.hasStatus raw COMPLETE_STATUSES = true →
    (raw.get "integrated_commit").asString?.isSome →
    ∀ milestone ∈ entries document "milestones", ¬ Lists milestone featureId

theorem idArray_eq_ok {value : Json} {failure : Failure} {ids : List String} :
    idArray value failure = .ok ids ↔ value = .arr (ids.map Json.str) ∧ ∀ id ∈ ids, id ≠ "" := by
  cases value with
  | arr items =>
      rw [idArray, mapM_eq_ok, Json.arr.injEq]
      constructor
      · intro h
        induction h with
        | nil => exact ⟨rfl, by simp⟩
        | cons hfirst _ ih =>
            obtain ⟨rfl, hrest⟩ := ih
            split at hfirst
            · split at hfirst
              · rename_i hne
                cases hfirst
                exact ⟨rfl, List.forall_mem_cons.mpr ⟨hne, hrest⟩⟩
              · cases hfirst
            · cases hfirst
      · rintro ⟨rfl, hne⟩
        induction ids with
        | nil => exact .nil
        | cons id rest ih =>
            rw [List.forall_mem_cons] at hne
            exact .cons (if_pos hne.1) (ih hne.2)
  | _ =>
      refine iff_of_false (by simp [idArray]) ?_
      rintro ⟨heq, -⟩
      cases heq

theorem integratedIds_of_arrays (harrays : IdArrays document) :
    ∃ integrated, integratedIds ((entries document "milestones").map Json.obj) = .ok integrated ∧
      ∀ id, id ∈ integrated ↔ ∃ milestone ∈ entries document "milestones", Lists milestone id := by
  unfold IdArrays at harrays
  generalize entries document "milestones" = milestones at harrays ⊢
  induction milestones with
  | nil => exact ⟨[], rfl, by simp⟩
  | cons milestone rest ih =>
      rw [List.forall_mem_cons] at harrays
      obtain ⟨⟨ids, hids, hne⟩, hrest⟩ := harrays
      obtain ⟨integrated, hok, hmem⟩ := ih hrest
      refine ⟨ids ++ integrated, ?_, fun id => ?_⟩
      · unfold integratedIds at hok ⊢
        obtain ⟨arrays, harrays, hflat⟩ := bind_eq_ok.mp hok
        rw [List.map_cons, List.mapM_cons, bind_eq_ok]
        refine ⟨ids :: arrays, bind_eq_ok.mpr ⟨ids, idArray_eq_ok.mpr ⟨hids, hne⟩, ?_⟩, ?_⟩
        · rw [harrays]
          rfl
        · rw [List.flatten_cons, Except.ok.inj hflat]
          rfl
      · have hlists : Lists milestone id ↔ id ∈ ids := by
          simp [Lists, hids]
        rw [List.mem_append, List.exists_mem_cons_iff, hlists, hmem]

theorem liveFeature_eq_some (h : QueueRead site document queue) {featureId : String}
    {raw : Fields} :
    liveFeature ((entries document "features").map Json.obj) featureId = some raw ↔
      raw ∈ entries document "features" ∧ raw.get "id" = .str featureId := by
  have found : ∀ {other : Fields},
      liveFeature ((entries document "features").map Json.obj) featureId = some other →
      other ∈ entries document "features" ∧ other.get "id" = .str featureId := by
    intro other hother
    obtain ⟨item, hitem, hread⟩ := List.exists_of_findSome?_eq_some hother
    rw [List.mem_reverse, List.mem_map] at hitem
    obtain ⟨entry, hentry, rfl⟩ := hitem
    dsimp only at hread
    split at hread
    · rename_i hid
      cases hread
      exact ⟨hentry, hid⟩
    · cases hread
  refine ⟨found, ?_⟩
  rintro ⟨hmem, hid⟩
  cases hfind : liveFeature ((entries document "features").map Json.obj) featureId with
  | none =>
      have hnone := List.findSome?_eq_none_iff.mp hfind (.obj raw)
        (List.mem_reverse.mpr (List.mem_map.mpr ⟨raw, hmem, rfl⟩))
      dsimp only at hnone
      rw [if_pos hid] at hnone
      cases hnone
  | some other =>
      obtain ⟨hother, hid'⟩ := found hfind
      rw [h.entry_unique hother hmem (hid'.trans hid.symm)]

variable {isAncestor : String → String → Bool} {head : String}

/-- Every commit that a feature names as integrated is in the history of the milestone. -/
def CommitsInHistory (document : Fields) (isAncestor : String → String → Bool) (head : String) :
    Prop :=
  ∀ feature ∈ entries document "features", ∀ commit,
    feature.get "integrated_commit" = .str commit → isAncestor commit head = true

/-- The integration gate takes a dependency that is merged. -/
theorem dependencyGate_iff (h : QueueRead site document queue)
    (hhistory : CommitsInHistory document isAncestor head) {integrated : List String}
    (hintegrated : ∀ id, id ∈ integrated ↔
      ∃ milestone ∈ entries document "milestones", Lists milestone id) {featureId : String} :
    dependencyGate isAncestor head ((entries document "features").map Json.obj) integrated
        featureId = .ok () ↔ ¬ Unmerged document featureId := by
  unfold dependencyGate Unmerged
  cases hfind : liveFeature ((entries document "features").map Json.obj) featureId with
  | none =>
      refine iff_of_false (by simp) (not_not.mpr ?_)
      intro raw hraw hid
      rw [(liveFeature_eq_some h).mpr ⟨hraw, hid⟩] at hfind
      cases hfind
  | some raw =>
      obtain ⟨hraw, hid⟩ := (liveFeature_eq_some h).mp hfind
      have only : ∀ other ∈ entries document "features", other.get "id" = .str featureId →
          other = raw := fun other hother hid' => h.entry_unique hother hraw (hid'.trans hid.symm)
      constructor
      · intro hgate hunmerged
        obtain ⟨status, hstatus, hchecks⟩ := bind_eq_ok.mp hgate
        obtain ⟨⟨hcomplete, hlisted⟩, hcommit⟩ := require_bind_eq_ok.mp hchecks
        obtain ⟨milestone, hmilestone, hlists⟩ := (hintegrated featureId).mp hlisted
        obtain ⟨text, htext, rfl⟩ := List.mem_map.mp hcomplete
        have hwritten : raw.get "status" = .str text := by
          obtain ⟨i, feature, parts, -, -, hparts, -⟩ := h.feature_entry hraw
          obtain ⟨written, hwritten, -⟩ := hparts.status
          rw [hwritten] at hstatus ⊢
          exact Except.ok.inj hstatus
        refine hunmerged raw hraw hid (hasStatus_iff.mpr ⟨text, htext, hwritten⟩) ?_ milestone
          hmilestone hlists
        cases hvalue : raw.get "integrated_commit" with
        | str commit => rfl
        | _ =>
            rw [hvalue] at hcommit
            cases hcommit
      · intro hmerged
        push Not at hmerged
        obtain ⟨other, hother, hid', hstatus, hcommit, milestone, hmilestone, hlists⟩ := hmerged
        obtain rfl := only other hother hid'
        obtain ⟨text, htext, hwritten⟩ := hasStatus_iff.mp hstatus
        obtain ⟨commit, hcommit⟩ := Option.isSome_iff_exists.mp hcommit
        rw [Json.asString?_eq_some] at hcommit
        dsimp only
        rw [hwritten, hcommit]
        refine bind_eq_ok.mpr ⟨.str text, rfl, require_bind_eq_ok.mpr ⟨⟨?_, ?_⟩, ?_⟩⟩
        · exact List.mem_map.mpr ⟨text, htext, rfl⟩
        · exact (hintegrated featureId).mpr ⟨milestone, hmilestone, hlists⟩
        · exact require_of (hhistory other hother commit hcommit)

theorem inspectDependencies_iff (h : QueueRead site document queue) (harrays : IdArrays document)
    (hhistory : CommitsInHistory document isAncestor head) {raw : Fields} :
    inspectDependencies isAncestor head document raw = .ok () ↔
      ∃ ids : List String, raw.getD "dependencies" (.arr []) = .arr (ids.map Json.str) ∧
        (∀ id ∈ ids, id ≠ "") ∧ ∀ id ∈ ids, ¬ Unmerged document id := by
  obtain ⟨integrated, hok, hmem⟩ := integratedIds_of_arrays harrays
  have hfeatures : document.getD "features" (.arr []) =
      .arr ((entries document "features").map Json.obj) := by
    rw [Fields.getD, Fields.get?_of_get h.featureObjects (by simp), Option.getD_some]
  have hmilestones : document.getD "milestones" (.arr []) =
      .arr ((entries document "milestones").map Json.obj) := by
    rw [Fields.getD, Fields.get?_of_get h.milestoneObjects (by simp), Option.getD_some]
  unfold inspectDependencies
  rw [hfeatures, hmilestones, iterated, ok_bind, iterated, ok_bind, hok, ok_bind, bind_eq_ok]
  refine exists_congr fun ids => ?_
  rw [idArray_eq_ok, requireAll_eq_ok, and_assoc]
  refine and_congr_right fun _ => and_congr_right fun _ => ?_
  exact forall₂_congr fun id _ => dependencyGate_iff h hhistory hmem

/-! ### When the gates agree -/

/-- The dependencies of a feature as the document spells them. -/
def spelledDependencies (raw : Fields) : List String :=
  match rawDependencies raw with
  | .arr values => values.filterMap Json.asString?
  | _ => []

theorem spelledDependencies_eq {raw : Fields} {texts : List String}
    (h : rawDependencies raw = .arr (texts.map Json.str)) : spelledDependencies raw = texts := by
  rw [spelledDependencies, h]
  simp [List.filterMap_map, Function.comp_def]

/-- No dependency opens one of the gates alone. Where the document writes them under
    `dependencies`, some dependency is unfinished, or one lacks its record exactly if one is not
    merged; under `depends_on`, which the integration does not read, all have to be complete. -/
def DependenciesAgree (document : Fields) (queue : FeatureQueue) (raw : Fields) : Prop :=
  let ids := spelledDependencies raw
  if "dependencies" ∈ raw.keys then
    (∃ id ∈ ids, Unfinished queue (Platform.strip id)) ∨
      ((∃ id ∈ ids, Unrecorded queue (Platform.strip id)) ↔ ∃ id ∈ ids, Unmerged document id)
  else ∀ id ∈ ids, ¬ Unfinished queue (Platform.strip id) ∧ ¬ Unrecorded queue (Platform.strip id)

/-- What is merged as it is written has a complete status. -/
theorem unmerged_of_unfinished (h : QueueRead site document queue) {id : String}
    (hunfinished : Unfinished queue (Platform.strip id)) : Unmerged document id := by
  intro raw hraw hid hstatus
  obtain ⟨feature, hfeature, hincomplete⟩ := hunfinished
  obtain ⟨i, copied, parts, -, hcopied, hparts, rfl⟩ := h.feature_entry hraw
  have hsame : queue.feature (Platform.strip id) = some (parts.copy raw) := by
    refine (FeatureQueue.feature_eq_some h).mpr ⟨List.mem_of_getElem? hcopied, ?_⟩
    rw [parts.get_copy_id, Json.str.inj (hparts.id.symm.trans hid)]
  obtain ⟨text, htext, hwritten⟩ := hasStatus_iff.mp hstatus
  obtain ⟨written, hread, -, hname, -⟩ := hparts.status
  cases hread.symm.trans hwritten
  rw [hfeature, Option.some.injEq] at hsame
  have hcomplete : FeatureQueue.hasStatus (parts.copy raw) COMPLETE_STATUSES = true :=
    hasStatus_iff.mpr ⟨parts.status, hname ▸ (statusName_complete htext).symm ▸ htext,
      parts.get_copy_status raw⟩
  rw [← hsame, hincomplete] at hcomplete
  cases hcomplete

/-- The start gate opens when every dependency is finished and recorded. -/
theorem dependenciesComplete_iff (h : QueueRead site document queue)
    (harrays : IdArrays document) {i : Nat} {raw feature : Fields}
    (hraw : (entries document "features")[i]? = some raw)
    (hfeature : queue.features[i]? = some feature) :
    queue.dependenciesComplete site.platform feature = .ok true ↔
      ∀ id ∈ spelledDependencies raw,
        ¬ Unfinished queue (Platform.strip id) ∧ ¬ Unrecorded queue (Platform.strip id) := by
  obtain ⟨parts, hparts, rfl⟩ := h.features i raw feature hraw hfeature
  obtain ⟨texts, htexts, -, hids⟩ := hparts.dependencies
  have hspelled := spelledDependencies_eq htexts
  have hknown := h.known _ (List.mem_of_getElem? hfeature)
  rw [dependencyIds_copy] at hknown
  rw [FeatureQueue.dependenciesComplete, dependencyIds_copy, FeatureQueue.allComplete_eq_ok,
    hspelled, hids, List.forall_mem_map]
  refine forall₂_congr fun id hid => ?_
  obtain ⟨dependency, hmem, heq⟩ := List.mem_map.mp
    (hknown (Platform.strip id) (hids ▸ List.mem_map_of_mem hid))
  exact dependencyComplete_iff h harrays ((FeatureQueue.feature_eq_some h).mpr ⟨hmem, heq⟩)

/-- A feature may start exactly if it may be integrated, as far as its dependencies go, where
    they agree. -/
theorem gates_agree_iff (hqueue : FeatureQueue.ofFields site document = .ok queue)
    (harrays : IdArrays document) (hhistory : CommitsInHistory document isAncestor head) {i : Nat}
    {raw feature : Fields} (hraw : (entries document "features")[i]? = some raw)
    (hfeature : queue.features[i]? = some feature) :
    (queue.dependenciesComplete site.platform feature = .ok true ↔
      inspectDependencies isAncestor head document raw = .ok ()) ↔
    DependenciesAgree document queue raw := by
  have h := ofFields_eq_ok.mp hqueue
  obtain ⟨parts, hparts, -⟩ := h.features i raw feature hraw hfeature
  obtain ⟨texts, htexts, htext, -⟩ := hparts.dependencies
  have hspelled := spelledDependencies_eq htexts
  rw [dependenciesComplete_iff h harrays hraw hfeature, inspectDependencies_iff h harrays hhistory,
    DependenciesAgree, hspelled]
  have hsub := fun (id : String) (hid : Unfinished queue (Platform.strip id)) =>
    unmerged_of_unfinished h hid
  have hpresent : "dependencies" ∈ raw.keys ↔ raw.get? "dependencies" ≠ none :=
    mem_keys_iff_get?
  split
  · rename_i hkey
    obtain ⟨value, hvalue⟩ := Option.ne_none_iff_exists'.mp (hpresent.mp hkey)
    have hwritten : raw.getD "dependencies" (.arr []) = .arr (texts.map Json.str) := by
      rw [rawDependencies, Fields.getD, hvalue, Option.getD_some] at htexts
      rw [Fields.getD, hvalue, Option.getD_some, htexts]
    have hnonempty : ∀ id ∈ texts, id ≠ "" := by
      rintro id hid rfl
      exact absurd (htext "" hid) (by decide)
    have hgate : (∃ ids : List String, raw.getD "dependencies" (.arr []) = .arr (ids.map Json.str) ∧
        (∀ id ∈ ids, id ≠ "") ∧ ∀ id ∈ ids, ¬ Unmerged document id) ↔
        ∀ id ∈ texts, ¬ Unmerged document id := by
      constructor
      · rintro ⟨ids, hids, -, hmerged⟩
        rw [hwritten, Json.arr.injEq] at hids
        have hsame : texts = ids :=
          List.map_injective_iff.mpr (fun _ _ heq => Json.str.inj heq) hids
        exact hsame ▸ hmerged
      · exact fun hmerged => ⟨texts, hwritten, hnonempty, hmerged⟩
    rw [hgate]
    constructor
    · intro hagree
      by_cases hunfinished : ∃ id ∈ texts, Unfinished queue (Platform.strip id)
      · exact .inl hunfinished
      · push Not at hunfinished
        refine .inr ⟨?_, ?_⟩
        · rintro ⟨id, hid, hunrecorded⟩
          by_contra hmerged
          push Not at hmerged
          exact (hagree.mpr hmerged id hid).2 hunrecorded
        · rintro ⟨id, hid, hunmerged⟩
          by_contra hrecorded
          push Not at hrecorded
          exact hagree.mp (fun id hid => ⟨hunfinished id hid, hrecorded id hid⟩) id hid hunmerged
    · rintro (⟨id, hid, hunfinished⟩ | hagree)
      · exact iff_of_false (fun hstart => (hstart id hid).1 hunfinished)
          fun hmerged => hmerged id hid (hsub id hunfinished)
      · constructor
        · intro hstart id hid hunmerged
          obtain ⟨id', hid', hunrecorded⟩ := hagree.mpr ⟨id, hid, hunmerged⟩
          exact (hstart id' hid').2 hunrecorded
        · intro hmerged id hid
          refine ⟨fun hunfinished => hmerged id hid (hsub id hunfinished), fun hunrecorded => ?_⟩
          obtain ⟨id', hid', hunmerged⟩ := hagree.mp ⟨id, hid, hunrecorded⟩
          exact hmerged id' hid' hunmerged
  · rename_i hkey
    have hmissing : raw.get? "dependencies" = none := by
      by_contra hne
      exact hkey (hpresent.mpr hne)
    have hgate : ∃ ids : List String, raw.getD "dependencies" (.arr []) = .arr (ids.map Json.str) ∧
        (∀ id ∈ ids, id ≠ "") ∧ ∀ id ∈ ids, ¬ Unmerged document id :=
      ⟨[], by rw [Fields.getD, hmissing]; rfl, by simp, by simp⟩
    exact iff_true_right hgate

/-! ### A dependency that is done but not integrated -/

/-- A repository whose files are all there, and no policy is wrong. -/
def QueueSite.plain : QueueSite where
  platform := .reference
  escapes _ := false
  isFile _ := true
  validateFeatureExecutionPolicy _ _ := .ok ()

/-- A queue of a finished feature and of one that depends on it. -/
def finishedQueue (finished : Fields) (integrated : List String) : Fields :=
  [("features", .arr
      [.obj ([("id", .str "F1"), ("milestone", .str "M1")] ++ finished),
       .obj [("id", .str "F2"), ("milestone", .str "M1"), ("status", .str "ready"),
         ("dependencies", .arr [.str "F1"])]]),
   ("milestones", .arr [.obj [("id", .str "M1"),
      ("integrated_features", .arr (integrated.map Json.str))]])]

/-- The second feature depends on one that is done outside of any integration: it may be
    implemented, but never integrated. -/
theorem done_starts_but_never_integrates :
    ∃ queue raw feature,
      FeatureQueue.ofFields .plain (finishedQueue [("status", .str "done")] []) = .ok queue ∧
      IdArrays (finishedQueue [("status", .str "done")] []) ∧
      CommitsInHistory (finishedQueue [("status", .str "done")] []) (fun _ _ => true) "head" ∧
      (entries (finishedQueue [("status", .str "done")] []) "features")[1]? = some raw ∧
      queue.features[1]? = some feature ∧
      queue.dependenciesComplete QueueSite.plain.platform feature = .ok true ∧
      inspectDependencies (fun _ _ => true) "head" (finishedQueue [("status", .str "done")] [])
        raw ≠ .ok () := by
  refine ⟨_, _, _, rfl, ?_, fun _ _ _ _ => rfl, rfl, rfl, rfl, ?_⟩
  · intro milestone hmilestone
    rw [List.mem_singleton.mp hmilestone]
    exact ⟨[], rfl, by simp⟩
  · intro h
    cases h

/-- What the integration of a feature records on it. -/
def passedFields : Fields :=
  [("status", .str "integrated"), ("integration_status", .str "passed"),
   ("integrated_commit", .str "c1")]

/-- A dependency that was integrated opens both gates. -/
theorem integrated_starts_and_integrates :
    ∃ queue raw feature,
      FeatureQueue.ofFields .plain (finishedQueue passedFields ["F1"]) = .ok queue ∧
      (entries (finishedQueue passedFields ["F1"]) "features")[1]? = some raw ∧
      queue.features[1]? = some feature ∧
      queue.dependenciesComplete QueueSite.plain.platform feature = .ok true ∧
      DependenciesAgree (finishedQueue passedFields ["F1"]) queue raw := by
  have harrays : IdArrays (finishedQueue passedFields ["F1"]) := by
    intro milestone hmilestone
    rw [List.mem_singleton.mp hmilestone]
    exact ⟨["F1"], rfl, by simp⟩
  have hhistory : CommitsInHistory (finishedQueue passedFields ["F1"]) (fun _ _ => true) "head" :=
    fun _ _ _ _ => rfl
  obtain ⟨queue, raw, feature, hqueue, hraw, hfeature, hstart, hgate⟩ :
      ∃ queue raw feature,
        FeatureQueue.ofFields .plain (finishedQueue passedFields ["F1"]) = .ok queue ∧
        (entries (finishedQueue passedFields ["F1"]) "features")[1]? = some raw ∧
        queue.features[1]? = some feature ∧
        queue.dependenciesComplete QueueSite.plain.platform feature = .ok true ∧
        inspectDependencies (fun _ _ => true) "head" (finishedQueue passedFields ["F1"]) raw =
          .ok () :=
    ⟨_, _, _, rfl, rfl, rfl, rfl, rfl⟩
  exact ⟨queue, raw, feature, hqueue, hraw, hfeature, hstart,
    (gates_agree_iff hqueue harrays hhistory hraw hfeature).mp (iff_of_true hstart hgate)⟩

end Conveyor
