import Conveyor.DependencyGates
import Conveyor.QueueEdits

/-!
# What an integration leaves in the queue

An integration writes raw entries, and the rest of the controller reads the normalized copies
of them. The results here say what `_mark_integrating` and `_record_final_metadata` leave, and
when the queue of the written document says of the feature and the milestone what the
integration meant to say.
-/

namespace Conveyor

open Library

variable {site : QueueSite} {document : Fields} {queue : FeatureQueue} {plan : IntegrationPlan}
  {validation : IntegrationValidation}

/-! ### Entries of a document -/

theorem mem_withId {raws : List Fields} {itemId : String} {i : Nat} {item : Fields} :
    (i, item) ∈ withId (raws.map Json.obj) itemId ↔
      raws[i]? = some item ∧ item.get "id" = .str itemId := by
  rw [withId, List.mem_filterMap]
  constructor
  · rintro ⟨entry, hentry, hread⟩
    obtain ⟨j, hj, rfl⟩ := List.mem_mapIdx.mp hentry
    have hj : j < raws.length := by simpa using hj
    have hraw : raws[j]? = some raws[j] := List.getElem?_eq_getElem hj
    simp only [List.getElem_map] at hread
    split at hread
    · rename_i hid
      cases hread
      exact ⟨hraw, hid⟩
    · cases hread
  · rintro ⟨hitem, hid⟩
    obtain ⟨hi, rfl⟩ := List.getElem?_eq_some_iff.mp hitem
    refine ⟨(i, .obj raws[i]), List.mem_mapIdx.mpr ⟨i, by simpa using hi, by simp⟩, ?_⟩
    exact if_pos hid

/-- What `_one` found: the only entry with the identifier, at its place. -/
structure OnlyEntry (document : Fields) (collection itemId : String) (place : Nat)
    (item : Fields) : Prop where
  found : (entries document collection)[place]? = some item
  id : item.get "id" = .str itemId
  only : ∀ (i : Nat) (other : Fields), (entries document collection)[i]? = some other →
    other.get "id" = .str itemId → i = place

theorem oneOf_eq_ok {collection itemId : String} {place : Nat} {item : Fields}
    (hobjects : document.get collection = .arr ((entries document collection).map .obj))
    (h : oneOf document collection itemId = .ok (place, item)) :
    OnlyEntry document collection itemId place item := by
  unfold oneOf at h
  rw [hobjects] at h
  dsimp only at h
  split at h
  · rename_i found hfound
    cases h
    have hitem := mem_withId.mp (hfound ▸ List.mem_singleton_self (place, item))
    refine ⟨hitem.1, hitem.2, fun i other hother hid => ?_⟩
    have hin := mem_withId.mpr ⟨hother, hid⟩
    rw [hfound, List.mem_singleton] at hin
    exact congrArg Prod.fst hin
  · cases h

theorem get?_replaceIn_of_ne {collection key : String} (h : key ≠ collection) (place : Nat)
    (item : Fields) : (replaceIn document collection place item).get? key = document.get? key := by
  unfold replaceIn
  split
  · exact Fields.get?_set_of_ne h _ _
  · rfl

theorem get_replaceIn_of_ne {collection key : String} (h : key ≠ collection) (place : Nat)
    (item : Fields) : (replaceIn document collection place item).get key = document.get key := by
  rw [Fields.get, get?_replaceIn_of_ne h, Fields.get]

theorem get_replaceIn {collection : String}
    (hobjects : document.get collection = .arr ((entries document collection).map .obj))
    (place : Nat) (item : Fields) :
    (replaceIn document collection place item).get collection =
      .arr (((entries document collection).set place item).map .obj) := by
  unfold replaceIn
  rw [hobjects]
  dsimp only
  rw [Fields.get_set_self, List.map_set]

theorem entries_replaceIn {collection : String}
    (hobjects : document.get collection = .arr ((entries document collection).map .obj))
    (place : Nat) (item : Fields) :
    entries (replaceIn document collection place item) collection =
      (entries document collection).set place item :=
  entries_of_objects (get_replaceIn hobjects place item)

theorem entries_congr {other : Fields} {collection : String}
    (h : other.get collection = document.get collection) :
    entries other collection = entries document collection := by
  rw [entries, h, entries]

/-! ### The edits -/

/-- The fields that an integration writes on its feature. -/
def INTEGRATION_FIELDS : List String :=
  ["status", "implementation_status", "branch", "integration_base_commit", "accepted_commit",
   "integrated_commit", "integration_status", "integration_attempted_at",
   "integration_fix_commits", "integration_failure"]

/-- The fields that an integration writes on its milestone. -/
def MILESTONE_FIELDS : List String :=
  ["integrated_features", "last_validated_commit", "last_validation_at", "status"]

theorem get?_update_of_not_mem {fields items : Fields} {key : String} (h : key ∉ items.keys) :
    (fields.update items).get? key = fields.get? key := by
  have hreverse : key ∉ Fields.keys items.reverse := by
    rw [Fields.keys, List.map_reverse, List.mem_reverse]
    exact h
  rw [Fields.get?_update, Fields.get?_append, Fields.get?_eq_none_of_not_mem hreverse]
  rfl

theorem get?_setDefault_of_ne {fields : Fields} {key other : String} (h : other ≠ key)
    (default : Json) : (setDefault fields key default).get? other = fields.get? other := by
  unfold setDefault
  split
  · rfl
  · exact Fields.get?_set_of_ne h _ _

theorem get_setDefault (fields : Fields) (key : String) (default : Json) :
    (setDefault fields key default).get key = fields.getD key default := by
  unfold setDefault
  split
  · rename_i hkey
    obtain ⟨value, hvalue⟩ := Option.ne_none_iff_exists'.mp (mem_keys_iff_get?.mp hkey)
    rw [Fields.get, Fields.getD, hvalue, Option.getD_some, Option.getD_some]
  · rename_i hkey
    rw [Fields.get_set_self, Fields.getD, Fields.get?_eq_none_of_not_mem hkey, Option.getD_none]

/-- The status that an integration leaves on its feature. -/
def outcome (ok : Bool) : String := if ok then "integrated" else "failed"

/-- The feature that the end of an integration writes. -/
structure FeatureWritten (plan : IntegrationPlan) (ok : Bool) (resultingCommit : String)
    (raw raw' : Fields) : Prop where
  keeps : ∀ key, key ∉ INTEGRATION_FIELDS → raw'.get? key = raw.get? key
  status : raw'.get "status" = .str (outcome ok)
  acceptedCommit : raw'.get? "accepted_commit" = some (.str plan.acceptedCommit)
  integratedCommit : raw'.get "integrated_commit" = .str resultingCommit
  integrationStatus : raw'.get "integration_status" = .str (if ok then "passed" else "failed")

theorem finalFeature_eq_ok {resultingCommit : String} {raw raw' : Fields}
    (h : finalFeature plan validation resultingCommit raw = .ok raw') :
    FeatureWritten plan validation.ok resultingCommit raw raw' := by
  unfold finalFeature at h
  dsimp only at h
  generalize hupdated : raw.update _ = updated at h
  have hreads : ∀ key, key ≠ "integration_fix_commits" → key ≠ "integration_failure" →
      raw'.get? key = updated.get? key := by
    intro key hfixes hfailure
    split at h
    · split at h
      · cases h
        rw [Fields.get?_erase_of_ne hfailure, get?_setDefault_of_ne hfixes]
      · cases h
        rw [Fields.get?_set_of_ne hfailure, get?_setDefault_of_ne hfixes]
    · cases h
  have hget : ∀ key, key ≠ "integration_fix_commits" → key ≠ "integration_failure" →
      raw'.get key = updated.get key := by
    intro key hfixes hfailure
    rw [Fields.get, hreads key hfixes hfailure, Fields.get]
  constructor
  · intro key hkey
    simp only [INTEGRATION_FIELDS, List.mem_cons, List.not_mem_nil, or_false, not_or] at hkey
    rw [hreads key (by tauto) (by tauto), ← hupdated]
    refine get?_update_of_not_mem ?_
    simp only [Fields.keys, List.map_cons, List.map_nil, List.mem_cons, List.not_mem_nil, or_false,
      not_or]
    tauto
  · rw [hget _ (by decide) (by decide), ← hupdated]
    simp [Fields.get, Fields.get?_update, Fields.get?_cons, outcome]
  · rw [hreads _ (by decide) (by decide), ← hupdated]
    simp [Fields.get?_update, Fields.get?_cons]
  · rw [hget _ (by decide) (by decide), ← hupdated]
    simp [Fields.get, Fields.get?_update, Fields.get?_cons]
  · rw [hget _ (by decide) (by decide), ← hupdated]
    simp [Fields.get, Fields.get?_update, Fields.get?_cons]

/-- The milestone that the end of an integration writes, its status apart. -/
structure MilestoneWritten (plan : IntegrationPlan) (ok : Bool) (raw raw' : Fields) : Prop where
  keeps : ∀ key, key ∉ MILESTONE_FIELDS → raw'.get? key = raw.get? key
  failed : ok = false → raw' = raw
  lists : ok = true → ∃ old, raw.getD "integrated_features" (.arr []) = .arr old ∧
    raw'.get "integrated_features" = .arr
      (if .str plan.featureId ∈ old then old else old ++ [.str plan.featureId])

theorem finalMilestone_eq_ok {raw raw' : Fields}
    (h : finalMilestone plan validation raw = .ok raw') :
    MilestoneWritten plan validation.ok raw raw' := by
  unfold finalMilestone at h
  cases hok : validation.ok with
  | false =>
      rw [hok] at h
      cases h
      exact ⟨fun _ _ => rfl, fun _ => rfl, fun hfalse => (Bool.false_ne_true hfalse).elim⟩
  | true =>
      rw [if_pos hok] at h
      dsimp only at h
      rw [get_setDefault] at h
      split at h
      · rename_i old hold
        cases h
        refine ⟨fun key hkey => ?_, fun hfalse => (Bool.false_ne_true hfalse.symm).elim,
          fun _ => ⟨old, hold, ?_⟩⟩
        · simp only [MILESTONE_FIELDS, List.mem_cons, List.not_mem_nil, or_false, not_or] at hkey
          rw [Fields.get?_set_of_ne hkey.2.2.1, Fields.get?_set_of_ne hkey.2.1,
            Fields.get?_set_of_ne hkey.1, get?_setDefault_of_ne hkey.1]
        · simp [Fields.get, Fields.get?_set]
      · cases h

theorem markIntegrating_eq_ok {acceptedTree : String} {authority : Option Fields}
    {marked : Fields} (h : markIntegrating acceptedTree plan authority document = .ok marked) :
    ∃ place raw, oneOf document "features" plan.featureId = .ok (place, raw) ∧
      checkTransition acceptedTree plan authority raw = .ok () ∧
      marked = replaceIn document "features" place (raw.update (integratingFields plan)) := by
  obtain ⟨⟨place, raw⟩, hone, h⟩ := bind_eq_ok.mp h
  obtain ⟨⟨⟩, hchecks, h⟩ := bind_eq_ok.mp h
  exact ⟨place, raw, hone, hchecks, (Except.ok.inj h).symm⟩

theorem get?_integrating (raw : Fields) {key : String} (h : key ∉ INTEGRATION_FIELDS) :
    (raw.update (integratingFields plan)).get? key = raw.get? key := by
  simp only [INTEGRATION_FIELDS, List.mem_cons, List.not_mem_nil, or_false, not_or] at h
  refine get?_update_of_not_mem ?_
  simp only [integratingFields, Fields.keys, List.map_cons, List.map_nil, List.mem_cons,
    List.not_mem_nil, or_false, not_or]
  tauto

/-- What `_record_final_metadata` computed. -/
structure Recorded (plan : IntegrationPlan) (validation : IntegrationValidation)
    (resultingCommit : String) (document : Fields) (result : FinalMetadata) : Prop where
  places : ∃ place raw raw' spot milestone milestone',
    oneOf document "features" plan.featureId = .ok (place, raw) ∧
    oneOf document "milestones" plan.milestoneId = .ok (spot, milestone) ∧
    FeatureWritten plan validation.ok resultingCommit raw raw' ∧
    MilestoneWritten plan validation.ok milestone milestone' ∧
    (∃ allWritten, writtenComplete ((rawFeatures (replaceIn document "features" place raw')).filter
        fun item => item.get "milestone" = .str plan.milestoneId) = .ok allWritten ∧
      result.milestoneComplete = (!((rawFeatures (replaceIn document "features" place raw')).filter
        fun item => item.get "milestone" = .str plan.milestoneId).isEmpty && allWritten)) ∧
    result.document = replaceIn (replaceIn document "features" place raw') "milestones" spot
      (milestone'.set "status"
        (.str (if result.milestoneComplete then "integration_complete" else "active")))

theorem recordFinalMetadata_eq_ok {resultingCommit : String} {result : FinalMetadata}
    (h : recordFinalMetadata plan validation resultingCommit document = .ok result) :
    Recorded plan validation resultingCommit document result := by
  unfold recordFinalMetadata at h
  obtain ⟨⟨place, raw⟩, hfeature, h⟩ := bind_eq_ok.mp h
  obtain ⟨⟨spot, milestone⟩, hmilestone, h⟩ := bind_eq_ok.mp h
  obtain ⟨raw', hraw', h⟩ := bind_eq_ok.mp h
  obtain ⟨milestone', hmilestone', h⟩ := bind_eq_ok.mp h
  obtain ⟨allWritten, hall, h⟩ := bind_eq_ok.mp h
  cases h
  exact ⟨place, raw, raw', spot, milestone, milestone', hfeature, hmilestone,
    finalFeature_eq_ok hraw', finalMilestone_eq_ok hmilestone', ⟨allWritten, hall, rfl⟩, rfl⟩

/-- The entries that the two writes of an integration change, before and after them. -/
structure Integrated (plan : IntegrationPlan) (ok : Bool) (resultingCommit : String)
    (document : Fields) (result : FinalMetadata) (place : Nat) (raw raw' : Fields) (spot : Nat)
    (milestone milestone' : Fields) : Prop where
  feature : OnlyEntry document "features" plan.featureId place raw
  target : OnlyEntry document "milestones" plan.milestoneId spot milestone
  written : FeatureWritten plan ok resultingCommit raw raw'
  recorded : MilestoneWritten plan ok milestone milestone'
  features : result.document.get "features" =
    .arr (((entries document "features").set place raw').map .obj)
  milestones : result.document.get "milestones" =
    .arr (((entries document "milestones").set spot (milestone'.set "status"
      (.str (if result.milestoneComplete then "integration_complete" else "active")))).map .obj)
  elsewhere : ∀ key, key ≠ "features" → key ≠ "milestones" →
    result.document.get? key = document.get? key
  verdict : ∃ allWritten,
    writtenComplete (((entries document "features").set place raw').filter
      fun item => item.get "milestone" = .str plan.milestoneId) = .ok allWritten ∧
    result.milestoneComplete = (!(((entries document "features").set place raw').filter
      fun item => item.get "milestone" = .str plan.milestoneId).isEmpty && allWritten)

/-- Writing twice over one entry keeps what is known of the fields of neither write. -/
theorem FeatureWritten.of_marked {resultingCommit : String} {ok : Bool}
    {raw marked raw' : Fields} (h : FeatureWritten plan ok resultingCommit marked raw')
    (hmarked : ∀ key, key ∉ INTEGRATION_FIELDS → marked.get? key = raw.get? key) :
    FeatureWritten plan ok resultingCommit raw raw' where
  keeps key hkey := (h.keeps key hkey).trans (hmarked key hkey)
  status := h.status
  acceptedCommit := h.acceptedCommit
  integratedCommit := h.integratedCommit
  integrationStatus := h.integrationStatus

theorem integrated_of_writes (hread : QueueRead site document queue) {acceptedTree : String}
    {authority : Option Fields} {marked : Fields} {resultingCommit : String}
    {result : FinalMetadata}
    (hmark : markIntegrating acceptedTree plan authority document = .ok marked)
    (hrecord : recordFinalMetadata plan validation resultingCommit marked = .ok result) :
    ∃ place raw raw' spot milestone milestone', Integrated plan validation.ok resultingCommit
      document result place raw raw' spot milestone milestone' := by
  obtain ⟨place, raw, hone, -, rfl⟩ := markIntegrating_eq_ok hmark
  have hfeature := oneOf_eq_ok hread.featureObjects hone
  generalize hmarked : raw.update (integratingFields plan) = changed at hrecord
  have hchanged : ∀ key, key ∉ INTEGRATION_FIELDS → changed.get? key = raw.get? key :=
    fun key hkey => hmarked ▸ get?_integrating raw hkey
  have hid : changed.get "id" = .str plan.featureId := by
    rw [Fields.get, hchanged "id" (by decide), ← Fields.get, hfeature.id]
  -- the marked document has the same milestones, and the changed feature at its place
  have hmilestones : (replaceIn document "features" place changed).get "milestones" =
      document.get "milestones" := get_replaceIn_of_ne (by decide) place changed
  have hfeatures := get_replaceIn hread.featureObjects place changed
  have hfeatureEntries := entries_replaceIn hread.featureObjects place changed
  have hmilestoneEntries := entries_congr hmilestones
  have helsewhere : ∀ key, key ≠ "features" →
      (replaceIn document "features" place changed).get? key = document.get? key :=
    fun key hkey => get?_replaceIn_of_ne hkey place changed
  generalize replaceIn document "features" place changed = middle at *
  have hplace : place < (entries document "features").length :=
    (List.getElem?_eq_some_iff.mp hfeature.found).1
  obtain ⟨place', raw₀, raw', spot, milestone, milestone', honeFeature, honeMilestone, hwritten,
    hrecorded, hverdict, hdocument⟩ := (recordFinalMetadata_eq_ok hrecord).places
  have hobjects : middle.get "features" = .arr ((entries middle "features").map .obj) := by
    rw [hfeatureEntries, hfeatures]
  have hobjects' : middle.get "milestones" = .arr ((entries middle "milestones").map .obj) := by
    rw [hmilestoneEntries, hmilestones, hread.milestoneObjects]
  have hfound := oneOf_eq_ok hobjects honeFeature
  have htarget := oneOf_eq_ok hobjects' honeMilestone
  have hchangedAt : (entries middle "features")[place]? = some changed := by
    rw [hfeatureEntries, List.getElem?_set_self hplace]
  obtain rfl : place = place' := hfound.only place changed hchangedAt hid
  obtain rfl : changed = raw₀ := Option.some.inj (hchangedAt.symm.trans hfound.found)
  have hset : (entries middle "features").set place raw' =
      (entries document "features").set place raw' := by
    rw [hfeatureEntries, List.set_set]
  have hrewritten := get_replaceIn hobjects place raw'
  have hrewrittenEntries := entries_replaceIn hobjects place raw'
  have hkept : (replaceIn middle "features" place raw').get "milestones" =
      middle.get "milestones" := get_replaceIn_of_ne (by decide) place raw'
  have hkeptElsewhere : ∀ key, key ≠ "features" →
      (replaceIn middle "features" place raw').get? key = middle.get? key :=
    fun key hkey => get?_replaceIn_of_ne hkey place raw'
  have hraws : rawFeatures (replaceIn middle "features" place raw') =
      (entries document "features").set place raw' := hrewrittenEntries.trans hset
  rw [hraws] at hverdict
  rw [hset] at hrewritten
  generalize replaceIn middle "features" place raw' = last at *
  have hlastObjects : last.get "milestones" = .arr ((entries last "milestones").map .obj) := by
    rw [entries_congr hkept, hkept, hobjects']
  have hlastEntries : entries last "milestones" = entries document "milestones" :=
    (entries_congr hkept).trans hmilestoneEntries
  refine ⟨place, raw, raw', spot, milestone, milestone', ?_⟩
  exact {
    feature := hfeature
    target := by
      refine ⟨?_, htarget.id, fun i other hother => ?_⟩
      · rw [← hmilestoneEntries]
        exact htarget.found
      · rw [← hmilestoneEntries] at hother
        exact htarget.only i other hother
    written := hwritten.of_marked hchanged
    recorded := hrecorded
    features := by
      rw [hdocument, get_replaceIn_of_ne (by decide), hrewritten]
    milestones := by
      rw [hdocument, get_replaceIn hlastObjects, hlastEntries]
    elsewhere := fun key hfeatures hmilestones => by
      rw [hdocument, get?_replaceIn_of_ne hmilestones, hkeptElsewhere key hfeatures,
        helsewhere key hfeatures]
    verdict := hverdict }

/-! ### The written document is read -/

theorem forall₂_set {α : Type} {R : α → α → Prop} {items : List α} {place : Nat} {item item' : α}
    (hfound : items[place]? = some item) (hrefl : ∀ other ∈ items, R other other)
    (hnew : R item item') : List.Forall₂ R items (items.set place item') := by
  refine forall₂_iff_places.mpr ⟨(List.length_set).symm, fun i x y hx hy => ?_⟩
  rw [List.getElem?_set] at hy
  split at hy
  · rename_i heq
    split at hy
    · cases hy
      subst heq
      rw [hfound, Option.some.injEq] at hx
      exact hx ▸ hnew
    · cases hy
  · rw [hx, Option.some.injEq] at hy
    exact hy ▸ hrefl x (List.mem_of_getElem? hx)

theorem statusName_outcome (P : Platform) (ok : Bool) :
    statusName P (outcome ok) = outcome ok := by
  cases ok <;> exact statusName_ascii (by decide) (by decide) (by decide) (by decide)

theorem FeatureWritten.edit {P : Platform} {ok : Bool} {resultingCommit : String}
    {raw raw' : Fields} (h : FeatureWritten plan ok resultingCommit raw raw')
    (hcommit : Platform.hasText plan.acceptedCommit = true) : FeatureEdit P raw raw' where
  keeps key hkey := by
    have hdisjoint : ∀ key ∈ KEPT_FIELDS, key ∉ INTEGRATION_FIELDS := by decide
    exact h.keeps key (hdisjoint key hkey)
  status := by
    refine ⟨outcome ok, h.status, ?_, ?_⟩
    · cases ok <;> decide
    · rw [statusName_outcome]
      cases ok <;> decide
  commit := .inr ⟨plan.acceptedCommit, h.acceptedCommit, hcommit⟩

theorem MilestoneWritten.id {ok : Bool} {raw raw' : Fields} (h : MilestoneWritten plan ok raw raw')
    (status : Json) : (raw'.set "status" status).get "id" = raw.get "id" := by
  rw [Fields.get, Fields.get?_set_of_ne (by decide), h.keeps "id" (by decide), Fields.get]

section
variable {ok : Bool} {resultingCommit : String} {result : FinalMetadata} {place spot : Nat}
  {raw raw' milestone milestone' : Fields}

theorem Integrated.entries_features
    (h : Integrated plan ok resultingCommit document result place raw raw' spot milestone
      milestone') :
    entries result.document "features" = (entries document "features").set place raw' :=
  entries_of_objects h.features

theorem Integrated.entries_milestones
    (h : Integrated plan ok resultingCommit document result place raw raw' spot milestone
      milestone') :
    entries result.document "milestones" = (entries document "milestones").set spot
      (milestone'.set "status"
        (.str (if result.milestoneComplete then "integration_complete" else "active"))) :=
  entries_of_objects h.milestones

theorem Integrated.documentEdit
    (h : Integrated plan ok resultingCommit document result place raw raw' spot milestone
      milestone') (hread : QueueRead site document queue)
    (hcommit : Platform.hasText plan.acceptedCommit = true) :
    DocumentEdit site.platform document result.document
      (entries result.document "milestones") (entries result.document "features") where
  milestoneObjects := by rw [h.entries_milestones, h.milestones]
  featureObjects := by rw [h.entries_features, h.features]
  milestones := by
    rw [h.entries_milestones]
    exact forall₂_set h.target.found (fun _ _ => rfl) (h.recorded.id _)
  features := by
    rw [h.entries_features]
    refine forall₂_set h.feature.found (fun other hother => ?_) (h.written.edit hcommit)
    obtain ⟨i, feature, parts, -, -, hparts, -⟩ := hread.feature_entry hother
    exact hparts.edit_refl

/-- The written document is accepted exactly if the plan's commit has text. -/
theorem Integrated.accepted_iff
    (h : Integrated plan ok resultingCommit document result place raw raw' spot milestone
      milestone') (hread : QueueRead site document queue) :
    (∃ queue', FeatureQueue.ofFields site result.document = .ok queue') ↔
      Platform.hasText plan.acceptedCommit = true := by
  constructor
  · rintro ⟨queue', hqueue'⟩
    have hread' := ofFields_eq_ok.mp hqueue'
    have hmem : raw' ∈ entries result.document "features" := by
      rw [h.entries_features]
      have hplace := (List.getElem?_eq_some_iff.mp h.feature.found).1
      exact List.mem_of_getElem? (List.getElem?_set_self hplace)
    obtain ⟨i, feature, parts, -, -, hparts, -⟩ := hread'.feature_entry hmem
    have hcommit : parts.commit = .str plan.acceptedCommit := by
      rw [hparts.commit, Fields.getD, h.written.acceptedCommit, Option.getD_some]
    have hchecked := hparts.commitText
    rw [hcommit] at hchecked
    obtain ⟨text, htext, -⟩ := bind_eq_ok.mp hchecked
    obtain ⟨heq, htext⟩ := textOf_eq_ok.mp htext
    exact Json.str.inj heq ▸ htext
  · intro hcommit
    obtain ⟨queue', hqueue', -⟩ := hread.edit (h.documentEdit hread hcommit)
    exact ⟨queue', ofFields_eq_ok.mpr hqueue'⟩

/-! ### Statuses before and after -/

/-- The status of an entry once the integration has written its outcome. -/
def statusAfter (plan : IntegrationPlan) (ok : Bool) (raw : Fields) (status : Json) : Json :=
  if raw.get "id" = .str plan.featureId then .str (outcome ok) else status

/-- An entry of the document with its copy in the queue. -/
def ReadAs (document : Fields) (queue : FeatureQueue) (raw feature : Fields) : Prop :=
  ∃ i : Nat, (entries document "features")[i]? = some raw ∧ queue.features[i]? = some feature

/-- An entry and its copy, before and after an integration. -/
structure Rewritten (plan : IntegrationPlan) (ok : Bool) (raw feature raw' feature' : Fields) :
    Prop where
  writtenMilestone : raw'.get "milestone" = raw.get "milestone"
  writtenStatus : raw'.get "status" = statusAfter plan ok raw (raw.get "status")
  milestone : feature'.get "milestone" = feature.get "milestone"
  status : feature'.get "status" = statusAfter plan ok raw (feature.get "status")

variable {queue' : FeatureQueue}

theorem Integrated.rewritten
    (h : Integrated plan ok resultingCommit document result place raw raw' spot milestone
      milestone') (hread : QueueRead site document queue)
    (hread' : QueueRead site result.document queue')
    (hsame : List.Forall₂ SameFeature queue.features queue'.features) {i : Nat}
    {before feature after feature' : Fields}
    (hbefore : (entries document "features")[i]? = some before)
    (hfeature : queue.features[i]? = some feature)
    (hafter : (entries result.document "features")[i]? = some after)
    (hfeature' : queue'.features[i]? = some feature') :
    Rewritten plan ok before feature after feature' := by
  have hkept := (forall₂_iff_places.mp hsame).2 i feature feature' hfeature hfeature'
  obtain ⟨parts, hparts, heq⟩ := hread.features i before feature hbefore hfeature
  obtain ⟨parts', hparts', heq'⟩ := hread'.features i after feature' hafter hfeature'
  obtain ⟨text, htext, -, hname, -⟩ := hparts.status
  obtain ⟨text', htext', -, hname', -⟩ := hparts'.status
  have hstatus : feature.get "status" = .str (statusName site.platform text) := by
    rw [heq, parts.get_copy_status, hname]
  have hstatus' : feature'.get "status" = .str (statusName site.platform text') := by
    rw [heq', parts'.get_copy_status, hname']
  rw [h.entries_features, List.getElem?_set] at hafter
  split at hafter
  · rename_i hplace
    subst hplace
    split at hafter
    · cases hafter
      rw [h.feature.found, Option.some.injEq] at hbefore
      subst hbefore
      have hstatusAfter : ∀ status, statusAfter plan ok raw status = .str (outcome ok) :=
        fun status => if_pos h.feature.id
      have houtcome : text' = outcome ok := Json.str.inj (htext'.symm.trans h.written.status)
      refine ⟨?_, ?_, hkept.milestone, ?_⟩
      · rw [Fields.get, h.written.keeps "milestone" (by decide), Fields.get]
      · rw [h.written.status, hstatusAfter]
      · rw [hstatus', houtcome, statusName_outcome, hstatusAfter]
    · cases hafter
  · rename_i hne
    rw [hbefore, Option.some.injEq] at hafter
    subst hafter
    have hother : ∀ status, statusAfter plan ok before status = status :=
      fun status => if_neg fun hid => hne (h.feature.only i before hbefore hid).symm
    refine ⟨rfl, (hother _).symm, hkept.milestone, ?_⟩
    rw [hother, hstatus, hstatus', Json.str.inj (htext.symm.trans htext')]

/-- Every entry has a copy, and both have a form after the integration. -/
theorem Integrated.readAs_iff
    (h : Integrated plan ok resultingCommit document result place raw raw' spot milestone
      milestone') (hread : QueueRead site document queue)
    (hread' : QueueRead site result.document queue')
    (hsame : List.Forall₂ SameFeature queue.features queue'.features)
    {P Q : Fields → Fields → Prop}
    (hpq : ∀ before feature after feature', Rewritten plan ok before feature after feature' →
      (P before feature ↔ Q after feature')) :
    (∃ before feature, ReadAs document queue before feature ∧ P before feature) ↔
      ∃ after feature', ReadAs result.document queue' after feature' ∧ Q after feature' := by
  have hlength : (entries result.document "features").length =
      (entries document "features").length := by
    rw [h.entries_features, List.length_set]
  constructor
  · rintro ⟨before, feature, ⟨i, hbefore, hfeature⟩, hp⟩
    have hi : i < (entries result.document "features").length := by
      rw [hlength]
      exact (List.getElem?_eq_some_iff.mp hbefore).1
    have hi' : i < queue'.features.length := hread'.featureCount ▸ hi
    have hrewritten := h.rewritten hread hread' hsame hbefore hfeature
      (List.getElem?_eq_getElem hi) (List.getElem?_eq_getElem hi')
    exact ⟨_, _, ⟨i, List.getElem?_eq_getElem hi, List.getElem?_eq_getElem hi'⟩,
      (hpq _ _ _ _ hrewritten).mp hp⟩
  · rintro ⟨after, feature', ⟨i, hafter, hfeature'⟩, hq⟩
    have hi : i < (entries document "features").length := by
      rw [← hlength]
      exact (List.getElem?_eq_some_iff.mp hafter).1
    have hi' : i < queue.features.length := hread.featureCount ▸ hi
    have hrewritten := h.rewritten hread hread' hsame (List.getElem?_eq_getElem hi)
      (List.getElem?_eq_getElem hi') hafter hfeature'
    exact ⟨_, _, ⟨i, List.getElem?_eq_getElem hi, List.getElem?_eq_getElem hi'⟩,
      (hpq _ _ _ _ hrewritten).mpr hq⟩

end

end Conveyor
