import Conveyor.FeatureQueue
import Mathlib.Data.List.Dedup

/-!
# What a queue reads of its document

`FeatureQueue` keeps a normalized copy of each milestone and each feature of the document.
The lemmas here say what an accepted document looks like, entry by entry, and what the copy of
an entry holds.
-/

namespace Conveyor

open Library

/-! ### Texts and statuses -/

theorem textOf_eq_ok {value : Json} {failure : Failure} {text : String} :
    FeatureQueue.textOf value failure = .ok text ↔
      value = .str text ∧ Platform.hasText text = true := by
  cases value with
  | str other =>
      rw [FeatureQueue.textOf, Json.str.injEq]
      split
      · rename_i h
        rw [Except.ok.injEq]
        exact ⟨fun heq => ⟨heq, heq ▸ h⟩, fun hboth => hboth.1⟩
      · rename_i h
        refine iff_of_false (by simp) ?_
        rintro ⟨rfl, htext⟩
        exact h htext
  | _ => simp [FeatureQueue.textOf]

/-- The supported spelling of a status. -/
def statusName (P : Platform) (text : String) : String :=
  (STATUS_ALIASES.lookup (slug P '_' text)).getD (slug P '_' text)

theorem normalizeStatus_eq_ok {P : Platform} {value : Json} {path status : String} :
    normalizeStatus P value path = .ok status ↔
      ∃ text, value = .str text ∧ Platform.hasText text = true ∧ statusName P text = status ∧
        status ∈ SUPPORTED_STATUSES := by
  cases value with
  | str text =>
      unfold normalizeStatus
      dsimp only
      constructor
      · intro h
        split at h
        · rename_i htext
          obtain ⟨hsupported, hstatus⟩ := require_bind_eq_ok.mp h
          rw [← Except.ok.inj hstatus]
          exact ⟨text, rfl, htext, rfl, hsupported⟩
        · cases h
      · rintro ⟨other, hother, htext, rfl, hsupported⟩
        cases hother
        rw [if_pos htext]
        exact require_bind_eq_ok.mpr ⟨hsupported, rfl⟩
  | _ => simp [normalizeStatus]

/-! ### Milestones -/

def milestoneCopy (P : Platform) (item : Fields) (id : String) : Fields :=
  (item.set "id" (.str (Platform.strip id))).set "normalized_id"
    (.str (normalizeMilestoneName P (Platform.strip id)))

/-- The copy of a milestone that the queue keeps. -/
def MilestoneRead (P : Platform) (item milestone : Fields) : Prop :=
  ∃ id, item.get "id" = .str id ∧ Platform.hasText id = true ∧ milestone = milestoneCopy P item id

theorem readMilestone_eq_ok {P : Platform} {path : String} {item milestone : Fields} :
    FeatureQueue.readMilestone P path item = .ok milestone ↔ MilestoneRead P item milestone := by
  unfold FeatureQueue.readMilestone MilestoneRead
  rw [bind_eq_ok]
  refine exists_congr fun id => ?_
  rw [textOf_eq_ok, and_assoc]
  refine and_congr_right fun _ => and_congr_right fun _ => ?_
  exact ⟨fun h => (Except.ok.inj h).symm, fun h => by rw [h]; rfl⟩

/-! ### Features -/

/-- What the queue takes from a feature and normalizes. -/
structure FeatureParts where
  id : String
  title : String
  status : String
  milestone : Json
  dependencies : List String
  commit : Json

/-- The copy of a feature that the queue keeps. -/
def FeatureParts.copy (parts : FeatureParts) (item : Fields) : Fields :=
  let item := item.set "id" (.str (Platform.strip parts.id))
  let item := item.set "title" (.str (Platform.strip parts.title))
  let item := item.set "status" (.str parts.status)
  let item := item.set "milestone" parts.milestone
  let item := item.set "dependencies" (.arr (parts.dependencies.map Json.str))
  match parts.commit with
  | .str text => item.set "accepted_commit" (.str (Platform.strip text))
  | _ => item

/-- The fields that the queue may rewrite in its copy. -/
def NORMALIZED_FIELDS : List String :=
  ["id", "title", "status", "milestone", "dependencies", "accepted_commit"]

/-- A copy keeps every other field. -/
theorem FeatureParts.get?_copy {parts : FeatureParts} {item : Fields} {key : String}
    (h : key ∉ NORMALIZED_FIELDS) : (parts.copy item).get? key = item.get? key := by
  simp only [NORMALIZED_FIELDS, List.mem_cons, List.not_mem_nil, or_false, not_or] at h
  obtain ⟨hid, htitle, hstatus, hmilestone, hdependencies, hcommit⟩ := h
  unfold FeatureParts.copy
  dsimp only
  split <;>
    simp only [Fields.get?_set_of_ne, hid, htitle, hstatus, hmilestone, hdependencies, hcommit,
      ne_eq, not_false_eq_true]

theorem FeatureParts.get_copy {parts : FeatureParts} {item : Fields} {key : String}
    (h : key ∉ NORMALIZED_FIELDS) : (parts.copy item).get key = item.get key := by
  rw [Fields.get, FeatureParts.get?_copy h, Fields.get]

section
variable (parts : FeatureParts) (item : Fields)

@[simp] theorem FeatureParts.get_copy_id :
    (parts.copy item).get "id" = .str (Platform.strip parts.id) := by
  unfold FeatureParts.copy
  dsimp only
  split <;> simp [Fields.get, Fields.get?_set]

@[simp] theorem FeatureParts.get_copy_status :
    (parts.copy item).get "status" = .str parts.status := by
  unfold FeatureParts.copy
  dsimp only
  split <;> simp [Fields.get, Fields.get?_set]

@[simp] theorem FeatureParts.get_copy_milestone :
    (parts.copy item).get "milestone" = parts.milestone := by
  unfold FeatureParts.copy
  dsimp only
  split <;> simp [Fields.get, Fields.get?_set]

@[simp] theorem FeatureParts.get_copy_dependencies :
    (parts.copy item).get "dependencies" = .arr (parts.dependencies.map Json.str) := by
  unfold FeatureParts.copy
  dsimp only
  split <;> simp [Fields.get, Fields.get?_set]

@[simp] theorem dependencyIds_copy :
    FeatureQueue.dependencyIds (parts.copy item) = parts.dependencies := by
  rw [FeatureQueue.dependencyIds, parts.get_copy_dependencies]
  simp [List.filterMap_map, Function.comp_def]

end

/-- The raw list of a feature's dependencies. -/
def rawDependencies (item : Fields) : Json :=
  item.getD "dependencies" (item.getD "depends_on" (.arr []))

/-- What the queue asks of a feature. -/
structure FeatureAccepted (site : QueueSite) (milestones : List Fields) (path : String)
    (item : Fields) (parts : FeatureParts) : Prop where
  id : item.get "id" = .str parts.id
  idText : Platform.hasText parts.id = true
  title : item.getD "title" (item.getD "name" (.str (Platform.strip parts.id))) = .str parts.title
  titleText : Platform.hasText parts.title = true
  status : ∃ text, item.get "status" = .str text ∧ Platform.hasText text = true ∧
    statusName site.platform text = parts.status ∧ parts.status ∈ SUPPORTED_STATUSES
  milestone : ∃ text milestone, item.get "milestone" = .str text ∧
    Platform.hasText text = true ∧
    FeatureQueue.milestoneOf site.platform milestones text = some milestone ∧
    parts.milestone = milestone.get "id"
  agree : "dependencies" ∉ item.keys ∨ "depends_on" ∉ item.keys ∨
    item.get "dependencies" = item.get "depends_on"
  dependencies : ∃ texts : List String, rawDependencies item = .arr (texts.map Json.str) ∧
    (∀ text ∈ texts, Platform.hasText text = true) ∧
    parts.dependencies = texts.map Platform.strip
  commit : parts.commit = item.getD "accepted_commit" (item.get "commit")
  commitText : FeatureQueue.checkCommit path parts.commit = .ok ()
  legacyCommit : FeatureQueue.checkCommit path (item.get "commit") = .ok ()
  optional : FeatureQueue.checkOptional site path item = .ok ()

theorem readDependencies_eq_ok {path : String} {item : Fields} {dependencies : List String} :
    FeatureQueue.readDependencies path item = .ok dependencies ↔
      ("dependencies" ∉ item.keys ∨ "depends_on" ∉ item.keys ∨
        item.get "dependencies" = item.get "depends_on") ∧
      ∃ texts : List String, rawDependencies item = .arr (texts.map Json.str) ∧
        (∀ text ∈ texts, Platform.hasText text = true) ∧
        dependencies = texts.map Platform.strip := by
  have reads {index : Nat} {value : Json} {dependency : String} :
      (do
        let text ← FeatureQueue.textOf value
          (queueError s!"{path}.dependencies[{index}]: expected a non-empty feature ID")
        return Platform.strip text : Result String) = .ok dependency ↔
      ∃ text, (value = .str text ∧ Platform.hasText text = true) ∧
        Platform.strip text = dependency := by
    rw [bind_eq_ok]
    refine exists_congr fun text => ?_
    rw [textOf_eq_ok]
    refine and_congr_right fun _ => ?_
    exact ⟨fun h => Except.ok.inj h, fun h => by rw [h]; rfl⟩
  unfold FeatureQueue.readDependencies
  rw [require_bind_eq_ok]
  refine and_congr_right fun _ => ?_
  have hfold : item.getD "dependencies" (item.getD "depends_on" (.arr [])) =
      rawDependencies item := rfl
  rw [hfold]
  cases hraw : rawDependencies item with
  | arr values =>
      change (values.mapIdx _).mapM _ = _ ↔ _
      rw [mapIdx_mapM_eq_ok]
      constructor
      · rintro ⟨hlength, hread⟩
        have hall : List.Forall₂ (fun value dependency => ∃ text : String,
            (value = .str text ∧ Platform.hasText text = true) ∧
              Platform.strip text = dependency) values dependencies :=
          forall₂_iff_places.mpr ⟨hlength, fun i value dependency hvalue hdependency =>
            reads.mp (hread i value dependency hvalue hdependency)⟩
        clear hread hlength hraw
        induction hall with
        | nil => exact ⟨[], rfl, by simp, rfl⟩
        | cons first _ ih =>
            obtain ⟨text, ⟨rfl, htext⟩, rfl⟩ := first
            obtain ⟨texts, hvalues, hrest, rfl⟩ := ih
            cases hvalues
            exact ⟨text :: texts, rfl, List.forall_mem_cons.mpr ⟨htext, hrest⟩, rfl⟩
      · rintro ⟨texts, htexts, htext, rfl⟩
        cases htexts
        refine ⟨by simp, fun i value dependency hvalue hdependency => reads.mpr ?_⟩
        rw [List.getElem?_map, Option.map_eq_some_iff] at hvalue hdependency
        obtain ⟨text, hi, rfl⟩ := hvalue
        obtain ⟨other, hi', rfl⟩ := hdependency
        cases hi.symm.trans hi'
        exact ⟨text, ⟨rfl, htext text (List.mem_of_getElem? hi)⟩, rfl⟩
  | _ =>
      refine iff_of_false (by simp) ?_
      rintro ⟨texts, htexts, -⟩
      cases htexts

/-- The fields whose checks a feature may leave out. -/
def OPTIONAL_FIELDS : List String :=
  ["acceptance_criteria", "requires_human_decision", "execution_policy", "spec", "specification",
   "spec_path"]

theorem checkOptional_congr {site : QueueSite} {path : String} {item other : Fields}
    (h : ∀ key ∈ OPTIONAL_FIELDS, other.get? key = item.get? key) :
    FeatureQueue.checkOptional site path other = FeatureQueue.checkOptional site path item := by
  have hget : ∀ key ∈ OPTIONAL_FIELDS, other.get key = item.get key := by
    intro key hkey
    rw [Fields.get, h key hkey, Fields.get]
  unfold FeatureQueue.checkOptional FeatureQueue.specificationOf
  rw [hget "acceptance_criteria" (by decide), hget "requires_human_decision" (by decide),
    h "execution_policy" (by decide), hget "spec" (by decide), hget "specification" (by decide),
    hget "spec_path" (by decide)]

theorem mem_keys_iff_get? {fields : Fields} {key : String} :
    key ∈ fields.keys ↔ fields.get? key ≠ none := by
  constructor
  · intro h
    induction fields with
    | nil => cases h
    | cons head rest ih =>
        obtain ⟨k, v⟩ := head
        rw [Fields.get?_cons]
        split
        · exact Option.some_ne_none v
        · rename_i hne
          exact ih ((List.mem_cons.mp h).resolve_left hne)
  · intro h
    by_contra hnot
    exact h (Fields.get?_eq_none_of_not_mem hnot)

theorem readDependencies_congr {path : String} (item : Fields) {other : Fields}
    (h : ∀ key ∈ ["dependencies", "depends_on"], other.get? key = item.get? key) :
    FeatureQueue.readDependencies path other = FeatureQueue.readDependencies path item := by
  have hdependencies := h "dependencies" (by decide)
  have hdepends := h "depends_on" (by decide)
  have hagree : ("dependencies" ∉ other.keys ∨ "depends_on" ∉ other.keys ∨
      other.get "dependencies" = other.get "depends_on") ↔
      ("dependencies" ∉ item.keys ∨ "depends_on" ∉ item.keys ∨
        item.get "dependencies" = item.get "depends_on") := by
    rw [mem_keys_iff_get?, mem_keys_iff_get?, mem_keys_iff_get?, mem_keys_iff_get?, Fields.get,
      Fields.get, Fields.get, Fields.get, hdependencies, hdepends]
  unfold FeatureQueue.readDependencies Fields.getD require
  rw [hdependencies, hdepends, if_congr hagree rfl rfl]

/-- `readFeature`, reading the feature itself at every step. -/
theorem readFeature_eq (site : QueueSite) (milestones : List Fields) (path : String)
    (item : Fields) :
    FeatureQueue.readFeature site milestones path item = (do
      let id ← FeatureQueue.textOf (item.get "id")
        (queueError s!"{path}.id: expected a non-empty string")
      let title ← FeatureQueue.textOf
        (item.getD "title" (item.getD "name" (.str (Platform.strip id))))
        (queueError s!"{path}.title: expected a non-empty title or name")
      let status ← normalizeStatus site.platform (item.get "status") s!"{path}.status"
      let milestoneId ← FeatureQueue.textOf (item.get "milestone")
        (queueError s!"{path}.milestone: expected a non-empty string")
      let shown := String.ofList (site.platform.repr (.str milestoneId))
      match FeatureQueue.milestoneOf site.platform milestones milestoneId with
      | none => .error (queueError s!"{path}.milestone: unknown milestone {shown}")
      | some milestone => do
          let dependencies ← FeatureQueue.readDependencies path item
          let commit := item.getD "accepted_commit" (item.get "commit")
          FeatureQueue.checkCommit path commit
          FeatureQueue.checkCommit path (item.get "commit")
          FeatureQueue.checkOptional site path item
          return (FeatureParts.copy
            ⟨id, title, status, milestone.get "id", dependencies, commit⟩ item)) := by
  unfold FeatureQueue.readFeature
  refine bind_congr fun id => ?_
  have htitle : Fields.getD (item.set "id" (.str (Platform.strip id))) "title"
      (Fields.getD (item.set "id" (.str (Platform.strip id))) "name"
        (Fields.get (item.set "id" (.str (Platform.strip id))) "id")) =
      item.getD "title" (item.getD "name" (.str (Platform.strip id))) := by
    simp [Fields.getD, Fields.get, Fields.get?_set]
  dsimp only
  rw [htitle]
  refine bind_congr fun title => ?_
  have hstatus (value : Json) (other : Json) :
      Fields.get ((item.set "id" value).set "title" other) "status" = item.get "status" := by
    simp [Fields.get, Fields.get?_set]
  rw [hstatus]
  refine bind_congr fun status => ?_
  have hmilestone (value other third : Json) :
      Fields.get (((item.set "id" value).set "title" other).set "status" third) "milestone" =
        item.get "milestone" := by
    simp [Fields.get, Fields.get?_set]
  rw [hmilestone]
  refine bind_congr fun milestoneId => ?_
  cases FeatureQueue.milestoneOf site.platform milestones milestoneId with
  | none => rfl
  | some milestone =>
      dsimp only
      rw [readDependencies_congr item (by
        intro key hkey
        simp only [List.mem_cons, List.not_mem_nil, or_false] at hkey
        rcases hkey with rfl | rfl <;> simp [Fields.get?_set])]
      refine bind_congr fun dependencies => ?_
      have hcommit (first second third fourth fifth : Json) :
          Fields.getD (((((item.set "id" first).set "title" second).set "status" third).set
            "milestone" fourth).set "dependencies" fifth) "accepted_commit"
            (Fields.get (((((item.set "id" first).set "title" second).set "status" third).set
              "milestone" fourth).set "dependencies" fifth) "commit") =
          item.getD "accepted_commit" (item.get "commit") := by
        simp [Fields.getD, Fields.get, Fields.get?_set]
      rw [hcommit]
      -- from here on the item is the copy
      let copy := FeatureParts.copy ⟨id, title, status, milestone.get "id", dependencies,
        item.getD "accepted_commit" (item.get "commit")⟩ item
      have hlegacy : copy.get "commit" = item.get "commit" := FeatureParts.get_copy (by decide)
      have hoptional : FeatureQueue.checkOptional site path copy =
          FeatureQueue.checkOptional site path item := by
        refine checkOptional_congr fun key hkey => FeatureParts.get?_copy ?_
        have hdisjoint : ∀ key ∈ OPTIONAL_FIELDS, key ∉ NORMALIZED_FIELDS := by decide
        exact hdisjoint key hkey
      refine bind_congr fun _ => ?_
      change (FeatureQueue.checkCommit path (copy.get "commit") >>= fun _ =>
        FeatureQueue.checkOptional site path copy >>= fun _ => pure copy) = _
      rw [hlegacy, hoptional]

theorem readFeature_eq_ok {site : QueueSite} {milestones : List Fields} {path : String}
    {item feature : Fields} :
    FeatureQueue.readFeature site milestones path item = .ok feature ↔
      ∃ parts, FeatureAccepted site milestones path item parts ∧ feature = parts.copy item := by
  rw [readFeature_eq]
  constructor
  · intro h
    obtain ⟨id, hid, h⟩ := bind_eq_ok.mp h
    obtain ⟨hid, hidText⟩ := textOf_eq_ok.mp hid
    obtain ⟨title, htitle, h⟩ := bind_eq_ok.mp h
    obtain ⟨htitle, htitleText⟩ := textOf_eq_ok.mp htitle
    obtain ⟨status, hstatus, h⟩ := bind_eq_ok.mp h
    obtain ⟨milestoneId, hmilestoneId, h⟩ := bind_eq_ok.mp h
    obtain ⟨hmilestoneId, hmilestoneText⟩ := textOf_eq_ok.mp hmilestoneId
    dsimp only at h
    cases hmilestone : FeatureQueue.milestoneOf site.platform milestones milestoneId with
    | none =>
        rw [hmilestone] at h
        cases h
    | some milestone =>
        rw [hmilestone] at h
        obtain ⟨dependencies, hdependencies, h⟩ := bind_eq_ok.mp h
        obtain ⟨hagree, hdependencies⟩ := readDependencies_eq_ok.mp hdependencies
        obtain ⟨⟨⟩, hcommit, h⟩ := bind_eq_ok.mp h
        obtain ⟨⟨⟩, hlegacy, h⟩ := bind_eq_ok.mp h
        obtain ⟨⟨⟩, hoptional, h⟩ := bind_eq_ok.mp h
        obtain ⟨text, hstatus⟩ := normalizeStatus_eq_ok.mp hstatus
        refine ⟨⟨id, title, status, milestone.get "id", dependencies,
          item.getD "accepted_commit" (item.get "commit")⟩, ?_, (Except.ok.inj h).symm⟩
        exact {
          id := hid
          idText := hidText
          title := htitle
          titleText := htitleText
          status := ⟨text, hstatus⟩
          milestone := ⟨milestoneId, milestone, hmilestoneId, hmilestoneText, hmilestone, rfl⟩
          agree := hagree
          dependencies := hdependencies
          commit := rfl
          commitText := hcommit
          legacyCommit := hlegacy
          optional := hoptional }
  · rintro ⟨parts, h, rfl⟩
    obtain ⟨text, hstatus⟩ := h.status
    obtain ⟨milestoneId, milestone, hmilestoneId, hmilestoneText, hmilestone, heq⟩ := h.milestone
    refine bind_eq_ok.mpr ⟨_, textOf_eq_ok.mpr ⟨h.id, h.idText⟩, bind_eq_ok.mpr
      ⟨_, textOf_eq_ok.mpr ⟨h.title, h.titleText⟩, bind_eq_ok.mpr
      ⟨_, normalizeStatus_eq_ok.mpr ⟨text, hstatus⟩, bind_eq_ok.mpr
      ⟨_, textOf_eq_ok.mpr ⟨hmilestoneId, hmilestoneText⟩, ?_⟩⟩⟩⟩
    have hdependencies : FeatureQueue.readDependencies path item = .ok parts.dependencies :=
      readDependencies_eq_ok.mpr ⟨h.agree, h.dependencies⟩
    have hcommitText := h.commitText
    have hlegacy := h.legacyCommit
    have hoptional := h.optional
    have hcommit := h.commit
    clear h
    obtain ⟨id, title, status, own, dependencies, commit⟩ := parts
    dsimp only at heq hcommit hdependencies hcommitText ⊢
    subst heq hcommit
    rw [hmilestone]
    dsimp only
    rw [hdependencies, ok_bind, hcommitText, ok_bind, hlegacy, ok_bind, hoptional, ok_bind]
    rfl

/-! ### The whole document -/

/-- The objects of a list of the document. -/
def entries (document : Fields) (name : String) : List Fields :=
  match document.get name with
  | .arr items => items.filterMap fun item => match item with
      | .obj fields => some fields
      | _ => none
  | _ => []

theorem entries_of_objects {document : Fields} {name : String} {items : List Fields}
    (h : document.get name = .arr (items.map Json.obj)) : entries document name = items := by
  rw [entries, h]
  simp [List.filterMap_map]

theorem readAll_eq_ok {name : String} {read : String → Fields → Result Fields}
    {values : List Json} {items : List Fields} :
    FeatureQueue.readAll name read values = .ok items ↔
      ∃ raws : List Fields, values = raws.map Json.obj ∧ raws.length = items.length ∧
        ∀ (i : Nat) (raw item : Fields), raws[i]? = some raw → items[i]? = some item →
          read s!"$.{name}[{i}]" raw = .ok item := by
  unfold FeatureQueue.readAll
  rw [mapIdx_mapM_eq_ok]
  constructor
  · rintro ⟨hlength, hread⟩
    have objects : ∀ value ∈ values, ∃ raw : Fields, value = .obj raw := by
      intro value hvalue
      obtain ⟨i, hi, rfl⟩ := List.mem_iff_getElem.mp hvalue
      have hi' : i < items.length := hlength ▸ hi
      have h := hread i _ _ (List.getElem?_eq_getElem hi) (List.getElem?_eq_getElem hi')
      dsimp only at h
      split at h
      · rename_i raw hraw
        exact ⟨raw, hraw⟩
      · cases h
    obtain ⟨raws, rfl⟩ : ∃ raws : List Fields, values = raws.map Json.obj := by
      clear hread hlength
      induction values with
      | nil => exact ⟨[], rfl⟩
      | cons value rest ih =>
          obtain ⟨raw, rfl⟩ := objects value List.mem_cons_self
          obtain ⟨raws, rfl⟩ := ih fun value h => objects value (List.mem_cons_of_mem _ h)
          exact ⟨raw :: raws, rfl⟩
    refine ⟨raws, rfl, by simpa using hlength, fun i raw item hraw hitem => ?_⟩
    exact hread i (.obj raw) item (by rw [List.getElem?_map, hraw, Option.map_some]) hitem
  · rintro ⟨raws, rfl, hlength, hread⟩
    refine ⟨by simpa using hlength, fun i value item hvalue hitem => ?_⟩
    rw [List.getElem?_map, Option.map_eq_some_iff] at hvalue
    obtain ⟨raw, hraw, rfl⟩ := hvalue
    exact hread i raw item hraw hitem

/-- What an accepted document holds, and the queue that was read from it. -/
structure QueueRead (site : QueueSite) (document : Fields) (queue : FeatureQueue) : Prop where
  milestoneObjects : document.get "milestones" = .arr ((entries document "milestones").map .obj)
  featureObjects : document.get "features" = .arr ((entries document "features").map .obj)
  milestoneCount : (entries document "milestones").length = queue.milestones.length
  milestones : ∀ (i : Nat) (raw milestone : Fields), (entries document "milestones")[i]? = some raw →
    queue.milestones[i]? = some milestone → MilestoneRead site.platform raw milestone
  milestoneIds : (queue.milestones.map fun item => item.get "id").Nodup
  normalizedIds : (queue.milestones.map fun item => item.get "normalized_id").Nodup
  featureCount : (entries document "features").length = queue.features.length
  features : ∀ (i : Nat) (raw feature : Fields), (entries document "features")[i]? = some raw →
    queue.features[i]? = some feature →
    ∃ parts, FeatureAccepted site queue.milestones s!"$.features[{i}]" raw parts ∧
      feature = parts.copy raw
  featureIds : (queue.features.map fun item => item.get "id").Nodup
  known : ∀ feature ∈ queue.features, ∀ dependencyId ∈ FeatureQueue.dependencyIds feature,
    Json.str dependencyId ∈ queue.features.map fun item => item.get "id"

theorem unknown_eq_nil {texts : List String} {known : List Json} :
    FeatureQueue.unknown (texts.map Json.str) known = [] ↔
      ∀ text ∈ texts, Json.str text ∈ known := by
  rw [FeatureQueue.unknown, List.eq_nil_iff_forall_not_mem]
  simp only [List.mem_insertionSort, List.mem_dedup, List.mem_filterMap, List.mem_filter,
    List.mem_map, decide_eq_true_eq, not_exists, not_and]
  constructor
  · intro h text htext
    by_contra hnot
    exact h text (.str text) ⟨⟨text, htext, rfl⟩, hnot⟩ rfl
  · rintro h text _ ⟨⟨other, hother, rfl⟩, hnot⟩ _
    exact hnot (h other hother)

theorem checkDependencies_eq_ok {features : List Fields} {index : Nat} {parts : FeatureParts}
    {item : Fields} {u : Unit} :
    FeatureQueue.checkDependencies features index (parts.copy item) = .ok u ↔
      ∀ dependencyId ∈ parts.dependencies,
        Json.str dependencyId ∈ features.map fun item => item.get "id" := by
  unfold FeatureQueue.checkDependencies
  rw [parts.get_copy_dependencies]
  dsimp only
  rw [require_eq_ok, unknown_eq_nil]

/-- The reading of a document, list by list. -/
theorem ofFields_eq {site : QueueSite} {document : Fields} {milestones features : List Json}
    (hmilestones : document.get "milestones" = .arr milestones)
    (hfeatures : document.get "features" = .arr features) :
    FeatureQueue.ofFields site document = (do
      let milestones ← FeatureQueue.readAll "milestones"
        (FeatureQueue.readMilestone site.platform) milestones
      require (milestones.map fun item => item.get "id").Nodup
        (queueError "$.milestones: milestone IDs must be unique")
      require (milestones.map fun item => item.get "normalized_id").Nodup
        (queueError "$.milestones: milestone IDs are ambiguous after normalization")
      let features ← FeatureQueue.readAll "features"
        (FeatureQueue.readFeature site milestones) features
      require (features.map fun item => item.get "id").Nodup
        (queueError "$.features: feature IDs must be unique")
      requireAll (fun entry => FeatureQueue.checkDependencies features entry.1 entry.2)
        (features.mapIdx fun index item => (index, item))
      return ⟨milestones, features⟩) := by
  rw [FeatureQueue.ofFields, hmilestones, hfeatures]

/-- The dependencies of every feature are known. -/
theorem requireAll_dependencies {site : QueueSite} {milestones raws features : List Fields}
    (hlength : raws.length = features.length)
    (hread : ∀ (i : Nat) (raw feature : Fields), raws[i]? = some raw → features[i]? = some feature →
      ∃ parts, FeatureAccepted site milestones s!"$.features[{i}]" raw parts ∧
        feature = parts.copy raw) {u : Unit} :
    requireAll (fun entry => FeatureQueue.checkDependencies features entry.1 entry.2)
        (features.mapIdx fun index item => (index, item)) = .ok u ↔
      ∀ feature ∈ features, ∀ dependencyId ∈ FeatureQueue.dependencyIds feature,
        Json.str dependencyId ∈ features.map fun item => item.get "id" := by
  have copies : ∀ (i : Nat) (feature : Fields), features[i]? = some feature →
      ∃ parts : FeatureParts, ∃ raw, feature = parts.copy raw := by
    intro i feature hfeature
    have hi : i < raws.length := by
      rw [hlength]
      exact (List.getElem?_eq_some_iff.mp hfeature).1
    obtain ⟨parts, -, heq⟩ := hread i _ feature (List.getElem?_eq_getElem hi) hfeature
    exact ⟨parts, _, heq⟩
  rw [requireAll_eq_ok]
  constructor
  · intro h feature hfeature dependencyId hdependency
    obtain ⟨i, hi, rfl⟩ := List.mem_iff_getElem.mp hfeature
    obtain ⟨parts, raw, heq⟩ := copies i _ (List.getElem?_eq_getElem hi)
    have hentry : (i, features[i]) ∈ features.mapIdx fun index item => (index, item) :=
      List.mem_mapIdx.mpr ⟨i, hi, rfl⟩
    have hcheck := h _ hentry
    dsimp only at hcheck
    rw [heq, checkDependencies_eq_ok] at hcheck
    rw [heq, dependencyIds_copy] at hdependency
    exact hcheck dependencyId hdependency
  · intro h entry hentry
    obtain ⟨i, hi, rfl⟩ := List.mem_mapIdx.mp hentry
    obtain ⟨parts, raw, heq⟩ := copies i _ (List.getElem?_eq_getElem hi)
    have hknown := h features[i] (List.getElem_mem hi)
    dsimp only
    rw [heq, dependencyIds_copy] at hknown
    rw [heq]
    exact checkDependencies_eq_ok.mpr hknown

theorem ofFields_eq_ok {site : QueueSite} {document : Fields} {queue : FeatureQueue} :
    FeatureQueue.ofFields site document = .ok queue ↔ QueueRead site document queue := by
  constructor
  · intro h
    have hlists : ∃ milestones features, document.get "milestones" = .arr milestones ∧
        document.get "features" = .arr features := by
      unfold FeatureQueue.ofFields at h
      split at h
      · rename_i milestones features hmilestones hfeatures
        exact ⟨milestones, features, hmilestones, hfeatures⟩
      · cases h
      · cases h
    obtain ⟨milestones, features, hmilestones, hfeatures⟩ := hlists
    rw [ofFields_eq hmilestones hfeatures] at h
    obtain ⟨milestones', hreadMilestones, h⟩ := bind_eq_ok.mp h
    obtain ⟨hids, h⟩ := require_bind_eq_ok.mp h
    obtain ⟨hnormalized, h⟩ := require_bind_eq_ok.mp h
    obtain ⟨features', hreadFeatures, h⟩ := bind_eq_ok.mp h
    obtain ⟨hfeatureIds, h⟩ := require_bind_eq_ok.mp h
    obtain ⟨u, hknown, h⟩ := bind_eq_ok.mp h
    cases h
    obtain ⟨rawMilestones, rfl, hmilestoneCount, hmilestoneReads⟩ :=
      readAll_eq_ok.mp hreadMilestones
    obtain ⟨rawFeatures, rfl, hfeatureCount, hfeatureReads⟩ := readAll_eq_ok.mp hreadFeatures
    have hreads := fun i raw feature hraw hfeature =>
      readFeature_eq_ok.mp (hfeatureReads i raw feature hraw hfeature)
    rw [requireAll_dependencies hfeatureCount hreads] at hknown
    have hmilestoneEntries := entries_of_objects hmilestones
    have hfeatureEntries := entries_of_objects hfeatures
    exact {
      milestoneObjects := hmilestoneEntries.symm ▸ hmilestones
      featureObjects := hfeatureEntries.symm ▸ hfeatures
      milestoneCount := hmilestoneEntries.symm ▸ hmilestoneCount
      milestones := by
        rw [hmilestoneEntries]
        exact fun i raw milestone hraw hmilestone =>
          readMilestone_eq_ok.mp (hmilestoneReads i raw milestone hraw hmilestone)
      milestoneIds := hids
      normalizedIds := hnormalized
      featureCount := hfeatureEntries.symm ▸ hfeatureCount
      features := by
        rw [hfeatureEntries]
        exact hreads
      featureIds := hfeatureIds
      known := hknown }
  · intro h
    rw [ofFields_eq h.milestoneObjects h.featureObjects]
    refine bind_eq_ok.mpr ⟨_, readAll_eq_ok.mpr ⟨_, rfl, h.milestoneCount,
      fun i raw milestone hraw hmilestone => readMilestone_eq_ok.mpr
        (h.milestones i raw milestone hraw hmilestone)⟩, ?_⟩
    refine require_bind_eq_ok.mpr ⟨h.milestoneIds, require_bind_eq_ok.mpr ⟨h.normalizedIds, ?_⟩⟩
    refine bind_eq_ok.mpr ⟨_, readAll_eq_ok.mpr ⟨_, rfl, h.featureCount,
      fun i raw feature hraw hfeature => readFeature_eq_ok.mpr
        (h.features i raw feature hraw hfeature)⟩, ?_⟩
    refine require_bind_eq_ok.mpr ⟨h.featureIds, bind_eq_ok.mpr ⟨(), ?_, rfl⟩⟩
    exact (requireAll_dependencies h.featureCount h.features).mpr h.known

end Conveyor
