import Conveyor.DependencyGates
import Conveyor.FeatureDecisions

/-!
# What a planning transaction selects

A scoping session and the resolution of queue decisions each leave one feature ready and record
it as selected. The results here say when `FeatureQueue` would execute that feature: when it is
ready and the one that `selectNext` takes.
-/

namespace Conveyor

open Library

variable {site : PlanningSite} {file : Option Json} {queue : FeatureQueue}

/-! ### The only ready feature -/

theorem fromLocation_eq_ok {site : QueueSite}
    (h : FeatureQueue.fromLocation site file = .ok queue) :
    ∃ document, FeatureQueue.ofFields site document = .ok queue := by
  unfold FeatureQueue.fromLocation at h
  split at h
  · cases h
  · rename_i document
    obtain ⟨⟨⟩, -, hfields⟩ := bind_eq_ok.mp h
    exact ⟨document, hfields⟩
  · cases h

/-- The status with which a feature may be taken. -/
def MarkedReady (feature : Fields) : Prop := feature.get "status" = .str "ready"

instance (feature : Fields) : Decidable (MarkedReady feature) :=
  inferInstanceAs (Decidable (_ = _))

/-- A candidate of `ready`, with whether it is taken. -/
def checkCandidate (site : QueueSite) (queue : FeatureQueue) (candidate : Nat × Fields) :
    Result ((Nat × Fields) × Bool) := do
  let takes ← queue.eligible site candidate.2
  return (candidate, takes)

theorem checkCandidate_of_not {site : QueueSite} {candidate : Nat × Fields}
    (h : ¬ MarkedReady candidate.2) :
    checkCandidate site queue candidate = .ok (candidate, false) := by
  have hskipped : queue.eligible site candidate.2 = .ok false := if_pos h
  rw [checkCandidate, hskipped]
  rfl

theorem checked_none {site : QueueSite} {candidates : List (Nat × Fields)}
    (h : ∀ candidate ∈ candidates, ¬ MarkedReady candidate.2) :
    candidates.mapM (checkCandidate site queue) =
      .ok (candidates.map fun candidate => (candidate, false)) := by
  induction candidates with
  | nil => rfl
  | cons candidate rest ih =>
      rw [List.forall_mem_cons] at h
      rw [List.mapM_cons, checkCandidate_of_not h.1, ok_bind, ih h.2, ok_bind]
      rfl

/-- Where one candidate is marked ready, and taken, it is the only one. -/
theorem checked_one {site : QueueSite} {candidates : List (Nat × Fields)} {feature : Fields}
    (honly : (candidates.map Prod.snd).filter (fun item => MarkedReady item) = [feature])
    (htakes : queue.eligible site feature = .ok true) :
    ∃ checked place, candidates.mapM (checkCandidate site queue) = .ok checked ∧
      (checked.filter fun entry => entry.2) = [((place, feature), true)] := by
  induction candidates with
  | nil => cases honly
  | cons candidate rest ih =>
      obtain ⟨place, item⟩ := candidate
      rw [List.map_cons, List.filter_cons] at honly
      split at honly
      · obtain ⟨rfl, hrest⟩ := List.cons.inj honly
        have hnone : ∀ candidate ∈ rest, ¬ MarkedReady candidate.2 := by
          intro candidate hcandidate
          have hskipped := List.filter_eq_nil_iff.mp hrest candidate.2
            (List.mem_map_of_mem hcandidate)
          exact fun hready => hskipped (decide_eq_true hready)
        refine ⟨((place, item), true) :: rest.map fun candidate => (candidate, false), place,
          ?_, ?_⟩
        · rw [List.mapM_cons, checkCandidate, htakes, ok_bind, checked_none hnone]
          rfl
        · rw [List.filter_cons, if_pos rfl, List.filter_eq_nil_iff.mpr]
          intro entry hentry
          obtain ⟨candidate, -, rfl⟩ := List.mem_map.mp hentry
          exact Bool.false_ne_true
      · rename_i hnot
        obtain ⟨checked, at', hchecked, hfilter⟩ := ih honly
        refine ⟨((place, item), false) :: checked, at', ?_, ?_⟩
        · have hskipped : ¬ MarkedReady item := fun hready => hnot (decide_eq_true hready)
          rw [List.mapM_cons, checkCandidate_of_not hskipped, ok_bind, hchecked]
          rfl
        · rw [List.filter_cons, if_neg Bool.false_ne_true, hfilter]

theorem ready_of_only {site : QueueSite} {milestoneId : String} {feature : Fields}
    (honly : (queue.featuresForMilestone site.platform milestoneId).filter
      (fun item => MarkedReady item) = [feature])
    (htakes : queue.eligible site feature = .ok true) :
    queue.ready site milestoneId = .ok [feature] := by
  have hplaces : ((queue.featuresForMilestone site.platform milestoneId).mapIdx
      fun index feature => (index, feature)).map Prod.snd =
      queue.featuresForMilestone site.platform milestoneId := by
    apply List.ext_getElem?
    intro i
    simp
  obtain ⟨checked, place, hchecked, hfilter⟩ := checked_one (hplaces.symm ▸ honly) htakes
  unfold FeatureQueue.ready
  have hbody : (fun candidate : Nat × Fields => do
      let takes ← queue.eligible site candidate.2
      return (candidate, takes)) = checkCandidate site queue := rfl
  dsimp only
  rw [hbody, hchecked, ok_bind, hfilter]
  rfl

theorem selectNext_of_ready {site : QueueSite} {milestoneId : String} {feature : Fields}
    {others : List Fields} (h : queue.ready site milestoneId = .ok (feature :: others)) :
    ∃ selection, queue.selectNext site milestoneId = .ok (some selection) ∧
      selection.featureId = feature.get "id" ∧ selection.feature = feature := by
  unfold FeatureQueue.selectNext
  rw [h]
  exact ⟨_, rfl, rfl, rfl⟩

/-! ### What readiness asks of a ready feature -/

theorem specification_checked {site : QueueSite} {path : String} {item : Fields}
    (h : FeatureQueue.checkOptional site path item = .ok ()) :
    FeatureQueue.checkSpecification site path (FeatureQueue.specificationOf item) = .ok () := by
  unfold FeatureQueue.checkOptional at h
  dsimp only at h
  cases hlast : FeatureQueue.checkSpecification site path (FeatureQueue.specificationOf item) with
  | ok u => rfl
  | error failure =>
      -- an error at the end is an error, whatever the checks before it found
      rw [hlast] at h
      split at h <;> split at h <;> split at h <;> simp [bind_eq_ok] at h

/-- A specification that the queue has read leads to a file or not; nothing else can be wrong
    with it. -/
theorem specified_iff {site : QueueSite} {document : Fields}
    (h : QueueRead site document queue) {feature : Fields} (hmem : feature ∈ queue.features)
    {criterion : Json} {criteria : List Json}
    (hcriteria : feature.get "acceptance_criteria" = .arr (criterion :: criteria)) :
    FeatureQueue.specified site feature = true ↔
      ∃ path, FeatureQueue.specificationOf feature = .str path ∧ site.isFile path = true := by
  obtain ⟨i, raw, parts, -, -, hparts, rfl⟩ := h.feature_copy hmem
  have hsame : FeatureQueue.specificationOf (parts.copy raw) =
      FeatureQueue.specificationOf raw := by
    unfold FeatureQueue.specificationOf
    rw [parts.get_copy (by decide), parts.get_copy (by decide), parts.get_copy (by decide)]
  have hchecked := specification_checked hparts.optional
  unfold FeatureQueue.specified
  rw [hcriteria, hsame]
  cases hpath : FeatureQueue.specificationOf raw with
  | str path =>
      rw [hpath] at hchecked
      obtain ⟨text, htext, hchecked⟩ := bind_eq_ok.mp hchecked
      obtain ⟨heq, hhas⟩ := textOf_eq_ok.mp htext
      cases heq
      obtain ⟨hleaves, hchecked⟩ := require_bind_eq_ok.mp hchecked
      have hescapes := require_eq_ok.mp hchecked
      have hne : path ≠ "" := by
        rintro rfl
        exact absurd hhas (by decide)
      simp [hleaves, hescapes, hne]
  | _ => simp

/-- Readiness of a feature that is marked ready. -/
theorem readiness_iff {site : QueueSite} {feature : Fields} (hready : MarkedReady feature) :
    (∃ readiness, queue.readiness site feature = .ok readiness ∧ readiness.ready = true) ↔
      queue.dependenciesComplete site.platform feature = .ok true ∧
        feature.get "requires_human_decision" ≠ .bool true ∧
        FeatureQueue.specified site feature = true := by
  have hstatus : site.platform.str (feature.get "status") = "ready" := by
    rw [hready, Platform.str_str]
  unfold FeatureQueue.readiness
  rw [hstatus]
  cases hcomplete : queue.dependenciesComplete site.platform feature with
  | error failure => simp [bind, Except.bind]
  | ok complete =>
      rw [ok_bind]
      dsimp only
      rw [if_neg (by decide), if_neg (by decide), if_neg (by decide)]
      split
      · rename_i hhuman
        refine iff_of_false ?_ fun hall => hall.2.1 hhuman
        rintro ⟨readiness, hok, htrue⟩
        cases hok
        cases htrue
      · rename_i hhuman
        cases complete with
        | false =>
            refine iff_of_false ?_ fun hall => by cases hall.1
            rintro ⟨readiness, hok, htrue⟩
            rw [if_pos rfl] at hok
            obtain ⟨names, -, hok⟩ := bind_eq_ok.mp hok
            cases hok
            cases htrue
        | true =>
            rw [if_neg (by decide)]
            split
            · rename_i hspecified
              refine iff_of_false ?_ fun hall => ?_
              · rintro ⟨readiness, hok, htrue⟩
                cases hok
                cases htrue
              · rw [hspecified] at hall
                cases hall.2.2
            · rename_i hspecified
              refine iff_of_true ⟨_, rfl, rfl⟩ ⟨rfl, hhuman, ?_⟩
              exact Bool.not_eq_false _ ▸ hspecified

theorem eligible_of {site : QueueSite} {feature : Fields} (hready : MarkedReady feature)
    (hcomplete : queue.dependenciesComplete site.platform feature = .ok true)
    (hhuman : feature.get "requires_human_decision" ≠ .bool true)
    (hspecified : FeatureQueue.specified site feature = true) :
    queue.eligible site feature = .ok true := by
  have hstatus : feature.get "status" = .str "ready" := hready
  unfold FeatureQueue.eligible
  rw [if_neg (not_not.mpr hstatus), if_neg hhuman, hcomplete, ok_bind, hspecified]
  rfl

/-! ### What the planners leave -/

/-- A feature is found under its own identifier. -/
theorem byId_get? {P : Platform} {items : List Fields} {dict : Dict Fields}
    (htexts : ∀ item ∈ items, ∃ id, item.get "id" = .str id)
    (hnodup : (items.map fun item => item.get "id").Nodup) (h : byId P items = .ok dict)
    {feature : Fields} (hmem : feature ∈ items) {id : String} (hid : feature.get "id" = .str id) :
    dict.get? id = some feature := by
  unfold byId at h
  generalize ([] : Dict Fields) = start at h
  induction items generalizing start with
  | nil => cases hmem
  | cons item rest ih =>
      rw [List.map_cons, List.nodup_cons] at hnodup
      rw [List.forall_mem_cons] at htexts
      rw [List.foldlM_cons, bind_eq_ok] at h
      obtain ⟨next, hnext, hrest⟩ := h
      rcases List.mem_cons.mp hmem with rfl | hmem
      · rw [Fields.get?_of_get hid (by simp)] at hnext
        cases hnext
        -- no later feature has the identifier
        refine foldlM_invariant (fun dict : Dict Fields => dict.get? id = some feature)
          ?_ ?_ hrest
        · intro current other following hother hcurrent hfollowing
          obtain ⟨otherId, hotherId⟩ := htexts.2 other hother
          rw [Fields.get?_of_get hotherId (by simp)] at hfollowing
          cases hfollowing
          rw [Dict.get?_insert, if_neg, hcurrent]
          rintro rfl
          exact hnodup.1 (List.mem_map.mpr ⟨other, hother, hotherId.trans hid.symm⟩)
        · rw [Platform.str_str, Dict.get?_insert, if_pos rfl]
      · exact ih htexts.2 hnodup.2 hmem next hrest

theorem QueueRead.feature_texts {site : QueueSite} {document : Fields}
    (h : QueueRead site document queue) :
    ∀ item ∈ queue.features, ∃ id, item.get "id" = .str id := by
  intro item hitem
  obtain ⟨i, raw, parts, -, -, -, rfl⟩ := h.feature_copy hitem
  exact ⟨_, parts.get_copy_id raw⟩

/-- The one feature of the milestone that a planner leaves ready. -/
structure LeftReady (site : QueueSite) (queue : FeatureQueue) (milestoneId featureId : String)
    (feature : Fields) : Prop where
  mem : feature ∈ queue.features
  id : feature.get "id" = .str featureId
  only : (queue.featuresForMilestone site.platform milestoneId).filter
    (fun item => MarkedReady item) = [feature]

theorem LeftReady.marked {site : QueueSite} {milestoneId featureId : String} {feature : Fields}
    (h : LeftReady site queue milestoneId featureId feature) : MarkedReady feature := by
  have hmem : feature ∈ (queue.featuresForMilestone site.platform milestoneId).filter
      (fun item => MarkedReady item) := by
    rw [h.only]
    exact List.mem_singleton_self feature
  exact of_decide_eq_true (List.mem_filter.mp hmem).2

theorem mem_of_featuresForMilestone {P : Platform} {milestoneId : String} {feature : Fields}
    (h : feature ∈ queue.featuresForMilestone P milestoneId) : feature ∈ queue.features := by
  unfold FeatureQueue.featuresForMilestone at h
  split at h
  · cases h
  · exact List.mem_of_mem_filter h

theorem leftReady_of_readyIds {site : QueueSite} {document : Fields}
    (hread : QueueRead site document queue) {milestoneId featureId : String}
    (h : readyIds site.platform queue milestoneId = [featureId]) :
    ∃ feature, LeftReady site queue milestoneId featureId feature := by
  obtain ⟨feature, honly, hid⟩ := List.map_eq_singleton_iff.mp h
  have hmem : feature ∈ queue.featuresForMilestone site.platform milestoneId := by
    refine List.mem_of_mem_filter (p := fun item => MarkedReady item) ?_
    exact honly ▸ List.mem_singleton_self feature
  obtain ⟨id, htext⟩ := hread.feature_texts feature (mem_of_featuresForMilestone hmem)
  refine ⟨feature, mem_of_featuresForMilestone hmem, ?_, honly⟩
  rw [htext, Platform.str_str] at hid
  rw [htext, hid]

/-- A planner's queue would execute the feature. -/
def SelectsExecutable (site : QueueSite) (queue : FeatureQueue) (milestoneId featureId : String) :
    Prop :=
  ∃ feature readiness selection, queue.feature featureId = some feature ∧
    queue.readiness site feature = .ok readiness ∧ readiness.ready = true ∧
    queue.selectNext site milestoneId = .ok (some selection) ∧
    selection.featureId = .str featureId ∧ selection.feature = feature

/-- What the planners do not check of the feature that they leave ready. -/
def Unblocked (site : QueueSite) (queue : FeatureQueue) (featureId : String) : Prop :=
  ∃ feature, queue.feature featureId = some feature ∧
    queue.dependenciesComplete site.platform feature = .ok true ∧
    feature.get "requires_human_decision" ≠ .bool true ∧
    ∃ path, FeatureQueue.specificationOf feature = .str path ∧ site.isFile path = true

theorem selectsExecutable_iff {site : QueueSite} {document : Fields}
    (hread : QueueRead site document queue) {milestoneId featureId : String} {feature : Fields}
    (h : LeftReady site queue milestoneId featureId feature) {criterion : Json}
    {criteria : List Json}
    (hcriteria : feature.get "acceptance_criteria" = .arr (criterion :: criteria)) :
    SelectsExecutable site queue milestoneId featureId ↔ Unblocked site queue featureId := by
  have hfound := (FeatureQueue.feature_eq_some hread).mpr ⟨h.mem, h.id⟩
  have hspecified := specified_iff hread h.mem hcriteria
  have hreadiness := @readiness_iff queue site feature h.marked
  constructor
  · rintro ⟨other, readiness, selection, hother, hok, htrue, -⟩
    cases hfound.symm.trans hother
    obtain ⟨hcomplete, hhuman, hspec⟩ := hreadiness.mp ⟨readiness, hok, htrue⟩
    exact ⟨feature, hfound, hcomplete, hhuman, hspecified.mp hspec⟩
  · rintro ⟨other, hother, hcomplete, hhuman, hspec⟩
    cases hfound.symm.trans hother
    have hspec := hspecified.mpr hspec
    obtain ⟨readiness, hok, htrue⟩ := hreadiness.mpr ⟨hcomplete, hhuman, hspec⟩
    have htakes := eligible_of h.marked hcomplete hhuman hspec
    obtain ⟨selection, hselects, hselected, hsame⟩ :=
      selectNext_of_ready (ready_of_only h.only htakes)
    exact ⟨feature, readiness, selection, hfound, hok, htrue, hselects, hselected.trans h.id,
      hsame⟩

/-! ### Scoping -/

theorem criteria_of_checkScoped {request : ScopeFeatureRequest} {baseline after : Dict Fields}
    {featureId : String} {feature : Fields} (hafter : after.get? featureId = some feature)
    (h : checkScoped site request baseline after featureId = .ok ()) :
    ∃ criterion criteria, feature.get "acceptance_criteria" = .arr (criterion :: criteria) := by
  have hlookup : lookupKey after featureId = .ok feature := by
    rw [lookupKey, hafter]
  unfold checkScoped at h
  rw [hlookup, ok_bind] at h
  obtain ⟨-, h⟩ := require_bind_eq_ok.mp h
  obtain ⟨-, h⟩ := require_bind_eq_ok.mp h
  obtain ⟨policy, -, h⟩ := bind_eq_ok.mp h
  obtain ⟨-, h⟩ := require_bind_eq_ok.mp h
  obtain ⟨own, -, h⟩ := bind_eq_ok.mp h
  obtain ⟨_, -, h⟩ := bind_eq_ok.mp h
  obtain ⟨_, -, h⟩ := bind_eq_ok.mp h
  obtain ⟨spec, -, h⟩ := bind_eq_ok.mp h
  obtain ⟨-, h⟩ := require_bind_eq_ok.mp h
  split at h
  · rename_i criterion criteria hcriteria
    exact ⟨criterion, criteria, hcriteria⟩
  · cases h

/-- What a scoping session's result says of the feature that it leaves ready. -/
theorem scoped_leftReady {request : ScopeFeatureRequest} {changedPaths : List String}
    {result : ScopeResult} {document : Fields} (hread : QueueRead site.toQueueSite document queue)
    (hqueue : FeatureQueue.fromLocation site.toQueueSite file = .ok queue)
    (h : validateResult site request changedPaths file = .ok result) :
    ∃ feature criterion criteria,
      LeftReady site.toQueueSite queue (request.activeMilestone.getD "") result.readyFeature
        feature ∧
      feature.get "acceptance_criteria" = .arr (criterion :: criteria) := by
  unfold validateResult at h
  rw [hqueue, ok_bind] at h
  obtain ⟨_, -, h⟩ := bind_eq_ok.mp h
  obtain ⟨baseline, -, h⟩ := bind_eq_ok.mp h
  obtain ⟨after, hafter, h⟩ := bind_eq_ok.mp h
  obtain ⟨_, -, h⟩ := bind_eq_ok.mp h
  obtain ⟨_, -, h⟩ := bind_eq_ok.mp h
  obtain ⟨hready, h⟩ := require_bind_eq_ok.mp h
  obtain ⟨_, hscoped, h⟩ := bind_eq_ok.mp h
  obtain ⟨-, h⟩ := require_bind_eq_ok.mp h
  obtain ⟨_, -, h⟩ := bind_eq_ok.mp h
  obtain ⟨-, h⟩ := require_bind_eq_ok.mp h
  cases h
  obtain ⟨feature, hleft⟩ := leftReady_of_readyIds hread hready
  have hfound := byId_get? hread.feature_texts hread.featureIds hafter hleft.mem hleft.id
  have hchecked := requireAll_eq_ok.mp hscoped _ request.readyRequested
  obtain ⟨criterion, criteria, hcriteria⟩ := criteria_of_checkScoped hfound hchecked
  exact ⟨feature, criterion, criteria, hleft, hcriteria⟩

/-! ### Decisions -/

/-- The acceptance criteria of the feature under an identifier. -/
def criteriaAt (features : Dict Fields) (featureId : String) : Option Json :=
  (features.get? featureId).map fun feature => feature.get "acceptance_criteria"

theorem lookupKey_eq_ok {α : Type} {dict : Dict α} {key : String} {value : α} :
    lookupKey dict key = .ok value ↔ dict.get? key = some value := by
  unfold lookupKey
  cases dict.get? key <;> simp

theorem criteriaAt_insert {features : Dict Fields} {key : String} {feature feature' : Fields}
    (hkey : features.get? key = some feature)
    (hsame : feature'.get "acceptance_criteria" = feature.get "acceptance_criteria")
    (featureId : String) :
    criteriaAt (features.insert key feature') featureId = criteriaAt features featureId := by
  unfold criteriaAt
  rw [Dict.get?_insert]
  split
  · rename_i heq
    rw [heq, hkey, Option.map_some, Option.map_some, hsame]
  · rfl

theorem resolvedFeature_criteria {request : FeatureDecisionRequest} {decision : FeatureDecision}
    {feature feature' : Fields} (h : resolvedFeature request decision feature = .ok feature') :
    feature'.get "acceptance_criteria" = feature.get "acceptance_criteria" := by
  obtain ⟨before, -, h⟩ := bind_eq_ok.mp h
  obtain ⟨after, -, h⟩ := bind_eq_ok.mp h
  cases h
  cases decision.approvedDependencies <;>
    simp [Fields.get, Fields.get?_set_of_ne]

theorem expectedFeatures_criteria {request : FeatureDecisionRequest} {baseline expected : Dict Fields}
    (h : expectedFeatures request baseline = .ok expected) (featureId : String) :
    criteriaAt expected featureId = criteriaAt baseline featureId := by
  obtain ⟨resolved, hresolved, h⟩ := bind_eq_ok.mp h
  obtain ⟨previous, hprevious, h⟩ := bind_eq_ok.mp h
  cases h
  have hkept : criteriaAt resolved featureId = criteriaAt baseline featureId := by
    refine foldlM_invariant (fun features : Dict Fields =>
      criteriaAt features featureId = criteriaAt baseline featureId) ?_ rfl hresolved
    intro features decision following _ hfeatures hfollowing
    obtain ⟨feature, hfeature, hfollowing⟩ := bind_eq_ok.mp hfollowing
    obtain ⟨feature', hfeature', hfollowing⟩ := bind_eq_ok.mp hfollowing
    cases hfollowing
    rw [criteriaAt_insert (lookupKey_eq_ok.mp hfeature) (resolvedFeature_criteria hfeature'),
      hfeatures]
  rw [criteriaAt_insert (lookupKey_eq_ok.mp hprevious) ?_, hkept]
  simp [returnedFeature, Fields.get, Fields.get?_set_of_ne]

theorem criteria_of_checkSelected {decisions : List FeatureDecision} {selectedFeature : String}
    (h : checkSelected site queue decisions selectedFeature = .ok ()) :
    ∃ feature criterion criteria, queue.feature selectedFeature = some feature ∧
      feature.get "acceptance_criteria" = .arr (criterion :: criteria) := by
  unfold checkSelected at h
  dsimp only at h
  split at h
  case h_2 => cases h
  obtain ⟨decision, -, h⟩ := bind_eq_ok.mp h
  obtain ⟨-, h⟩ := require_bind_eq_ok.mp h
  obtain ⟨dependencies, -, h⟩ := bind_eq_ok.mp h
  obtain ⟨-, h⟩ := require_bind_eq_ok.mp h
  obtain ⟨complete, -, h⟩ := bind_eq_ok.mp h
  obtain ⟨-, h⟩ := require_bind_eq_ok.mp h
  split at h
  · rename_i criterion criteria _ hcriteria _
    cases hfeature : queue.feature selectedFeature with
    | none =>
        rw [hfeature] at hcriteria
        cases hcriteria
    | some feature =>
        rw [hfeature, Option.getD_some] at hcriteria
        exact ⟨feature, criterion, criteria, rfl, hcriteria⟩
  · cases h

/-- What an inspected request carries of the queue that was inspected. -/
theorem inspected_criteria {context : DecisionContext} {selectedFeature : String}
    {request : FeatureDecisionRequest}
    (h : inspectDecisions site context selectedFeature file = .ok request) :
    ∃ document queue feature criterion criteria,
      QueueRead site.toQueueSite document queue ∧ request.baselineFeatures = queue.features ∧
      queue.feature request.selectedFeature = some feature ∧
      feature.get "acceptance_criteria" = .arr (criterion :: criteria) := by
  obtain ⟨decisionFile, -, h⟩ := bind_eq_ok.mp h
  obtain ⟨⟨previousId, desired⟩, -, h⟩ := bind_eq_ok.mp h
  obtain ⟨queue, hqueue, h⟩ := bind_eq_ok.mp h
  obtain ⟨_, -, h⟩ := bind_eq_ok.mp h
  obtain ⟨decisions, -, h⟩ := bind_eq_ok.mp h
  obtain ⟨_, hselected, h⟩ := bind_eq_ok.mp h
  obtain ⟨_, -, h⟩ := bind_eq_ok.mp h
  obtain ⟨_, -, h⟩ := bind_eq_ok.mp h
  cases h
  obtain ⟨document, hfields⟩ := fromLocation_eq_ok hqueue
  obtain ⟨feature, criterion, criteria, hfound, hcriteria⟩ := criteria_of_checkSelected hselected
  exact ⟨document, queue, feature, criterion, criteria, ofFields_eq_ok.mp hfields, rfl, hfound,
    hcriteria⟩

/-- What the check of rendered decisions says of the feature that they leave ready. -/
theorem rendered_leftReady {before : PlanningSite} {beforeFile : Option Json}
    {context : DecisionContext} {selectedFeature : String} {request : FeatureDecisionRequest}
    {changedPaths : List String} {result : DecisionResult} {document : Fields}
    (hinspect : inspectDecisions before context selectedFeature beforeFile = .ok request)
    (hread : QueueRead site.toQueueSite document queue)
    (hqueue : FeatureQueue.fromLocation site.toQueueSite file = .ok queue)
    (h : validateRendered site request changedPaths file = .ok result) :
    ∃ feature criterion criteria,
      LeftReady site.toQueueSite queue (request.activeMilestone.getD "") result.selectedFeature
        feature ∧
      feature.get "acceptance_criteria" = .arr (criterion :: criteria) := by
  obtain ⟨document₀, queue₀, feature₀, criterion, criteria, hread₀, hbaseline, hfound₀,
    hcriteria⟩ := inspected_criteria hinspect
  obtain ⟨hmem₀, hid₀⟩ := (FeatureQueue.feature_eq_some hread₀).mp hfound₀
  unfold validateRendered at h
  rw [hqueue, ok_bind] at h
  obtain ⟨_, -, h⟩ := bind_eq_ok.mp h
  obtain ⟨baseline, hbyId, h⟩ := bind_eq_ok.mp h
  obtain ⟨after, hafter, h⟩ := bind_eq_ok.mp h
  obtain ⟨-, h⟩ := require_bind_eq_ok.mp h
  obtain ⟨expected, hexpected, h⟩ := bind_eq_ok.mp h
  dsimp only at h
  obtain ⟨hchanged, h⟩ := require_bind_eq_ok.mp h
  obtain ⟨hready, h⟩ := require_bind_eq_ok.mp h
  obtain ⟨_, -, h⟩ := bind_eq_ok.mp h
  obtain ⟨-, h⟩ := require_bind_eq_ok.mp h
  obtain ⟨-, h⟩ := require_bind_eq_ok.mp h
  obtain ⟨-, h⟩ := require_bind_eq_ok.mp h
  cases h
  obtain ⟨feature, hleft⟩ := leftReady_of_readyIds hread hready
  have hfound := byId_get? hread.feature_texts hread.featureIds hafter hleft.mem hleft.id
  rw [hbaseline] at hbyId
  have hbefore := byId_get? hread₀.feature_texts hread₀.featureIds hbyId hmem₀ hid₀
  -- the feature is the expected one, whose criteria are those before
  have hkept := expectedFeatures_criteria hexpected request.selectedFeature
  rw [criteriaAt, criteriaAt, hbefore, Option.map_some, hcriteria] at hkept
  obtain ⟨expectedFeature, hexpectedAt, hexpectedCriteria⟩ := Option.map_eq_some_iff.mp hkept
  have hequal : Json.equals site.numbersEqual (.obj feature) (.obj expectedFeature) = true := by
    rw [List.map_eq_nil_iff, List.filter_eq_nil_iff] at hchanged
    have hentry := hchanged (request.selectedFeature, feature) (Dict.mem_of_get? hfound)
    rw [hexpectedAt, Option.getD_some, Bool.not_eq_true', Bool.not_eq_false] at hentry
    exact hentry
  obtain ⟨value, hvalue, hsame⟩ := Json.equals_lookup hequal
    (Fields.get?_of_get hexpectedCriteria (by simp))
  obtain ⟨first, rest, rfl⟩ := Json.equals_arr hsame
  refine ⟨feature, first, rest, hleft, ?_⟩
  rw [Fields.get, Fields.get?, hvalue, Option.getD_some]

/-! ### The selected feature -/

/-- A planning transaction completed on the worktree, and recorded the feature as selected. -/
inductive Planned (site : PlanningSite) (file : Option Json) : Option String → String → Prop
  | scoping {request : ScopeFeatureRequest} {changedPaths : List String} {result : ScopeResult} :
      validateResult site request changedPaths file = .ok result →
      Planned site file request.activeMilestone result.readyFeature
  | decision {before : PlanningSite} {beforeFile : Option Json} {context : DecisionContext}
      {selectedFeature : String} {request : FeatureDecisionRequest} {changedPaths : List String}
      {result : DecisionResult} :
      inspectDecisions before context selectedFeature beforeFile = .ok request →
      validateRendered site request changedPaths file = .ok result →
      Planned site file request.activeMilestone result.selectedFeature

/-- The feature that a completed planning transaction records is executable exactly if it is
    unblocked. -/
theorem planned_executable_iff {milestone : Option String} {featureId : String}
    (hqueue : FeatureQueue.fromLocation site.toQueueSite file = .ok queue)
    (hplanned : Planned site file milestone featureId) :
    SelectsExecutable site.toQueueSite queue (milestone.getD "") featureId ↔
      Unblocked site.toQueueSite queue featureId := by
  obtain ⟨document, hfields⟩ := fromLocation_eq_ok hqueue
  have hread := ofFields_eq_ok.mp hfields
  cases hplanned with
  | scoping h =>
      obtain ⟨feature, criterion, criteria, hleft, hcriteria⟩ := scoped_leftReady hread hqueue h
      exact selectsExecutable_iff hread hleft hcriteria
  | decision hinspect h =>
      obtain ⟨feature, criterion, criteria, hleft, hcriteria⟩ :=
        rendered_leftReady hinspect hread hqueue h
      exact selectsExecutable_iff hread hleft hcriteria

/-! ### A ready feature that waits for another -/

/-- A worktree whose files all name the feature `F2`. -/
def PlanningSite.plain : PlanningSite where
  toQueueSite := .plain
  readText _ := .ok "# F2"
  diffCheck := true
  numbersEqual first second := first = second

/-- The queue of a proposed feature and of one that was scoped, with these dependencies. -/
def scopedQueue (dependencies : List String) : Fields :=
  [("features", .arr
      [.obj [("dependencies", .arr []), ("id", .str "F1"), ("milestone", .str "M1"),
         ("status", .str "proposed"), ("title", .str "F1")],
       .obj [("acceptance_criteria", .arr [.str "works"]),
         ("dependencies", .arr (dependencies.map Json.str)), ("execution_policy", .obj []),
         ("id", .str "F2"), ("implementation_status", .str "Ready"), ("milestone", .str "M1"),
         ("spec", .str "docs/features/F2.md"), ("status", .str "ready"), ("title", .str "F2")]]),
   ("milestones", .arr [.obj [("id", .str "M1")]])]

/-- The request that makes the second feature of the queue ready. -/
def scopeRequest (dependencies : List String) : ScopeFeatureRequest where
  activeMilestone := some "M1"
  existingFeatures := ["F2"]
  newFeatures := []
  readyFeature := "F2"
  targetSpecs := [("F2", "docs/features/F2.md")]
  executionPolicies := [("F2", .obj [])]
  dependencyExpectations := [("F2", none)]
  baselineFeatures :=
    [[("dependencies", .arr []), ("id", .str "F1"), ("milestone", .str "M1"),
      ("status", .str "proposed"), ("title", .str "F1")],
     [("dependencies", .arr (dependencies.map Json.str)), ("id", .str "F2"),
      ("milestone", .str "M1"), ("status", .str "proposed"), ("title", .str "F2")]]
  authorizedPaths := ["docs/FEATURE_QUEUE.yaml"]
  readyRequested := by decide

/-- A scoping session leaves a feature ready whose dependency is only proposed. -/
theorem scoped_feature_waits :
    ∃ queue, FeatureQueue.fromLocation PlanningSite.plain.toQueueSite
        (some (.obj (scopedQueue ["F1"]))) = .ok queue ∧
      Planned .plain (some (.obj (scopedQueue ["F1"]))) (some "M1") "F2" ∧
      ¬ SelectsExecutable PlanningSite.plain.toQueueSite queue "M1" "F2" := by
  have hvalid : validateResult .plain (scopeRequest ["F1"]) []
      (some (.obj (scopedQueue ["F1"]))) = .ok ⟨"F2", ["F2"], [], []⟩ := rfl
  refine ⟨_, rfl, .scoping hvalid, ?_⟩
  rintro ⟨feature, readiness, selection, hfound, hok, htrue, -⟩
  cases hfound
  cases hok
  cases htrue

/-- Without dependencies it is executable. -/
theorem scoped_feature_executable :
    ∃ queue, FeatureQueue.fromLocation PlanningSite.plain.toQueueSite
        (some (.obj (scopedQueue []))) = .ok queue ∧
      Planned .plain (some (.obj (scopedQueue []))) (some "M1") "F2" ∧
      SelectsExecutable PlanningSite.plain.toQueueSite queue "M1" "F2" := by
  obtain ⟨queue, feature, hqueue, hfound, hcomplete, hhuman, hpath⟩ :
      ∃ queue feature, FeatureQueue.fromLocation PlanningSite.plain.toQueueSite
          (some (.obj (scopedQueue []))) = .ok queue ∧
        queue.feature "F2" = some feature ∧
        queue.dependenciesComplete PlanningSite.plain.platform feature = .ok true ∧
        feature.get "requires_human_decision" = .null ∧
        FeatureQueue.specificationOf feature = .str "docs/features/F2.md" :=
    ⟨_, _, rfl, rfl, rfl, rfl, rfl⟩
  have hvalid : validateResult .plain (scopeRequest []) [] (some (.obj (scopedQueue []))) =
      .ok ⟨"F2", ["F2"], [], []⟩ := rfl
  have hplanned : Planned .plain (some (.obj (scopedQueue []))) (some "M1") "F2" :=
    .scoping hvalid
  refine ⟨queue, hqueue, hplanned, (planned_executable_iff hqueue hplanned).mpr ?_⟩
  exact ⟨feature, hfound, hcomplete, by simp [hhuman], _, hpath, rfl⟩

end Conveyor
