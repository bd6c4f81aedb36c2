import Conveyor.PlanningReadiness
import Conveyor.QueueBinding

/-!
# The readers of queue readiness

Five functions of `FeatureQueue` decide which features may be taken: `ready`, `readiness`,
`select_exact`, `no_ready_reasons` and `select_next` (`queue.py`). They ask the same of a feature,
`Eligible`, but in different orders, and a walk over the dependencies raises where it asks for a
list of integrated features that is none. `readers_agree_iff` says when they agree.
-/

namespace Conveyor

open Library

/-! ### The readers -/

/-- `no_ready_reasons`. -/
def FeatureQueue.noReadyReasons (site : QueueSite) (queue : FeatureQueue) (milestoneId : String) :
    Result (List (Json × String)) := do
  let checked ← (queue.featuresForMilestone site.platform milestoneId).mapM fun feature => do
    let readiness ← queue.readiness site feature
    return (feature, readiness)
  return (checked.filter fun entry => !entry.2.ready).map fun entry =>
    (entry.1.get "id", entry.2.blockedReason.getD "None")

/-- The first feature stands before the second in the queue. -/
def StandsBefore (queue : FeatureQueue) (first second : Fields) : Prop :=
  [first, second].Sublist queue.features

/-- The first feature goes before the second: by its priority, or by its place. -/
def GoesBefore (queue : FeatureQueue) (first second : Fields) : Prop :=
  priorityRank (first.get "priority") < priorityRank (second.get "priority") ∨
    priorityRank (first.get "priority") = priorityRank (second.get "priority") ∧
      StandsBefore queue first second

/-- The identifier is an item of the list, or a key of the object. -/
def RecordedIn (id : String) : Json → Prop
  | .arr items => .str id ∈ items
  | .obj fields => id ∈ Fields.keys fields
  | _ => False

/-- The dependency is done, or integrated as its own milestone records. -/
def DoneOrRecorded (queue : FeatureQueue) (id : String) : Prop :=
  ∃ dependency, queue.feature id = some dependency ∧
    (dependency.get "status" = .str "done" ∨
      dependency.get "status" = .str "integrated" ∧
        dependency.get "integration_status" = .str "passed" ∧
        (∃ commit, dependency.get "integrated_commit" = .str commit) ∧
        ∃ milestone ∈ queue.milestones, milestone.get "id" = dependency.get "milestone" ∧
          RecordedIn id (milestone.get "integrated_features"))

/-- What a feature that may be taken has. -/
structure Takeable (queue : FeatureQueue) (feature : Fields) : Prop where
  status : feature.get "status" = .str "ready"
  decided : feature.get "requires_human_decision" ≠ .bool true
  dependencies : ∀ id ∈ FeatureQueue.dependencyIds feature, DoneOrRecorded queue id

/-- The selection is the least of the features by priority and place. -/
def LeastReady (queue : FeatureQueue) (ready : List Fields) : Option FeatureQueue.Selection → Prop
  | none => ready = []
  | some selection => selection.feature ∈ ready ∧
      selection.featureId = selection.feature.get "id" ∧
      ∀ feature ∈ ready, feature ≠ selection.feature → GoesBefore queue selection.feature feature

/-- The law: every reader returns, and they say the same of each feature of the milestone. -/
def ReadersAgree (site : QueueSite) (queue : FeatureQueue) (milestoneId : String) : Prop :=
  ∃ ready reasons next, queue.ready site milestoneId = .ok ready ∧
    queue.noReadyReasons site milestoneId = .ok reasons ∧
    queue.selectNext site milestoneId = .ok next ∧ LeastReady queue ready next ∧
    (∀ feature ∈ ready, Takeable queue feature) ∧
    ∀ feature ∈ queue.featuresForMilestone site.platform milestoneId, ∃ id readiness,
      feature.get "id" = .str id ∧ queue.readiness site feature = .ok readiness ∧
      (feature ∈ ready ↔ readiness.ready = true) ∧
      (feature ∈ ready ↔ ∃ selection, queue.selectExact site milestoneId id = .ok selection) ∧
      (feature ∈ ready ↔ feature.get "id" ∉ reasons.map Prod.fst)

/-! ### What a walk over the dependencies asks for -/

section Walk

variable (P : Platform) (queue : FeatureQueue)

/-- The value that decides about an integrated dependency. -/
def consulted (id : String) : Option Json :=
  (queue.feature id).bind fun dependency =>
    if dependency.get "status" = .str "integrated" ∧
        dependency.get "integration_status" = .str "passed" ∧
        (dependency.get "integrated_commit").asString? ≠ none then
      some (((queue.milestone P (P.str (dependency.get "milestone"))).map
        fun milestone => milestone.getD "integrated_features" (.arr [])).getD (.arr []))
    else none

/-- The dependency is complete for the walk. -/
def Complete (id : String) : Prop :=
  (∃ dependency, queue.feature id = some dependency ∧ dependency.get "status" = .str "done") ∨
    ∃ value, consulted P queue id = some value ∧ FeatureQueue.isIn id value = .ok true

/-- A value that `in` can look into. -/
def IsContainer : Json → Prop
  | .arr _ | .obj _ | .str _ => True
  | _ => False

/-- The walk gets an answer about the dependency. -/
def Answered (id : String) : Prop := ∀ value, consulted P queue id = some value → IsContainer value

/-- What the walks over the dependencies of the features of a milestone ask for: a container
    wherever they look, and no text where a feature may be taken. -/
structure ListsReadable (site : QueueSite) (milestoneId : String) : Prop where
  reached : ∀ feature ∈ queue.featuresForMilestone site.platform milestoneId,
    ∀ before id after, FeatureQueue.dependencyIds feature = before ++ id :: after →
      (∀ earlier ∈ before, Complete site.platform queue earlier) →
        Answered site.platform queue id
  explained : ∀ feature ∈ queue.featuresForMilestone site.platform milestoneId,
    feature.get "status" = .str "ready" → feature.get "requires_human_decision" ≠ .bool true →
      ∀ id ∈ FeatureQueue.dependencyIds feature, Answered site.platform queue id
  listed : ∀ feature ∈ queue.featuresForMilestone site.platform milestoneId,
    feature.get "status" = .str "ready" → feature.get "requires_human_decision" ≠ .bool true →
      FeatureQueue.specified site feature = true →
      (∀ id ∈ FeatureQueue.dependencyIds feature, Complete site.platform queue id) →
        ∀ id ∈ FeatureQueue.dependencyIds feature, ∀ text,
          consulted site.platform queue id ≠ some (.str text)

end Walk

section Walk

variable {P : Platform} {queue : FeatureQueue} {site : QueueSite} {feature : Fields}

theorem isIn_returns {id : String} {value : Json} :
    (∃ found, FeatureQueue.isIn id value = .ok found) ↔ IsContainer value := by
  cases value <;> simp [FeatureQueue.isIn, IsContainer]

theorem dependencyComplete_eq (id : String) :
    queue.dependencyComplete P id = match consulted P queue id with
      | some value => FeatureQueue.isIn id value
      | none => .ok (((queue.feature id).map fun dependency =>
          decide (dependency.get "status" = .str "done")).getD false) := by
  unfold FeatureQueue.dependencyComplete consulted
  cases queue.feature id with
  | none => rfl
  | some dependency =>
      dsimp only [Option.bind_some, Option.map_some, Option.getD_some]
      split
      · rename_i hmissing
        have hintegrated := hmissing "integrated" (by decide)
        have hdone := hmissing "done" (by decide)
        rw [if_neg (fun h => hintegrated h.1)]
        simp [hdone]
      · rename_i hcomplete
        split
        · rename_i hintegrated
          split
          · rename_i hfailed
            rw [if_neg (by tauto)]
            simp [hintegrated]
          · rename_i hpassed
            rw [not_or, not_not] at hpassed
            rw [if_pos ⟨hintegrated, hpassed⟩]
        · rename_i hintegrated
          rw [if_neg (fun h => hintegrated h.1)]
          have hdone : dependency.get "status" = .str "done" := by
            simpa [COMPLETE_STATUSES, hintegrated] using hcomplete
          simp [hdone]

theorem dependencyComplete_true {id : String} :
    queue.dependencyComplete P id = .ok true ↔ Complete P queue id := by
  rw [dependencyComplete_eq, Complete]
  cases hvalue : consulted P queue id with
  | some value =>
      -- a dependency whose record is consulted is integrated, and not done
      have hnot : ¬∃ dependency, queue.feature id = some dependency ∧
          dependency.get "status" = .str "done" := by
        rintro ⟨dependency, hfound, hdone⟩
        rw [consulted, hfound, Option.bind_some] at hvalue
        split at hvalue
        · rename_i hintegrated
          rw [hdone, Json.str.injEq] at hintegrated
          exact absurd hintegrated.1 (by decide)
        · cases hvalue
      simp [hnot]
  | none =>
      cases queue.feature id <;> simp

theorem dependencyComplete_returns {id : String} :
    (∃ complete, queue.dependencyComplete P id = .ok complete) ↔ Answered P queue id := by
  rw [dependencyComplete_eq, Answered]
  cases consulted P queue id with
  | some value => simpa using isIn_returns
  | none => simp

theorem Complete.readable {id : String} (h : Complete P queue id) : Answered P queue id :=
  dependencyComplete_returns.mp ⟨true, dependencyComplete_true.mpr h⟩

/-- A walk returns when it gets an answer about every dependency that it reaches. -/
theorem allComplete_returns {ids : List String} :
    (∃ complete, queue.allComplete P ids = .ok complete) ↔
      ∀ before id after, ids = before ++ id :: after →
        (∀ earlier ∈ before, Complete P queue earlier) → Answered P queue id := by
  induction ids with
  | nil => simp [FeatureQueue.allComplete]
  | cons first rest ih =>
      rw [FeatureQueue.allComplete]
      constructor
      · rintro ⟨complete, hcomplete⟩ before id after hsplit hbefore
        obtain ⟨answer, hanswer, hrest⟩ := bind_eq_ok.mp hcomplete
        cases before with
        | nil =>
            obtain ⟨rfl, rfl⟩ := List.cons.inj hsplit
            exact dependencyComplete_returns.mp ⟨answer, hanswer⟩
        | cons head before =>
            obtain ⟨rfl, rfl⟩ := List.cons.inj hsplit
            rw [List.forall_mem_cons] at hbefore
            have htrue : answer = true := Except.ok.inj
              (hanswer.symm.trans (dependencyComplete_true.mpr hbefore.1))
            rw [htrue] at hrest
            exact ih.mp ⟨complete, hrest⟩ before id after rfl hbefore.2
      · intro hreadable
        obtain ⟨answer, hanswer⟩ := dependencyComplete_returns.mpr
          (hreadable [] first rest rfl (List.forall_mem_nil _))
        rw [hanswer, ok_bind]
        cases answer with
        | false => exact ⟨false, rfl⟩
        | true =>
            refine ih.mpr fun before id after hsplit hbefore => ?_
            refine hreadable (first :: before) id after (by rw [hsplit]; rfl) ?_
            exact List.forall_mem_cons.mpr ⟨dependencyComplete_true.mp hanswer, hbefore⟩

theorem allComplete_true {ids : List String} :
    queue.allComplete P ids = .ok true ↔ ∀ id ∈ ids, Complete P queue id := by
  simp only [FeatureQueue.allComplete_eq_ok, dependencyComplete_true]

/-- The names of the incomplete dependencies ask about every dependency. -/
theorem incomplete_returns :
    (∃ names, queue.incomplete P feature = .ok names) ↔
      ∀ id ∈ FeatureQueue.dependencyIds feature, Answered P queue id := by
  constructor
  · rintro ⟨names, h⟩ id hid
    obtain ⟨checked, hchecked, -⟩ := bind_eq_ok.mp h
    obtain ⟨hfirst, hreads⟩ := mapM_pairs_eq_ok.mp hchecked
    obtain ⟨pair, hpair, rfl⟩ := List.mem_map.mp (hfirst.symm ▸ hid : id ∈ checked.map Prod.fst)
    exact dependencyComplete_returns.mp ⟨pair.2, hreads pair hpair⟩
  · intro h
    have hchecked : ∃ checked, (FeatureQueue.dependencyIds feature).mapM (fun id => do
        let complete ← queue.dependencyComplete P id
        return (id, complete)) = .ok checked := by
      refine exists_mapM_eq_ok.mpr fun id hid => ?_
      obtain ⟨complete, hcomplete⟩ := dependencyComplete_returns.mpr (h id hid)
      exact ⟨(id, complete), bind_eq_ok.mpr ⟨complete, hcomplete, rfl⟩⟩
    obtain ⟨checked, hchecked⟩ := hchecked
    exact ⟨_, bind_eq_ok.mpr ⟨checked, hchecked, rfl⟩⟩

/-! ### Each reader by itself -/

/-- What every reader asks of a feature. -/
structure Eligible (site : QueueSite) (queue : FeatureQueue) (feature : Fields) : Prop where
  status : feature.get "status" = .str "ready"
  decided : feature.get "requires_human_decision" ≠ .bool true
  specified : FeatureQueue.specified site feature = true
  complete : ∀ id ∈ FeatureQueue.dependencyIds feature, Complete site.platform queue id

theorem eligible_true : queue.eligible site feature = .ok true ↔ Eligible site queue feature := by
  constructor
  · intro h
    rw [FeatureQueue.eligible] at h
    split at h
    · cases h
    · rename_i hstatus
      split at h
      · cases h
      · rename_i hdecided
        obtain ⟨complete, hcomplete, h⟩ := bind_eq_ok.mp h
        have hboth : (complete && FeatureQueue.specified site feature) = true := Except.ok.inj h
        rw [Bool.and_eq_true] at hboth
        rw [hboth.1] at hcomplete
        exact ⟨not_not.mp hstatus, hdecided, hboth.2, allComplete_true.mp hcomplete⟩
  · intro h
    exact eligible_of h.status (allComplete_true.mpr h.complete) h.decided h.specified

/-- The dependencies are asked about only where the feature could be taken. -/
theorem eligible_returns
    (h : feature.get "status" = .str "ready" →
      feature.get "requires_human_decision" ≠ .bool true →
        ∃ complete, queue.dependenciesComplete site.platform feature = .ok complete) :
    ∃ takes, queue.eligible site feature = .ok takes := by
  rw [FeatureQueue.eligible]
  split
  · exact ⟨false, rfl⟩
  · rename_i hstatus
    split
    · exact ⟨false, rfl⟩
    · rename_i hdecided
      obtain ⟨complete, hcomplete⟩ := h (not_not.mp hstatus) hdecided
      exact ⟨_, bind_eq_ok.mpr ⟨complete, hcomplete, rfl⟩⟩

/-- The explanation of a feature that is marked ready asks about every dependency. -/
theorem readiness_returns {status : String} (hstatus : feature.get "status" = .str status) :
    (∃ readiness, queue.readiness site feature = .ok readiness) ↔
      (∃ complete, queue.dependenciesComplete site.platform feature = .ok complete) ∧
        (feature.get "status" = .str "ready" →
          feature.get "requires_human_decision" ≠ .bool true →
            ∀ id ∈ FeatureQueue.dependencyIds feature, Answered site.platform queue id) := by
  rw [FeatureQueue.readiness, hstatus, Platform.str_str, Json.str.injEq]
  cases hcomplete : queue.dependenciesComplete site.platform feature with
  | error failure => simp [bind, Except.bind]
  | ok complete =>
      rw [ok_bind]
      dsimp only
      split
      · rename_i hfinished
        refine iff_of_true ⟨_, rfl⟩ ⟨⟨_, rfl⟩, ?_⟩
        rintro rfl
        exact absurd hfinished (by decide)
      · split
        · rename_i hblocked
          refine iff_of_true ⟨_, rfl⟩ ⟨⟨_, rfl⟩, ?_⟩
          rintro rfl
          exact absurd hblocked (by decide)
        · split
          · rename_i hother
            exact iff_of_true ⟨_, rfl⟩ ⟨⟨_, rfl⟩, fun hready => absurd hready hother⟩
          · rename_i hready
            rw [not_not] at hready
            split
            · rename_i hhuman
              exact iff_of_true ⟨_, rfl⟩ ⟨⟨_, rfl⟩, fun _ hdecided => absurd hhuman hdecided⟩
            · rename_i hdecided
              split
              · rw [← incomplete_returns]
                constructor
                · rintro ⟨readiness, h⟩
                  obtain ⟨names, hnames, -⟩ := bind_eq_ok.mp h
                  exact ⟨⟨_, rfl⟩, fun _ _ => ⟨names, hnames⟩⟩
                · rintro ⟨-, h⟩
                  obtain ⟨names, hnames⟩ := h hready hdecided
                  exact ⟨_, bind_eq_ok.mpr ⟨names, hnames, rfl⟩⟩
              · rename_i htrue
                rw [Bool.not_eq_false] at htrue
                have hall := allComplete_true.mp (htrue ▸ hcomplete)
                refine iff_of_true ?_ ⟨⟨_, rfl⟩, fun _ _ id hid => (hall id hid).readable⟩
                split <;> exact ⟨_, rfl⟩

theorem readiness_ready {status : String} {readiness : FeatureQueue.Readiness}
    (hstatus : feature.get "status" = .str status)
    (h : queue.readiness site feature = .ok readiness) :
    readiness.ready = true ↔ Eligible site queue feature := by
  by_cases hready : MarkedReady feature
  · have hiff : (∃ found, queue.readiness site feature = .ok found ∧ found.ready = true) ↔ _ :=
      readiness_iff hready
    constructor
    · intro htrue
      obtain ⟨hcomplete, hdecided, hspecified⟩ := hiff.mp ⟨readiness, h, htrue⟩
      exact ⟨hready, hdecided, hspecified, allComplete_true.mp hcomplete⟩
    · intro heligible
      obtain ⟨other, hother, htrue⟩ := hiff.mpr ⟨allComplete_true.mpr heligible.complete,
        heligible.decided, heligible.specified⟩
      cases h.symm.trans hother
      exact htrue
  · refine iff_of_false (fun htrue => ?_) fun heligible => hready heligible.status
    -- every branch before the last one is closed to a feature that is not marked ready
    have hne : status ≠ "ready" := fun heq => hready (by rw [MarkedReady, hstatus, heq])
    rw [FeatureQueue.readiness, hstatus, Platform.str_str] at h
    obtain ⟨complete, -, h⟩ := bind_eq_ok.mp h
    dsimp only at h
    split at h
    · cases h
      cases htrue
    · split at h
      · cases h
        cases htrue
      · cases h
        cases htrue

end Walk

/-! ### The candidates of a milestone -/

section Milestone

variable {site : QueueSite} {document : Fields} {queue : FeatureQueue} {milestoneId : String}

/-- The places of the features of a milestone, with the features. -/
def candidates (site : QueueSite) (queue : FeatureQueue) (milestoneId : String) :
    List (Nat × Fields) :=
  (queue.featuresForMilestone site.platform milestoneId).mapIdx fun index feature =>
    (index, feature)

theorem mem_candidates {candidate : Nat × Fields} :
    candidate ∈ candidates site queue milestoneId ↔
      (queue.featuresForMilestone site.platform milestoneId)[candidate.1]? =
        some candidate.2 := by
  rw [candidates, List.mem_mapIdx]
  constructor
  · rintro ⟨index, hlt, rfl⟩
    exact List.getElem?_eq_getElem hlt
  · intro h
    obtain ⟨hlt, heq⟩ := List.getElem?_eq_some_iff.mp h
    exact ⟨candidate.1, hlt, by rw [heq]⟩

theorem candidates_places : ((candidates site queue milestoneId).map Prod.fst).Nodup := by
  have hrange : (candidates site queue milestoneId).map Prod.fst =
      List.range (queue.featuresForMilestone site.platform milestoneId).length := by
    refine List.ext_getElem (by simp [candidates]) fun i _ _ => ?_
    simp [candidates]
  rw [hrange]
  exact List.nodup_range

/-- Of two candidates the one with the smaller place stands before the other in the queue. -/
theorem standsBefore_of_lt {first second : Nat × Fields}
    (hfirst : first ∈ candidates site queue milestoneId)
    (hsecond : second ∈ candidates site queue milestoneId) (hlt : first.1 < second.1) :
    StandsBefore queue first.2 second.2 := by
  rw [mem_candidates] at hfirst hsecond
  obtain ⟨hplace, hfirst⟩ := List.getElem?_eq_some_iff.mp hfirst
  have hlater : second.2 ∈ (queue.featuresForMilestone site.platform milestoneId).drop
      (first.1 + 1) := by
    refine List.mem_of_getElem? (i := second.1 - (first.1 + 1)) ?_
    rw [List.getElem?_drop, Nat.add_sub_cancel' hlt, hsecond]
  have hpair : [first.2, second.2].Sublist
      (queue.featuresForMilestone site.platform milestoneId) := by
    refine List.Sublist.trans ?_ (List.drop_sublist first.1 _)
    rw [List.drop_eq_getElem_cons hplace, hfirst]
    exact (List.singleton_sublist.mpr hlater).cons_cons _
  refine hpair.trans ?_
  unfold FeatureQueue.featuresForMilestone
  split
  · exact List.nil_sublist _
  · exact List.filter_sublist

instance : Std.Total fun first second : Nat × Fields =>
    FeatureQueue.before first second = true where
  total first second := by
    simp only [FeatureQueue.before, Bool.or_eq_true, Bool.and_eq_true, decide_eq_true_eq]
    omega

instance : IsTrans (Nat × Fields) fun first second => FeatureQueue.before first second = true where
  trans first second third := by
    simp only [FeatureQueue.before, Bool.or_eq_true, Bool.and_eq_true, decide_eq_true_eq]
    omega

/-- `ready` returns the eligible features in their order. -/
theorem ready_eq_ok {ready : List Fields} (h : queue.ready site milestoneId = .ok ready) :
    (∀ feature, feature ∈ ready ↔
      feature ∈ queue.featuresForMilestone site.platform milestoneId ∧
        Eligible site queue feature) ∧ ready.Pairwise (GoesBefore queue) := by
  obtain ⟨checked, hchecked, h⟩ := bind_eq_ok.mp h
  obtain ⟨hplaces, hreads⟩ := mapM_pairs_eq_ok.mp hchecked
  cases h
  have hcandidates : checked.map Prod.fst = candidates site queue milestoneId := hplaces
  have htaken : ∀ candidate, candidate ∈ (checked.filter fun entry => entry.2).map Prod.fst ↔
      candidate ∈ candidates site queue milestoneId ∧ Eligible site queue candidate.2 := by
    intro candidate
    rw [← hcandidates, List.mem_map, List.mem_map]
    constructor
    · rintro ⟨entry, hentry, rfl⟩
      obtain ⟨hmem, htrue⟩ := List.mem_filter.mp hentry
      have htakes := hreads entry hmem
      rw [htrue] at htakes
      exact ⟨⟨entry, hmem, rfl⟩, eligible_true.mp htakes⟩
    · rintro ⟨⟨entry, hmem, rfl⟩, heligible⟩
      have htakes : entry.2 = true :=
        Except.ok.inj ((hreads entry hmem).symm.trans (eligible_true.mpr heligible))
      exact ⟨entry, List.mem_filter.mpr ⟨hmem, htakes⟩, rfl⟩
  constructor
  · intro feature
    rw [List.mem_map]
    constructor
    · rintro ⟨candidate, hmem, rfl⟩
      rw [List.mem_insertionSort, htaken, mem_candidates] at hmem
      exact ⟨List.mem_of_getElem? hmem.1, hmem.2⟩
    · rintro ⟨hmem, heligible⟩
      obtain ⟨index, hindex⟩ := List.getElem?_of_mem hmem
      refine ⟨(index, feature), ?_, rfl⟩
      rw [List.mem_insertionSort, htaken, mem_candidates]
      exact ⟨hindex, heligible⟩
  · have hperm := List.perm_insertionSort
      (fun first second : Nat × Fields => FeatureQueue.before first second = true)
      ((checked.filter fun entry => entry.2).map Prod.fst)
    have hnodup : ((checked.filter fun entry => entry.2).map Prod.fst).Pairwise
        fun first second => first.1 ≠ second.1 := by
      have hsub : ((checked.filter fun entry => entry.2).map Prod.fst).Sublist
          (candidates site queue milestoneId) := by
        rw [← hcandidates]
        exact List.filter_sublist.map _
      exact List.Pairwise.sublist hsub (List.pairwise_map.mp candidates_places)
    have hsorted := List.pairwise_insertionSort
      (fun first second : Nat × Fields => FeatureQueue.before first second = true)
      ((checked.filter fun entry => entry.2).map Prod.fst)
    rw [List.pairwise_map]
    refine (hsorted.and (hperm.symm.pairwise hnodup fun hne => hne.symm)).imp_of_mem ?_
    rintro first second hfirst hsecond ⟨hbefore, hne⟩
    rw [hperm.mem_iff, htaken] at hfirst hsecond
    simp only [FeatureQueue.before, Bool.or_eq_true, Bool.and_eq_true, decide_eq_true_eq]
      at hbefore
    rcases hbefore with hlt | ⟨heq, hle⟩
    · exact Or.inl hlt
    · exact Or.inr ⟨heq, standsBefore_of_lt hfirst.1 hsecond.1 (Nat.lt_of_le_of_ne hle hne)⟩

theorem ready_returns (h : ∀ feature ∈ queue.featuresForMilestone site.platform milestoneId,
    ∃ takes, queue.eligible site feature = .ok takes) :
    ∃ ready, queue.ready site milestoneId = .ok ready := by
  have hchecked : ∃ checked, (candidates site queue milestoneId).mapM (fun candidate => do
      let takes ← queue.eligible site candidate.2
      return (candidate, takes)) = .ok checked := by
    refine exists_mapM_eq_ok.mpr fun candidate hcandidate => ?_
    rw [mem_candidates] at hcandidate
    obtain ⟨takes, htakes⟩ := h candidate.2 (List.mem_of_getElem? hcandidate)
    exact ⟨(candidate, takes), bind_eq_ok.mpr ⟨takes, htakes, rfl⟩⟩
  obtain ⟨checked, hchecked⟩ := hchecked
  exact ⟨_, bind_eq_ok.mpr ⟨checked, hchecked, rfl⟩⟩

/-- `select_next` selects the least of the ready features. -/
theorem selectNext_of {ready : List Fields} (h : queue.ready site milestoneId = .ok ready) :
    ∃ next, queue.selectNext site milestoneId = .ok next ∧ LeastReady queue ready next := by
  obtain ⟨-, hsorted⟩ := ready_eq_ok h
  rw [FeatureQueue.selectNext, h, ok_bind]
  cases ready with
  | nil => exact ⟨none, rfl, rfl⟩
  | cons first rest =>
      refine ⟨_, rfl, List.mem_cons_self, rfl, fun feature hfeature hne => ?_⟩
      rcases List.mem_cons.mp hfeature with heq | hmem
      · exact absurd heq hne
      · exact (List.pairwise_cons.mp hsorted).1 feature hmem

/-! ### When the readers agree -/

theorem QueueRead.status_text (h : QueueRead site document queue) {feature : Fields}
    (hmem : feature ∈ queue.features) : ∃ status, feature.get "status" = .str status := by
  obtain ⟨i, raw, parts, -, -, -, rfl⟩ := h.feature_copy hmem
  exact ⟨parts.status, parts.get_copy_status raw⟩

/-- An integrated dependency is consulted about in the record of its own milestone. -/
theorem consulted_eq_some (h : QueueRead site document queue) {P : Platform} {id : String}
    {value : Json} (hvalue : consulted P queue id = some value) :
    ∃ dependency milestone, queue.feature id = some dependency ∧
      dependency.get "status" = .str "integrated" ∧
      dependency.get "integration_status" = .str "passed" ∧
      (∃ commit, dependency.get "integrated_commit" = .str commit) ∧
      milestone ∈ queue.milestones ∧ milestone.get "id" = dependency.get "milestone" ∧
      value = milestone.getD "integrated_features" (.arr []) := by
  obtain ⟨dependency, hfound, hvalue⟩ := Option.bind_eq_some_iff.mp hvalue
  split at hvalue
  · rename_i hintegrated
    obtain ⟨hstatus, hpassed, hcommit⟩ := hintegrated
    obtain ⟨milestone, hmilestone, name, hname, hown⟩ :=
      h.own_milestone ((FeatureQueue.feature_eq_some h).mp hfound).1
    obtain ⟨commit, hcommit⟩ := Option.ne_none_iff_exists'.mp hcommit
    rw [hown, Platform.str_str, FeatureQueue.milestone_of_mem h hmilestone hname,
      Option.map_some, Option.getD_some, Option.some.injEq] at hvalue
    exact ⟨dependency, milestone, hfound, hstatus, hpassed,
      ⟨commit, Json.asString?_eq_some.mp hcommit⟩, hmilestone, hname.trans hown.symm, hvalue.symm⟩
  · cases hvalue

/-- A complete dependency is recorded, unless a text took the place of its record. -/
theorem Complete.recorded (h : QueueRead site document queue) {P : Platform} {id : String}
    (hcomplete : Complete P queue id)
    (htext : ∀ text, consulted P queue id ≠ some (.str text)) : DoneOrRecorded queue id := by
  rcases hcomplete with ⟨dependency, hfound, hdone⟩ | ⟨value, hvalue, hin⟩
  · exact ⟨dependency, hfound, Or.inl hdone⟩
  · obtain ⟨dependency, milestone, hfound, hstatus, hpassed, hcommit, hmilestone, hown, rfl⟩ :=
      consulted_eq_some h hvalue
    refine ⟨dependency, hfound, Or.inr ⟨hstatus, hpassed, hcommit, milestone, hmilestone, hown, ?_⟩⟩
    rw [Fields.getD] at hvalue hin
    rw [Fields.get]
    cases hrecord : milestone.get? "integrated_features" with
    | none =>
        rw [hrecord] at hin
        simp [FeatureQueue.isIn] at hin
    | some record =>
        rw [hrecord, Option.getD_some] at hvalue hin
        rw [Option.getD_some]
        cases record with
        | str text => exact absurd hvalue (htext text)
        | arr items => simpa [FeatureQueue.isIn, RecordedIn] using hin
        | obj fields => simpa [FeatureQueue.isIn, RecordedIn] using hin
        | _ => cases hin

/-- A dependency whose milestone has a text for its record is not recorded. -/
theorem not_recorded_of_text (h : QueueRead site document queue) {P : Platform} {id text : String}
    (htext : consulted P queue id = some (.str text)) : ¬DoneOrRecorded queue id := by
  obtain ⟨dependency, milestone, hfound, hstatus, -, -, hmilestone, hown, hvalue⟩ :=
    consulted_eq_some h htext
  rintro ⟨other, hother, hrecorded⟩
  cases hfound.symm.trans hother
  rcases hrecorded with hdone | ⟨-, -, -, record, hrecord, hsame, hlisted⟩
  · rw [hstatus, Json.str.injEq] at hdone
    exact absurd hdone (by decide)
  · obtain ⟨owner, howner, name, hname, hfeature⟩ :=
      h.own_milestone ((FeatureQueue.feature_eq_some h).mp hfound).1
    have hfirst := (FeatureQueue.only_eq_some h.milestoneIds).mpr ⟨hmilestone, hown.trans hfeature⟩
    have hsecond := (FeatureQueue.only_eq_some h.milestoneIds).mpr ⟨hrecord, hsame.trans hfeature⟩
    rw [← Option.some.inj (hfirst.symm.trans hsecond)] at hlisted
    rw [Fields.getD] at hvalue
    rw [Fields.get] at hlisted
    cases hrecorded : milestone.get? "integrated_features" with
    | none => rw [hrecorded] at hvalue; cases hvalue
    | some value =>
        rw [hrecorded, Option.getD_some] at hvalue hlisted
        rw [← hvalue] at hlisted
        exact hlisted

section Feature

variable {feature : Fields} {id : String}

/-- A feature of a known milestone is found by its identifier, in that milestone. -/
theorem feature_of_milestone (h : QueueRead site document queue)
    (hmem : feature ∈ queue.featuresForMilestone site.platform milestoneId)
    (hid : feature.get "id" = .str id) : queue.feature id = some feature ∧
      (queue.milestone site.platform milestoneId).map (fun milestone => milestone.get "id") =
        some (feature.get "milestone") := by
  refine ⟨(FeatureQueue.feature_eq_some h).mpr ⟨mem_of_featuresForMilestone hmem, hid⟩, ?_⟩
  unfold FeatureQueue.featuresForMilestone at hmem
  split at hmem
  · cases hmem
  · rename_i milestone hmilestone
    rw [hmilestone, Option.map_some, of_decide_eq_true (List.mem_filter.mp hmem).2]

/-- `select_exact` takes a feature of the milestone when `readiness` calls it ready. -/
theorem selectExact_iff (h : QueueRead site document queue)
    (hmem : feature ∈ queue.featuresForMilestone site.platform milestoneId)
    (hid : feature.get "id" = .str id) {readiness : FeatureQueue.Readiness}
    (hreadiness : queue.readiness site feature = .ok readiness) :
    (∃ selection, queue.selectExact site milestoneId id = .ok selection) ↔
      readiness.ready = true := by
  obtain ⟨hfound, hmilestone⟩ := feature_of_milestone h hmem hid
  rw [FeatureQueue.selectExact, hfound]
  dsimp only
  constructor
  · rintro ⟨selection, h⟩
    obtain ⟨-, h⟩ := require_bind_eq_ok.mp h
    rw [hreadiness, ok_bind] at h
    exact (require_bind_eq_ok.mp h).1
  · intro hready
    rw [require_of hmilestone, hreadiness]
    exact ⟨_, require_bind_eq_ok.mpr ⟨hready, rfl⟩⟩

end Feature

/-- `no_ready_reasons` names the features that are not eligible. -/
theorem noReadyReasons_eq_ok (h : QueueRead site document queue)
    {reasons : List (Json × String)}
    (hreasons : queue.noReadyReasons site milestoneId = .ok reasons) {feature : Fields}
    (hmem : feature ∈ queue.featuresForMilestone site.platform milestoneId) :
    feature.get "id" ∉ reasons.map Prod.fst ↔ Eligible site queue feature := by
  obtain ⟨checked, hchecked, hreasons⟩ := bind_eq_ok.mp hreasons
  obtain ⟨hfeatures, hreads⟩ := mapM_pairs_eq_ok.mp hchecked
  cases hreasons
  have hready : ∀ entry ∈ checked, entry.2.ready = true ↔ Eligible site queue entry.1 := by
    intro entry hentry
    have hfeature : entry.1 ∈ queue.featuresForMilestone site.platform milestoneId :=
      hfeatures ▸ List.mem_map_of_mem hentry
    obtain ⟨status, hstatus⟩ := h.status_text (mem_of_featuresForMilestone hfeature)
    exact readiness_ready hstatus (hreads entry hentry)
  obtain ⟨entry, hentry, rfl⟩ := List.mem_map.mp (hfeatures.symm ▸ hmem : feature ∈ _)
  rw [List.map_map, ← hready entry hentry, List.mem_map]
  constructor
  · intro hnot
    by_contra hunready
    exact hnot ⟨entry, List.mem_filter.mpr ⟨hentry, by simpa using hunready⟩, rfl⟩
  · rintro htrue ⟨other, hother, hsame⟩
    obtain ⟨hother, hunready⟩ := List.mem_filter.mp hother
    have hfeature : other.1 ∈ queue.featuresForMilestone site.platform milestoneId :=
      hfeatures ▸ List.mem_map_of_mem hother
    have heq : other.1 = entry.1 := List.inj_on_of_nodup_map h.featureIds
      (mem_of_featuresForMilestone hfeature) (mem_of_featuresForMilestone hmem) hsame
    have hother' := (hready other hother).mpr (heq ▸ (hready entry hentry).mp htrue)
    rw [hother'] at hunready
    cases hunready

/-- Records that are arrays are records wherever they are asked for. -/
theorem listsReadable_of_arrays (h : QueueRead site document queue)
    (harrays : ∀ milestone ∈ queue.milestones, ∃ items,
      milestone.getD "integrated_features" (.arr []) = .arr items) :
    ListsReadable queue site milestoneId := by
  have harray : ∀ id value, consulted site.platform queue id = some value →
      ∃ items, value = .arr items := by
    intro id value hvalue
    obtain ⟨-, milestone, -, -, -, -, hmilestone, -, rfl⟩ := consulted_eq_some h hvalue
    exact harrays milestone hmilestone
  have hanswered : ∀ id, Answered site.platform queue id := by
    intro id value hvalue
    obtain ⟨items, rfl⟩ := harray id value hvalue
    trivial
  refine ⟨fun _ _ _ id _ _ _ => hanswered id, fun _ _ _ _ id _ => hanswered id, ?_⟩
  intro _ _ _ _ _ _ id _ text htext
  obtain ⟨items, hitems⟩ := harray id _ htext
  cases hitems

/-- The readers of a queue agree exactly when every record that they ask for is one. -/
theorem readers_agree_iff (hqueue : FeatureQueue.ofFields site document = .ok queue) :
    ReadersAgree site queue milestoneId ↔ ListsReadable queue site milestoneId := by
  have hread := ofFields_eq_ok.mp hqueue
  constructor
  · rintro ⟨ready, reasons, next, hready, -, -, -, htakeable, hfeatures⟩
    have hreturns : ∀ feature ∈ queue.featuresForMilestone site.platform milestoneId,
        ∃ status, feature.get "status" = .str status ∧
          ∃ readiness, queue.readiness site feature = .ok readiness := by
      intro feature hmem
      obtain ⟨status, hstatus⟩ := hread.status_text (mem_of_featuresForMilestone hmem)
      obtain ⟨-, readiness, -, hok, -⟩ := hfeatures feature hmem
      exact ⟨status, hstatus, readiness, hok⟩
    refine ⟨fun feature hmem => ?_, fun feature hmem => ?_, ?_⟩
    · obtain ⟨status, hstatus, hok⟩ := hreturns feature hmem
      exact allComplete_returns.mp ((readiness_returns hstatus).mp hok).1
    · obtain ⟨status, hstatus, hok⟩ := hreturns feature hmem
      exact ((readiness_returns hstatus).mp hok).2
    · intro feature hmem hstatus hdecided hspecified hcomplete id hid text htext
      have hin := ((ready_eq_ok hready).1 feature).mpr
        ⟨hmem, hstatus, hdecided, hspecified, hcomplete⟩
      exact not_recorded_of_text hread htext ((htakeable feature hin).dependencies id hid)
  · intro h
    have hcomplete : ∀ feature ∈ queue.featuresForMilestone site.platform milestoneId,
        ∃ complete, queue.dependenciesComplete site.platform feature = .ok complete :=
      fun feature hmem => allComplete_returns.mpr (h.reached feature hmem)
    have hreadiness : ∀ feature ∈ queue.featuresForMilestone site.platform milestoneId,
        ∃ readiness, queue.readiness site feature = .ok readiness := by
      intro feature hmem
      obtain ⟨status, hstatus⟩ := hread.status_text (mem_of_featuresForMilestone hmem)
      exact (readiness_returns hstatus).mpr ⟨hcomplete feature hmem, h.explained feature hmem⟩
    obtain ⟨ready, hready⟩ := ready_returns fun feature hmem =>
      eligible_returns fun _ _ => hcomplete feature hmem
    obtain ⟨next, hnext, hleast⟩ := selectNext_of hready
    have hreasons : ∃ reasons, queue.noReadyReasons site milestoneId = .ok reasons := by
      obtain ⟨checked, hchecked⟩ := exists_mapM_eq_ok.mpr fun feature hmem => by
        obtain ⟨readiness, hok⟩ := hreadiness feature hmem
        exact ⟨(feature, readiness), bind_eq_ok.mpr ⟨readiness, hok, rfl⟩⟩
      exact ⟨_, bind_eq_ok.mpr ⟨checked, hchecked, rfl⟩⟩
    obtain ⟨reasons, hreasons⟩ := hreasons
    have hmember := (ready_eq_ok hready).1
    refine ⟨ready, reasons, next, hready, hreasons, hnext, hleast, fun feature hin => ?_,
      fun feature hmem => ?_⟩
    · obtain ⟨hmem, heligible⟩ := (hmember feature).mp hin
      exact ⟨heligible.status, heligible.decided, fun id hid =>
        (heligible.complete id hid).recorded hread fun text =>
          h.listed feature hmem heligible.status heligible.decided heligible.specified
            heligible.complete id hid text⟩
    · obtain ⟨status, hstatus⟩ := hread.status_text (mem_of_featuresForMilestone hmem)
      obtain ⟨id, hid⟩ := hread.feature_texts feature (mem_of_featuresForMilestone hmem)
      obtain ⟨readiness, hok⟩ := hreadiness feature hmem
      have hiff : feature ∈ ready ↔ Eligible site queue feature := by
        rw [hmember feature, and_iff_right hmem]
      refine ⟨id, readiness, hid, hok, ?_, ?_, ?_⟩
      · rw [hiff, readiness_ready hstatus hok]
      · rw [hiff, selectExact_iff hread hmem hid hok, readiness_ready hstatus hok]
      · rw [hiff, noReadyReasons_eq_ok hread hreasons hmem]

end Milestone

/-! ### A record that is none -/

/-- A queue of an integrated feature, a finished one that depends on it, and a ready one. -/
def recordedQueue (record : Json) : Fields :=
  [("features", .arr
      [.obj [("id", .str "F1"), ("integrated_commit", .str "c1"),
         ("integration_status", .str "passed"), ("milestone", .str "M1"),
         ("status", .str "integrated")],
       .obj [("dependencies", .arr [.str "F1"]), ("id", .str "F2"), ("milestone", .str "M1"),
         ("status", .str "done")],
       .obj [("acceptance_criteria", .arr [.str "it works"]), ("id", .str "F3"),
         ("milestone", .str "M1"), ("spec", .str "docs/F3.md"), ("status", .str "ready")]]),
   ("milestones", .arr [.obj [("id", .str "M1"), ("integrated_features", record)]])]

theorem readers_agree_recorded :
    ∃ queue, FeatureQueue.ofFields .plain (recordedQueue (.arr [.str "F1"])) = .ok queue ∧
      ReadersAgree .plain queue "M1" := by
  obtain ⟨queue, hqueue, hmilestones⟩ : ∃ queue,
      FeatureQueue.ofFields .plain (recordedQueue (.arr [.str "F1"])) = .ok queue ∧
        queue.milestones.map (fun milestone => milestone.getD "integrated_features" (.arr [])) =
          [.arr [.str "F1"]] := ⟨_, rfl, rfl⟩
  refine ⟨queue, hqueue, (readers_agree_iff hqueue).mpr
    (listsReadable_of_arrays (ofFields_eq_ok.mp hqueue) fun milestone hmem => ?_)⟩
  have hrecord : milestone.getD "integrated_features" (.arr []) ∈ [Json.arr [.str "F1"]] :=
    hmilestones ▸ List.mem_map_of_mem hmem
  exact ⟨_, List.mem_singleton.mp hrecord⟩

/-- The third feature is ready, and the reasons of the second cannot be given: the record of the
    milestone is `null`. -/
theorem readers_disagree_without_record :
    ∃ queue selection, FeatureQueue.ofFields .plain (recordedQueue .null) = .ok queue ∧
      queue.selectNext .plain "M1" = .ok (some selection) ∧ selection.featureId = .str "F3" ∧
      (∃ failure, queue.noReadyReasons .plain "M1" = .error failure) ∧
      ¬ReadersAgree .plain queue "M1" := by
  refine ⟨_, _, rfl, rfl, rfl, ⟨_, rfl⟩, ?_⟩
  rintro ⟨ready, reasons, next, -, hreasons, -⟩
  cases hreasons

end Conveyor
