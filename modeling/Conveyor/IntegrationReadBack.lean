import Conveyor.IntegrationWrites

/-!
# When an integrated queue reads back

The verdict that an integration writes on its milestone is taken from the raw entries under the
plan's milestone, the reader's verdict from the normalized copies that belong to it. The results
here say when the two verdicts agree, when the integrated feature counts as a complete
dependency, and, from both, when the written document says what the integration meant.
-/

namespace Conveyor

open Library

variable {site : QueueSite} {document : Fields} {queue queue' : FeatureQueue}
  {plan : IntegrationPlan} {ok : Bool} {resultingCommit : String} {result : FinalMetadata}
  {place spot : Nat} {raw raw' milestone milestone' : Fields}

/-! ### The milestone of the plan -/

theorem normalizeMilestoneName_strip (P : Platform) (id : String) :
    normalizeMilestoneName P (Platform.strip id) = normalizeMilestoneName P id := by
  rw [normalizeMilestoneName, normalizeMilestoneName, slug, slug, Platform.strip_strip]

/-- A milestone is found under its identifier, also as the document spells it. -/
theorem QueueRead.milestone_of_entry (h : QueueRead site document queue) {i : Nat} {raw : Fields}
    (hraw : (entries document "milestones")[i]? = some raw) {id : String}
    (hid : raw.get "id" = .str id) :
    ∃ milestone, queue.milestones[i]? = some milestone ∧
      milestone.get "id" = .str (Platform.strip id) ∧ MilestoneRead site.platform raw milestone ∧
      queue.milestone site.platform id = some milestone := by
  have hi : i < queue.milestones.length := by
    rw [← h.milestoneCount]
    exact (List.getElem?_eq_some_iff.mp hraw).1
  have hat : queue.milestones[i]? = some queue.milestones[i] := List.getElem?_eq_getElem hi
  have hread := h.milestones i raw _ hraw hat
  have hcopyId := hread.copy_id hid
  obtain ⟨text, htext, hhas, hcopy⟩ := hread
  cases htext.symm.trans hid
  generalize queue.milestones[i] = milestone at *
  have hmem := List.mem_of_getElem? hat
  have hget : milestone.get "id" = .str (Platform.strip id) := hcopyId
  have hname : milestone.get "normalized_id" = .str (normalizeMilestoneName site.platform id) := by
    rw [hcopy, milestoneCopy, Fields.get, Fields.get?_set_self, Option.getD_some,
      normalizeMilestoneName_strip]
  refine ⟨milestone, hat, hget, ⟨id, hid, hhas, hcopy⟩, ?_⟩
  unfold FeatureQueue.milestone FeatureQueue.milestoneOf
  cases hfound : FeatureQueue.only queue.milestones "id" id with
  | none => exact (FeatureQueue.only_eq_some h.normalizedIds).mpr ⟨hmem, hname⟩
  | some other =>
      -- an identifier that is found as it is spelled has nothing to strip
      obtain ⟨hother, hotherId⟩ := (FeatureQueue.only_eq_some h.milestoneIds).mp hfound
      obtain ⟨raw', -, hread'⟩ := h.milestone_copy hother
      obtain ⟨text, -, hcopy'⟩ := hread'.ids
      have hstripped : id = Platform.strip text :=
        Json.str.inj (hotherId.symm.trans hcopy')
      have hsame : milestone.get "id" = .str id := by
        rw [hget, hstripped, Platform.strip_strip]
      have hfound' := (FeatureQueue.only_eq_some h.milestoneIds).mpr ⟨hmem, hsame⟩
      exact hfound.symm.trans hfound'

/-! ### The two verdicts -/

/-- The entry is spelled under the plan's milestone. -/
def Spelled (plan : IntegrationPlan) (raw : Fields) : Prop :=
  raw.get "milestone" = .str plan.milestoneId

/-- The copy belongs to the plan's milestone. -/
def InMilestone (plan : IntegrationPlan) (feature : Fields) : Prop :=
  feature.get "milestone" = .str (Platform.strip plan.milestoneId)

/-- The status is written as one of the complete ones. -/
def Exact (status : Json) : Prop := status ∈ COMPLETE_STATUSES.map Json.str

/-- The status counts for the milestone. -/
def Counted (status : Json) : Prop := status ∉ [Json.str "deferred", .str "rejected"]

/-- The status keeps the milestone open. -/
def Open (status : Json) : Prop := Counted status ∧ ¬ Exact status

theorem hasStatus_iff_mem {item : Fields} {statuses : List String} :
    FeatureQueue.hasStatus item statuses = true ↔ item.get "status" ∈ statuses.map Json.str := by
  rw [hasStatus_iff, List.mem_map]
  constructor
  · rintro ⟨status, hmem, heq⟩
    exact ⟨status, hmem, heq.symm⟩
  · rintro ⟨status, hmem, heq⟩
    exact ⟨status, hmem, heq.symm⟩

theorem writtenComplete_eq_ok {items : List Fields}
    (htexts : ∀ item ∈ items, ∃ text, item.get "status" = .str text) {complete : Bool}
    (h : writtenComplete items = .ok complete) :
    complete = true ↔ ∀ item ∈ items, Exact (item.get "status") := by
  induction items with
  | nil =>
      cases h
      simp
  | cons item rest ih =>
      rw [List.forall_mem_cons] at htexts
      obtain ⟨⟨text, htext⟩, hrest⟩ := htexts
      obtain ⟨status, hstatus, h⟩ := bind_eq_ok.mp h
      rw [htext] at hstatus
      cases hstatus
      rw [List.forall_mem_cons, htext]
      split at h
      · rename_i hcomplete
        rw [ih hrest h]
        exact ⟨fun hall => ⟨hcomplete, hall⟩, fun hboth => hboth.2⟩
      · rename_i hincomplete
        cases h
        exact iff_of_false Bool.false_ne_true fun hboth => hincomplete hboth.1

/-- The milestone is complete for the reader. -/
theorem milestoneComplete_iff (h : QueueRead site document queue) {i : Nat} {entry : Fields}
    (hentry : (entries document "milestones")[i]? = some entry)
    (hid : entry.get "id" = .str plan.milestoneId) :
    queue.milestoneComplete site.platform plan.milestoneId = true ↔
      (∃ raw feature, ReadAs document queue raw feature ∧ InMilestone plan feature ∧
        Counted (feature.get "status")) ∧
      ¬ ∃ raw feature, ReadAs document queue raw feature ∧ InMilestone plan feature ∧
        Open (feature.get "status") := by
  obtain ⟨milestone, -, hmilestoneId, -, hfound⟩ := h.milestone_of_entry hentry hid
  have hmem : ∀ feature, feature ∈ (queue.featuresForMilestone site.platform
      plan.milestoneId).filter (fun item => !FeatureQueue.hasStatus item ["deferred", "rejected"]) ↔
      (∃ raw, ReadAs document queue raw feature) ∧ InMilestone plan feature ∧
        Counted (feature.get "status") := by
    intro feature
    have hplace : feature ∈ queue.features ↔ ∃ raw, ReadAs document queue raw feature := by
      constructor
      · intro hfeature
        obtain ⟨j, raw, parts, hraw, hcopy, -⟩ := h.feature_copy hfeature
        exact ⟨raw, j, hraw, hcopy⟩
      · rintro ⟨raw, j, -, hcopy⟩
        exact List.mem_of_getElem? hcopy
    have hcounted : (!FeatureQueue.hasStatus feature ["deferred", "rejected"]) = true ↔
        Counted (feature.get "status") := by
      rw [Bool.not_eq_true', ← Bool.not_eq_true, hasStatus_iff_mem]
      rfl
    rw [FeatureQueue.featuresForMilestone, hfound]
    simp only [List.mem_filter, decide_eq_true_eq, hmilestoneId]
    rw [hplace, hcounted, and_assoc]
    rfl
  unfold FeatureQueue.milestoneComplete
  dsimp only
  rw [Bool.and_eq_true, List.all_eq_true, Bool.not_eq_true', List.isEmpty_eq_false_iff_exists_mem]
  refine and_congr ?_ ?_
  · constructor
    · rintro ⟨feature, hfeature⟩
      obtain ⟨⟨raw, hreadAs⟩, hboth⟩ := (hmem feature).mp hfeature
      exact ⟨raw, feature, hreadAs, hboth⟩
    · rintro ⟨raw, feature, hreadAs, hboth⟩
      exact ⟨feature, (hmem feature).mpr ⟨⟨raw, hreadAs⟩, hboth⟩⟩
  · constructor
    · rintro hall ⟨raw, feature, hreadAs, hin, hcounted, hinexact⟩
      have hcomplete := hall feature ((hmem feature).mpr ⟨⟨raw, hreadAs⟩, hin, hcounted⟩)
      exact hinexact (hasStatus_iff_mem.mp hcomplete)
    · intro hnone feature hfeature
      obtain ⟨⟨raw, hreadAs⟩, hin, hcounted⟩ := (hmem feature).mp hfeature
      rw [hasStatus_iff_mem]
      by_contra hinexact
      exact hnone ⟨raw, feature, hreadAs, hin, hcounted, hinexact⟩

/-- The milestone is complete for the writer. -/
theorem Integrated.milestoneComplete_iff
    (h : Integrated plan ok resultingCommit document result place raw raw' spot milestone
      milestone') (hread' : QueueRead site result.document queue') :
    result.milestoneComplete = true ↔
      (∃ raw feature, ReadAs result.document queue' raw feature ∧ Spelled plan raw) ∧
      ¬ ∃ raw feature, ReadAs result.document queue' raw feature ∧ Spelled plan raw ∧
        ¬ Exact (raw.get "status") := by
  obtain ⟨allWritten, hall, hverdict⟩ := h.verdict
  rw [← h.entries_features] at hall hverdict
  have hmem : ∀ item, item ∈ (entries result.document "features").filter
      (fun item => item.get "milestone" = .str plan.milestoneId) ↔
      (∃ feature, ReadAs result.document queue' item feature) ∧ Spelled plan item := by
    intro item
    rw [List.mem_filter, decide_eq_true_iff]
    refine and_congr_left fun _ => ⟨fun hitem => ?_, ?_⟩
    · obtain ⟨i, feature, parts, hraw, hfeature, -⟩ := hread'.feature_entry hitem
      exact ⟨feature, i, hraw, hfeature⟩
    · rintro ⟨feature, i, hraw, -⟩
      exact List.mem_of_getElem? hraw
  have htexts : ∀ item ∈ (entries result.document "features").filter
      (fun item => item.get "milestone" = .str plan.milestoneId),
      ∃ text, item.get "status" = .str text := by
    intro item hitem
    obtain ⟨i, feature, parts, -, -, hparts, -⟩ :=
      hread'.feature_entry (List.mem_of_mem_filter hitem)
    obtain ⟨text, htext, -⟩ := hparts.status
    exact ⟨text, htext⟩
  rw [hverdict, Bool.and_eq_true, Bool.not_eq_true', List.isEmpty_eq_false_iff_exists_mem,
    writtenComplete_eq_ok htexts hall]
  refine and_congr ?_ ?_
  · constructor
    · rintro ⟨item, hitem⟩
      obtain ⟨⟨feature, hreadAs⟩, hspelled⟩ := (hmem item).mp hitem
      exact ⟨item, feature, hreadAs, hspelled⟩
    · rintro ⟨item, feature, hreadAs, hspelled⟩
      exact ⟨item, (hmem item).mpr ⟨⟨feature, hreadAs⟩, hspelled⟩⟩
  · constructor
    · rintro hexact ⟨item, feature, hreadAs, hspelled, hinexact⟩
      exact hinexact (hexact item ((hmem item).mpr ⟨⟨feature, hreadAs⟩, hspelled⟩))
    · intro hnone item hitem
      obtain ⟨⟨feature, hreadAs⟩, hspelled⟩ := (hmem item).mp hitem
      by_contra hinexact
      exact hnone ⟨item, feature, hreadAs, hspelled, hinexact⟩

/-- Two verdicts over two scopes: one wants some entry of its scope and only exact ones, the
    other some counted entry of a larger scope and no open one. -/
theorem verdicts_agree_iff {α β : Type} {S M E C O : α → β → Prop}
    (hscope : ∀ a b, S a b → M a b) (hexact : ∀ a b, S a b → E a b → C a b ∧ ¬ O a b) :
    (((∃ a b, S a b) ∧ ¬ ∃ a b, S a b ∧ ¬ E a b) ↔
      ((∃ a b, M a b ∧ C a b) ∧ ¬ ∃ a b, M a b ∧ O a b)) ↔
    ((∃ a b, M a b ∧ ¬ S a b ∧ O a b) → (∃ a b, S a b) → ∃ a b, S a b ∧ ¬ E a b) ∧
      ((∃ a b, M a b ∧ C a b) → ((¬ ∃ a b, S a b) ∨ ∃ a b, S a b ∧ ¬ E a b ∧ ¬ O a b) →
        ∃ a b, M a b ∧ O a b) := by
  constructor
  · intro hagree
    refine ⟨fun hhidden hsome => ?_, fun hcounted hclosed => ?_⟩
    · by_contra hnone
      obtain ⟨a, b, hm, -, ho⟩ := hhidden
      exact (hagree.mp ⟨hsome, hnone⟩).2 ⟨a, b, hm, ho⟩
    · by_contra hnone
      obtain ⟨hsome, hall⟩ := hagree.mpr ⟨hcounted, hnone⟩
      rcases hclosed with hempty | ⟨a, b, hs, he, -⟩
      · exact hempty hsome
      · exact hall ⟨a, b, hs, he⟩
  · rintro ⟨hhidden, hclosed⟩
    constructor
    · rintro ⟨⟨a, b, hs⟩, hall⟩
      have he : E a b := by
        by_contra he
        exact hall ⟨a, b, hs, he⟩
      refine ⟨⟨a, b, hscope a b hs, (hexact a b hs he).1⟩, ?_⟩
      rintro ⟨c, d, hm, ho⟩
      by_cases hs' : S c d
      · by_cases he' : E c d
        · exact (hexact c d hs' he').2 ho
        · exact hall ⟨c, d, hs', he'⟩
      · exact hall (hhidden ⟨c, d, hm, hs', ho⟩ ⟨a, b, hs⟩)
    · rintro ⟨hcounted, hnone⟩
      have hsome : ∃ a b, S a b := by
        by_contra hempty
        exact hnone (hclosed hcounted (.inl hempty))
      refine ⟨hsome, ?_⟩
      rintro ⟨a, b, hs, he⟩
      have hclosedHere : ¬ O a b := fun ho => hnone ⟨a, b, hscope a b hs, ho⟩
      exact hnone (hclosed hcounted (.inr ⟨a, b, hs, he, hclosedHere⟩))

/-- The milestone is complete for its writer and for its reader at once, unless one entry hides
    from one of them. `hidden`: an open feature that is spelled under another name of the
    milestone. `closed`: a feature that is complete, deferred or rejected, but not written as
    complete, or no feature spelled under the plan's milestone at all. -/
structure VerdictsAgree (plan : IntegrationPlan) (ok : Bool) (document : Fields)
    (queue : FeatureQueue) : Prop where
  hidden : (∃ raw feature, ReadAs document queue raw feature ∧ InMilestone plan feature ∧
      ¬ Spelled plan raw ∧ Open (statusAfter plan ok raw (feature.get "status"))) →
    (∃ raw feature, ReadAs document queue raw feature ∧ Spelled plan raw) →
    ∃ raw feature, ReadAs document queue raw feature ∧ Spelled plan raw ∧
      ¬ Exact (statusAfter plan ok raw (raw.get "status"))
  closed : (∃ raw feature, ReadAs document queue raw feature ∧ InMilestone plan feature ∧
      Counted (statusAfter plan ok raw (feature.get "status"))) →
    ((¬ ∃ raw feature, ReadAs document queue raw feature ∧ Spelled plan raw) ∨
      ∃ raw feature, ReadAs document queue raw feature ∧ Spelled plan raw ∧
        ¬ Exact (statusAfter plan ok raw (raw.get "status")) ∧
        ¬ Open (statusAfter plan ok raw (feature.get "status"))) →
    ∃ raw feature, ReadAs document queue raw feature ∧ InMilestone plan feature ∧
      Open (statusAfter plan ok raw (feature.get "status"))

/-- What is written as complete is read as the same. -/
theorem status_of_exact (hread : QueueRead site document queue) {raw feature : Fields}
    (hreadAs : ReadAs document queue raw feature) (hexact : Exact (raw.get "status")) :
    feature.get "status" = raw.get "status" := by
  obtain ⟨i, hraw, hfeature⟩ := hreadAs
  obtain ⟨parts, hparts, rfl⟩ := hread.features i raw feature hraw hfeature
  obtain ⟨text, htext, -, hname, -⟩ := hparts.status
  obtain ⟨status, hstatus, heq⟩ := List.mem_map.mp hexact
  rw [htext, Json.str.injEq] at heq
  rw [parts.get_copy_status, htext, ← hname, ← heq, statusName_complete hstatus]

theorem not_open_of_exact {status : Json} (h : Exact status) : Counted status ∧ ¬ Open status := by
  refine ⟨?_, fun hopen => hopen.2 h⟩
  obtain ⟨text, htext, rfl⟩ := List.mem_map.mp h
  simp only [COMPLETE_STATUSES, List.mem_cons, List.not_mem_nil, or_false] at htext
  rcases htext with rfl | rfl <;> unfold Counted <;> decide

/-- What is spelled under the plan's milestone belongs to it. -/
theorem inMilestone_of_spelled (hread : QueueRead site document queue)
    (htarget : OnlyEntry document "milestones" plan.milestoneId spot milestone)
    {raw feature : Fields} (hreadAs : ReadAs document queue raw feature)
    (hspelled : Spelled plan raw) : InMilestone plan feature := by
  obtain ⟨i, hraw, hfeature⟩ := hreadAs
  obtain ⟨parts, hparts, rfl⟩ := hread.features i raw feature hraw hfeature
  obtain ⟨text, own, htext, -, hown, heq⟩ := hparts.milestone
  obtain ⟨target, -, hid, -, hfound⟩ := hread.milestone_of_entry htarget.found htarget.id
  rw [Spelled, htext, Json.str.injEq] at hspelled
  rw [FeatureQueue.milestone, ← hspelled, hown, Option.some.injEq] at hfound
  rw [InMilestone, parts.get_copy_milestone, heq, hfound, hid]

/-- What is complete as it is written keeps no milestone open. -/
theorem closed_of_exact (hread : QueueRead site document queue) {raw feature : Fields}
    (hreadAs : ReadAs document queue raw feature)
    (hexact : Exact (statusAfter plan ok raw (raw.get "status"))) :
    Counted (statusAfter plan ok raw (feature.get "status")) ∧
      ¬ Open (statusAfter plan ok raw (feature.get "status")) := by
  by_cases hid : raw.get "id" = .str plan.featureId
  · rw [statusAfter, if_pos hid] at hexact
    rw [statusAfter, if_pos hid]
    exact not_open_of_exact hexact
  · rw [statusAfter, if_neg hid] at hexact
    rw [statusAfter, if_neg hid, status_of_exact hread hreadAs hexact]
    exact not_open_of_exact hexact

/-- The verdict that is written is the reader's exactly if no entry hides. -/
theorem Integrated.verdict_iff
    (h : Integrated plan ok resultingCommit document result place raw raw' spot milestone
      milestone') (hread : QueueRead site document queue)
    (hread' : QueueRead site result.document queue')
    (hsame : List.Forall₂ SameFeature queue.features queue'.features) :
    (result.milestoneComplete = true ↔
      queue'.milestoneComplete site.platform plan.milestoneId = true) ↔
    VerdictsAgree plan ok document queue := by
  have hspot := (List.getElem?_eq_some_iff.mp h.target.found).1
  have hentry : (entries result.document "milestones")[spot]? = some (milestone'.set "status"
      (.str (if result.milestoneComplete then "integration_complete" else "active"))) := by
    rw [h.entries_milestones, List.getElem?_set_self hspot]
  have hid := (h.recorded.id (.str (if result.milestoneComplete then "integration_complete"
    else "active"))).trans h.target.id
  rw [h.milestoneComplete_iff hread', Conveyor.milestoneComplete_iff hread' hentry hid]
  -- what the writer and the reader find after the writes, said of the entries before them
  have hS := h.readAs_iff hread hread' hsame
    (P := fun raw _ => Spelled plan raw) (Q := fun raw _ => Spelled plan raw)
    fun _ _ _ _ hr => by rw [Spelled, Spelled, hr.writtenMilestone]
  have hSE := h.readAs_iff hread hread' hsame
    (P := fun raw _ => Spelled plan raw ∧ ¬ Exact (statusAfter plan ok raw (raw.get "status")))
    (Q := fun raw _ => Spelled plan raw ∧ ¬ Exact (raw.get "status"))
    fun _ _ _ _ hr => by rw [Spelled, Spelled, hr.writtenMilestone, hr.writtenStatus]
  have hMC := h.readAs_iff hread hread' hsame
    (P := fun raw feature => InMilestone plan feature ∧
      Counted (statusAfter plan ok raw (feature.get "status")))
    (Q := fun _ feature => InMilestone plan feature ∧ Counted (feature.get "status"))
    fun _ _ _ _ hr => by rw [InMilestone, InMilestone, hr.milestone, hr.status]
  have hMO := h.readAs_iff hread hread' hsame
    (P := fun raw feature => InMilestone plan feature ∧
      Open (statusAfter plan ok raw (feature.get "status")))
    (Q := fun _ feature => InMilestone plan feature ∧ Open (feature.get "status"))
    fun _ _ _ _ hr => by rw [InMilestone, InMilestone, hr.milestone, hr.status]
  rw [← hS, ← hSE, ← hMC, ← hMO]
  have hscope : ∀ raw feature, (ReadAs document queue raw feature ∧ Spelled plan raw) →
      ReadAs document queue raw feature ∧ InMilestone plan feature :=
    fun _ _ hboth => ⟨hboth.1, inMilestone_of_spelled hread h.target hboth.1 hboth.2⟩
  have hexact : ∀ raw feature, (ReadAs document queue raw feature ∧ Spelled plan raw) →
      Exact (statusAfter plan ok raw (raw.get "status")) →
      Counted (statusAfter plan ok raw (feature.get "status")) ∧
        ¬ Open (statusAfter plan ok raw (feature.get "status")) :=
    fun _ _ hboth hexact => closed_of_exact hread hboth.1 hexact
  have hagree := verdicts_agree_iff hscope hexact
  simp only [and_assoc] at hagree
  rw [hagree]
  have hhidden : ∀ raw feature, (ReadAs document queue raw feature ∧ InMilestone plan feature ∧
      ¬ (ReadAs document queue raw feature ∧ Spelled plan raw) ∧
      Open (statusAfter plan ok raw (feature.get "status"))) ↔
      ReadAs document queue raw feature ∧ InMilestone plan feature ∧ ¬ Spelled plan raw ∧
        Open (statusAfter plan ok raw (feature.get "status")) := by
    intro raw₀ feature
    refine and_congr_right fun hreadAs => and_congr_right fun _ => and_congr_left fun _ => ?_
    exact not_congr ⟨fun hboth => hboth.2, fun hspelled => ⟨hreadAs, hspelled⟩⟩
  simp only [hhidden]
  exact ⟨fun hboth => ⟨hboth.1, hboth.2⟩, fun hverdicts => ⟨hverdicts.hidden, hverdicts.closed⟩⟩

/-! ### The dependents of the feature -/

/-- The dependents of the integrated feature find it in the list of its own milestone: either that
    is the plan's milestone and they name it as the plan does, or the list had it before. -/
def ListedForDependents (plan : IntegrationPlan) (document : Fields) (queue : FeatureQueue) : Prop :=
  ∃ raw feature, ReadAs document queue raw feature ∧ raw.get "id" = .str plan.featureId ∧
    (InMilestone plan feature ∧ Platform.strip plan.featureId = plan.featureId ∨
      ∃ own ∈ queue.milestones, own.get "id" = feature.get "milestone" ∧
        FeatureQueue.isIn (Platform.strip plan.featureId)
          (own.getD "integrated_features" (.arr [])) = .ok true)

theorem isIn_arr {value : String} {items : List Json} :
    FeatureQueue.isIn value (.arr items) = .ok true ↔ Json.str value ∈ items := by
  rw [FeatureQueue.isIn, Except.ok.injEq, List.contains_iff_mem]

/-- Each milestone of the written queue lists what it listed before; the plan's milestone lists
    the integrated feature as well. -/
theorem Integrated.lists_iff
    (h : Integrated plan true resultingCommit document result place raw raw' spot milestone
      milestone') (hread : QueueRead site document queue)
    (hread' : QueueRead site result.document queue') {j : Nat} {before after : Fields}
    (hbefore : queue.milestones[j]? = some before)
    (hafter : queue'.milestones[j]? = some after) (id : String) :
    FeatureQueue.isIn id (after.getD "integrated_features" (.arr [])) = .ok true ↔
      before.get "id" = .str (Platform.strip plan.milestoneId) ∧ id = plan.featureId ∨
        FeatureQueue.isIn id (before.getD "integrated_features" (.arr [])) = .ok true := by
  have hj : j < (entries document "milestones").length := by
    rw [hread.milestoneCount]
    exact (List.getElem?_eq_some_iff.mp hbefore).1
  have hentry := List.getElem?_eq_getElem hj
  generalize (entries document "milestones")[j] = entry at hentry
  have hcopy := hread.milestones j entry before hentry hbefore
  have hspotLength : spot < (entries document "milestones").length :=
    (List.getElem?_eq_some_iff.mp h.target.found).1
  by_cases hspot : spot = j
  · subst hspot
    cases hentry.symm.trans h.target.found
    have hentry' : (entries result.document "milestones")[spot]? = some (milestone'.set "status"
        (.str (if result.milestoneComplete then "integration_complete" else "active"))) := by
      rw [h.entries_milestones, List.getElem?_set_self hspotLength]
    have hcopy' := hread'.milestones spot _ after hentry' hafter
    obtain ⟨old, hold, hnew⟩ := h.recorded.lists rfl
    have hnew' : after.getD "integrated_features" (.arr []) = .arr
        (if .str plan.featureId ∈ old then old else old ++ [.str plan.featureId]) := by
      rw [hcopy'.getD (by decide) (by decide), Fields.getD, Fields.get?_set_of_ne (by decide),
        Fields.get?_of_get hnew (by simp), Option.getD_some]
    rw [hnew', hcopy.getD (by decide) (by decide), hold, isIn_arr, isIn_arr,
      hcopy.copy_id h.target.id]
    split
    · rename_i hin
      refine ⟨.inr, ?_⟩
      rintro (⟨-, rfl⟩ | hlisted)
      · exact hin
      · exact hlisted
    · rw [List.mem_append, List.mem_singleton, Json.str.injEq, or_comm]
      simp
  · have hentry' : (entries result.document "milestones")[j]? = some entry := by
      rw [h.entries_milestones, List.getElem?_set_ne hspot, hentry]
    have hsame := hcopy.unique (hread'.milestones j entry after hentry' hafter)
    have hother : before.get "id" ≠ .str (Platform.strip plan.milestoneId) := by
      intro hid
      have htargetCopy := List.getElem?_eq_getElem (hread.milestoneCount ▸ hspotLength)
      have htargetId := (hread.milestones spot milestone _ h.target.found htargetCopy).copy_id
        h.target.id
      have hplaces : (queue.milestones.map fun item => item.get "id")[spot]? =
          (queue.milestones.map fun item => item.get "id")[j]? := by
        rw [List.getElem?_map, List.getElem?_map, htargetCopy, hbefore, Option.map_some,
          Option.map_some, htargetId, hid]
      have hlength : spot < (queue.milestones.map fun item => item.get "id").length := by
        rw [List.length_map, ← hread.milestoneCount]
        exact hspotLength
      exact hspot ((List.getElem?_inj hlength hread.milestoneIds).mp hplaces)
    rw [← hsame]
    exact ⟨.inr, fun hlisted => hlisted.resolve_left fun hboth => hother hboth.1⟩

/-- The integrated feature is complete for its dependents exactly if the validation succeeded and
    they find it listed. -/
theorem Integrated.dependencyComplete_iff
    (h : Integrated plan ok resultingCommit document result place raw raw' spot milestone
      milestone') (hread : QueueRead site document queue)
    (hread' : QueueRead site result.document queue')
    (hnames : List.Forall₂ SameNames queue.milestones queue'.milestones)
    (hsame : List.Forall₂ SameFeature queue.features queue'.features) :
    queue'.dependencyComplete site.platform (Platform.strip plan.featureId) = .ok true ↔
      ok = true ∧ ListedForDependents plan document queue := by
  have hplace := (List.getElem?_eq_some_iff.mp h.feature.found).1
  have hentry : (entries result.document "features")[place]? = some raw' := by
    rw [h.entries_features, List.getElem?_set_self hplace]
  have hplace' := (List.getElem?_eq_some_iff.mp hentry).1
  obtain ⟨before, hbefore⟩ : ∃ before, queue.features[place]? = some before :=
    ⟨_, List.getElem?_eq_getElem (hread.featureCount ▸ hplace)⟩
  obtain ⟨after, hafter⟩ : ∃ after, queue'.features[place]? = some after :=
    ⟨_, List.getElem?_eq_getElem (hread'.featureCount ▸ hplace')⟩
  have hrewritten := h.rewritten hread hread' hsame h.feature.found hbefore hentry hafter
  have hafterMem := List.mem_of_getElem? hafter
  obtain ⟨parts, hparts, hcopy⟩ := hread'.features place raw' after hentry hafter
  have hid : after.get "id" = .str (Platform.strip plan.featureId) := by
    have hrawId : raw'.get "id" = .str plan.featureId := by
      rw [Fields.get, h.written.keeps "id" (by decide), ← Fields.get, h.feature.id]
    rw [hcopy, parts.get_copy_id, ← Json.str.inj (hrawId.symm.trans hparts.id)]
  have hstatus : after.get "status" = .str (outcome ok) := by
    rw [hrewritten.status, statusAfter, if_pos h.feature.id]
  have hfound := (FeatureQueue.feature_eq_some hread').mpr ⟨hafterMem, hid⟩
  -- the milestone of the feature, before and after
  obtain ⟨own', hown', id, hownId', hmilestone'⟩ := hread'.own_milestone hafterMem
  obtain ⟨j, hj, rfl⟩ := List.mem_iff_getElem.mp hown'
  obtain ⟨hcount, hpairs⟩ := forall₂_iff_places.mp hnames
  obtain ⟨own, hown⟩ : ∃ own, queue.milestones[j]? = some own :=
    ⟨_, List.getElem?_eq_getElem (hcount ▸ hj)⟩
  have hat' := List.getElem?_eq_getElem hj
  have hownId : own.get "id" = before.get "milestone" := by
    rw [← (hpairs j own _ hown hat').1, hownId', ← hmilestone', hrewritten.milestone]
  have hlisted : ListedForDependents plan document queue ↔
      before.get "milestone" = .str (Platform.strip plan.milestoneId) ∧
          Platform.strip plan.featureId = plan.featureId ∨
        FeatureQueue.isIn (Platform.strip plan.featureId)
          (own.getD "integrated_features" (.arr [])) = .ok true := by
    constructor
    · rintro ⟨raw₀, feature, ⟨i, hraw₀, hfeature⟩, hid₀, hlist⟩
      obtain rfl : i = place := h.feature.only i raw₀ hraw₀ hid₀
      cases hfeature.symm.trans hbefore
      refine hlist.imp_right ?_
      rintro ⟨other, hother, hsameId, hin⟩
      have hotherId : other.get "id" = .str id := by
        rw [hsameId, ← hrewritten.milestone, hmilestone']
      have hfirst := (FeatureQueue.only_eq_some hread.milestoneIds).mpr ⟨hother, hotherId⟩
      have hsecond := (FeatureQueue.only_eq_some hread.milestoneIds).mpr
        ⟨List.mem_of_getElem? hown, hownId.trans (hsameId.symm.trans hotherId)⟩
      rw [← Option.some.inj (hfirst.symm.trans hsecond)]
      exact hin
    · intro hlist
      refine ⟨raw, before, ⟨place, h.feature.found, hbefore⟩, h.feature.id,
        hlist.imp_right fun hin => ⟨own, List.mem_of_getElem? hown, hownId, hin⟩⟩
  have hlookup : queue'.milestone site.platform (site.platform.str (after.get "milestone")) =
      some queue'.milestones[j] := by
    rw [hmilestone', Platform.str_str, FeatureQueue.milestone_of_mem hread' hown' hownId']
  unfold FeatureQueue.dependencyComplete
  rw [hfound]
  dsimp only
  rw [hstatus, hlookup, Option.map_some, Option.getD_some]
  cases ok with
  | false =>
      rw [if_pos (by decide)]
      exact iff_of_false (by simp) (by simp)
  | true =>
      have hpassed : after.get "integration_status" = .str "passed" := by
        rw [hcopy, parts.get_copy (by decide), h.written.integrationStatus, if_pos rfl]
      have hcommit : after.get "integrated_commit" = .str resultingCommit := by
        rw [hcopy, parts.get_copy (by decide), h.written.integratedCommit]
      have houtcome : Json.str (outcome true) = .str "integrated" := rfl
      rw [if_neg (by decide), if_pos houtcome, hpassed, hcommit, if_neg (by simp [Json.asString?]),
        h.lists_iff hread hread' hown hat', hownId, hlisted]
      simp

/-- A feature that depends on the integrated one, and on nothing else. -/
def DependsOnly (plan : IntegrationPlan) (feature : Fields) : Prop :=
  FeatureQueue.dependencyIds feature ≠ [] ∧
    ∀ id ∈ FeatureQueue.dependencyIds feature, id = Platform.strip plan.featureId

theorem dependenciesComplete_of_dependsOnly {P : Platform} {feature : Fields}
    (h : DependsOnly plan feature) :
    queue.dependenciesComplete P feature = .ok true ↔
      queue.dependencyComplete P (Platform.strip plan.featureId) = .ok true := by
  obtain ⟨hsome, hall⟩ := h
  rw [FeatureQueue.dependenciesComplete, FeatureQueue.allComplete_eq_ok]
  constructor
  · intro hcomplete
    obtain ⟨id, hid⟩ := List.exists_mem_of_ne_nil _ hsome
    exact hall id hid ▸ hcomplete id hid
  · intro hcomplete id hid
    rw [hall id hid]
    exact hcomplete

/-! ### Reading back -/

/-- The entries of the list differ at most where they have this identifier. -/
def OthersKept (document document' : Fields) (name id : String) : Prop :=
  List.Forall₂ (fun raw raw' => raw.get "id" ≠ .str id → raw' = raw)
    (entries document name) (entries document' name)

/-- The written document says what the integration meant. -/
structure ReadsBack (site : QueueSite) (plan : IntegrationPlan) (ok : Bool)
    (document document' : Fields) : Prop where
  elsewhere : ∀ key, key ≠ "features" → key ≠ "milestones" →
    document'.get? key = document.get? key
  features : OthersKept document document' "features" plan.featureId
  milestones : OthersKept document document' "milestones" plan.milestoneId
  accepted : ∃ queue', FeatureQueue.ofFields site document' = .ok queue' ∧
    (∀ feature, DependsOnly plan feature →
      (queue'.dependenciesComplete site.platform feature = .ok true ↔ ok = true)) ∧
    ∀ milestone ∈ entries document' "milestones", milestone.get "id" = .str plan.milestoneId →
      milestone.get "status" = .str
        (if queue'.milestoneComplete site.platform plan.milestoneId then "integration_complete"
          else "active")

theorem othersKept_of_set {name id : String} {item item' : Fields} {document' : Fields}
    (honly : OnlyEntry document name id place item)
    (hset : entries document' name = (entries document name).set place item') :
    OthersKept document document' name id := by
  rw [OthersKept, hset]
  exact forall₂_set honly.found (fun _ _ _ => rfl) fun hother => absurd honly.id hother

/-- The status that is written on the plan's milestone. -/
theorem Integrated.milestone_status_iff
    (h : Integrated plan ok resultingCommit document result place raw raw' spot milestone
      milestone') (complete : Bool) :
    (∀ milestone ∈ entries result.document "milestones",
      milestone.get "id" = .str plan.milestoneId → milestone.get "status" = .str
        (if complete then "integration_complete" else "active")) ↔
      result.milestoneComplete = complete := by
  have hspot := (List.getElem?_eq_some_iff.mp h.target.found).1
  constructor
  · intro hall
    have hmem : milestone'.set "status" (.str (if result.milestoneComplete then
        "integration_complete" else "active")) ∈ entries result.document "milestones" := by
      rw [h.entries_milestones]
      exact List.mem_of_getElem? (List.getElem?_set_self hspot)
    have hstatus := hall _ hmem ((h.recorded.id _).trans h.target.id)
    rw [Fields.get_set_self, Json.str.injEq] at hstatus
    revert hstatus
    cases result.milestoneComplete <;> cases complete <;> decide
  · rintro rfl entry hentry hid
    rw [h.entries_milestones] at hentry
    obtain ⟨i, hi⟩ := List.mem_iff_getElem?.mp hentry
    rw [List.getElem?_set] at hi
    split at hi
    · rw [Option.some.injEq] at hi
      rw [← hi, Fields.get_set_self]
    · rename_i hother
      exact absurd (h.target.only i entry hi hid).symm hother

/-- An integration's document reads back exactly if the commit of its plan has text, a successful
    integration is listed for the dependents, and the two verdicts on the milestone agree. -/
theorem reads_back_iff {acceptedTree : String} {authority : Option Fields} {marked : Fields}
    {validation : IntegrationValidation}
    (hqueue : FeatureQueue.ofFields site document = .ok queue)
    (hmark : markIntegrating acceptedTree plan authority document = .ok marked)
    (hrecord : recordFinalMetadata plan validation resultingCommit marked = .ok result) :
    ReadsBack site plan validation.ok document result.document ↔
      Platform.hasText plan.acceptedCommit = true ∧
      (validation.ok = true → ListedForDependents plan document queue) ∧
      VerdictsAgree plan validation.ok document queue := by
  have hread := ofFields_eq_ok.mp hqueue
  obtain ⟨place, raw, raw', spot, milestone, milestone', h⟩ :=
    integrated_of_writes hread hmark hrecord
  by_cases hcommit : Platform.hasText plan.acceptedCommit = true
  · obtain ⟨queue', hread', hnames, hsame⟩ := hread.edit (h.documentEdit hread hcommit)
    have hdependents := h.dependencyComplete_iff hread hread' hnames hsame
    have hstatus := h.milestone_status_iff
      (queue'.milestoneComplete site.platform plan.milestoneId)
    have hverdict := h.verdict_iff hread hread' hsame
    constructor
    · intro hback
      obtain ⟨queue₂, hqueue₂, hdependents₂, hstatus₂⟩ := hback.accepted
      cases (ofFields_eq_ok.mpr hread').symm.trans hqueue₂
      refine ⟨hcommit, fun hok => ?_, hverdict.mp (Bool.eq_iff_iff.mp (hstatus.mp hstatus₂))⟩
      let dependent : Fields := [("dependencies", .arr [.str (Platform.strip plan.featureId)])]
      have honly : DependsOnly plan dependent := ⟨by simp [dependent, FeatureQueue.dependencyIds,
        Fields.get, Fields.get?_cons, Json.asString?], by simp [dependent,
        FeatureQueue.dependencyIds, Fields.get, Fields.get?_cons, Json.asString?]⟩
      have hcomplete := (hdependents₂ dependent honly).mpr hok
      exact (hdependents.mp ((dependenciesComplete_of_dependsOnly honly).mp hcomplete)).2
    · rintro ⟨-, hlisted, hagree⟩
      refine ⟨h.elsewhere, othersKept_of_set h.feature h.entries_features,
        othersKept_of_set h.target h.entries_milestones, queue', ofFields_eq_ok.mpr hread',
        fun feature honly => ?_, hstatus.mpr (Bool.eq_iff_iff.mpr (hverdict.mpr hagree))⟩
      rw [dependenciesComplete_of_dependsOnly honly, hdependents]
      exact ⟨fun hboth => hboth.1, fun hok => ⟨hok, hlisted hok⟩⟩
  · refine iff_of_false (fun hback => ?_) fun hall => hcommit hall.1
    obtain ⟨queue', hqueue', -⟩ := hback.accepted
    exact hcommit ((h.accepted_iff hread).mp ⟨queue', hqueue'⟩)

/-! ### A deferred feature beside the integrated one -/

def demoPlan : IntegrationPlan where
  createdAt := "2025-01-01T00:00:00Z"
  featureId := "F1"
  featureBranch := "feature/f1"
  acceptedCommit := "c1"
  acceptedMetadataRef := "c1"
  milestoneId := "M1"
  preIntegrationHead := "c0"

def passedValidation : IntegrationValidation := ⟨true, "c2", []⟩

/-- A milestone with an accepted feature, and others. -/
def acceptedQueue (others : List Fields) : Fields :=
  [("features", .arr (.obj [("id", .str "F1"), ("milestone", .str "M1"),
      ("status", .str "accepted")] :: others.map .obj)),
   ("milestones", .arr [.obj [("id", .str "M1"), ("integrated_features", .arr [])]])]

def deferredFields : Fields :=
  [("id", .str "F2"), ("milestone", .str "M1"), ("status", .str "deferred")]

/-- The milestone stays active for its writer and is complete for its reader. -/
theorem deferred_feature_not_read_back :
    ∃ queue marked result,
      FeatureQueue.ofFields .plain (acceptedQueue [deferredFields]) = .ok queue ∧
      markIntegrating "tree" demoPlan none (acceptedQueue [deferredFields]) = .ok marked ∧
      recordFinalMetadata demoPlan passedValidation "c2" marked = .ok result ∧
      ¬ ReadsBack .plain demoPlan passedValidation.ok (acceptedQueue [deferredFields])
        result.document := by
  refine ⟨_, _, _, rfl, rfl, rfl, ?_⟩
  intro hback
  obtain ⟨queue', hqueue', -, hstatus⟩ := hback.accepted
  cases hqueue'
  have hactive := hstatus _ (List.mem_singleton_self _) rfl
  exact absurd hactive (by decide)

/-- The integration of the only feature of its milestone reads back. -/
theorem only_feature_reads_back :
    ∃ queue marked result,
      FeatureQueue.ofFields .plain (acceptedQueue []) = .ok queue ∧
      markIntegrating "tree" demoPlan none (acceptedQueue []) = .ok marked ∧
      recordFinalMetadata demoPlan passedValidation "c2" marked = .ok result ∧
      ReadsBack .plain demoPlan passedValidation.ok (acceptedQueue []) result.document := by
  obtain ⟨queue, feature, marked, result, hqueue, hfeatures, hmilestone, hmark, hrecord⟩ :
      ∃ queue feature marked result,
        FeatureQueue.ofFields .plain (acceptedQueue []) = .ok queue ∧
        queue.features = [feature] ∧ feature.get "milestone" = .str "M1" ∧
        markIntegrating "tree" demoPlan none (acceptedQueue []) = .ok marked ∧
        recordFinalMetadata demoPlan passedValidation "c2" marked = .ok result :=
    ⟨_, _, _, _, rfl, rfl, rfl, rfl, rfl⟩
  have hafter : ∀ raw other status, ReadAs (acceptedQueue []) queue raw other →
      statusAfter demoPlan true raw status = .str "integrated" := by
    rintro raw other status ⟨i, hraw, -⟩
    rw [List.mem_singleton.mp (List.mem_of_getElem? hraw)]
    rfl
  have hexact : Exact (.str "integrated") := by
    unfold Exact
    decide
  have hsome : ReadAs (acceptedQueue []) queue [("id", .str "F1"), ("milestone", .str "M1"),
      ("status", .str "accepted")] feature := ⟨0, rfl, by rw [hfeatures]; rfl⟩
  refine ⟨queue, marked, result, hqueue, hmark, hrecord,
    (reads_back_iff hqueue hmark hrecord).mpr ⟨by decide, fun _ => ?_, ?_, ?_⟩⟩
  · exact ⟨_, feature, hsome, rfl, .inl ⟨hmilestone, by decide⟩⟩
  · rintro ⟨raw, other, hreadAs, -, -, hopen⟩
    rw [passedValidation, hafter raw other _ hreadAs] at hopen
    exact absurd hexact hopen.2
  · rintro - (hnone | ⟨raw, other, hreadAs, -, hinexact, -⟩)
    · exact absurd ⟨_, feature, hsome, rfl⟩ hnone
    · rw [passedValidation, hafter raw other _ hreadAs] at hinexact
      exact absurd hexact hinexact

end Conveyor
