import Conveyor.QueueReaders
import Conveyor.QueueSummary
import Mathlib.Data.Prod.Lex

/-!
# The migration of legacy state

`LegacyStateMigrator.derive_projection` (`migration.py`) derives the first projection of a project
from its queue, the cycle document of the repository and the state of the controller. It selects
the next feature by a rule of its own, `leastByText` of the features that are marked ready, and
takes the branch of the first of them. `migration_selects_iff` says when this is the selection of
the queue.
-/

namespace Conveyor

open Library

def migrationError (message : String) : Failure := ⟨.recoveryError, message⟩

/-- What the migration asks of the registry and of the repository. -/
structure MigrationSite where
  queueSite : QueueSite
  projectId : String
  /-- `project.active_milestone` and `project.milestone_branch`. -/
  activeMilestone : Option String
  milestoneBranch : Option String
  repositoryIdentity : String
  repositoryPathFingerprint : String
  head : Result String
  currentBranch : Option String
  isClean : Bool
  /-- `rev_parse(value, check=False)`. -/
  revParse : String → Option String
  isAncestor : String → String → Bool
  commitCount : String → String → Result Nat

/-- What `derive_projection` returns. -/
structure Derived where
  projection : Fields
  reconstructed : List Fields
  superseded : List Fields

/-- The routing of the projection, which depends on what is to be done next. -/
structure MigrationRoute where
  selectedFeature : Json := .null
  acceptedCommit : Json := .null
  selectedStart : Json := .null
  currentState : String := "queue_reconciliation"
  nextAction : String := "queue_reconciliation"
  integrationStatus : Json := .null
  planningStatus : Json := .null
  featureBranch : Json := .null
  requiredLease : Json := .null
  reconstructed : List Fields := []
  superseded : List Fields := []

/-- The phases of a cycle that an accepted feature does not supersede. -/
def SETTLED_PHASES : List String :=
  ["completed", "feature_accepted", "integration_pending", "integration_ready"]

namespace MigrationSite

variable (site : MigrationSite)

/-- `_queue`. -/
def queue (file : Option Json) : Result Fields :=
  match file with
  | some (.obj fields) => .ok fields
  | _ => .error (migrationError "legacy queue is malformed")

/-- `_resolve_self_commit`. -/
def resolveSelfCommit (feature : Fields) : Result String :=
  match feature.get "branch", feature.get "integration_base_commit" with
  | .str branch, .str starting => do
      match site.revParse branch with
      | none => .error (migrationError
          "SELF accepted commit branch does not descend from its recorded start")
      | some head => do
          require (site.isAncestor starting head = true) (migrationError
            "SELF accepted commit branch does not descend from its recorded start")
          let count ← site.commitCount starting head
          require (count = 1) (migrationError
            "SELF accepted commit must resolve to exactly one feature commit")
          if site.currentBranch = some branch then do
            let current ← site.head
            require (current = head) (migrationError
              "SELF accepted commit branch identity is contradictory")
          return head
  | _, _ => .error (migrationError "SELF accepted commit lacks branch or integration base")

/-- The milestone that the project configures, or the one active milestone of the document. -/
def configuredMilestone (document : Fields) : Result String :=
  match site.activeMilestone with
  | some name => if name ≠ "" then .ok name else fromDocument
  | none => fromDocument
where
  fromDocument : Result String := do
    let milestones := match document.get "milestones" with
      | .arr items => items
      | _ => []
    let active := milestones.filterMap fun item => match item with
      | .obj fields => if Fields.get fields "status" = .str "active" then some fields else none
      | _ => none
    match active with
    | [milestone] =>
        return site.queueSite.platform.str (firstTruthy [Fields.get milestone "id", .str ""])
    | _ => .error (migrationError "legacy migration requires one resolved active milestone")

/-- The integrated features of the document whose commit the repository knows. -/
def historical (document cycle : Fields) : List Fields :=
  let features := match document.get "features" with
    | .arr items => items
    | _ => []
  features.filterMap fun item => match item with
    | .obj feature =>
        if FeatureQueue.hasStatus feature ["integrated", "done"] then
          match firstTruthy [Fields.get feature "integrated_commit", Fields.get feature "commit"] with
          | .str integrated =>
              if integrated ≠ "" ∧ (site.revParse integrated).any (· ≠ "") = true then
                some (Fields.ofPairs
                  [("feature_id", Fields.get feature "id"), ("classification", .str "INTEGRATED"),
                   ("accepted_commit",
                    firstTruthy [Fields.get feature "accepted_commit", Fields.get feature "commit"]),
                   ("integrated_commit", .str integrated),
                   ("terminal_head",
                    if cycle.get "current_feature" = Fields.get feature "id" then
                      cycle.get "milestone_post_integration_commit" else .null),
                   ("classification_source", .str "corroborated")])
              else none
          | _ => none
        else none
    | _ => none

/-- The commit of an accepted feature. -/
def acceptedCommit (feature : Fields) : Result String :=
  match feature.get "accepted_commit" with
  | .str "SELF" => site.resolveSelfCommit feature
  | .str accepted =>
      if (site.revParse accepted).any (· ≠ "") then .ok accepted
      else .error (migrationError
        "integration-pending feature lacks a corroborated accepted commit")
  | _ => .error (migrationError
      "integration-pending feature lacks a corroborated accepted commit")

/-- The cycle of the feature, where its acceptance supersedes it. -/
def supersededCycle (cycle feature : Fields) : Result (List Fields) := do
  if cycle.get "current_feature" = feature.get "id" then do
    let phase ← hashKey (cycle.get "current_phase")
    if ∀ settled ∈ SETTLED_PHASES, phase ≠ .str settled then
      return [Fields.ofPairs
        [("workflow_type", .str "feature_execution"), ("run_id", cycle.get "conveyor_run_id"),
         ("session_id",
          firstTruthy [cycle.get "feature_session_id", cycle.get "session_id"]),
         ("feature_id", feature.get "id"), ("legacy_phase", cycle.get "current_phase"),
         ("classification", .str "superseded"),
         ("reason", .str ("accepted commit and queue integration_pending evidence supersede " ++
            "stale feature cycle"))]]
    else return []
  else return []

/-- The routing to the integration of an accepted feature. -/
def routeIntegration (cycle feature : Fields) : Result MigrationRoute := do
  let accepted ← site.acceptedCommit feature
  let superseded ← supersededCycle cycle feature
  return {
    selectedFeature := feature.get "id"
    acceptedCommit := .str accepted
    selectedStart := feature.get "integration_base_commit"
    currentState := "integration_ready"
    nextAction := "milestone_integration"
    integrationStatus := .str "pending"
    featureBranch := feature.get "branch"
    requiredLease := .str "integration_writer"
    reconstructed := [Fields.ofPairs
      [("workflow_type", .str "feature_acceptance"), ("feature_id", feature.get "id"),
       ("classification", .str "FEATURE_ACCEPTED"), ("accepted_commit", .str accepted),
       ("classification_source", .str "corroborated")]]
    superseded := superseded }

/-- The key by which the migration sorts: the priority and the identifier as texts. -/
def textKey (feature : Fields) : String × String :=
  (site.queueSite.platform.str (feature.getD "priority" (.str "")),
   site.queueSite.platform.str (feature.get "id"))

/-- The order of the keys, which are compared as Python compares tuples of texts. -/
def textBefore (first second : Fields) : Bool :=
  let firstKey := site.textKey first
  let secondKey := site.textKey second
  firstKey.1 < secondKey.1 || (firstKey.1 = secondKey.1 && firstKey.2 ≤ secondKey.2)

/-- The first of the sorted features. -/
def leastByText (features : List Fields) : Option Fields :=
  (features.insertionSort fun first second => site.textBefore first second = true).head?

/-- The planning transaction of the controller's evidence, if it has one. -/
def reconstructedPlanning (controller : Fields) (planning : Json) : List Fields :=
  match planning with
  | .obj fields =>
      if fields = [] then [] else
        [Fields.ofPairs
          [("workflow_type", .str "queue_reconciliation"),
           ("run_id", firstTruthy [Fields.get fields "run_id", controller.get "run_id"]),
           ("session_id", Fields.get fields "session_id"),
           ("classification",
            firstTruthy [Fields.get fields "terminal_classification", .str "RECONCILED_READY_WORK"]),
           ("result_commit", Fields.get fields "planning_result_commit"),
           ("classification_source", .str "corroborated")]]
  | _ => []

/-- The recorded starting commit, or the head. -/
def startingCommit (recorded : Json) : Result Json :=
  if recorded.truthy then .ok recorded else site.head.map Json.str

/-- The routing to the feature that the migration selects of those marked ready. -/
def routeReady (controller : Fields) (ready : List Fields) (feature : Fields) :
    Result MigrationRoute := do
  let planning ← snapshotField (controller.get "state_evidence") "planning_transaction"
  let recorded ← snapshotField planning "selected_feature_starting_commit"
  let start ← site.startingCommit recorded
  return {
    selectedFeature := feature.get "id"
    selectedStart := start
    currentState := "feature_ready"
    nextAction := "feature_cycle"
    planningStatus := .str "passed"
    featureBranch := (ready.head?.map fun first => first.get "branch").getD .null
    requiredLease := .str "feature_writer"
    reconstructed := reconstructedPlanning controller planning }

/-- The routing of the next work: an integration first, then a feature that is marked ready. -/
def route (cycle controller : Fields) (integration : Option Fields) (ready : List Fields) :
    Result MigrationRoute :=
  match integration with
  | some feature => site.routeIntegration cycle feature
  | none =>
      match site.leastByText ready with
      | some feature => site.routeReady controller ready feature
      | none => .ok {}

/-- The projection of a routing, with its fingerprint. -/
def projectionOf (document cycle : Fields) (milestone : Fields) (route : MigrationRoute) : Fields :=
  let projection := Fields.ofPairs
    [("schema_version", .int 1), ("project_id", .str site.projectId),
     ("repository_identity", .str site.repositoryIdentity),
     ("repository_path_fingerprint", .str site.repositoryPathFingerprint),
     ("current_state", .str route.currentState), ("active_transaction", .null),
     ("current_feature", route.selectedFeature),
     ("selected_next_feature", route.selectedFeature),
     ("selected_feature_starting_commit", route.selectedStart),
     ("accepted_feature_commit", route.acceptedCommit), ("feature_branch", route.featureBranch),
     ("milestone", .str (site.queueSite.platform.str (milestone.get "id"))),
     ("milestone_branch",
      firstTruthy [milestone.get "integration_branch", .ofOption site.milestoneBranch]),
     ("integration_status", route.integrationStatus), ("planning_status", route.planningStatus),
     ("human_gate", .null), ("allowed_next_action", .str route.nextAction),
     ("session_resume_eligible", .bool false), ("old_session_resume", .bool false),
     ("required_lease", route.requiredLease),
     ("historical_integration_outcomes", .arr ((site.historical document cycle).map .obj)),
     ("current_repository_consistency",
      .str (if site.isClean then "consistent" else "unsafe_dirty")),
     ("legacy_cycle_classification",
      if route.superseded ≠ [] then .str "superseded"
      else if cycle ≠ [] then .str "corroborated" else .null),
     ("transactions", .arr (route.reconstructed.map .obj)), ("warnings", .arr [])]
  projection.set "projection_fingerprint"
    (.str (site.queueSite.platform.fingerprint (.obj projection)))

/-- The features of the milestone that are marked ready, in the order of the queue. -/
def markedReady (queue : FeatureQueue) (milestoneId : String) : List Fields :=
  (queue.featuresForMilestone site.queueSite.platform milestoneId).filter fun item =>
    MarkedReady item

/-- `derive_projection`, of the queue file and the two documents that it reads. -/
def deriveProjection (file : Option Json) (cycle controller : Fields) : Result Derived := do
  let document ← MigrationSite.queue file
  let queue ← FeatureQueue.fromLocation site.queueSite file
  let configured ← site.configuredMilestone document
  match queue.milestone site.queueSite.platform configured with
  | none => .error (migrationError
      "configured active milestone is absent or ambiguous in the legacy queue")
  | some milestone => do
      let milestoneId := site.queueSite.platform.str (milestone.get "id")
      let ready := site.markedReady queue milestoneId
      let integration ← queue.selectIntegration site.queueSite.platform milestoneId
      let route ← site.route cycle controller integration ready
      return {
        projection := site.projectionOf document cycle milestone route
        reconstructed := route.reconstructed
        superseded := route.superseded }

end MigrationSite

/-! ### What the queue selects -/

section Selection

variable {site : QueueSite} {document : Fields} {queue : FeatureQueue} {milestoneId : String}
  {feature : Fields}

/-- The feature is eligible and goes before every other one that is, and the walk over the
    dependencies gets its answers wherever a feature could be taken. -/
structure QueueSelects (site : QueueSite) (queue : FeatureQueue) (milestoneId : String)
    (feature : Fields) : Prop where
  mem : feature ∈ queue.featuresForMilestone site.platform milestoneId
  eligible : Eligible site queue feature
  first : ∀ other ∈ queue.featuresForMilestone site.platform milestoneId,
    Eligible site queue other → other ≠ feature → GoesBefore queue feature other
  answered : ∀ other ∈ queue.featuresForMilestone site.platform milestoneId,
    other.get "status" = .str "ready" → other.get "requires_human_decision" ≠ .bool true →
      ∀ before id after, FeatureQueue.dependencyIds other = before ++ id :: after →
        (∀ earlier ∈ before, Complete site.platform queue earlier) →
          Answered site.platform queue id

/-- In a list without repetitions two items stand in one order. -/
theorem not_sublist_swap {α : Type} {items : List α} {first second : α} (hnodup : items.Nodup)
    (h : [first, second].Sublist items) : ¬[second, first].Sublist items := by
  induction items with
  | nil => exact fun hswap => nomatch hswap
  | cons item rest ih =>
      rw [List.nodup_cons] at hnodup
      intro hswap
      rcases List.sublist_cons_iff.mp h with hrest | ⟨tail, heq, hrest⟩
      · rcases List.sublist_cons_iff.mp hswap with hlater | ⟨tail, heq, -⟩
        · exact ih hnodup.2 hrest hlater
        · obtain ⟨rfl, -⟩ := List.cons.inj heq
          exact hnodup.1 (hrest.subset (List.mem_cons_of_mem _ List.mem_cons_self))
      · obtain ⟨rfl, rfl⟩ := List.cons.inj heq
        rcases List.sublist_cons_iff.mp hswap with hlater | ⟨tail, heq, -⟩
        · exact hnodup.1 (hlater.subset (List.mem_cons_of_mem _ List.mem_cons_self))
        · obtain ⟨rfl, -⟩ := List.cons.inj heq
          exact hnodup.1 (hrest.subset List.mem_cons_self)

theorem GoesBefore.asymm {first second : Fields} (h : QueueRead site document queue)
    (hfirst : GoesBefore queue first second) : ¬GoesBefore queue second first := by
  have hnodup : queue.features.Nodup := List.Nodup.of_map _ h.featureIds
  rintro (hlt | ⟨heq, hbefore⟩)
  · rcases hfirst with hlt' | ⟨heq', -⟩ <;> omega
  · rcases hfirst with hlt' | ⟨-, hbefore'⟩
    · omega
    · exact not_sublist_swap hnodup hbefore' hbefore

/-- `ready` asks about the dependencies of every feature that could be taken. -/
theorem answered_of_ready {ready : List Fields} (h : queue.ready site milestoneId = .ok ready)
    (hmem : feature ∈ queue.featuresForMilestone site.platform milestoneId)
    (hstatus : feature.get "status" = .str "ready")
    (hdecided : feature.get "requires_human_decision" ≠ .bool true) :
    ∃ complete, queue.dependenciesComplete site.platform feature = .ok complete := by
  obtain ⟨checked, hchecked, -⟩ := bind_eq_ok.mp h
  obtain ⟨hplaces, hreads⟩ := mapM_pairs_eq_ok.mp hchecked
  obtain ⟨index, hindex⟩ := List.getElem?_of_mem hmem
  have hcandidate : (index, feature) ∈ candidates site queue milestoneId :=
    mem_candidates.mpr hindex
  obtain ⟨entry, hentry, heq⟩ :=
    List.mem_map.mp (hplaces.symm ▸ hcandidate : (index, feature) ∈ checked.map Prod.fst)
  have htakes := hreads entry hentry
  rw [heq, FeatureQueue.eligible, if_neg (not_not.mpr hstatus), if_neg hdecided] at htakes
  obtain ⟨complete, hcomplete, -⟩ := bind_eq_ok.mp htakes
  exact ⟨complete, hcomplete⟩

/-- `select_next` selects a feature when it is the first of the eligible ones. -/
theorem selectNext_iff (h : QueueRead site document queue) :
    (∃ selection, queue.selectNext site milestoneId = .ok (some selection) ∧
      selection.feature = feature ∧ selection.featureId = feature.get "id") ↔
      QueueSelects site queue milestoneId feature := by
  constructor
  · rintro ⟨selection, hselects, rfl, -⟩
    obtain ⟨ready, hready, -⟩ := bind_eq_ok.mp hselects
    obtain ⟨next, hnext, hleast⟩ := selectNext_of hready
    cases hnext.symm.trans hselects
    obtain ⟨hin, -, hfirst⟩ := hleast
    obtain ⟨hmember, -⟩ := ready_eq_ok hready
    refine ⟨((hmember _).mp hin).1, ((hmember _).mp hin).2, fun other hmem heligible hne => ?_,
      fun other hmem hstatus hdecided => ?_⟩
    · exact hfirst other ((hmember other).mpr ⟨hmem, heligible⟩) hne
    · exact allComplete_returns.mp (answered_of_ready hready hmem hstatus hdecided)
  · intro hselects
    obtain ⟨ready, hready⟩ : ∃ ready, queue.ready site milestoneId = .ok ready :=
      ready_returns fun other hmem => eligible_returns fun hstatus hdecided =>
        allComplete_returns.mpr (hselects.answered other hmem hstatus hdecided)
    obtain ⟨hmember, -⟩ := ready_eq_ok hready
    have hin := (hmember feature).mpr ⟨hselects.mem, hselects.eligible⟩
    obtain ⟨next, hnext, hleast⟩ := selectNext_of hready
    cases next with
    | none =>
        rw [hleast] at hin
        cases hin
    | some selection =>
        obtain ⟨htaken, hid, hfirst⟩ := hleast
        have hsame : selection.feature = feature := by
          by_contra hne
          obtain ⟨hmem, heligible⟩ := (hmember selection.feature).mp htaken
          exact (hselects.first selection.feature hmem heligible hne).asymm h
            (hfirst feature hin fun heq => hne heq.symm)
        exact ⟨selection, hnext, hsame, hsame ▸ hid⟩

end Selection

/-! ### When the migration selects the same feature -/

section Migration

variable {site : MigrationSite} {file : Option Json} {cycle controller : Fields}
  {queue : FeatureQueue} {milestoneId : String} {derived : Derived} {route : MigrationRoute}

/-- The law: a projection that is ready for a feature names the feature that the queue selects,
    with its branch. -/
structure SelectsAsQueue (site : MigrationSite) (queue : FeatureQueue) (milestoneId : String)
    (derived : Derived) : Prop where
  selected : derived.projection.get "current_state" = .str "feature_ready" →
    ∃ selection, queue.selectNext site.queueSite milestoneId = .ok (some selection) ∧
      derived.projection.get "selected_next_feature" = selection.featureId ∧
      derived.projection.get "feature_branch" = selection.feature.get "branch"
  idle : queue.selectNext site.queueSite milestoneId = .ok none →
    queue.selectIntegration site.queueSite.platform milestoneId = .ok none →
      derived.projection.get "current_state" ≠ .str "feature_ready"

/-- No feature that is marked ready has a lesser priority and identifier, as texts. -/
def LeastByText (site : MigrationSite) (features : List Fields) (feature : Fields) : Prop :=
  feature ∈ features ∧ ∀ other ∈ features, toLex (site.textKey feature) ≤ toLex (site.textKey other)

/-- Accepted work goes first, or the least of the marked features by the texts of their priorities
    and identifiers is the one that the queue selects, on the branch of the first of them in the
    queue. -/
def MigrationAgrees (site : MigrationSite) (queue : FeatureQueue) (milestoneId : String) : Prop :=
  queue.integrationCandidates site.queueSite.platform milestoneId ≠ [] ∨
    ∀ feature, LeastByText site (site.markedReady queue milestoneId) feature →
      QueueSelects site.queueSite queue milestoneId feature ∧
        ∀ first, (site.markedReady queue milestoneId).head? = some first →
          first.get "branch" = feature.get "branch"

/-- The fields of the projection that route it. -/
theorem projectionOf_get (site : MigrationSite) (document cycle milestone : Fields) (route : MigrationRoute) :
    (site.projectionOf document cycle milestone route).get "current_state" =
        .str route.currentState ∧
      (site.projectionOf document cycle milestone route).get "selected_next_feature" =
        route.selectedFeature ∧
      (site.projectionOf document cycle milestone route).get "feature_branch" =
        route.featureBranch ∧
      (site.projectionOf document cycle milestone route).get "milestone" =
        .str (site.queueSite.platform.str (milestone.get "id")) := by
  unfold MigrationSite.projectionOf
  refine ⟨?_, ?_, ?_, ?_⟩ <;>
    (rw [Fields.get_set_of_ne (by decide)]; simp [Fields.get, Fields.get?_ofPairs, Fields.get?_cons])

theorem routeIntegration_state {feature : Fields}
    (h : site.routeIntegration cycle feature = .ok route) :
    route.currentState = "integration_ready" := by
  obtain ⟨accepted, -, h⟩ := bind_eq_ok.mp h
  obtain ⟨superseded, -, h⟩ := bind_eq_ok.mp h
  cases h
  rfl

theorem routeReady_eq_ok {ready : List Fields} {feature : Fields}
    (h : site.routeReady controller ready feature = .ok route) :
    route.currentState = "feature_ready" ∧ route.selectedFeature = feature.get "id" ∧
      route.featureBranch = (ready.head?.map fun first => first.get "branch").getD .null := by
  obtain ⟨planning, -, h⟩ := bind_eq_ok.mp h
  obtain ⟨recorded, -, h⟩ := bind_eq_ok.mp h
  obtain ⟨start, -, h⟩ := bind_eq_ok.mp h
  cases h
  exact ⟨rfl, rfl, rfl⟩

/-- What a derived projection was made from. -/
structure DerivedFrom (site : MigrationSite) (queue : FeatureQueue) (milestoneId : String)
    (cycle controller : Fields) (derived : Derived) (integration : Option Fields)
    (route : MigrationRoute) : Prop where
  selects : queue.selectIntegration site.queueSite.platform milestoneId = .ok integration
  routes : site.route cycle controller integration (site.markedReady queue milestoneId) = .ok route
  state : derived.projection.get "current_state" = .str route.currentState
  selected : derived.projection.get "selected_next_feature" = route.selectedFeature
  branch : derived.projection.get "feature_branch" = route.featureBranch

theorem derivedFrom (h : site.deriveProjection file cycle controller = .ok derived)
    (hqueue : FeatureQueue.fromLocation site.queueSite file = .ok queue)
    (hmilestone : derived.projection.get "milestone" = .str milestoneId) :
    ∃ integration route,
      DerivedFrom site queue milestoneId cycle controller derived integration route := by
  obtain ⟨document, -, h⟩ := bind_eq_ok.mp h
  rw [hqueue, ok_bind] at h
  obtain ⟨configured, -, h⟩ := bind_eq_ok.mp h
  split at h
  · cases h
  · rename_i milestone _
    obtain ⟨integration, hintegration, h⟩ := bind_eq_ok.mp h
    obtain ⟨route, hroute, h⟩ := bind_eq_ok.mp h
    obtain ⟨hstate, hselected, hbranch, hname⟩ := projectionOf_get site document cycle milestone route
    have hderived := congrArg Derived.projection (Except.ok.inj h)
    dsimp only at hderived
    rw [hderived] at hstate hselected hbranch hname
    rw [← Json.str.inj (hname.symm.trans hmilestone)]
    exact ⟨integration, route, hintegration, hroute, hstate, hselected, hbranch⟩

theorem integrationCandidates_of_none
    (h : queue.selectIntegration site.queueSite.platform milestoneId = .ok none) :
    queue.integrationCandidates site.queueSite.platform milestoneId = [] := by
  unfold FeatureQueue.selectIntegration at h
  split at h
  · assumption
  · cases h
  · cases h

theorem integrationCandidates_of_some {feature : Fields}
    (h : queue.selectIntegration site.queueSite.platform milestoneId = .ok (some feature)) :
    queue.integrationCandidates site.queueSite.platform milestoneId ≠ [] := by
  intro hnone
  rw [FeatureQueue.selectIntegration, hnone] at h
  cases h

theorem textBefore_iff {first second : Fields} :
    site.textBefore first second = true ↔
      toLex (site.textKey first) ≤ toLex (site.textKey second) := by
  rw [Prod.Lex.toLex_le_toLex]
  simp [MigrationSite.textBefore]

/-- The sort puts the least of the features first; their identifiers tell them apart. -/
theorem leastByText_iff {features : List Fields} {feature : Fields}
    (htexts : ∀ other ∈ features, ∃ id, other.get "id" = .str id)
    (hids : ∀ first ∈ features, ∀ second ∈ features, first.get "id" = second.get "id" →
      first = second) :
    site.leastByText features = some feature ↔ LeastByText site features feature := by
  have hsorted : (features.insertionSort fun first second =>
      site.textBefore first second = true).Pairwise fun first second =>
        site.textBefore first second = true := by
    have htotal : Std.Total fun first second : Fields => site.textBefore first second = true :=
      ⟨fun first second => by
        rw [textBefore_iff, textBefore_iff]
        exact le_total _ _⟩
    have htrans : IsTrans Fields fun first second => site.textBefore first second = true :=
      ⟨fun first second third hfirst hsecond =>
        textBefore_iff.mpr ((textBefore_iff.mp hfirst).trans (textBefore_iff.mp hsecond))⟩
    exact List.pairwise_insertionSort _ _
  have hmem : ∀ other, other ∈ features.insertionSort (fun first second =>
      site.textBefore first second = true) ↔ other ∈ features :=
    fun other => List.mem_insertionSort _
  rw [MigrationSite.leastByText]
  generalize features.insertionSort (fun first second =>
    site.textBefore first second = true) = sorted at hsorted hmem
  cases sorted with
  | nil => exact ⟨fun h => (nomatch h), fun h => (nomatch (hmem feature).mpr h.1)⟩
  | cons least rest =>
      rw [List.pairwise_cons] at hsorted
      have hfirst : LeastByText site features least := by
        refine ⟨(hmem least).mp List.mem_cons_self, fun other hother => ?_⟩
        rcases List.mem_cons.mp ((hmem other).mpr hother) with rfl | hin
        · exact le_rfl
        · exact textBefore_iff.mp (hsorted.1 other hin)
      constructor
      · intro h
        cases h
        exact hfirst
      · rintro ⟨hin, hleast⟩
        have hkeys := (hfirst.2 feature hin).antisymm (hleast least hfirst.1)
        have hnames : site.queueSite.platform.str (least.get "id") =
            site.queueSite.platform.str (feature.get "id") :=
          congrArg (fun key => (ofLex key).2) hkeys
        obtain ⟨id, hid⟩ := htexts least hfirst.1
        obtain ⟨own, hown⟩ := htexts feature hin
        rw [hid, hown, Platform.str_str, Platform.str_str] at hnames
        rw [List.head?_cons, hids least hfirst.1 feature hin (by rw [hid, hown, hnames])]

/-- The migration selects as the queue does exactly when the first feature by texts is the first
    by labels and places, is eligible, and has the branch of the first that is marked. -/
theorem migration_selects_iff (h : site.deriveProjection file cycle controller = .ok derived)
    (hqueue : FeatureQueue.fromLocation site.queueSite file = .ok queue)
    (hmilestone : derived.projection.get "milestone" = .str milestoneId) :
    SelectsAsQueue site queue milestoneId derived ↔ MigrationAgrees site queue milestoneId := by
  obtain ⟨document, hfields⟩ := fromLocation_eq_ok hqueue
  have hread := ofFields_eq_ok.mp hfields
  obtain ⟨integration, route, hfrom⟩ := derivedFrom h hqueue hmilestone
  have hroute := hfrom.routes
  cases integration with
  | some accepted =>
      -- accepted work is integrated first, whatever is marked ready
      have hstate : derived.projection.get "current_state" ≠ .str "feature_ready" := by
        rw [hfrom.state, routeIntegration_state hroute, ne_eq, Json.str.injEq]
        decide
      exact iff_of_true ⟨fun hready => absurd hready hstate, fun _ _ => hstate⟩
        (Or.inl (integrationCandidates_of_some hfrom.selects))
  | none =>
      have hnone := integrationCandidates_of_none hfrom.selects
      have hmarked : ∀ feature ∈ site.markedReady queue milestoneId, feature ∈ queue.features :=
        fun feature hmem => mem_of_featuresForMilestone (List.mem_filter.mp hmem).1
      have hleast_iff : ∀ feature,
          site.leastByText (site.markedReady queue milestoneId) = some feature ↔
            LeastByText site (site.markedReady queue milestoneId) feature := fun feature =>
        leastByText_iff (fun other hother => hread.feature_texts other (hmarked other hother))
          fun first hfirst second hsecond =>
            List.inj_on_of_nodup_map hread.featureIds (hmarked first hfirst) (hmarked second hsecond)
      simp only [MigrationSite.route] at hroute
      split at hroute
      · rename_i feature hleast
        obtain ⟨hstate, hselected, hbranch⟩ := routeReady_eq_ok hroute
        have hready : derived.projection.get "current_state" = .str "feature_ready" := by
          rw [hfrom.state, hstate]
        obtain ⟨first, hfirst⟩ : ∃ first,
            (site.markedReady queue milestoneId).head? = some first := by
          have hne : site.markedReady queue milestoneId ≠ [] :=
            List.ne_nil_of_mem ((hleast_iff feature).mp hleast).1
          exact ⟨_, List.head?_eq_some_head hne⟩
        have hfirstBranch : derived.projection.get "feature_branch" = first.get "branch" := by
          rw [hfrom.branch, hbranch, hfirst]
          rfl
        have hagrees : MigrationAgrees site queue milestoneId ↔
            QueueSelects site.queueSite queue milestoneId feature ∧
              first.get "branch" = feature.get "branch" := by
          rw [MigrationAgrees, hfirst]
          simp [hnone, ← hleast_iff, hleast]
        rw [hagrees, ← selectNext_iff hread]
        constructor
        · intro hlaw
          obtain ⟨selection, hselects, hid, hbranches⟩ := hlaw.selected hready
          rw [hfrom.selected, hselected] at hid
          obtain ⟨ready, hready, -⟩ := bind_eq_ok.mp hselects
          obtain ⟨next, hnext, hleastReady⟩ := selectNext_of hready
          cases hnext.symm.trans hselects
          obtain ⟨hin, hown, -⟩ := hleastReady
          -- the two features have one identifier
          have hsame : selection.feature = feature := by
            exact List.inj_on_of_nodup_map hread.featureIds
              (mem_of_featuresForMilestone (((ready_eq_ok hready).1 _).mp hin).1)
              (hmarked feature ((hleast_iff feature).mp hleast).1) (hown.symm.trans hid.symm)
          refine ⟨⟨selection, hselects, hsame, hid.symm⟩, ?_⟩
          rw [← hfirstBranch, hbranches, hsame]
        · rintro ⟨⟨selection, hselects, hsame, hid⟩, hbranches⟩
          refine ⟨fun _ => ⟨selection, hselects, ?_, ?_⟩, fun hidle => ?_⟩
          · rw [hfrom.selected, hselected, hid]
          · rw [hfirstBranch, hbranches, hsame]
          · rw [hselects] at hidle
            cases hidle
      · rename_i hleast
        cases hroute
        have hstate : derived.projection.get "current_state" ≠ .str "feature_ready" := by
          rw [hfrom.state, ne_eq, Json.str.injEq]
          decide
        refine iff_of_true ⟨fun hready => absurd hready hstate, fun _ _ => hstate⟩
          (Or.inr fun feature hsome => ?_)
        rw [← hleast_iff, hleast] at hsome
        cases hsome

end Migration

/-! ### The branch of another feature -/

/-- A clean repository that knows every commit. -/
def MigrationSite.plain : MigrationSite where
  queueSite := .plain
  projectId := "project"
  activeMilestone := some "M1"
  milestoneBranch := none
  repositoryIdentity := "repository"
  repositoryPathFingerprint := "path"
  head := .ok "c0"
  currentBranch := some "main"
  isClean := true
  revParse := some
  isAncestor _ _ := true
  commitCount _ _ := .ok 1

/-- A queue of two ready features, each with its branch. -/
def branchQueue (first second : String) : Fields :=
  let feature (id priority branch : String) : Json :=
    .obj [("acceptance_criteria", .arr [.str "it works"]), ("branch", .str branch), ("id", .str id),
      ("milestone", .str "M1"), ("priority", .str priority), ("spec", .str "docs/spec.md"),
      ("status", .str "ready")]
  [("features", .arr [feature "F1" first "feature/F1", feature "F2" second "feature/F2"]),
   ("milestones", .arr [.obj [("id", .str "M1")]])]

theorem migration_selects_first :
    ∃ derived queue,
      MigrationSite.plain.deriveProjection (some (.obj (branchQueue "P1" "P2"))) [] [] =
        .ok derived ∧
      FeatureQueue.fromLocation .plain (some (.obj (branchQueue "P1" "P2"))) = .ok queue ∧
      derived.projection.get "current_state" = .str "feature_ready" ∧
      derived.projection.get "selected_next_feature" = .str "F1" ∧
      MigrationAgrees .plain queue "M1" := by
  obtain ⟨derived, hderived, hmilestone, hstate, hselected, hbranch⟩ : ∃ derived,
      MigrationSite.plain.deriveProjection (some (.obj (branchQueue "P1" "P2"))) [] [] =
        .ok derived ∧
      derived.projection.get "milestone" = .str "M1" ∧
      derived.projection.get "current_state" = .str "feature_ready" ∧
      derived.projection.get "selected_next_feature" = .str "F1" ∧
      derived.projection.get "feature_branch" = .str "feature/F1" := ⟨_, rfl, rfl, rfl, rfl, rfl⟩
  obtain ⟨queue, selection, hqueue, hnext, hid, hown⟩ : ∃ queue selection,
      FeatureQueue.fromLocation .plain (some (.obj (branchQueue "P1" "P2"))) = .ok queue ∧
      queue.selectNext .plain "M1" = .ok (some selection) ∧ selection.featureId = .str "F1" ∧
      selection.feature.get "branch" = .str "feature/F1" := ⟨_, _, rfl, rfl, rfl, rfl⟩
  have hlaw : SelectsAsQueue .plain queue "M1" derived := by
    refine ⟨fun _ => ⟨selection, hnext, hselected.trans hid.symm, hbranch.trans hown.symm⟩, ?_⟩
    intro hidle
    cases hnext.symm.trans hidle
  exact ⟨derived, queue, hderived, hqueue, hstate, hselected,
    (migration_selects_iff hderived hqueue hmilestone).mp hlaw⟩

/-- The second feature is selected, and the branch is the one of the first. -/
theorem migration_projects_other_branch :
    ∃ derived queue selection,
      MigrationSite.plain.deriveProjection (some (.obj (branchQueue "P2" "P1"))) [] [] =
        .ok derived ∧
      FeatureQueue.fromLocation .plain (some (.obj (branchQueue "P2" "P1"))) = .ok queue ∧
      queue.selectNext .plain "M1" = .ok (some selection) ∧
      derived.projection.get "selected_next_feature" = .str "F2" ∧
      selection.feature.get "branch" = .str "feature/F2" ∧
      derived.projection.get "feature_branch" = .str "feature/F1" ∧
      ¬SelectsAsQueue .plain queue "M1" derived := by
  refine ⟨_, _, _, rfl, rfl, rfl, rfl, rfl, rfl, fun hlaw => ?_⟩
  obtain ⟨selection, hselects, -, hbranch⟩ := hlaw.selected rfl
  cases hselects
  exact absurd (Json.str.inj hbranch) (by decide)

end Conveyor
