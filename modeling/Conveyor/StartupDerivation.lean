import Conveyor.StartupConvergence
import Conveyor.QueueReaders
import Conveyor.QueueSummary

/-!
# Startup derivation

What the controller derives at its start (`assess_startup_reconciliation`) from a queue that
it has read (`FeatureQueue`) and a repository at rest: the state that a repair or a consistent
project has, against what the readers of the queue say of its milestone.
-/

namespace Conveyor

open Library StateMachine

namespace StateMachine

/-- The machine has a path from one state to another. -/
def Reaches {State : Type} [DecidableEq State] (machine : StateMachine State) :
    String → String → Prop := Relation.ReflTransGen machine.Accepts

end StateMachine

/-! ### The queue in the plan -/

/-- The dictionary that `summary` returns. -/
def QueueSummary.fields (summary : QueueSummary) : Fields :=
  [("milestone_found", .bool summary.milestoneFound),
   ("configured_milestone", .str summary.configuredMilestone),
   ("resolved_milestone", summary.resolvedMilestone),
   ("feature_count", .int summary.featureCount),
   ("total_feature_count", .int summary.totalFeatureCount),
   ("global_feature_count", .int summary.globalFeatureCount),
   ("global_milestone_count", .int summary.globalMilestoneCount),
   ("status_counts", .obj (summary.statusCounts.map fun count => (count.1, .int count.2))),
   ("active_features", .arr summary.activeFeatures),
   ("completed_features", .arr summary.completedFeatures),
   ("ready_features", .arr summary.readyFeatures),
   ("selected_feature", summary.selectedFeature),
   ("integration_candidates", .arr summary.integrationCandidates),
   ("selected_integration_feature", summary.selectedIntegrationFeature),
   ("milestone_complete", .bool summary.milestoneComplete),
   ("reconciliation_classification", .str summary.reconciliationClassification.value)]

/-- `queue_status` of a plan (`build_project_plan`), with the location of the queue, the path it
    resolves to and the commits of its complete features. -/
def planQueueStatus (configured : Json) (resolved : String) (commits : List Json)
    (summary : QueueSummary) : Fields :=
  (summary.fields.update
    [("configured_queue_location", configured), ("resolved_queue_path", .str resolved),
     ("source_format", .str "json-compatible-yaml"), ("valid", .bool true)]).set
    "resolved_commits" (.arr commits)

/-- `selected_feature` of a plan, whose next action integrates or does not. -/
def planSelectedFeature (integrates : Bool) (summary : QueueSummary) : Json :=
  if integrates = true ∧ summary.selectedIntegrationFeature ≠ .null then
    summary.selectedIntegrationFeature
  else summary.selectedFeature

/-- A plan of this queue without a cycle, a lock, a planning transaction or a failure, and
    with a clean repository at the head of its milestone branch. -/
structure QuietStart (project : StartupProject) (plan repository : Fields)
    (summary : QueueSummary) : Prop where
  queueStatus : ∃ configured resolved commits,
    plan.get "queue_status" = .obj (planQueueStatus configured resolved commits summary)
  selected : ∃ integrates, plan.get "selected_feature" = planSelectedFeature integrates summary
  observed : plan.get "repository_state" = .obj repository
  clean : repository.get "clean" = .bool true
  operations : anyValue (repository.get "git_operations") = .ok false
  branch : repository.get "branch" = .ofOption project.milestoneBranch
  head : repository.get "head" = repository.get "milestone_branch_head"
  baseline : repository.get "baseline_exists" = .bool true
  milestoneBranch : repository.get "milestone_branch_exists" = .bool true
  ancestry : repository.get "baseline_is_ancestor_of_milestone" = .bool true
  noLocks : lockHeld (firstTruthy [plan.get "lock_status", .obj []]) = .ok false
  noCycle : (plan.get "existing_active_cycle").truthy = false
  noPlanning : ∀ planning, plan.get "current_planning_transaction" ≠ .obj planning
  noIntegrationFailure : authoritativeFailureOf plan = .ok false
  noSessionFailure : deterministicFailureOf plan = none

/-! ### What the claim says of a derived state -/

section Queue

variable (site : QueueSite) (queue : FeatureQueue) (milestoneId : String)

/-- The milestone is complete, with nothing ready or awaiting its integration. -/
def AtGate : Prop :=
  queue.milestoneComplete site.platform milestoneId = true ∧
    queue.ready site milestoneId = .ok [] ∧
    queue.integrationCandidates site.platform milestoneId = []

/-- A state that agrees with what the readers of the queue say. -/
structure AgreesWith (state : String) : Prop where
  ready : state = "feature_ready" →
    ∃ selection, queue.selectNext site milestoneId = .ok (some selection)
  gate : state = "milestone_gate" ↔ AtGate site queue milestoneId
  pending : queue.integrationCandidates site.platform milestoneId ≠ [] →
    PORTFOLIO_MACHINE.Reaches state "integrating"

/-- The assessment understands the queue. -/
structure Understands (result : StartupReconciliation) : Prop where
  derives : result.derivedState ≠ "validation_failed"
  settled : result.wouldPersist = true ∨ result.classification = "state_consistent" →
    AgreesWith site queue milestoneId result.derivedState

end Queue

/-! ### When it does -/

/-- A project without durable state, in the configured entry state. -/
def EntersWithoutState (P : Platform) (project : StartupProject) (persisted : Option Fields) :
    Prop :=
  persisted = none ∧ persistedStateOf P project persisted = "queue_reconciliation"

/-- The recorded state evidence. -/
def priorEvidence (persisted : Option Fields) : Fields :=
  match (persisted.getD []).get "state_evidence" with
  | .obj prior => prior
  | _ => []

/-- A passed milestone gate may be reopened. -/
structure GateReopens (site : StartupSite) (project : StartupProject)
    (persisted : Option Fields) (repository : Fields) : Prop where
  advanced : headAdvanced site
    (firstTruthy [(priorEvidence persisted).get "milestone_head",
      (priorEvidence persisted).get "gate_evidence_commit"])
    (repository.get "head") (repository.get "head_commit_timestamp")
    ((priorEvidence persisted).get "gate_evidence_timestamp") = .ok true
  policy : ∃ reason, gateReopenPolicy site = .ok (true, reason)
  checkpoint : (persisted.getD []).get "last_checkpoint" = .str "milestone_gate_passed"
  decision : ∃ gate, (persisted.getD []).get "human_decision_required" = .obj gate ∧
    Fields.get gate "milestone_branch" = .ofOption project.milestoneBranch ∧
    Fields.get gate "default_branch_merge_performed" = .bool false
  commit : (priorEvidence persisted).get "gate_evidence_commit" =
    (priorEvidence persisted).get "milestone_head"
  timestamp : ((priorEvidence persisted).get "gate_evidence_timestamp").truthy = true

/-- A persisted state that a repair does not start from without a remediated failure. -/
def Unrepaired (state : String) : Prop :=
  state = "human_decision_required" ∨ state ∉ REPAIRABLE

/-- A persisted state that no evidence of the queue moves: a human has to decide. -/
def Stays (site : StartupSite) (project : StartupProject) (persisted : Option Fields)
    (repository : Fields) (state : String) : Prop :=
  Unrepaired state ∨
    state = "milestone_ready_for_merge" ∧ ¬GateReopens site project persisted repository

/-! ### What the plan says of the queue -/

section Status

variable {configured : Json} {resolved : String} {commits : List Json} {summary : QueueSummary}

theorem queueStatus_get {key : String} {value : Json}
    (hkey : key ∉ ["configured_queue_location", "resolved_queue_path", "source_format", "valid",
      "resolved_commits"]) (hvalue : summary.fields.get? key = some value) :
    (planQueueStatus configured resolved commits summary).get? key = some value := by
  simp only [List.mem_cons, List.not_mem_nil, or_false, not_or] at hkey
  obtain ⟨hconfigured, hresolved, hformat, hvalid, hcommits⟩ := hkey
  rw [planQueueStatus, Fields.get?_set_of_ne hcommits, Fields.get?_update]
  simp only [List.reverse_cons, List.reverse_nil, List.nil_append, List.cons_append,
    Fields.get?_cons, hvalid, hformat, hresolved, hconfigured, if_false]
  exact hvalue

theorem queueStatus_valid :
    (planQueueStatus configured resolved commits summary).get "valid" = .bool true := by
  rw [planQueueStatus, Fields.get_set_of_ne (by decide), Fields.get, Fields.get?_update]
  rfl

theorem queueStatus_classification :
    (planQueueStatus configured resolved commits summary).getD "reconciliation_classification"
      (.str "invalid_queue") = .str summary.reconciliationClassification.value := by
  rw [Fields.getD, queueStatus_get (by decide) rfl]
  rfl

theorem queueStatus_milestoneComplete :
    (planQueueStatus configured resolved commits summary).get "milestone_complete" =
      .bool summary.milestoneComplete := by
  rw [Fields.get, queueStatus_get (by decide) rfl]
  rfl

theorem queueStatus_counts :
    (planQueueStatus configured resolved commits summary).get "status_counts" =
      .obj (summary.statusCounts.map fun count => (count.1, .int count.2)) := by
  rw [Fields.get, queueStatus_get (by decide) rfl]
  rfl

end Status

/-- What the inputs of an assessment take from the plan. -/
structure PlanRead (plan queue repository : Fields) (persisted : Option Fields)
    (inputs : StartupInputs) : Prop where
  queueStatus : objectOrEmpty (plan.get "queue_status") = .ok queue
  observed : objectOrEmpty (plan.get "repository_state") = .ok repository
  queueRead : inputs.queue = queue
  repositoryRead : inputs.repository = repository
  locks : inputs.locks = firstTruthy [plan.get "lock_status", .obj []]
  activeCycle : inputs.activeCycle = plan.get "existing_active_cycle"
  classification : inputs.queueClassification =
    queue.getD "reconciliation_classification" (.str "invalid_queue")
  complete : inputs.milestoneComplete = decide (queue.get "milestone_complete" = .bool true)
  head : inputs.currentHead = repository.get "head"
  stateEvidence : inputs.stateEvidence = (persisted.getD []).get "state_evidence"

theorem planRead {site : StartupSite} {project : StartupProject} {persisted : Option Fields}
    {plan : Fields} {inputs : StartupInputs}
    (h : startupInputs site project persisted plan = .ok inputs) :
    ∃ queue repository, PlanRead plan queue repository persisted inputs := by
  simp only [startupInputs, bind_eq_ok, pure, Except.pure, Except.ok.injEq] at h
  obtain ⟨queue, hqueue, repository, hrepository, fingerprint, -, authoritative, -, rfl⟩ := h
  exact ⟨queue, repository, hqueue, hrepository, rfl, rfl, rfl, rfl, rfl, rfl, rfl, rfl⟩

/-- What the assessment of a quiet start is about. -/
structure QuietInputs (site : StartupSite) (project : StartupProject)
    (persisted : Option Fields) (repository : Fields) (summary : QueueSummary)
    (inputs : StartupInputs) : Prop where
  given : inputs.persisted = persisted
  persistedState : inputs.persistedState = persistedStateOf site.platform project persisted
  classification :
    inputs.queueClassification = .str summary.reconciliationClassification.value
  valid : inputs.queue.get "valid" = .bool true
  counts : ∃ counts, inputs.queue.get "status_counts" = .obj counts
  complete : inputs.milestoneComplete = summary.milestoneComplete
  observed : inputs.repository = repository
  head : inputs.currentHead = repository.get "head"
  stateEvidence : inputs.stateEvidence = (persisted.getD []).get "state_evidence"
  noCycle : inputs.activeCycle.truthy = false
  noLocks : lockHeld inputs.locks = .ok false
  noIntegrationFailure : inputs.authoritativeIntegrationFailure = false
  noSessionFailure : inputs.deterministicFailure = none

section Quiet

variable {site : StartupSite} {project : StartupProject} {persisted : Option Fields}
  {plan repository : Fields} {summary : QueueSummary} {inputs : StartupInputs}
  {result : StartupReconciliation}

theorem QuietStart.reads (hquiet : QuietStart project plan repository summary)
    (h : startupInputs site project persisted plan = .ok inputs) :
    QuietInputs site project persisted repository summary inputs := by
  obtain ⟨configured, resolved, commits, hstatus⟩ := hquiet.queueStatus
  obtain ⟨queue, observed, hplan⟩ := planRead h
  have hread := startupInputs_eq_ok h
  have hqueue := hplan.queueStatus
  rw [hstatus] at hqueue
  cases hqueue
  have hobserved := hplan.observed
  rw [hquiet.observed] at hobserved
  cases hobserved
  refine ⟨hread.given, hread.persistedState, ?_, ?_, ?_, ?_, hplan.repositoryRead, hplan.head,
    hplan.stateEvidence, ?_, ?_, ?_, ?_⟩
  · rw [hplan.classification, queueStatus_classification]
  · rw [hplan.queueRead, queueStatus_valid]
  · rw [hplan.queueRead, queueStatus_counts]
    exact ⟨_, rfl⟩
  · rw [hplan.complete, queueStatus_milestoneComplete]
    cases summary.milestoneComplete <;> rfl
  · rw [hplan.activeCycle]
    exact hquiet.noCycle
  · rw [hplan.locks]
    exact hquiet.noLocks
  · exact Except.ok.inj (hread.authoritative.symm.trans hquiet.noIntegrationFailure)
  · rw [hread.deterministicFailure]
    exact hquiet.noSessionFailure

theorem QuietStart.fit (hquiet : QuietStart project plan repository summary) :
    repositoryUnfit project repository = .ok false := by
  unfold repositoryUnfit
  rw [if_neg (not_not.mpr hquiet.clean), hquiet.operations, ok_bind]
  simp [hquiet.branch, hquiet.head, hquiet.baseline, hquiet.milestoneBranch, hquiet.ancestry]
  rfl

theorem QuietStart.noPending (hquiet : QuietStart project plan repository summary)
    (observed : Fields) : pendingPlanning project plan observed = .ok none := by
  unfold pendingPlanning
  split
  · rename_i planning hplanning
    exact absurd hplanning (hquiet.noPlanning planning)
  · rfl

/-- Only a queue without its milestone blocks the derivation. -/
theorem QuietStart.startupBlock (hquiet : QuietStart project plan repository summary)
    (hinputs : QuietInputs site project persisted repository summary inputs) :
    startupBlock project plan inputs =
      .ok (if summary.reconciliationClassification = .invalidQueue then some .invalidQueue
        else none) := by
  have hvalue : (Json.str summary.reconciliationClassification.value = .str "invalid_queue") ↔
      summary.reconciliationClassification = .invalidQueue := by
    cases summary.reconciliationClassification <;> decide
  unfold Conveyor.startupBlock
  rw [hquiet.noPending, ok_bind]
  dsimp only
  rw [hinputs.noLocks, ok_bind, hinputs.observed, hquiet.fit, ok_bind, hinputs.valid,
    hinputs.classification]
  simp only [hvalue, ne_eq, not_true_eq_false, false_or, Bool.false_eq_true, if_false]
  split <;> rfl

/-- The assessment of a quiet start derives a state, unless the queue lacks the milestone. -/
theorem QuietStart.assess (hquiet : QuietStart project plan repository summary)
    (h : assessStartupReconciliation site project persisted plan = .ok result) :
    ∃ inputs, QuietInputs site project persisted repository summary inputs ∧
      (summary.reconciliationClassification = .invalidQueue ∧
          result = StartupBlock.exit inputs .invalidQueue ∨
        summary.reconciliationClassification ≠ .invalidQueue ∧
          assessDerived site project inputs = .ok result) := by
  obtain ⟨inputs, hstart, h⟩ := bind_eq_ok.mp h
  have hinputs := hquiet.reads hstart
  refine ⟨inputs, hinputs, ?_⟩
  rw [hinputs.noCycle, hinputs.noIntegrationFailure, hinputs.noSessionFailure,
    hquiet.startupBlock hinputs] at h
  by_cases hinvalid : summary.reconciliationClassification = .invalidQueue
  · rw [if_pos hinvalid] at h
    cases h
    exact Or.inl ⟨hinvalid, rfl⟩
  · rw [if_neg hinvalid] at h
    exact Or.inr ⟨hinvalid, h⟩

end Quiet

/-! ### The derived state -/

/-- The states that the assessment derives from a classification. -/
def targetsOf : QueueClassification → List String
  | .reconciledReadyWork => ["feature_ready"]
  | .reconciledNoReadyWork => ["paused", "queue_reconciliation"]
  | .milestoneComplete => ["milestone_gate"]
  | .legitimatelyBlocked => ["paused"]
  | .humanDecisionRequired => ["human_decision_required"]
  | .reconciledIntegrationPending | .invalidQueue => ["validation_failed"]

/-- An exit for a human to decide, which neither persists nor finds the state consistent. -/
structure Stopped (result : StartupReconciliation) : Prop where
  derivedState : result.derivedState = "human_decision_required"
  wouldPersist : result.wouldPersist = false
  classification : result.classification ≠ "state_consistent"

theorem stop_stopped {inputs : StartupInputs} {classification reason : String}
    {decision : Option Fields} (h : classification ≠ "state_consistent") :
    Stopped (inputs.stop classification "human_decision_required" reason decision) :=
  ⟨rfl, rfl, h⟩

theorem contradiction_stops {inputs : StartupInputs} {derived : String}
    {exit : StartupReconciliation} (h : contradiction inputs derived = some exit) :
    Stopped exit := by
  unfold contradiction at h
  split at h
  · cases h
    exact stop_stopped (by decide)
  · split at h
    · cases h
      exact stop_stopped (by decide)
    · cases h

section Derived

variable {site : StartupSite} {project : StartupProject} {persisted : Option Fields}
  {repository : Fields} {summary : QueueSummary} {inputs : StartupInputs}
  {result : StartupReconciliation} {derived : String}

theorem QuietInputs.derives
    (h : QuietInputs site project persisted repository summary inputs) :
    ∃ derived, derivedStateOf site.platform inputs = .ok derived ∧
      derived ∈ targetsOf summary.reconciliationClassification := by
  obtain ⟨counts, hcounts⟩ := h.counts
  unfold derivedStateOf
  rw [h.classification, hcounts]
  dsimp only
  cases summary.reconciliationClassification with
  | reconciledNoReadyWork =>
      have hclass : Json.str QueueClassification.reconciledNoReadyWork.value =
          .str "reconciled_no_ready_work" := rfl
      rw [if_pos hclass]
      by_cases hproposed : (Fields.get counts "proposed").truthy = true ∧
          inputs.persistedState ≠ "paused"
      · refine ⟨"queue_reconciliation", ?_, by decide⟩
        exact bind_eq_ok.mpr ⟨_, rfl, if_pos hproposed⟩
      · refine ⟨"paused", ?_, by decide⟩
        exact bind_eq_ok.mpr ⟨_, rfl, if_neg hproposed⟩
  | reconciledReadyWork => exact ⟨"feature_ready", rfl, by decide⟩
  | milestoneComplete => exact ⟨"milestone_gate", rfl, by decide⟩
  | legitimatelyBlocked => exact ⟨"paused", rfl, by decide⟩
  | humanDecisionRequired => exact ⟨"human_decision_required", rfl, by decide⟩
  | reconciledIntegrationPending => exact ⟨"validation_failed", rfl, by decide⟩
  | invalidQueue => exact ⟨"validation_failed", rfl, by decide⟩

/-- The recorded decision is about this milestone branch, which is not merged. -/
def gateUnmerged (project : StartupProject) : Json → Bool
  | .obj gate => decide (Fields.get gate "milestone_branch" = .ofOption project.milestoneBranch ∧
      Fields.get gate "default_branch_merge_performed" = .bool false)
  | _ => false

theorem gateUnmerged_iff {project : StartupProject} {value : Json} :
    gateUnmerged project value = true ↔ ∃ gate, value = .obj gate ∧
      Fields.get gate "milestone_branch" = .ofOption project.milestoneBranch ∧
      Fields.get gate "default_branch_merge_performed" = .bool false := by
  constructor
  · intro h
    unfold gateUnmerged at h
    split at h
    · rename_i gate
      exact ⟨gate, rfl, of_decide_eq_true h⟩
    · cases h
  · rintro ⟨gate, rfl, h⟩
    exact decide_eq_true h

/-- The gate is reopened where its evidence and the policy allow it. -/
theorem QuietInputs.reopens
    (h : QuietInputs site project persisted repository summary inputs) {evidence : Fields}
    {decision : Option Fields} (hgate : reopenGate site project inputs = .ok (evidence, decision)) :
    decision = none ↔ GateReopens site project persisted repository := by
  unfold reopenGate at hgate
  rw [h.given, h.stateEvidence, h.head, h.observed] at hgate
  obtain ⟨-, -, hgate⟩ := bind_eq_ok.mp hgate
  obtain ⟨advanced, hadvanced, hgate⟩ := bind_eq_ok.mp hgate
  obtain ⟨⟨allows, reason⟩, hpolicy, hgate⟩ := bind_eq_ok.mp hgate
  have hprovenance : ∃ shown gate : Fields,
      (if (!advanced || !allows ||
          !((priorEvidence persisted).get "gate_evidence_timestamp").truthy ||
          !(decide ((persisted.getD []).get "last_checkpoint" = .str "milestone_gate_passed") &&
            gateUnmerged project ((persisted.getD []).get "human_decision_required") &&
            decide ((priorEvidence persisted).get "gate_evidence_commit" =
              (priorEvidence persisted).get "milestone_head") &&
            ((priorEvidence persisted).get "gate_evidence_timestamp").truthy)) = true
        then (pure (shown, some gate) : Result (Fields × Option Fields))
        else pure (shown, none)) = .ok (evidence, decision) := ⟨_, _, hgate⟩
  obtain ⟨shown, gate, hgate⟩ := hprovenance
  have hdecision : decision = none ↔ advanced = true ∧ allows = true ∧
      ((priorEvidence persisted).get "gate_evidence_timestamp").truthy = true ∧
      (persisted.getD []).get "last_checkpoint" = .str "milestone_gate_passed" ∧
      gateUnmerged project ((persisted.getD []).get "human_decision_required") = true ∧
      (priorEvidence persisted).get "gate_evidence_commit" =
        (priorEvidence persisted).get "milestone_head" := by
    split at hgate
    · rename_i hshut
      cases hgate
      refine iff_of_false (by simp) ?_
      rintro ⟨rfl, rfl, htime, hcheckpoint, hmerged, hcommit⟩
      simp [htime, hcheckpoint, hmerged, hcommit] at hshut
    · rename_i hopen
      cases hgate
      simp only [Bool.or_eq_true, Bool.not_eq_true', Bool.and_eq_false_iff,
        decide_eq_false_iff_not, not_or, Bool.not_eq_false, not_not] at hopen
      obtain ⟨⟨⟨hadvanced, hallows⟩, htime⟩, ⟨⟨hcheckpoint, hmerged⟩, hcommit⟩, -⟩ := hopen
      exact iff_of_true rfl ⟨hadvanced, hallows, htime, hcheckpoint, hmerged, hcommit⟩
  rw [hdecision]
  constructor
  · rintro ⟨rfl, rfl, htime, hcheckpoint, hmerged, hcommit⟩
    exact ⟨hadvanced, ⟨reason, hpolicy⟩, hcheckpoint, gateUnmerged_iff.mp hmerged, hcommit, htime⟩
  · intro hopen
    obtain ⟨reason', hallows⟩ := hopen.policy
    cases hpolicy.symm.trans hallows
    exact ⟨Except.ok.inj (hadvanced.symm.trans hopen.advanced), rfl, hopen.timestamp,
      hopen.checkpoint, gateUnmerged_iff.mpr hopen.decision, hopen.commit⟩

/-- A repair stops for a human, or it derives the state of the queue. -/
theorem repair_outcome {P : Platform} (hfailure : inputs.deterministicFailure = none)
    (h : repair P inputs derived = .ok result) :
    Unrepaired inputs.persistedState ∧ Stopped result ∨
      ¬Unrepaired inputs.persistedState ∧ result.derivedState = derived := by
  unfold repair at h
  rw [hfailure] at h
  split at h
  · rename_i hstate
    cases h
    exact Or.inl ⟨Or.inl hstate.1, stop_stopped (by decide)⟩
  · rename_i hstate
    split at h
    · rename_i hnot
      cases h
      exact Or.inl ⟨Or.inr hnot, stop_stopped (by decide)⟩
    · rename_i hrepairable
      obtain ⟨accepted, -, h⟩ := bind_eq_ok.mp h
      cases h
      refine Or.inr ⟨?_, rfl⟩
      rintro (hhuman | hnot)
      · exact hstate ⟨hhuman, rfl⟩
      · exact hrepairable hnot

/-- The assessment stops for a human, or it derives the state of the queue. -/
theorem QuietInputs.outcome
    (hinputs : QuietInputs site project persisted repository summary inputs)
    (henters : ¬EntersWithoutState site.platform project persisted)
    (hderived : derivedStateOf site.platform inputs = .ok derived)
    (h : assessDerived site project inputs = .ok result) :
    ((contradiction inputs derived ≠ none ∨ inputs.persistedState ≠ derived ∧
          Stays site project persisted repository inputs.persistedState) ∧ Stopped result) ∨
      (contradiction inputs derived = none ∧ (inputs.persistedState ≠ derived →
          ¬Stays site project persisted repository inputs.persistedState) ∧
        result.derivedState = derived) := by
  unfold assessDerived at h
  have hentry : ¬(inputs.persisted.isNone ∧ inputs.persistedState = "queue_reconciliation") := by
    rw [hinputs.given, hinputs.persistedState, Option.isNone_iff_eq_none]
    exact henters
  rw [if_neg hentry, hderived, ok_bind] at h
  cases hcontradiction : contradiction inputs derived with
  | some exit =>
      rw [hcontradiction] at h
      cases h
      exact Or.inl ⟨Or.inl (by simp), contradiction_stops hcontradiction⟩
  | none =>
      rw [hcontradiction] at h
      dsimp only at h
      split at h
      · rename_i hsame
        cases h
        exact Or.inr ⟨rfl, fun hne => absurd hsame hne, hsame⟩
      · rename_i hmoved
        split at h
        · rename_i hmerge
          obtain ⟨⟨evidence, decision⟩, hreopen, h⟩ := bind_eq_ok.mp h
          have hreopens := hinputs.reopens hreopen
          cases decision with
          | some decision =>
              cases h
              have hclosed : ¬GateReopens site project persisted repository := fun hopen =>
                nomatch hreopens.mpr hopen
              exact Or.inl ⟨Or.inr ⟨hmoved, Or.inr ⟨hmerge, hclosed⟩⟩, stop_stopped (by decide)⟩
          | none =>
              dsimp only at h
              rcases repair_outcome (by exact hinputs.noSessionFailure) h with
                ⟨hstays, hstopped⟩ | ⟨hmoves, hr⟩
              · exact Or.inl ⟨Or.inr ⟨hmoved, Or.inl hstays⟩, hstopped⟩
              · refine Or.inr ⟨rfl, fun _ => ?_, hr⟩
                rintro (hstays | ⟨-, hclosed⟩)
                · exact hmoves hstays
                · exact hclosed (hreopens.mp rfl)
        · rename_i hmerge
          rcases repair_outcome hinputs.noSessionFailure h with ⟨hstays, hstopped⟩ | ⟨hmoves, hr⟩
          · exact Or.inl ⟨Or.inr ⟨hmoved, Or.inl hstays⟩, hstopped⟩
          · refine Or.inr ⟨rfl, fun _ => ?_, hr⟩
            rintro (hstays | ⟨hsame, -⟩)
            · exact hmoves hstays
            · exact hmerge hsame

end Derived

/-! ### The classification of the queue -/

section Classified

variable {site : QueueSite} {queue : FeatureQueue} {milestoneId : String}

/-- What the readers of the queue say of a milestone with this classification. -/
inductive ClassifiedAs (site : QueueSite) (queue : FeatureQueue) (milestoneId : String) :
    QueueClassification → Prop where
  | unknown (missing : queue.milestone site.platform milestoneId = none) :
      ClassifiedAs site queue milestoneId .invalidQueue
  | pending (found : queue.milestone site.platform milestoneId ≠ none)
      (waiting : queue.integrationCandidates site.platform milestoneId ≠ []) :
      ClassifiedAs site queue milestoneId .reconciledIntegrationPending
  | ready (found : queue.milestone site.platform milestoneId ≠ none)
      (settled : queue.integrationCandidates site.platform milestoneId = [])
      (selects : ∃ selection, queue.selectNext site milestoneId = .ok (some selection))
      (open' : ¬AtGate site queue milestoneId) :
      ClassifiedAs site queue milestoneId .reconciledReadyWork
  | complete (found : queue.milestone site.platform milestoneId ≠ none)
      (gate : AtGate site queue milestoneId) :
      ClassifiedAs site queue milestoneId .milestoneComplete
  | other {classification : QueueClassification}
      (found : queue.milestone site.platform milestoneId ≠ none)
      (settled : queue.integrationCandidates site.platform milestoneId = [])
      (open' : ¬AtGate site queue milestoneId)
      (rest : classification ∈ [QueueClassification.humanDecisionRequired, .legitimatelyBlocked,
        .reconciledNoReadyWork]) : ClassifiedAs site queue milestoneId classification

theorem classifiedAs {classification : QueueClassification}
    (h : queue.reconciliationClassification site milestoneId = .ok classification) :
    ClassifiedAs site queue milestoneId classification := by
  unfold FeatureQueue.reconciliationClassification at h
  dsimp only at h
  split at h
  · rename_i hmissing
    cases h
    exact .unknown hmissing
  · rename_i hfound
    split at h
    · rename_i hwaiting
      cases h
      exact .pending hfound hwaiting
    · rename_i hsettled
      rw [not_not] at hsettled
      obtain ⟨ready, hready, h⟩ := bind_eq_ok.mp h
      cases ready with
      | cons first others =>
          cases h
          refine .ready hfound hsettled ?_ ?_
          · simp only [FeatureQueue.selectNext, hready, ok_bind]
            exact ⟨_, rfl⟩
          · rintro ⟨-, hnone, -⟩
            cases hready.symm.trans hnone
      | nil =>
          rw [if_neg (not_not.mpr rfl)] at h
          split at h
          · rename_i hcomplete
            cases h
            exact .complete hfound ⟨hcomplete, hready, hsettled⟩
          · rename_i hopen
            refine .other hfound hsettled (fun hgate => hopen hgate.1) ?_
            obtain ⟨human, -, h⟩ := bind_eq_ok.mp h
            split at h
            · cases h
              decide
            · split at h <;> cases h <;> decide

theorem hasStatus_apart {item : Fields} {statuses others : List String}
    (h : FeatureQueue.hasStatus item statuses = true)
    (hapart : ∀ status ∈ statuses, status ∉ others) :
    FeatureQueue.hasStatus item others = false := by
  obtain ⟨status, hstatus, heq⟩ := hasStatus_iff.mp h
  rw [Bool.eq_false_iff]
  intro hother
  obtain ⟨other, hmem, heq'⟩ := hasStatus_iff.mp hother
  cases heq.symm.trans heq'
  exact hapart status hstatus hmem

/-- A milestone with work that awaits its integration is not complete. -/
theorem not_complete_of_waiting
    (h : queue.integrationCandidates site.platform milestoneId ≠ []) :
    queue.milestoneComplete site.platform milestoneId = false := by
  obtain ⟨item, hitem⟩ := List.exists_mem_of_ne_nil _ h
  obtain ⟨entry, hentry, rfl⟩ := List.mem_map.mp hitem
  rw [List.mem_insertionSort] at hentry
  obtain ⟨index, hindex, rfl⟩ := List.mem_mapIdx.mp hentry
  obtain ⟨hmem, hwaits⟩ := List.mem_filter.mp (List.getElem_mem hindex)
  rw [FeatureQueue.awaitsIntegration, Bool.and_eq_true] at hwaits
  rw [Bool.eq_false_iff]
  intro hcomplete
  rw [FeatureQueue.milestoneComplete, Bool.and_eq_true, List.all_eq_true] at hcomplete
  have hkept := @hasStatus_apart _ _ ["deferred", "rejected"] hwaits.1 (by decide)
  have hdone := hcomplete.2 _ (List.mem_filter.mpr ⟨hmem, by rw [hkept]; rfl⟩)
  rw [hasStatus_apart hwaits.1 (by decide)] at hdone
  cases hdone

theorem ClassifiedAs.found_iff {classification : QueueClassification}
    (h : ClassifiedAs site queue milestoneId classification) :
    queue.milestone site.platform milestoneId ≠ none ↔ classification ≠ .invalidQueue := by
  cases h with
  | unknown hmissing => exact iff_of_false (not_not.mpr hmissing) (not_not.mpr rfl)
  | pending hfound => exact iff_of_true hfound (by decide)
  | ready hfound => exact iff_of_true hfound (by decide)
  | complete hfound => exact iff_of_true hfound (by decide)
  | other hfound _ _ hrest =>
      refine iff_of_true hfound ?_
      rintro rfl
      exact absurd hrest (by decide)

theorem ClassifiedAs.eq_pending {classification : QueueClassification}
    (h : ClassifiedAs site queue milestoneId classification)
    (hfound : queue.milestone site.platform milestoneId ≠ none)
    (hwaiting : queue.integrationCandidates site.platform milestoneId ≠ []) :
    classification = .reconciledIntegrationPending := by
  cases h with
  | unknown hmissing => exact absurd hmissing hfound
  | pending => rfl
  | ready _ hsettled => exact absurd hsettled hwaiting
  | complete _ hgate => exact absurd hgate.2.2 hwaiting
  | other _ hsettled => exact absurd hsettled hwaiting

end Classified

/-! ### When the assessment understands the queue -/

/-- The condition: the milestone is known; a project that enters without state has more to do
    than its gate; any other project has no work that awaits its integration, or a state that
    waits for a human. -/
structure Understood (site : QueueSite) (startup : StartupSite) (queue : FeatureQueue)
    (milestoneId : String) (project : StartupProject) (persisted : Option Fields)
    (repository : Fields) : Prop where
  found : queue.milestone site.platform milestoneId ≠ none
  entry : EntersWithoutState startup.platform project persisted →
    ¬AtGate site queue milestoneId
  pending : ¬EntersWithoutState startup.platform project persisted →
    queue.integrationCandidates site.platform milestoneId ≠ [] →
      Stays startup project persisted repository
        (persistedStateOf startup.platform project persisted)

theorem reaches_integrating :
    PORTFOLIO_MACHINE.Reaches "queue_reconciliation" "integrating" :=
  Relation.ReflTransGen.head (b := "integration_ready") (by decide +kernel)
    (Relation.ReflTransGen.single (by decide +kernel))

section Main

variable {site : QueueSite} {startup : StartupSite} {queue : FeatureQueue}
  {milestoneId : String} {project : StartupProject} {persisted : Option Fields}
  {plan repository : Fields} {summary : QueueSummary} {result : StartupReconciliation}

theorem summary_reads (h : queue.summary site milestoneId = .ok summary) :
    summary.milestoneComplete = queue.milestoneComplete site.platform milestoneId ∧
      ClassifiedAs site queue milestoneId summary.reconciliationClassification := by
  simp only [FeatureQueue.summary, bind_eq_ok] at h
  obtain ⟨selection, -, integration, -, h⟩ := h
  split at h
  · obtain ⟨ready, -, h⟩ := bind_eq_ok.mp h
    obtain ⟨classification, hclass, h⟩ := bind_eq_ok.mp h
    cases h
    exact ⟨rfl, classifiedAs hclass⟩
  · obtain ⟨ready, -, h⟩ := bind_eq_ok.mp h
    obtain ⟨classification, hclass, h⟩ := bind_eq_ok.mp h
    cases h
    exact ⟨rfl, classifiedAs hclass⟩

/-- The entry state agrees with the queue unless the milestone is at its gate. -/
theorem entry_agrees_iff :
    AgreesWith site queue milestoneId "queue_reconciliation" ↔ ¬AtGate site queue milestoneId := by
  constructor
  · intro hagrees hgate
    exact absurd (hagrees.gate.mpr hgate) (by decide)
  · intro hopen
    exact ⟨fun hready => absurd hready (by decide), iff_of_false (by decide) hopen,
      fun _ => reaches_integrating⟩

/-- An exit for a human is understood, whatever the queue. -/
theorem Stopped.understands (h : Stopped result) : Understands site queue milestoneId result where
  derives hfailed := absurd (h.derivedState.symm.trans hfailed) (by decide)
  settled := by
    rintro (hpersist | hconsistent)
    · rw [h.wouldPersist] at hpersist
      cases hpersist
    · exact absurd hconsistent h.classification

/-- The states of a queue without pending work agree with its readers. -/
theorem agrees_of_classified {classification : QueueClassification} {derived : String}
    (h : ClassifiedAs site queue milestoneId classification)
    (hfound : queue.milestone site.platform milestoneId ≠ none)
    (hsettled : queue.integrationCandidates site.platform milestoneId = [])
    (hderived : derived ∈ targetsOf classification) :
    derived ≠ "validation_failed" ∧ AgreesWith site queue milestoneId derived := by
  have hpending : queue.integrationCandidates site.platform milestoneId ≠ [] →
      PORTFOLIO_MACHINE.Reaches derived "integrating" := fun hne => absurd hsettled hne
  cases h with
  | unknown hmissing => exact absurd hmissing hfound
  | pending _ hwaiting => exact absurd hsettled hwaiting
  | ready _ _ hselects hopen =>
      obtain rfl := List.mem_singleton.mp hderived
      exact ⟨by decide, fun _ => hselects, iff_of_false (by decide) hopen, hpending⟩
  | complete _ hgate =>
      obtain rfl := List.mem_singleton.mp hderived
      exact ⟨by decide, fun hready => absurd hready (by decide), iff_of_true rfl hgate, hpending⟩
  | other _ _ hopen hrest =>
      have hstates : ∀ state ∈ ["human_decision_required", "paused", "queue_reconciliation"],
          state ≠ "validation_failed" ∧ state ≠ "feature_ready" ∧ state ≠ "milestone_gate" := by
        decide
      have hmem : derived ∈ ["human_decision_required", "paused", "queue_reconciliation"] := by
        simp only [List.mem_cons, List.not_mem_nil, or_false] at hrest
        rcases hrest with rfl | rfl | rfl
        · exact List.mem_cons.mpr (Or.inl (List.mem_singleton.mp hderived))
        · exact List.mem_cons_of_mem _ (List.mem_cons.mpr (Or.inl (List.mem_singleton.mp hderived)))
        · exact List.mem_cons_of_mem _ hderived
      obtain ⟨hvalid, hready, hgate⟩ := hstates derived hmem
      exact ⟨hvalid, fun h => absurd h hready, iff_of_false hgate hopen, hpending⟩

/-- From a quiet start the assessment understands the queue exactly under the condition. -/
theorem startup_understands_iff (hsummary : queue.summary site milestoneId = .ok summary)
    (hquiet : QuietStart project plan repository summary)
    (h : assessStartupReconciliation startup project persisted plan = .ok result) :
    Understands site queue milestoneId result ↔
      Understood site startup queue milestoneId project persisted repository := by
  obtain ⟨hcomplete, hclassified⟩ := summary_reads hsummary
  obtain ⟨inputs, hinputs, hresult⟩ := hquiet.assess h
  rcases hresult with ⟨hinvalid, rfl⟩ | ⟨hvalid, hresult⟩
  · refine iff_of_false (fun hunderstands => hunderstands.derives rfl) fun hunderstood => ?_
    exact hclassified.found_iff.mp hunderstood.found hinvalid
  · have hfound := hclassified.found_iff.mpr hvalid
    by_cases henters : EntersWithoutState startup.platform project persisted
    · have hentry : inputs.persisted.isNone ∧ inputs.persistedState = "queue_reconciliation" := by
        rw [hinputs.given, hinputs.persistedState, Option.isNone_iff_eq_none]
        exact henters
      rw [assessDerived, if_pos hentry] at hresult
      have hkept : result.derivedState = "queue_reconciliation" ∧
          result.classification = "state_consistent" := by
        cases hresult
        exact ⟨hentry.2, rfl⟩
      obtain ⟨hstate, hconsistent⟩ := hkept
      constructor
      · intro hunderstands
        have hagrees := hunderstands.settled (Or.inr hconsistent)
        rw [hstate] at hagrees
        exact ⟨hfound, fun _ => entry_agrees_iff.mp hagrees, fun hnot => absurd henters hnot⟩
      · intro hunderstood
        refine ⟨fun hfailed => absurd (hstate.symm.trans hfailed) (by decide), fun _ => ?_⟩
        rw [hstate]
        exact entry_agrees_iff.mpr (hunderstood.entry henters)
    · obtain ⟨derived, hderived, htarget⟩ := hinputs.derives
      by_cases hsettled : queue.integrationCandidates site.platform milestoneId = []
      · refine iff_of_true ?_ ⟨hfound, fun h => absurd h henters, fun _ hne => absurd hsettled hne⟩
        obtain ⟨hvalid, hagrees⟩ := agrees_of_classified hclassified hfound hsettled htarget
        rcases hinputs.outcome henters hderived hresult with ⟨-, hstopped⟩ | ⟨-, -, hr⟩
        · exact hstopped.understands
        · rw [← hr] at hvalid hagrees
          exact ⟨hvalid, fun _ => hagrees⟩
      · have hpending := hclassified.eq_pending hfound hsettled
        rw [hpending] at htarget
        obtain rfl := List.mem_singleton.mp htarget
        have hcalm : contradiction inputs "validation_failed" = none := by
          rw [contradiction, hinputs.complete, hcomplete, not_complete_of_waiting hsettled]
          simp
        rcases hinputs.outcome henters hderived hresult with ⟨hstays, hstopped⟩ | ⟨-, hmoves, hr⟩
        · refine iff_of_true hstopped.understands
            ⟨hfound, fun h => absurd h henters, fun _ _ => ?_⟩
          rcases hstays with hne | ⟨-, hstays⟩
          · exact absurd hcalm hne
          · rw [← hinputs.persistedState]
            exact hstays
        · refine iff_of_false (fun hunderstands => hunderstands.derives hr) fun hunderstood => ?_
          have hstays := hunderstood.pending henters hsettled
          rw [← hinputs.persistedState] at hstays
          refine hmoves (fun hsame => ?_) hstays
          rw [hsame] at hstays
          rcases hstays with (hhuman | hnot) | ⟨hmerge, -⟩
          · exact absurd hhuman (by decide)
          · exact hnot (by decide)
          · exact absurd hmerge (by decide)

end Main

/-! ### Accepted work at the start -/

/-- A queue of one feature of the milestone. -/
def oneFeatureQueue (feature : Fields) : Fields :=
  [("features", .arr [.obj ([("id", .str "F1"), ("milestone", .str "M1")] ++ feature)]),
   ("milestones", .arr [.obj [("id", .str "M1")]])]

def quietRepository : Fields :=
  [("clean", .bool true), ("git_operations", .obj [("merge", .bool false)]),
   ("branch", .str "milestone/one"), ("head", .str "c1"), ("milestone_branch_head", .str "c1"),
   ("baseline_exists", .bool true), ("milestone_branch_exists", .bool true),
   ("baseline_is_ancestor_of_milestone", .bool true)]

/-- The plan of a quiet start with this summary of the queue. -/
def quietPlan (summary : QueueSummary) : Fields :=
  [("queue_status", .obj (planQueueStatus (.str "docs/features.json") "" [] summary)),
   ("selected_feature", planSelectedFeature true summary),
   ("repository_state", .obj quietRepository),
   ("lock_status", .obj [("repository_writer", .obj [("exists", .bool false)]),
     ("controller_launch", .obj [("exists", .bool false)])])]

theorem quietStart_quietPlan (summary : QueueSummary) :
    QuietStart demoProject (quietPlan summary) quietRepository summary where
  queueStatus := ⟨_, _, _, rfl⟩
  selected := ⟨_, rfl⟩
  observed := rfl
  clean := rfl
  operations := rfl
  branch := rfl
  head := rfl
  baseline := rfl
  milestoneBranch := rfl
  ancestry := rfl
  noLocks := rfl
  noCycle := rfl
  noPlanning _ h := nomatch h
  noIntegrationFailure := rfl
  noSessionFailure := rfl

/-- With a ready feature the running project is repaired to `feature_ready`. -/
theorem ready_feature_understood :
    ∃ queue summary result,
      FeatureQueue.ofFields .plain (oneFeatureQueue [("status", .str "ready"),
        ("acceptance_criteria", .arr [.str "it works"]), ("spec", .str "docs/F1.md")]) =
          .ok queue ∧
      queue.summary .plain "M1" = .ok summary ∧
      assessStartupReconciliation .bare demoProject (some [("current_state", .str "paused")])
        (quietPlan summary) = .ok result ∧
      result.wouldPersist = true ∧ result.derivedState = "feature_ready" ∧
      Understands .plain queue "M1" result := by
  obtain ⟨queue, summary, result, hqueue, hsummary, hresult, hpersist, hderived, hfound,
      hsettled⟩ : ∃ queue summary result,
      FeatureQueue.ofFields .plain (oneFeatureQueue [("status", .str "ready"),
        ("acceptance_criteria", .arr [.str "it works"]), ("spec", .str "docs/F1.md")]) =
          .ok queue ∧
      queue.summary .plain "M1" = .ok summary ∧
      assessStartupReconciliation .bare demoProject (some [("current_state", .str "paused")])
        (quietPlan summary) = .ok result ∧
      result.wouldPersist = true ∧ result.derivedState = "feature_ready" ∧
      (queue.milestone QueueSite.plain.platform "M1").isSome = true ∧
      queue.integrationCandidates QueueSite.plain.platform "M1" = [] :=
    ⟨_, _, _, rfl, rfl, rfl, rfl, rfl, rfl, rfl⟩
  refine ⟨queue, summary, result, hqueue, hsummary, hresult, hpersist, hderived,
    (startup_understands_iff hsummary (quietStart_quietPlan summary) hresult).mpr
      ⟨Option.isSome_iff_ne_none.mp hfound, ?_, fun _ hne => absurd hsettled hne⟩⟩
  rintro ⟨hnone, -⟩
  cases hnone

/-- With an accepted feature the same project would be repaired to `validation_failed`. -/
theorem accepted_feature_fails_validation :
    ∃ queue summary result,
      FeatureQueue.ofFields .plain (oneFeatureQueue [("status", .str "accepted")]) = .ok queue ∧
      queue.summary .plain "M1" = .ok summary ∧
      summary.reconciliationClassification = .reconciledIntegrationPending ∧
      QuietStart demoProject (quietPlan summary) quietRepository summary ∧
      assessStartupReconciliation .bare demoProject (some [("current_state", .str "paused")])
        (quietPlan summary) = .ok result ∧
      result.wouldPersist = true ∧ result.derivedState = "validation_failed" ∧
      ¬Understands .plain queue "M1" result :=
  ⟨_, _, _, rfl, rfl, rfl, quietStart_quietPlan _, rfl, rfl, rfl,
    fun hunderstands => hunderstands.derives rfl⟩

end Conveyor
