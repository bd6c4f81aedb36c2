import Conveyor.StartupReconciliation

/-!
# Startup repairs follow the state machine

What holds of every assessment that would persist: which of its paths the machine of the
project accepts, and that a second assessment of the same evidence, with the derived state in
place of the persisted one, keeps that state.
-/

namespace Conveyor

open Library StateMachine PortfolioState

/-! ### Moves -/

/-- What may move into a state, by name. -/
theorem accepts_iff_mem {current : String} (target : PortfolioState) :
    PORTFOLIO_MACHINE.Accepts current target.value ↔
      current ∈ (PORTFOLIO_STATES.filter fun state =>
        state = target ∨ target ∈ PORTFOLIO_TRANSITIONS state).map PortfolioState.value := by
  rw [accepts_iff, List.mem_map]
  refine exists_congr fun state => ?_
  have hmem : state ∈ PORTFOLIO_STATES := by
    cases state <;> decide
  rw [List.mem_filter, decide_eq_true_iff]
  constructor
  · rintro ⟨hvalue, hmoves⟩
    exact ⟨⟨hmem, hmoves⟩, hvalue⟩
  · rintro ⟨⟨-, hmoves⟩, hvalue⟩
    exact ⟨hvalue, hmoves⟩

/-- The states from which a project may fail its validation. -/
def BEFORE_VALIDATION_FAILED : List String :=
  ["queue_reconciliation", "feature_preparing", "feature_running", "feature_review",
   "feature_accepted", "integration_pending", "integration_ready", "integrating",
   "integration_validation", "milestone_gate", "validation_failed"]

/-- The states from which a project may wait for a human decision. -/
def BEFORE_HUMAN_DECISION : List String :=
  ["discover", "bootstrap_required", "baseline_required", "queue_reconciliation", "feature_ready",
   "feature_preparing", "feature_running", "feature_review", "feature_accepted",
   "integration_pending", "integration_ready", "integrating", "integration_validation",
   "integration_blocked", "milestone_gate", "milestone_ready_for_merge", "human_merge_approval",
   "next_milestone", "human_decision_required", "repository_dirty", "validation_failed",
   "architecture_decision_required", "destructive_change_required", "conveyor_error", "paused"]

theorem accepts_validation_failed {current : String} :
    PORTFOLIO_MACHINE.Accepts current "validation_failed" ↔ current ∈ BEFORE_VALIDATION_FAILED := by
  have hlist : (PORTFOLIO_STATES.filter fun state =>
      state = validationFailed ∨ validationFailed ∈ PORTFOLIO_TRANSITIONS state).map
        PortfolioState.value = BEFORE_VALIDATION_FAILED := by decide
  rw [← hlist]
  exact accepts_iff_mem validationFailed

theorem accepts_human_decision {current : String} :
    PORTFOLIO_MACHINE.Accepts current "human_decision_required" ↔
      current ∈ BEFORE_HUMAN_DECISION := by
  have hlist : (PORTFOLIO_STATES.filter fun state =>
      state = humanDecisionRequired ∨ humanDecisionRequired ∈ PORTFOLIO_TRANSITIONS state).map
        PortfolioState.value = BEFORE_HUMAN_DECISION := by decide
  rw [← hlist]
  exact accepts_iff_mem humanDecisionRequired

theorem accepts_queue_reconciliation {state : String} (h : state ∈ REPAIRABLE) :
    PORTFOLIO_MACHINE.Accepts state "queue_reconciliation" := by
  have hall : REPAIRABLE.all (fun state =>
      PORTFOLIO_MACHINE.Accepts state "queue_reconciliation") = true := by decide +kernel
  exact of_decide_eq_true (List.all_eq_true.mp hall state h)

theorem mem_before_human_decision {state : String} (h : state ∈ REPAIRABLE) :
    state ∈ BEFORE_HUMAN_DECISION := by
  have hsub : REPAIRABLE ⊆ BEFORE_HUMAN_DECISION := by decide
  exact hsub h

/-! ### The path of a repair -/

/-- A path from a state that a repair may start from, up to one that it may leave. -/
structure Underway (start : String) (path : List String) : Prop where
  follows : PORTFOLIO_MACHINE.Follows path
  starts : path.head? = some start
  last : ∃ state ∈ REPAIRABLE, path.getLast? = some state

theorem Underway.start {start : String} (h : start ∈ REPAIRABLE) : Underway start [start] :=
  ⟨follows_singleton start, rfl, start, h, rfl⟩

theorem Underway.extend {start : String} {path : List String} (h : Underway start path)
    (target : String) (htarget : target ∈ REPAIRABLE)
    (hmoves : ∀ state ∈ REPAIRABLE, PORTFOLIO_MACHINE.Accepts state target) :
    Underway start (extend path target) where
  follows := h.follows.extend fun state hstate _ => by
    obtain ⟨last, hlast, heq⟩ := h.last
    rw [heq, Option.mem_some_iff] at hstate
    exact hstate ▸ hmoves last hlast
  starts := head?_extend h.starts target
  last := ⟨target, htarget, getLast?_extend path target⟩

/-- The states that an assessment derives from the classification of a queue. -/
def DERIVED : List String :=
  ["feature_ready", "paused", "milestone_gate", "human_decision_required", "validation_failed",
   "queue_reconciliation"]

theorem accepts_derived {derived : String} (h : derived ∈ DERIVED) :
    PORTFOLIO_MACHINE.Accepts "queue_reconciliation" derived := by
  have hall : DERIVED.all (fun derived =>
      PORTFOLIO_MACHINE.Accepts "queue_reconciliation" derived) = true := by decide +kernel
  exact of_decide_eq_true (List.all_eq_true.mp hall derived h)

/-- The path of a repair goes through the reconciliation of the queue to the derived state. -/
theorem repairPath_follows {start derived : String} {accepted : Bool} (failed : Bool)
    (hstart : start ∈ REPAIRABLE) (hderived : derived ∈ DERIVED)
    (haccepted : accepted = true → start = "feature_running") :
    PORTFOLIO_MACHINE.Follows (repairPath start derived accepted failed) ∧
      (repairPath start derived accepted failed).head? = some start ∧
      (repairPath start derived accepted failed).getLast? = some derived := by
  have first : Underway start (if accepted then [start] ++ ["feature_accepted"] else [start]) := by
    cases accepted with
    | false => exact Underway.start hstart
    | true =>
        rw [haccepted rfl]
        exact ⟨follows_pair.mpr (by decide +kernel), rfl, "feature_accepted", by decide, rfl⟩
  have second : ∀ path, Underway start path →
      Underway start (if failed then extend path "human_decision_required" else path) := by
    intro path hpath
    cases failed with
    | false => exact hpath
    | true =>
        exact hpath.extend _ (by decide) fun state h =>
          accepts_human_decision.mpr (mem_before_human_decision h)
  have third := (second _ first).extend "queue_reconciliation" (by decide)
    fun state h => accepts_queue_reconciliation h
  unfold repairPath
  dsimp only
  by_cases hsame : derived = "queue_reconciliation"
  · rw [if_neg (not_not.mpr hsame), hsame]
    exact ⟨third.follows, third.starts, getLast?_extend _ _⟩
  · rw [if_pos hsame]
    refine ⟨third.follows.snoc ?_, ?_, List.getLast?_concat⟩
    · intro last hlast
      rw [getLast?_extend, Option.mem_some_iff] at hlast
      exact hlast ▸ accepts_derived hderived
    · rw [List.head?_append, third.starts, Option.some_or]

/-! ### The same evidence, read again -/

/-- Two readings of one plan, with different persisted states. -/
structure SameEvidence (first second : StartupInputs) : Prop where
  queue : second.queue = first.queue
  repository : second.repository = first.repository
  locks : second.locks = first.locks
  activeCycle : second.activeCycle = first.activeCycle
  queueClassification : second.queueClassification = first.queueClassification
  selectedFeature : second.selectedFeature = first.selectedFeature
  milestoneComplete : second.milestoneComplete = first.milestoneComplete
  deterministicFailure : second.deterministicFailure = first.deterministicFailure
  authoritative :
    second.authoritativeIntegrationFailure = first.authoritativeIntegrationFailure

/-- What the inputs of an assessment are made of. -/
structure ReadFrom (site : StartupSite) (project : StartupProject) (persisted : Option Fields)
    (plan : Fields) (inputs : StartupInputs) : Prop where
  given : inputs.persisted = persisted
  persistedState : inputs.persistedState = persistedStateOf site.platform project persisted
  deterministicFailure : inputs.deterministicFailure = deterministicFailureOf plan
  authoritative : authoritativeFailureOf plan = .ok inputs.authoritativeIntegrationFailure

theorem startupInputs_eq_ok {site : StartupSite} {project : StartupProject}
    {persisted : Option Fields} {plan : Fields} {inputs : StartupInputs}
    (h : startupInputs site project persisted plan = .ok inputs) :
    ReadFrom site project persisted plan inputs := by
  simp only [startupInputs, bind_eq_ok, pure, Except.pure, Except.ok.injEq] at h
  obtain ⟨queue, hqueue, repository, hrepository, fingerprint, hfingerprint, authoritative,
    hauthoritative, rfl⟩ := h
  exact ⟨rfl, rfl, rfl, hauthoritative⟩

/-- A plan that was read is read again, whatever state is persisted by then. -/
theorem startupInputs_again {site : StartupSite} {project : StartupProject}
    {persisted : Option Fields} {plan : Fields} {inputs : StartupInputs}
    (h : startupInputs site project persisted plan = .ok inputs) (project' : StartupProject)
    (persisted' : Option Fields) :
    ∃ inputs', startupInputs site project' persisted' plan = .ok inputs' := by
  simp only [startupInputs, bind_eq_ok, pure, Except.pure, Except.ok.injEq] at h
  obtain ⟨queue, hqueue, repository, hrepository, fingerprint, hfingerprint, authoritative,
    hauthoritative, -⟩ := h
  unfold startupInputs
  exact ⟨_, bind_eq_ok.mpr ⟨_, hqueue, bind_eq_ok.mpr ⟨_, hrepository, bind_eq_ok.mpr
    ⟨_, hfingerprint, bind_eq_ok.mpr ⟨_, hauthoritative, rfl⟩⟩⟩⟩⟩

theorem startupInputs_same {site : StartupSite} {project project' : StartupProject}
    {persisted persisted' : Option Fields} {plan : Fields} {inputs inputs' : StartupInputs}
    (h : startupInputs site project persisted plan = .ok inputs)
    (h' : startupInputs site project' persisted' plan = .ok inputs') :
    SameEvidence inputs inputs' := by
  simp only [startupInputs, bind_eq_ok, pure, Except.pure, Except.ok.injEq] at h h'
  obtain ⟨queue, hqueue, repository, hrepository, fingerprint, hfingerprint, authoritative,
    hauthoritative, rfl⟩ := h
  obtain ⟨queue', hqueue', repository', hrepository', fingerprint', hfingerprint',
    authoritative', hauthoritative', rfl⟩ := h'
  cases hqueue.symm.trans hqueue'
  cases hrepository.symm.trans hrepository'
  cases hauthoritative.symm.trans hauthoritative'
  constructor <;> rfl

namespace SameEvidence

variable {first second : StartupInputs}

theorem startupBlock (h : SameEvidence first second) {project project' : StartupProject}
    (hproject : project'.milestoneBranch = project.milestoneBranch) (plan : Fields) :
    Conveyor.startupBlock project' plan second = Conveyor.startupBlock project plan first := by
  unfold Conveyor.startupBlock pendingPlanning repositoryUnfit
  rw [h.repository, h.locks, h.queue, h.queueClassification, hproject]

theorem contradiction (h : SameEvidence first second) {derived : String}
    (hnone : Conveyor.contradiction first derived = none) :
    Conveyor.contradiction second derived = none := by
  unfold Conveyor.contradiction at hnone ⊢
  rw [h.selectedFeature, h.milestoneComplete]
  split at hnone
  · cases hnone
  · rename_i hready
    split at hnone
    · cases hnone
    · rename_i hcomplete
      rw [if_neg hready, if_neg hcomplete]

/-- The derived state is derived again once the project is in it. -/
theorem derivedStateOf (h : SameEvidence first second) {P : Platform} {derived : String}
    (hderived : Conveyor.derivedStateOf P first = .ok derived)
    (hmoved : first.persistedState ≠ derived) (hnow : second.persistedState = derived) :
    Conveyor.derivedStateOf P second = .ok derived := by
  unfold Conveyor.derivedStateOf at hderived ⊢
  rw [h.queueClassification, h.queue, hnow]
  by_cases hwork : first.queueClassification = .str "reconciled_no_ready_work"
  · rw [if_pos hwork, bind_eq_ok] at hderived ⊢
    obtain ⟨proposed, hproposed, hvalue⟩ := hderived
    refine ⟨proposed, hproposed, ?_⟩
    have hpaused : targetOf (P.str first.queueClassification) = "paused" := by
      rw [hwork]
      rfl
    rw [hpaused] at hvalue ⊢
    split at hvalue
    · -- proposed work: the queue is to be reconciled, and that state is not `paused`
      rename_i hreopen
      cases hvalue
      exact if_pos ⟨hreopen.1, by decide⟩
    · rename_i hkeep
      cases hvalue
      exact if_neg fun hboth => hboth.2 rfl
  · rw [if_neg hwork] at hderived ⊢
    exact hderived

end SameEvidence

theorem derived_of_derivedStateOf {P : Platform} {inputs : StartupInputs} {derived : String}
    (h : derivedStateOf P inputs = .ok derived) : derived ∈ DERIVED := by
  have htarget : ∀ classification, targetOf classification ∈ DERIVED := by
    intro classification
    unfold targetOf
    split <;> decide
  unfold derivedStateOf at h
  split at h
  · obtain ⟨proposed, -, hvalue⟩ := bind_eq_ok.mp h
    split at hvalue
    · cases hvalue
      decide
    · cases hvalue
      exact htarget _
  · cases h
    exact htarget _

/-! ### The exits that would persist -/

theorem exit_keeps {inputs : StartupInputs} (block : StartupBlock) :
    (block.exit inputs).wouldPersist = false := by
  cases block <;> rfl

theorem activeCycleExit_keeps {inputs : StartupInputs} {r : StartupReconciliation}
    (h : activeCycleExit inputs = .ok r) : r.wouldPersist = false := by
  unfold activeCycleExit at h
  split at h
  · split at h <;> (cases h; rfl)
  · cases h

theorem contradiction_keeps {inputs : StartupInputs} {derived : String}
    {r : StartupReconciliation} (h : contradiction inputs derived = some r) :
    r.wouldPersist = false := by
  unfold contradiction at h
  split at h
  · cases h
    rfl
  · split at h
    · cases h
      rfl
    · cases h

/-- What a repair that would persist has found. -/
structure Repaired (inputs : StartupInputs) (derived : String) (r : StartupReconciliation) :
    Prop where
  derivedState : r.derivedState = derived
  start : inputs.persistedState ∈ REPAIRABLE
  path : ∃ accepted failed, (accepted = true → inputs.persistedState = "feature_running") ∧
    r.transitionPath = repairPath inputs.persistedState derived accepted failed

theorem repair_persists {P : Platform} {inputs : StartupInputs} {derived : String}
    {r : StartupReconciliation} (h : repair P inputs derived = .ok r)
    (hp : r.wouldPersist = true) : Repaired inputs derived r := by
  unfold repair at h
  split at h
  · cases h
    cases hp
  · split at h
    · cases h
      cases hp
    · rename_i hstart
      obtain ⟨accepted, haccepted, hr⟩ := bind_eq_ok.mp h
      cases hr
      refine ⟨rfl, not_not.mp hstart, accepted, _, ?_, rfl⟩
      rintro rfl
      obtain ⟨completed, -, hfeature⟩ := bind_eq_ok.mp haccepted
      split at hfeature
      · rename_i hrunning
        exact hrunning.1
      · cases hfeature

/-- What an assessment past the blocks has found when it would persist. -/
structure DerivedRepair (site : StartupSite) (inputs : StartupInputs)
    (r : StartupReconciliation) : Prop where
  derived : derivedStateOf site.platform inputs = .ok r.derivedState
  calm : contradiction inputs r.derivedState = none
  moved : inputs.persistedState ≠ r.derivedState
  start : inputs.persistedState ∈ REPAIRABLE
  path : ∃ accepted failed, (accepted = true → inputs.persistedState = "feature_running") ∧
    r.transitionPath = repairPath inputs.persistedState r.derivedState accepted failed

theorem assessDerived_persists {site : StartupSite} {project : StartupProject}
    {inputs : StartupInputs} {r : StartupReconciliation}
    (h : assessDerived site project inputs = .ok r) (hp : r.wouldPersist = true) :
    DerivedRepair site inputs r := by
  unfold assessDerived at h
  split at h
  · cases h
    cases hp
  · obtain ⟨derived, hderived, hrest⟩ := bind_eq_ok.mp h
    split at hrest
    · rename_i exit hexit
      cases hrest
      rw [contradiction_keeps hexit] at hp
      cases hp
    · rename_i hcalm
      split at hrest
      · cases hrest
        cases hp
      · rename_i hmoved
        have repaired : ∀ inputs' : StartupInputs,
            inputs'.persistedState = inputs.persistedState →
            repair site.platform inputs' derived = .ok r → DerivedRepair site inputs r := by
          intro inputs' hsame hrepair
          obtain ⟨hr, hstart, hpath⟩ := repair_persists hrepair hp
          rw [hsame] at hstart hpath
          subst hr
          exact ⟨hderived, hcalm, hmoved, hstart, hpath⟩
        split at hrest
        · obtain ⟨gate, -, hgate⟩ := bind_eq_ok.mp hrest
          obtain ⟨evidence, decision | decision⟩ := gate
          · exact repaired { inputs with evidence := evidence } rfl hgate
          · cases hgate
            cases hp
        · exact repaired inputs rfl hrest

/-- A project in its derived state keeps it. -/
theorem assessDerived_settled {site : StartupSite} {project : StartupProject}
    {inputs : StartupInputs} (hderived : derivedStateOf site.platform inputs =
      .ok inputs.persistedState) (hcalm : contradiction inputs inputs.persistedState = none) :
    ∃ r, assessDerived site project inputs = .ok r ∧ r.wouldPersist = false ∧
      r.derivedState = inputs.persistedState := by
  unfold assessDerived
  split
  · exact ⟨_, rfl, rfl, rfl⟩
  · refine ⟨inputs.keep "state_consistent"
      "persisted state agrees with verified repository and queue evidence",
      bind_eq_ok.mpr ⟨_, hderived, ?_⟩, rfl, rfl⟩
    rw [hcalm]
    exact if_pos rfl

/-! ### Repairs -/

/-- The project and its persisted document with another current state. -/
def withCurrentState (project : StartupProject) (persisted : Option Fields) (state : String) :
    StartupProject × Option Fields :=
  match persisted with
  | some fields => (project, some (fields.set "current_state" (.str state)))
  | none => ({ project with currentState := state }, none)

theorem milestoneBranch_withCurrentState (project : StartupProject) (persisted : Option Fields)
    (state : String) :
    (withCurrentState project persisted state).1.milestoneBranch = project.milestoneBranch := by
  cases persisted <;> rfl

theorem persistedStateOf_withCurrentState (P : Platform) (project : StartupProject)
    (persisted : Option Fields) {state : String} (h : state ≠ "") :
    persistedStateOf P (withCurrentState project persisted state).1
      (withCurrentState project persisted state).2 = state := by
  have htruthy : (Json.str state).truthy = true := decide_eq_true h
  cases persisted with
  | none => rfl
  | some fields =>
      simp only [withCurrentState, persistedStateOf, Option.getD_some, Fields.get_set_self,
        firstTruthy, htruthy, if_true, Platform.str_str]

/-- The plan says that the integration of a feature is there without its evidence. -/
def IntegrationFailed (plan : Fields) : Prop := authoritativeFailureOf plan = .ok true

/-- The plan holds a deterministic failure that nobody has remedied. -/
def Unremediated (plan : Fields) : Prop :=
  ∃ failure, deterministicFailureOf plan = some failure ∧ remediated failure = false

/-- The repair follows the machine from the persisted state to the derived one, and a second
    assessment keeps the derived state. -/
structure FollowsAndConverges (site : StartupSite) (project : StartupProject)
    (persisted : Option Fields) (plan : Fields) (r : StartupReconciliation) : Prop where
  follows : PORTFOLIO_MACHINE.Follows r.transitionPath
  starts : r.transitionPath.head? = some (persistedStateOf site.platform project persisted)
  ends : r.transitionPath.getLast? = some r.derivedState
  again : ∃ r', assessStartupReconciliation site
      (withCurrentState project persisted r.derivedState).1
      (withCurrentState project persisted r.derivedState).2 plan = .ok r' ∧
    r'.wouldPersist = false ∧ r'.derivedState = r.derivedState

/-- Which exit an assessment that would persist took. -/
inductive RepairExit (site : StartupSite) (project : StartupProject) (plan : Fields)
    (inputs : StartupInputs) (r : StartupReconciliation) : Prop where
  | integration (failed : inputs.authoritativeIntegrationFailure = true)
      (exit : r = inputs.moveTo "required_integration_validation_failed" "validation_failed"
        "required post-integration validation or evidence finalization has not passed" none)
  | failure (integrated : inputs.authoritativeIntegrationFailure = false) (evidence : Fields)
      (failed : inputs.deterministicFailure.filter (fun failure => !remediated failure) =
        some evidence)
      (exit : r = deterministicFailureExit project inputs evidence)
  | stale (integrated : inputs.authoritativeIntegrationFailure = false)
      (calm : inputs.deterministicFailure.filter (fun failure => !remediated failure) = none)
      (unblocked : startupBlock project plan inputs = .ok none)
      (repair : DerivedRepair site inputs r)

theorem repairExit_of_persists {site : StartupSite} {project : StartupProject}
    {persisted : Option Fields} {plan : Fields} {r : StartupReconciliation}
    (h : assessStartupReconciliation site project persisted plan = .ok r)
    (hp : r.wouldPersist = true) :
    ∃ inputs, startupInputs site project persisted plan = .ok inputs ∧
      inputs.activeCycle.truthy = false ∧ RepairExit site project plan inputs r := by
  obtain ⟨inputs, hinputs, h⟩ := bind_eq_ok.mp h
  refine ⟨inputs, hinputs, ?_⟩
  split at h
  · rw [activeCycleExit_keeps h] at hp
    cases hp
  · rename_i hcycle
    refine ⟨eq_false_of_ne_true hcycle, ?_⟩
    split at h
    · rename_i hfailed
      cases h
      exact .integration hfailed rfl
    · rename_i hintegrated
      split at h
      · rename_i failure hfailure
        cases h
        exact .failure (eq_false_of_ne_true hintegrated) failure hfailure rfl
      · rename_i hcalm
        obtain ⟨block, hblock, h⟩ := bind_eq_ok.mp h
        cases block with
        | some block =>
            cases h
            rw [exit_keeps block] at hp
            cases hp
        | none =>
            exact .stale (eq_false_of_ne_true hintegrated) hcalm hblock
              (assessDerived_persists h hp)

/-- An exit that moves straight to a state is sound when the machine accepts that move. -/
theorem moveTo_path {inputs : StartupInputs} {classification target reason : String}
    {decision : Option Fields}
    (hp : (inputs.moveTo classification target reason decision).wouldPersist = true) :
    (inputs.moveTo classification target reason decision).transitionPath =
      [inputs.persistedState, target] :=
  if_neg (of_decide_eq_true hp)

/-- The second assessment of the evidence keeps the state that the first one derived. -/
theorem assess_again {site : StartupSite} {project : StartupProject} {persisted : Option Fields}
    {plan : Fields} {r : StartupReconciliation} {inputs : StartupInputs}
    (hinputs : startupInputs site project persisted plan = .ok inputs)
    (hcycle : inputs.activeCycle.truthy = false) (hexit : RepairExit site project plan inputs r) :
    ∃ r', assessStartupReconciliation site
        (withCurrentState project persisted r.derivedState).1
        (withCurrentState project persisted r.derivedState).2 plan = .ok r' ∧
      r'.wouldPersist = false ∧ r'.derivedState = r.derivedState := by
  obtain ⟨inputs', hinputs'⟩ := startupInputs_again hinputs
    (withCurrentState project persisted r.derivedState).1
    (withCurrentState project persisted r.derivedState).2
  have hsame := startupInputs_same hinputs hinputs'
  have hnonempty : r.derivedState ≠ "" := by
    cases hexit with
    | integration failed exit => rw [exit]; exact of_decide_eq_true rfl
    | failure integrated evidence failed exit => rw [exit]; exact of_decide_eq_true rfl
    | stale integrated calm unblocked repair =>
        have hderived := derived_of_derivedStateOf repair.derived
        rintro hempty
        rw [hempty] at hderived
        exact absurd hderived (by decide)
  have hnow : inputs'.persistedState = r.derivedState :=
    (startupInputs_eq_ok hinputs').persistedState.trans
      (persistedStateOf_withCurrentState _ _ _ hnonempty)
  have hcycle' : ¬ inputs'.activeCycle.truthy = true := by
    rw [hsame.activeCycle, hcycle]
    exact Bool.false_ne_true
  unfold assessStartupReconciliation
  rw [hinputs', ok_bind, if_neg hcycle', hsame.authoritative, hsame.deterministicFailure]
  cases hexit with
  | integration failed exit =>
      rw [if_pos failed]
      refine ⟨_, rfl, ?_, ?_⟩
      · exact decide_eq_false (not_not.mpr (hnow.trans (by rw [exit]; rfl)))
      · rw [exit]
        rfl
  | failure integrated evidence failed exit =>
      rw [if_neg (by rw [integrated]; exact Bool.false_ne_true), failed]
      refine ⟨_, rfl, ?_, ?_⟩
      · exact decide_eq_false (not_not.mpr (hnow.trans (by rw [exit]; rfl)))
      · rw [exit]
        rfl
  | stale integrated calm unblocked repair =>
      rw [if_neg (by rw [integrated]; exact Bool.false_ne_true), calm,
        hsame.startupBlock (milestoneBranch_withCurrentState _ _ _) plan, unblocked]
      have hderived := hsame.derivedStateOf repair.derived repair.moved hnow
      have hcalm := hsame.contradiction repair.calm
      rw [← hnow] at hderived hcalm ⊢
      exact assessDerived_settled hderived hcalm

/-- An assessment that would persist is sound exactly when it does not send a state straight to
    `validation_failed` or `human_decision_required` that may not move there. -/
theorem assess_follows_and_converges_iff {site : StartupSite} {project : StartupProject}
    {persisted : Option Fields} {plan : Fields} {r : StartupReconciliation}
    (h : assessStartupReconciliation site project persisted plan = .ok r)
    (hp : r.wouldPersist = true) :
    FollowsAndConverges site project persisted plan r ↔
      (IntegrationFailed plan →
        persistedStateOf site.platform project persisted ∈ BEFORE_VALIDATION_FAILED) ∧
      (¬ IntegrationFailed plan → Unremediated plan →
        persistedStateOf site.platform project persisted ∈ BEFORE_HUMAN_DECISION) := by
  obtain ⟨inputs, hinputs, hcycle, hexit⟩ := repairExit_of_persists h hp
  have hread := startupInputs_eq_ok hinputs
  have hagain := assess_again hinputs hcycle hexit
  have hfailed : IntegrationFailed plan ↔ inputs.authoritativeIntegrationFailure = true := by
    rw [IntegrationFailed, hread.authoritative, Except.ok.injEq]
  have hunremediated : Unremediated plan ↔
      inputs.deterministicFailure.filter (fun failure => !remediated failure) ≠ none := by
    rw [hread.deterministicFailure, ne_eq, Option.filter_eq_none_iff, Unremediated]
    simp
  rw [← hread.persistedState]
  cases hexit with
  | integration failed exit =>
      subst exit
      have hpath := moveTo_path hp
      have hpair : PORTFOLIO_MACHINE.Accepts inputs.persistedState "validation_failed" ↔
          inputs.persistedState ∈ BEFORE_VALIDATION_FAILED := accepts_validation_failed
      constructor
      · intro hsound
        have hfollows := hsound.follows
        rw [hpath, follows_pair] at hfollows
        exact ⟨fun _ => hpair.mp hfollows, fun hnot => absurd (hfailed.mpr failed) hnot⟩
      · rintro ⟨hbefore, -⟩
        refine ⟨?_, ?_, ?_, hagain⟩
        · rw [hpath, follows_pair]
          exact hpair.mpr (hbefore (hfailed.mpr failed))
        · rw [hpath, ← hread.persistedState]
          rfl
        · rw [hpath]
          rfl
  | failure integrated evidence failed exit =>
      subst exit
      have hnot : ¬ IntegrationFailed plan := by
        rw [hfailed, integrated]
        exact Bool.false_ne_true
      have hfailure : Unremediated plan := by
        rw [hunremediated, failed]
        exact Option.some_ne_none _
      have hpath := moveTo_path hp
      have hpair : PORTFOLIO_MACHINE.Accepts inputs.persistedState "human_decision_required" ↔
          inputs.persistedState ∈ BEFORE_HUMAN_DECISION := accepts_human_decision
      constructor
      · intro hsound
        have hfollows := hsound.follows
        rw [deterministicFailureExit, hpath, follows_pair] at hfollows
        exact ⟨fun hfail => absurd hfail hnot, fun _ _ => hpair.mp hfollows⟩
      · rintro ⟨-, hbefore⟩
        refine ⟨?_, ?_, ?_, hagain⟩
        · rw [deterministicFailureExit, hpath, follows_pair]
          exact hpair.mpr (hbefore hnot hfailure)
        · rw [deterministicFailureExit, hpath, ← hread.persistedState]
          rfl
        · rw [deterministicFailureExit, hpath]
          rfl
  | stale integrated calm unblocked repair =>
      obtain ⟨accepted, failed, haccepted, hpath⟩ := repair.path
      obtain ⟨hfollows, hstarts, hends⟩ := repairPath_follows failed repair.start
        (derived_of_derivedStateOf repair.derived) haccepted
      refine iff_of_true ⟨?_, ?_, ?_, hagain⟩ ⟨?_, ?_⟩
      · rw [hpath]
        exact hfollows
      · rw [hpath, ← hread.persistedState]
        exact hstarts
      · rw [hpath]
        exact hends
      · intro hfail
        rw [hfailed, integrated] at hfail
        cases hfail
      · intro _ hfailure
        exact absurd calm (hunremediated.mp hfailure)

/-! ### A project that is sent where it may not go -/

/-- A site without files, whose repository answers no to every question. -/
def StartupSite.bare : StartupSite where
  platform := .reference
  readBytes path := .error ⟨.osError, path⟩
  adapter := .ok none
  inspector := .ok ()
  refExists _ := .ok false
  isAncestor _ _ := .ok false
  instant _ := .ok none

def demoProject : StartupProject where
  projectId := "demo"
  milestoneBranch := some "milestone/one"
  lastAcceptedCommit := none
  currentState := "queue_reconciliation"

/-- A plan with ready work whose last integration lacks its final evidence. -/
def unfinishedIntegrationPlan : Fields :=
  [("queue_status", .obj [("valid", .bool true), ("milestone_complete", .bool false),
     ("reconciliation_classification", .str "reconciled_ready_work")]),
   ("selected_feature", .str "F-2"),
   ("durable_integration_success", .obj [("success", .bool false),
     ("checks", .obj [("terminal_integrated", .bool true)])])]

/-- A project with ready work is sent to `validation_failed`, which `feature_ready` may not move
    to. -/
theorem feature_ready_leaves_machine :
    ∃ r, assessStartupReconciliation .bare demoProject
        (some [("current_state", .str "feature_ready")]) unfinishedIntegrationPlan = .ok r ∧
      r.wouldPersist = true ∧
      r.transitionPath = ["feature_ready", "validation_failed"] ∧
      ¬ FollowsAndConverges .bare demoProject (some [("current_state", .str "feature_ready")])
        unfinishedIntegrationPlan r := by
  refine ⟨_, rfl, rfl, rfl, ?_⟩
  intro hsound
  exact absurd (accepts_validation_failed.mp (follows_pair.mp hsound.follows)) (by decide)

/-- The same evidence takes a running feature to `validation_failed`, and keeps it there. -/
theorem feature_running_follows_and_converges :
    ∃ r, assessStartupReconciliation .bare demoProject
        (some [("current_state", .str "feature_running")]) unfinishedIntegrationPlan = .ok r ∧
      r.wouldPersist = true ∧
      FollowsAndConverges .bare demoProject (some [("current_state", .str "feature_running")])
        unfinishedIntegrationPlan r := by
  refine ⟨_, rfl, rfl, (assess_follows_and_converges_iff rfl rfl).mpr ⟨?_, ?_⟩⟩
  · intro _
    decide
  · intro hnot
    exact absurd rfl hnot

end Conveyor
