import Conveyor.Contracts
import Mathlib.Data.List.Chain

/-!
# State machines

The states of a project and the moves between them (`state_machine.py`), and paths of such
moves.
-/

namespace Conveyor

structure Transition where
  previous : String
  current : String
  changed : Bool
deriving DecidableEq, Repr

/-- Named states with, for each of them, the states that it may move to. -/
structure StateMachine (State : Type) where
  states : List State
  name : State → String
  transitions : State → List State

namespace StateMachine

variable {State : Type} [DecidableEq State] (machine : StateMachine State)

def ofName? (name : String) : Option State :=
  machine.states.find? fun state => machine.name state = name

def transition (current target : String) : Result Transition :=
  match machine.ofName? current, machine.ofName? target with
  | none, _ => .error ⟨.invalidTransition, s!"unknown current state: {current}"⟩
  | some _, none => .error ⟨.invalidTransition, s!"unknown target state: {target}"⟩
  | some state, some next =>
      if current = target then .ok ⟨current, target, false⟩
      else if next ∉ machine.transitions state then
        .error ⟨.invalidTransition, s!"invalid transition: {current} -> {target}"⟩
      else .ok ⟨current, target, true⟩

/-- The machine accepts the move. -/
def Accepts (current target : String) : Prop := (machine.transition current target).isOk = true

instance (current target : String) : Decidable (machine.Accepts current target) :=
  inferInstanceAs (Decidable (_ = true))

/-- Every move of the path is accepted. -/
def Follows (path : List String) : Prop := path.IsChain machine.Accepts

/-- `path.append(target)` unless the path is there already. -/
def extend (path : List String) (target : String) : List String :=
  if path.getLast? ≠ some target then path ++ [target] else path

variable {machine}

theorem follows_singleton (state : String) : machine.Follows [state] := List.isChain_singleton _

theorem follows_pair {current target : String} :
    machine.Follows [current, target] ↔ machine.Accepts current target := List.isChain_pair

/-- A path goes on to a state that its last state may move to. -/
theorem Follows.snoc {path : List String} {target : String} (h : machine.Follows path)
    (hlast : ∀ last ∈ path.getLast?, machine.Accepts last target) :
    machine.Follows (path ++ [target]) := by
  refine List.isChain_append.mpr ⟨h, List.isChain_singleton _, ?_⟩
  intro last hl next hnext
  rw [List.head?_singleton, Option.mem_some_iff] at hnext
  exact hnext ▸ hlast last hl

theorem Follows.extend {path : List String} {target : String} (h : machine.Follows path)
    (hlast : ∀ last ∈ path.getLast?, last ≠ target → machine.Accepts last target) :
    machine.Follows (extend path target) := by
  unfold StateMachine.extend
  split
  · rename_i hne
    apply h.snoc
    intro last hl
    apply hlast last hl
    rintro rfl
    exact hne hl
  · exact h

theorem getLast?_extend (path : List String) (target : String) :
    (extend path target).getLast? = some target := by
  unfold extend
  split
  · exact List.getLast?_concat
  · rename_i h
    exact not_not.mp h

theorem head?_extend {path : List String} {first : String} (h : path.head? = some first)
    (target : String) : (extend path target).head? = some first := by
  unfold extend
  split
  · rw [List.head?_append, h, Option.some_or]
  · exact h

end StateMachine

/-! ### The states of a project -/

inductive PortfolioState where
  | discover | bootstrapRequired | baselineRequired | queueReconciliation
  | featureReady | featurePreparing | featureRunning | featureReview | featureAccepted
  | integrationPending | integrationReady | integrating | integrationValidation
  | integrationBlocked | featureIntegrated
  | milestoneGate | milestoneReadyForMerge | humanMergeApproval
  | nextMilestone | humanDecisionRequired | repositoryDirty
  | validationFailed | architectureDecisionRequired | destructiveChangeRequired
  | conveyorError | paused | disabled
deriving DecidableEq, Repr

namespace PortfolioState

def value : PortfolioState → String
  | discover => "discover"
  | bootstrapRequired => "bootstrap_required"
  | baselineRequired => "baseline_required"
  | queueReconciliation => "queue_reconciliation"
  | featureReady => "feature_ready"
  | featurePreparing => "feature_preparing"
  | featureRunning => "feature_running"
  | featureReview => "feature_review"
  | featureAccepted => "feature_accepted"
  | integrationPending => "integration_pending"
  | integrationReady => "integration_ready"
  | integrating => "integrating"
  | integrationValidation => "integration_validation"
  | integrationBlocked => "integration_blocked"
  | featureIntegrated => "feature_integrated"
  | milestoneGate => "milestone_gate"
  | milestoneReadyForMerge => "milestone_ready_for_merge"
  | humanMergeApproval => "human_merge_approval"
  | nextMilestone => "next_milestone"
  | humanDecisionRequired => "human_decision_required"
  | repositoryDirty => "repository_dirty"
  | validationFailed => "validation_failed"
  | architectureDecisionRequired => "architecture_decision_required"
  | destructiveChangeRequired => "destructive_change_required"
  | conveyorError => "conveyor_error"
  | paused => "paused"
  | disabled => "disabled"

end PortfolioState

open PortfolioState

def PORTFOLIO_STATES : List PortfolioState :=
  [discover, bootstrapRequired, baselineRequired, queueReconciliation,
   featureReady, featurePreparing, featureRunning, featureReview, featureAccepted,
   integrationPending, integrationReady, integrating, integrationValidation,
   integrationBlocked, featureIntegrated,
   milestoneGate, milestoneReadyForMerge, humanMergeApproval,
   nextMilestone, humanDecisionRequired, repositoryDirty,
   validationFailed, architectureDecisionRequired, destructiveChangeRequired,
   PortfolioState.conveyorError, paused, disabled]

def PORTFOLIO_TRANSITIONS : PortfolioState → List PortfolioState
  | discover =>
      [bootstrapRequired, baselineRequired, queueReconciliation, featureReady, repositoryDirty,
       humanDecisionRequired, .conveyorError, paused, disabled]
  | bootstrapRequired =>
      [discover, baselineRequired, queueReconciliation, humanDecisionRequired, .conveyorError,
       paused, disabled]
  | baselineRequired =>
      [queueReconciliation, repositoryDirty, humanDecisionRequired, .conveyorError, paused,
       disabled]
  | queueReconciliation =>
      [featureReady, integrationPending, integrationReady, milestoneGate, validationFailed,
       architectureDecisionRequired, humanDecisionRequired, .conveyorError, paused, disabled]
  | featureReady =>
      [queueReconciliation, featurePreparing, featureRunning, repositoryDirty,
       humanDecisionRequired, .conveyorError, paused, disabled]
  | featurePreparing =>
      [featureRunning, featureReady, repositoryDirty, validationFailed, humanDecisionRequired,
       .conveyorError, paused, disabled]
  | featureRunning =>
      [queueReconciliation, featureReview, featureAccepted, integrationPending,
       integrationBlocked, featureReady, milestoneGate, repositoryDirty, validationFailed,
       architectureDecisionRequired, destructiveChangeRequired, humanDecisionRequired,
       .conveyorError, paused]
  | featureReview =>
      [featureRunning, featureAccepted, validationFailed, architectureDecisionRequired,
       destructiveChangeRequired, humanDecisionRequired, .conveyorError, paused]
  | featureAccepted =>
      [queueReconciliation, integrationPending, integrationReady, featureReady, milestoneGate,
       validationFailed, humanDecisionRequired, .conveyorError, paused]
  | integrationPending =>
      [queueReconciliation, integrationReady, integrating, integrationBlocked,
       humanDecisionRequired, validationFailed, paused]
  | integrationReady =>
      [integrating, integrationBlocked, humanDecisionRequired, validationFailed, paused]
  | integrating =>
      [integrationValidation, integrationBlocked, featureIntegrated, humanDecisionRequired,
       validationFailed, paused]
  | integrationValidation =>
      [featureIntegrated, integrationBlocked, humanDecisionRequired, validationFailed, paused]
  | integrationBlocked => [humanDecisionRequired, queueReconciliation, paused]
  | featureIntegrated => [queueReconciliation, featureReady, milestoneGate, paused]
  | milestoneGate =>
      [queueReconciliation, milestoneReadyForMerge, validationFailed,
       architectureDecisionRequired, humanDecisionRequired, .conveyorError, paused]
  | milestoneReadyForMerge =>
      [queueReconciliation, humanMergeApproval, humanDecisionRequired, paused]
  | humanMergeApproval => [nextMilestone, humanDecisionRequired, paused]
  | nextMilestone => [queueReconciliation, featureReady, humanDecisionRequired, paused, disabled]
  | humanDecisionRequired =>
      [discover, queueReconciliation, featureReady, featurePreparing, featureRunning,
       integrationReady, integrating, milestoneGate, paused, disabled]
  | repositoryDirty =>
      [discover, queueReconciliation, featureReady, humanDecisionRequired, paused, disabled]
  | validationFailed =>
      [queueReconciliation, featureReady, featureRunning, milestoneGate, humanDecisionRequired,
       paused, disabled]
  | architectureDecisionRequired =>
      [queueReconciliation, featureReady, humanDecisionRequired, paused, disabled]
  | destructiveChangeRequired => [humanDecisionRequired, paused, disabled]
  | PortfolioState.conveyorError =>
      [discover, queueReconciliation, featureReady, featureRunning, humanDecisionRequired, paused,
       disabled]
  | paused =>
      [discover, queueReconciliation, featureReady, featureRunning, milestoneGate,
       humanDecisionRequired, disabled]
  | disabled => [discover, paused]

def PORTFOLIO_MACHINE : StateMachine PortfolioState where
  states := PORTFOLIO_STATES
  name := PortfolioState.value
  transitions := PORTFOLIO_TRANSITIONS

/-- Every state has its place in the machine, under its own name. -/
theorem ofName?_value (state : PortfolioState) :
    PORTFOLIO_MACHINE.ofName? state.value = some state := by
  cases state <;> decide

theorem ofName?_eq_some {name : String} {state : PortfolioState} :
    PORTFOLIO_MACHINE.ofName? name = some state ↔ state.value = name := by
  constructor
  · intro h
    have hname := List.find?_some h
    exact of_decide_eq_true hname
  · rintro rfl
    exact ofName?_value state

theorem value_inj {state other : PortfolioState} : state.value = other.value ↔ state = other := by
  constructor
  · intro h
    have hs : PORTFOLIO_MACHINE.ofName? other.value = some state := ofName?_eq_some.mpr h
    rw [ofName?_value] at hs
    exact (Option.some.inj hs).symm
  · rintro rfl
    rfl

/-- What may move into a state: the state itself, and the states whose table lists it. -/
theorem accepts_iff {current : String} {target : PortfolioState} :
    PORTFOLIO_MACHINE.Accepts current target.value ↔
      ∃ state : PortfolioState, state.value = current ∧
        (state = target ∨ target ∈ PORTFOLIO_TRANSITIONS state) := by
  unfold StateMachine.Accepts StateMachine.transition
  rw [ofName?_value]
  cases h : PORTFOLIO_MACHINE.ofName? current with
  | none =>
      refine iff_of_false (by simp [Except.isOk, Except.toBool]) ?_
      rintro ⟨state, hstate, -⟩
      rw [ofName?_eq_some.mpr hstate] at h
      cases h
  | some state =>
      have hvalue : state.value = current := ofName?_eq_some.mp h
      have only : (∃ other : PortfolioState, other.value = current ∧
          (other = target ∨ target ∈ PORTFOLIO_TRANSITIONS other)) ↔
          (state = target ∨ target ∈ PORTFOLIO_TRANSITIONS state) := by
        constructor
        · rintro ⟨other, hother, hmoves⟩
          rw [← value_inj.mp (hother.trans hvalue.symm)]
          exact hmoves
        · exact fun hmoves => ⟨state, hvalue, hmoves⟩
      rw [only, ← hvalue]
      change Except.isOk (if state.value = target.value then _
        else if target ∉ PORTFOLIO_TRANSITIONS state then _ else _) = true ↔ _
      by_cases hsame : state = target
      · rw [if_pos (congrArg PortfolioState.value hsame)]
        exact iff_of_true rfl (.inl hsame)
      · rw [if_neg fun h => hsame (value_inj.mp h)]
        by_cases hmem : target ∈ PORTFOLIO_TRANSITIONS state
        · rw [if_neg (not_not.mpr hmem)]
          exact iff_of_true rfl (.inr hmem)
        · rw [if_pos hmem]
          simp [Except.isOk, Except.toBool, hsame, hmem]

end Conveyor
