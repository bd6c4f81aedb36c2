import Conveyor.AutopilotLoop
import Mathlib.Data.Finset.Basic

/-!
# Passes of the autopilot loop

What one pass leaves alone, what it leaves in the trace however it ends, and what it has used
up when it continues: against an engine whose routes only fail, a retry of the feature of its
plan or the feature itself (`judge_continues`).
-/

namespace Conveyor.Autopilot

open Library

variable {α : Type} {e : AutopilotEnvironment} {s t u v : AutopilotState}
  {feature : Option String} {budget : RetryBudget} {plan result : Fields}
  {pending pending' : Option Fields}

/-! ### What the calls leave alone -/

/-- The trace and the attempts are the same. -/
def Kept (s t : AutopilotState) : Prop := t.trace = s.trace ∧ t.retryCounts = s.retryCounts

instance : IsPreorder AutopilotState Kept where
  refl _ := ⟨rfl, rfl⟩
  trans _ _ _ h h' := ⟨h'.1.trans h.1, h'.2.trans h.2⟩

theorem kept_act {f : AutopilotEnvironment → AutopilotState → Result (α × AutopilotState)}
    (h : ∀ e s value t, f e s = .ok (value, t) → Kept s t) : Call.Respects Kept (act f) :=
  Call.respects_attempt (fun _ => ⟨rfl, rfl⟩) h

instance kept_look {f : AutopilotEnvironment → AutopilotState → Result α} :
    Call.Respects Kept (look f) := by
  refine kept_act fun e s value t h => ?_
  cases hf : f e s with
  | error failure => simp [hf, Except.map] at h
  | ok found =>
      simp only [hf, Except.map, Except.ok.injEq, Prod.mk.injEq] at h
      exact h.2 ▸ refl_of Kept s

instance kept_lift {f : AutopilotEnvironment → Result α} : Call.Respects Kept (lift f) :=
  Call.respects_reads _

theorem kept_assign {change : AutopilotEnvironment → AutopilotState → AutopilotState}
    (h : ∀ e s, Kept s (change e s)) : Call.Respects Kept (assign change) := by
  refine Call.respects_update fun e s value t hdone => ?_
  simp only [Except.ok.injEq, Prod.mk.injEq] at hdone
  exact hdone.2 ▸ h e s

instance kept_projectPlan : Call.Respects Kept projectPlan := kept_look

instance kept_stopRequested : Call.Respects Kept stopRequested := kept_look

instance kept_acknowledgeStop : Call.Respects Kept acknowledgeStop := kept_look

instance kept_consistency : Call.Respects Kept consistency := kept_look

instance kept_writeStatus : Call.Respects Kept writeStatus := kept_look

instance kept_acquire : Call.Respects Kept acquire := kept_look

instance kept_release : Call.Respects Kept release := kept_look

instance kept_emit {event : String} {diagnostic : String} {transaction : Option String} :
    Call.Respects Kept (emit event plan diagnostic transaction) := by
  refine kept_act fun e s value t h => ?_
  simp only [bind_eq_ok, pure, Except.pure, Except.ok.injEq, Prod.mk.injEq] at h
  obtain ⟨item, -, -, rfl⟩ := h
  exact ⟨rfl, rfl⟩

instance kept_observeLifecycle {name : String} : Call.Respects Kept (observeLifecycle name) := by
  have hassign : Call.Respects Kept
      (assign fun _ s => { s with stopObservedAt := some name }) :=
    kept_assign fun _ _ => ⟨rfl, rfl⟩
  exact Call.Respects.bind inferInstance fun stop => inferInstance

instance kept_stopAt {stop : Fields} {diagnostic : String} :
    Call.Respects Kept (stopAt stop plan diagnostic) :=
  inferInstanceAs (Call.Respects Kept (_ >>= _))

instance kept_examine : Call.Respects Kept (examine pending) := by
  have htake : Call.Respects Kept (takePlan pending) := by
    cases pending with
    | none => exact kept_projectPlan
    | some plan => exact Call.respects_pure plan
  exact Call.Respects.bind htake fun plan => inferInstance

instance kept_choose : Call.Respects Kept (choose pending) := by
  refine Call.Respects.bind inferInstance fun stop => ?_
  cases stop with
  | none => exact kept_examine
  | some stop => exact Call.Respects.bind inferInstance fun ending => Call.respects_pure _

instance kept_changeRecord {initial changes : Fields} :
    Call.Respects Kept (changeRecord feature initial changes) := by
  cases feature with
  | none => exact Call.respects_pure ()
  | some name => exact kept_assign fun _ _ => ⟨rfl, rfl⟩

instance kept_callRoute {action : String} : Call.Respects Kept (callRoute action plan) :=
  kept_look

instance kept_recordResult : Call.Respects Kept (recordResult feature result) := by
  unfold recordResult
  infer_instance

instance kept_emitRetained : Call.Respects Kept (emitRetained plan result) := by
  unfold emitRetained
  split
  · infer_instance
  · infer_instance

instance kept_announce {action : String} : Call.Respects Kept (announce feature action plan) := by
  unfold announce
  cases feature <;> infer_instance

instance kept_announceResult {action outcome : String} {failed : Bool} :
    Call.Respects Kept (announceResult action plan result outcome failed) := by
  unfold announceResult
  infer_instance

instance kept_gatherEvidence {action : String} :
    Call.Respects Kept (gatherEvidence action plan result) := by
  unfold gatherEvidence
  infer_instance

instance kept_nextEvidence {action : String} :
    Call.Respects Kept (nextEvidence action plan result) := by
  unfold nextEvidence
  infer_instance

instance kept_boundary : Call.Respects Kept (boundary plan) := by
  refine Call.Respects.bind inferInstance fun _ => Call.Respects.bind inferInstance fun stop => ?_
  cases stop with
  | none => exact Call.respects_pure _
  | some stop => exact Call.Respects.bind inferInstance fun ending => Call.respects_pure _

instance kept_judgeGate : Call.Respects Kept judgeGate := by
  unfold judgeGate
  infer_instance

instance kept_countFailure {signature : String} :
    Call.Respects Kept (countFailure signature) := by
  refine Call.respects_update fun e s value t h => ?_
  simp only [Except.ok.injEq, Prod.mk.injEq] at h
  exact h.2 ▸ ⟨rfl, rfl⟩

instance kept_rescue {failure : Failure} : Call.Respects Kept (rescue failure) := by
  unfold rescue
  infer_instance

instance kept_conclude {ending : Ending} : Call.Respects Kept (conclude ending) := by
  unfold conclude
  infer_instance

instance kept_begin : Call.Respects Kept begin := by
  unfold begin
  infer_instance

/-! ### What a part of a pass leaves in the trace -/

def SameTrace (s t : AutopilotState) : Prop := t.trace = s.trace

instance : IsPreorder AutopilotState SameTrace where
  refl _ := rfl
  trans _ _ _ h h' := h'.trans h

instance (priority := low) sameTrace_of_kept {call : AutopilotCall α}
    [hcall : Call.Respects Kept call] : Call.Respects SameTrace call :=
  ⟨fun r s => (hcall.related r s).1⟩

instance sameTrace_countAttempt : Call.Respects SameTrace (countAttempt feature budget) := by
  refine Call.respects_update fun e s value t h => ?_
  simp only [Except.ok.injEq, Prod.mk.injEq] at h
  exact h.2 ▸ rfl

/-- The call leaves this mark or none. -/
def AtMost (step : AutopilotMark) (s t : AutopilotState) : Prop :=
  t.trace = s.trace ∨ t.trace = s.trace ++ [step]

section Marks

variable {β : Type} {step : AutopilotMark} {call : AutopilotCall α} {rest : α → AutopilotCall β}

theorem atMost_of_sameTrace [hcall : Call.Respects SameTrace call] :
    Call.Respects (AtMost step) call :=
  ⟨fun r s => Or.inl (hcall.related r s)⟩

theorem atMost_mark : Call.Respects (AtMost step) (mark step) :=
  ⟨fun _ _ => Or.inr rfl⟩

theorem atMost_bind_left [hcall : Call.Respects SameTrace call]
    (hrest : ∀ value, Call.Respects (AtMost step) (rest value)) :
    Call.Respects (AtMost step) (call >>= rest) := by
  refine ⟨fun r s => ?_⟩
  have hfirst : Call.Ends call r s (AtMost step s) := Or.inl (hcall.related r s)
  refine hfirst.bind fun value t hvalue => ?_
  have htrace : SameTrace s t := Call.Respects.of_returns hvalue
  have hafter := (hrest value).related r t
  rwa [AtMost, htrace] at hafter

theorem atMost_bind_right (hcall : Call.Respects (AtMost step) call)
    [hrest : ∀ value, Call.Respects SameTrace (rest value)] :
    Call.Respects (AtMost step) (call >>= rest) := by
  refine ⟨fun r s => ?_⟩
  have hfirst : Call.Ends call r s (AtMost step s) := hcall.related r s
  refine hfirst.bind fun value t hvalue => ?_
  have hbefore : AtMost step s t := Call.Respects.of_returns hvalue
  have hafter : ((rest value) r t).2.trace = t.trace := (hrest value).related r t
  rwa [AtMost, ← hafter] at hbefore

end Marks

theorem atMost_invoke :
    Call.Respects (AtMost (.routed feature)) (invoke feature plan) := by
  unfold invoke
  refine atMost_bind_left fun action => atMost_bind_left fun _ => atMost_bind_right ?_
  exact atMost_bind_right atMost_mark

theorem atMost_quarantine :
    Call.Respects (AtMost (.quarantined feature)) (quarantine feature) :=
  atMost_bind_left fun _ => atMost_mark

theorem atMost_judgeRecovery {action : String} :
    Call.Respects (AtMost (.quarantined feature)) (judgeRecovery feature action plan result) := by
  unfold judgeRecovery
  refine atMost_bind_left fun current => atMost_bind_left fun attempts =>
    atMost_bind_left fun nextPlan => atMost_bind_left fun next => atMost_bind_left fun _ => ?_
  split
  · exact atMost_of_sameTrace
  · refine atMost_bind_left fun allowed => ?_
    split
    · exact atMost_bind_left fun _ => atMost_bind_right atMost_quarantine
    · exact atMost_of_sameTrace

theorem atMost_judgeExhausted {repeated : Prop} [Decidable repeated] :
    Call.Respects (AtMost (.quarantined feature))
      (judgeExhausted feature plan budget repeated) :=
  atMost_bind_left fun _ => atMost_bind_right atMost_quarantine

theorem atMost_judgeFailure {action outcome : String} :
    Call.Respects (AtMost (.quarantined feature))
      (judgeFailure feature action outcome plan result) := by
  unfold judgeFailure
  refine atMost_bind_left fun signature => atMost_bind_left fun count =>
    atMost_bind_left fun budget => atMost_bind_left fun attempts =>
    atMost_bind_left fun allowed => atMost_bind_left fun identical => ?_
  split
  · exact atMost_judgeExhausted
  · exact atMost_of_sameTrace

theorem atMost_judge :
    Call.Respects (AtMost (.quarantined feature)) (judge feature plan result) := by
  unfold judge
  refine atMost_bind_left fun action => atMost_bind_left fun outcome =>
    atMost_bind_left fun terminal => ?_
  rcases terminal with _ | _ | _
  · dsimp only
    split
    · split
      · exact atMost_judgeRecovery
      · exact atMost_judgeFailure
    · exact atMost_of_sameTrace
  · exact atMost_of_sameTrace
  · exact atMost_of_sameTrace

/-! ### What a pass that continues has done -/

/-- Every result of a route has failed, and the plans name features of a finite set. -/
structure FailingEngine (e : AutopilotEnvironment) (features : Finset String) : Prop where
  failed : ∀ clock target result, e.route clock target = .ok result →
    resultOutcome e.platform result ∈ FAILED_OUTCOMES
  named : ∀ clock feature, planFeature (e.projectPlan clock) = .ok (some feature) →
    feature ∈ features

theorem gate_eq_invoke {P : Platform} {found plan' : Fields}
    (h : gate P found plan = .ok (.invoke feature plan')) :
    plan' = plan ∧ planFeature plan = .ok feature := by
  rw [gate, bind_eq_ok] at h
  obtain ⟨classification, -, h⟩ := h
  split at h
  · cases h
  · rw [bind_eq_ok] at h
    obtain ⟨name, hname, h⟩ := h
    split at h
    · cases h
    · split at h
      · cases h
      · cases h
        exact ⟨rfl, hname⟩

/-- The plan for the next pass, if there is one, was projected. -/
def Projected (e : AutopilotEnvironment) (pending : Option Fields) : Prop :=
  ∀ plan, pending = some plan → ∃ clock, plan = e.projectPlan clock

theorem returns_look {f : AutopilotEnvironment → AutopilotState → Result α} {value : α} :
    (look f).Returns e s value t ↔
      e.fault s.clock = .none ∧ f e s = .ok value ∧ t = tick s := by
  simp only [look, act, Call.returns_attempt]
  cases f e s with
  | error failure => simp [Except.map]
  | ok found => simp [Except.map, eq_comm]

theorem returns_lift {f : AutopilotEnvironment → Result α} {value : α} :
    (lift f).Returns e s value t ↔ f e = .ok value ∧ t = s :=
  Call.returns_reads

theorem takePlan_projected (hpending : Projected e pending)
    (h : (takePlan pending).Returns e s plan t) : ∃ clock, plan = e.projectPlan clock := by
  cases pending with
  | some taken =>
      rw [takePlan, Call.returns_pure] at h
      exact h.1 ▸ hpending taken rfl
  | none =>
      simp only [takePlan, projectPlan, returns_look, Except.ok.injEq] at h
      obtain ⟨-, rfl, -⟩ := h
      exact ⟨_, rfl⟩

theorem choose_eq_invoke (hpending : Projected e pending)
    (h : (choose pending).Returns e s (.invoke feature plan) t) :
    planFeature plan = .ok feature ∧ ∃ clock, plan = e.projectPlan clock := by
  rw [choose, Call.returns_bind] at h
  obtain ⟨stop, u, -, h⟩ := h
  cases stop with
  | some stop =>
      simp only [Call.returns_bind, Call.returns_pure, reduceCtorEq, false_and, and_false,
        exists_false] at h
  | none =>
      simp only [examine, Call.returns_bind, returns_lift] at h
      obtain ⟨taken, v, htaken, found, w, -, hgate, -⟩ := h
      obtain ⟨rfl, hfeature⟩ := gate_eq_invoke hgate
      exact ⟨hfeature, takePlan_projected hpending htaken⟩

theorem resultOutcome_failedRecovery (P : Platform) (failure : Failure) :
    resultOutcome P (failedRecovery P failure) = "deterministic_recovery_failed" := by
  rw [resultOutcome, failedRecovery, Fields.get, Fields.get?_ofPairs]
  rfl

variable {features : Finset String}

theorem route_failed (hengine : FailingEngine e features) {action : String}
    (h : (route feature action plan).Returns e s result t) :
    t.trace = s.trace ++ [.routed feature] ∧ t.retryCounts = s.retryCounts ∧
      resultOutcome e.platform result ∈ FAILED_OUTCOMES := by
  rw [route, Call.returns_bind] at h
  obtain ⟨_, u, hmark, h⟩ := h
  simp only [mark, assign, Call.returns_update, Except.ok.injEq, Prod.mk.injEq] at hmark
  obtain ⟨-, rfl⟩ := hmark
  rw [Call.returns_handle] at h
  rcases h with hcalled | ⟨failure, v, hraised, hcaught⟩
  · have hkept : Kept _ t := Call.Respects.of_returns hcalled
    rw [callRoute, returns_look] at hcalled
    obtain ⟨-, hresult, -⟩ := hcalled
    rw [bind_eq_ok] at hresult
    obtain ⟨target, -, hroute⟩ := hresult
    exact ⟨hkept.1, hkept.2, hengine.failed _ _ _ hroute⟩
  · have hkept : Kept _ v := Call.Respects.of_eq hraised
    split at hcaught
    · rw [returns_lift] at hcaught
      obtain ⟨hresult, rfl⟩ := hcaught
      cases hresult
      refine ⟨hkept.1, hkept.2, ?_⟩
      rw [resultOutcome_failedRecovery]
      decide
    · exact absurd hcaught Call.returns_raise

theorem invoke_failed (hengine : FailingEngine e features)
    (h : (invoke feature plan).Returns e s result t) :
    t.trace = s.trace ++ [.routed feature] ∧ t.retryCounts = s.retryCounts ∧
      resultOutcome e.platform result ∈ FAILED_OUTCOMES := by
  simp only [invoke, Call.returns_bind, returns_lift, Call.returns_pure] at h
  obtain ⟨action, s, ⟨-, rfl⟩, _, u, hannounce, found, v, hroute, _, w, hrecord, _, x, hretained,
    failed, x, ⟨-, rfl⟩, outcome, x, ⟨-, rfl⟩, _, y, hresult, rfl, rfl⟩ := h
  have hbefore : Kept s u := Call.Respects.of_returns hannounce
  obtain ⟨htrace, hcounts, houtcome⟩ := route_failed hengine hroute
  have hrecorded : Kept v w := Call.Respects.of_returns hrecord
  have hemitted : Kept w x := Call.Respects.of_returns hretained
  have hannounced : Kept x t := Call.Respects.of_returns hresult
  have hafter : Kept v t := trans_of Kept (trans_of Kept hrecorded hemitted) hannounced
  refine ⟨?_, ?_, houtcome⟩
  · rw [hafter.1, htrace, hbefore.1]
  · rw [hafter.2, hcounts, hbefore.2]

/-- What a pass used up: one retry within its budget, or the feature itself. -/
inductive Spent (e : AutopilotEnvironment) (feature : Option String) (s t : AutopilotState) : Prop
  | retried (budget : RetryBudget)
      (within : (s.retryCounts feature budget : Int) + 1 ≤ e.retryBudgets budget)
      (counts : t.retryCounts = counted s.retryCounts feature budget)
      (trace : t.trace = s.trace)
  | exhausted (budget : RetryBudget)
      (counts : t.retryCounts = counted s.retryCounts feature budget)
      (trace : t.trace = s.trace ++ [.quarantined feature])
      (moved : ∃ clock other, planFeature (e.projectPlan clock) = .ok other ∧ other ≠ feature)

theorem returns_countAttempt {attempts : Nat} :
    (countAttempt feature budget).Returns e s attempts t ↔
      s.retryCounts feature budget + 1 = attempts ∧
        { s with retryCounts := counted s.retryCounts feature budget } = t := by
  rw [countAttempt, Call.returns_update, Except.ok.injEq, Prod.mk.injEq]

theorem kept_of_quarantine {x : Unit} (h : (quarantine feature).Returns e s x t) :
    t.trace = s.trace ++ [.quarantined feature] ∧ t.retryCounts = s.retryCounts := by
  rw [quarantine, Call.returns_bind] at h
  obtain ⟨_, u, hchanged, hmark⟩ := h
  have hkept : Kept s u := Call.Respects.of_returns hchanged
  simp only [mark, assign, Call.returns_update, Except.ok.injEq, Prod.mk.injEq] at hmark
  obtain ⟨-, rfl⟩ := hmark
  exact ⟨by rw [hkept.1], hkept.2⟩

theorem judgeRecovery_continues {action : String}
    (h : (judgeRecovery feature action plan result).Returns e s (.continues pending) t) :
    Projected e pending ∧ Spent e feature s t := by
  simp only [judgeRecovery, Call.returns_bind] at h
  obtain ⟨current, u, hcurrent, attempts, v, hattempts, nextPlan, w, hplan, next, x, hnext, _, y,
    hrecord, h⟩ := h
  rw [Call.returns_ite] at h
  rcases h with ⟨-, h⟩ | ⟨-, h⟩
  · simp only [Call.returns_bind, Call.returns_pure, reduceCtorEq, false_and, and_false,
      exists_false] at h
  · simp only [Call.returns_bind, returns_lift] at h
    obtain ⟨allowed, y, ⟨hallowed, rfl⟩, h⟩ := h
    rw [Call.returns_ite] at h
    rcases h with ⟨-, h⟩ | ⟨hwithin, h⟩
    · simp only [Call.returns_bind, Call.returns_pure, reduceCtorEq, false_and, and_false,
        exists_false] at h
    · rw [Call.returns_pure] at h
      obtain ⟨hpending, rfl⟩ := h
      rw [returns_countAttempt] at hattempts
      obtain ⟨rfl, rfl⟩ := hattempts
      have hbefore : Kept s u := Call.Respects.of_returns hcurrent
      have hplanned : Kept _ w := Call.Respects.of_returns hplan
      have hevidence : Kept w x := Call.Respects.of_returns hnext
      have hrecorded : Kept x t := Call.Respects.of_returns hrecord
      have hafter : Kept _ t := trans_of Kept (trans_of Kept hplanned hevidence) hrecorded
      refine ⟨?_, .retried .deterministicRecovery ?_ ?_ ?_⟩
      · intro plan hplan'
        rw [projectPlan, returns_look] at hplan
        cases hpending
        cases hplan'
        exact ⟨_, (Except.ok.inj hplan.2.1).symm⟩
      · rw [← hbefore.2]
        cases hallowed
        omega
      · rw [hafter.2, ← hbefore.2]
      · rw [hafter.1]
        exact hbefore.1

theorem boundary_continues (h : (boundary plan).Returns e s (.continues pending) t) :
    pending = none := by
  simp only [boundary, Call.returns_bind] at h
  obtain ⟨_, u, -, stop, v, -, h⟩ := h
  cases stop with
  | none =>
      rw [Call.returns_pure] at h
      simpa using h.1
  | some stop =>
      simp only [Call.returns_bind, Call.returns_pure, reduceCtorEq, false_and, and_false,
        exists_false] at h

theorem judgeExhausted_continues {repeated : Prop} [Decidable repeated]
    (h : (judgeExhausted feature plan budget repeated).Returns e s (.continues pending) t) :
    pending = none ∧ t.trace = s.trace ++ [.quarantined feature] ∧
      t.retryCounts = s.retryCounts ∧
      ∃ clock other, planFeature (e.projectPlan clock) = .ok other ∧ other ≠ feature := by
  simp only [judgeExhausted, Call.returns_bind, returns_lift] at h
  obtain ⟨_, u, hemit, _, v, hquarantine, nextPlan, w, hplan, nextFeature, w, ⟨hnext, rfl⟩,
    nextAction, w, ⟨-, rfl⟩, h⟩ := h
  rw [Call.returns_ite, Call.returns_pure, Call.returns_pure] at h
  rcases h with ⟨⟨-, hother, -⟩, hpending, rfl⟩ | ⟨-, h, -⟩
  · have hbefore : Kept s u := Call.Respects.of_returns hemit
    have hafter : Kept v t := Call.Respects.of_returns hplan
    obtain ⟨htrace, hcounts⟩ := kept_of_quarantine hquarantine
    rw [projectPlan, returns_look] at hplan
    cases hplan.2.1
    refine ⟨by simpa using hpending, ?_, ?_, v.clock, nextFeature, hnext, hother⟩
    · rw [hafter.1, htrace, hbefore.1]
    · rw [hafter.2, hcounts, hbefore.2]
  · cases h

theorem judgeFailure_continues {action outcome : String}
    (h : (judgeFailure feature action outcome plan result).Returns e s (.continues pending) t) :
    pending = none ∧ Spent e feature s t := by
  simp only [judgeFailure, Call.returns_bind, returns_lift] at h
  obtain ⟨signature, s, ⟨-, rfl⟩, count, u, hcount, budget, u, ⟨-, rfl⟩, attempts, v, hattempts,
    allowed, v, ⟨hallowed, rfl⟩, identical, v, ⟨-, rfl⟩, h⟩ := h
  have hbefore : Kept s u := Call.Respects.of_returns hcount
  rw [returns_countAttempt] at hattempts
  obtain ⟨rfl, rfl⟩ := hattempts
  rw [Call.returns_ite] at h
  rcases h with ⟨-, h⟩ | ⟨hwithin, h⟩
  · obtain ⟨hpending, htrace, hcounts, hmoved⟩ := judgeExhausted_continues h
    refine ⟨hpending, .exhausted budget ?_ ?_ hmoved⟩
    · rw [hcounts, ← hbefore.2]
    · rw [htrace]
      exact congrArg (· ++ _) hbefore.1
  · have hafter : Kept _ t := Call.Respects.of_returns h
    refine ⟨boundary_continues h, .retried budget ?_ ?_ ?_⟩
    · rw [← hbefore.2]
      cases hallowed
      omega
    · rw [hafter.2, ← hbefore.2]
    · rw [hafter.1]
      exact hbefore.1

theorem judge_continues (houtcome : resultOutcome e.platform result ∈ FAILED_OUTCOMES)
    (h : (judge feature plan result).Returns e s (.continues pending) t) :
    (terminalResult e.platform result = some .humanGate ∧
        resumesAfterGate e.platform (e.projectPlan s.clock) = true) ∨
      Projected e pending ∧ Spent e feature s t := by
  simp only [judge, Call.returns_bind, returns_lift] at h
  obtain ⟨action, s, ⟨-, rfl⟩, outcome, s, ⟨houtcome', rfl⟩, terminal, s, ⟨hterminal, rfl⟩, h⟩ := h
  cases houtcome'
  cases hterminal
  split at h
  · rename_i hgate
    simp only [judgeGate, Call.returns_bind, returns_lift, projectPlan, returns_look] at h
    obtain ⟨nextPlan, u, ⟨-, hplan, rfl⟩, resumes, v, ⟨hresumes, rfl⟩, h⟩ := h
    rw [Call.returns_ite, Call.returns_pure, Call.returns_pure] at h
    rcases h with ⟨htrue, -⟩ | ⟨-, h, -⟩
    · cases hplan
      cases hresumes
      exact Or.inl ⟨hgate, htrue⟩
    · cases h
  · rw [Call.returns_pure] at h
    cases h.1
  · rw [if_pos houtcome, Call.returns_ite] at h
    rcases h with ⟨-, h⟩ | ⟨-, h⟩
    · exact Or.inr (judgeRecovery_continues h)
    · obtain ⟨rfl, hspent⟩ := judgeFailure_continues h
      exact Or.inr ⟨fun _ hplan => (nomatch hplan), hspent⟩

end Conveyor.Autopilot
