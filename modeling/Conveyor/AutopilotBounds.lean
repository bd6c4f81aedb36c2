import Conveyor.AutopilotPass
import Mathlib.Algebra.Order.BigOperators.Group.Finset
import Mathlib.Data.Finset.Card
import Mathlib.Data.Finset.Option
import Mathlib.Data.Finset.Prod

/-!
# The bounds of the autopilot loop

A pass that continues has used up a retry or a feature. With finitely many features this bounds
the passes of a run (`autopilot_bounded`) as long as no pass takes up a plan of a quarantined
feature and none continues past a human gate; the loop checks neither. `alternating` is an
engine that returns to a quarantined feature again and again.
-/

namespace Conveyor.Autopilot

open Library

variable {e : AutopilotEnvironment} {s t u v : AutopilotState}
  {feature : Option String} {budget : RetryBudget} {plan result : Fields}
  {pending pending' : Option Fields} {features : Finset String}

/-! ### The measure -/

/-- The retries that are left of a budget. -/
def room (e : AutopilotEnvironment) (s : AutopilotState)
    (key : Option String × RetryBudget) : Nat :=
  (e.retryBudgets key.2 - s.retryCounts key.1 key.2).toNat

/-- The retries left over all features and budgets, and the features not yet quarantined. -/
def remaining (e : AutopilotEnvironment) (names : Finset (Option String))
    (s : AutopilotState) : Nat :=
  ∑ key ∈ names ×ˢ RetryBudget.all.toFinset, room e s key +
    (names.filter fun name => .quarantined name ∉ s.trace).card

theorem counted_apply (counts : Option String → RetryBudget → Nat) (name : Option String)
    (other : RetryBudget) :
    counted counts feature budget name other =
      if name = feature ∧ other = budget then counts name other + 1 else counts name other := by
  unfold counted
  by_cases hname : name = feature
  · subst hname
    by_cases hother : other = budget
    · subst hother
      simp
    · simp [hother]
  · simp [hname]

theorem room_counted (hcounts : t.retryCounts = counted s.retryCounts feature budget)
    (key : Option String × RetryBudget) : room e t key ≤ room e s key := by
  rw [room, room, hcounts, counted_apply]
  split <;> omega

theorem sum_room_counted {names : Finset (Option String)} (hfeature : feature ∈ names)
    (hwithin : (s.retryCounts feature budget : Int) + 1 ≤ e.retryBudgets budget)
    (hcounts : t.retryCounts = counted s.retryCounts feature budget) :
    ∑ key ∈ names ×ˢ RetryBudget.all.toFinset, room e t key <
      ∑ key ∈ names ×ˢ RetryBudget.all.toFinset, room e s key := by
  refine Finset.sum_lt_sum (fun key _ => room_counted hcounts key) ⟨(feature, budget), ?_, ?_⟩
  · exact Finset.mem_product.mpr ⟨hfeature, List.mem_toFinset.mpr (RetryBudget.mem_all budget)⟩
  · rw [room, room, hcounts, counted_apply, if_pos ⟨rfl, rfl⟩]
    push_cast
    omega

theorem remaining_spent {names : Finset (Option String)} (hfeature : feature ∈ names)
    (hfresh : .quarantined feature ∉ s.trace) (h : Spent e feature s t) :
    remaining e names t < remaining e names s := by
  rw [remaining, remaining]
  cases h with
  | retried budget hwithin hcounts htrace =>
      have hsum := sum_room_counted hfeature hwithin hcounts
      rw [htrace]
      omega
  | exhausted budget hcounts htrace =>
      have hsum := Finset.sum_le_sum fun key (_ : key ∈ names ×ˢ RetryBudget.all.toFinset) =>
        room_counted (e := e) hcounts key
      have hcard : (names.filter fun name => .quarantined name ∉ t.trace).card <
          (names.filter fun name => .quarantined name ∉ s.trace).card := by
        refine Finset.card_lt_card ((Finset.ssubset_iff_of_subset ?_).mpr ⟨feature, ?_, ?_⟩)
        · intro name hname
          rw [Finset.mem_filter, htrace, List.mem_append, not_or] at hname
          exact Finset.mem_filter.mpr ⟨hname.1, hname.2.1⟩
        · exact Finset.mem_filter.mpr ⟨hfeature, hfresh⟩
        · rw [Finset.mem_filter, htrace]
          simp
      omega

/-! ### Runs -/

/-- No route is invoked for a feature once it was quarantined. -/
def NeverRerouted (trace : List AutopilotMark) : Prop :=
  trace.Pairwise fun earlier later =>
    ∀ feature : String, earlier = .quarantined (some feature) → later ≠ .routed (some feature)

theorem neverRerouted_quarantined {trace : List AutopilotMark} (h : NeverRerouted trace) :
    NeverRerouted (trace ++ [.quarantined feature]) := by
  refine List.pairwise_append.mpr ⟨h, List.pairwise_singleton _ _, ?_⟩
  intro earlier _ later hlater name _ hrouted
  rw [List.mem_singleton] at hlater
  exact absurd (hlater.symm.trans hrouted) (by simp)

theorem neverRerouted_routed {trace : List AutopilotMark} (h : NeverRerouted trace)
    (hfresh : .quarantined feature ∉ trace) : NeverRerouted (trace ++ [.routed feature]) := by
  refine List.pairwise_append.mpr ⟨h, List.pairwise_singleton _ _, ?_⟩
  intro earlier hearlier later hlater name hmarked hrouted
  rw [List.mem_singleton] at hlater
  cases hlater.symm.trans hrouted
  exact hfresh (hmarked ▸ hearlier)

/-- Where the passes of a run start, each with the plan handed to it. -/
inductive PassStart (e : AutopilotEnvironment) : Option Fields → AutopilotState → Prop
  | first {t : AutopilotState} (h : (acquire >>= fun _ => begin).Returns e start () t) :
      PassStart e none t
  | next {pending pending' : Option Fields} {s t : AutopilotState} (before : PassStart e pending s)
      (h : (pass pending).Returns e s (.continues pending') t) : PassStart e pending' t

/-- What a pass must meet for the run to be bounded. -/
structure PassBounded (e : AutopilotEnvironment) (pending : Option Fields)
    (s : AutopilotState) : Prop where
  /-- The plan that the pass takes up is not one of a quarantined feature. -/
  fresh : ∀ feature plan t, (choose pending).Returns e s (.invoke feature plan) t →
    .quarantined feature ∉ s.trace
  /-- A result behind a human gate is not followed by the plan of a recovery. -/
  ungated : ∀ feature plan t result u, (choose pending).Returns e s (.invoke feature plan) t →
    (invoke feature plan).Returns e t result u →
    terminalResult e.platform result = some .humanGate →
    resumesAfterGate e.platform (e.projectPlan u.clock) = false

/-- The features a plan may name, and none. -/
def names (features : Finset String) : Finset (Option String) := Finset.insertNone features

theorem mem_names (hengine : FailingEngine e features) (hplan : ∃ clock, plan = e.projectPlan clock)
    (h : planFeature plan = .ok feature) : feature ∈ names features := by
  cases feature with
  | none => exact Finset.none_mem_insertNone
  | some name =>
      obtain ⟨clock, rfl⟩ := hplan
      exact Finset.some_mem_insertNone.mpr (hengine.named clock name h)

theorem pass_eq_continues (h : (pass pending).Returns e s (.continues pending') t) :
    ∃ feature plan result u v, (choose pending).Returns e s (.invoke feature plan) u ∧
      (invoke feature plan).Returns e u result v ∧
      (judge feature plan result).Returns e v (.continues pending') t := by
  rw [pass, Call.returns_bind] at h
  obtain ⟨choice, u, hchoose, h⟩ := h
  cases choice with
  | finished ending =>
      rw [Call.returns_pure] at h
      cases h.1
  | invoke feature plan =>
      rw [Call.returns_bind] at h
      obtain ⟨result, v, hinvoke, hjudge⟩ := h
      exact ⟨feature, plan, result, u, v, hchoose, hinvoke, hjudge⟩

/-- A pass that continues leaves less than it found. -/
theorem pass_continues (hengine : FailingEngine e features) (hpending : Projected e pending)
    (hbounded : PassBounded e pending s)
    (h : (pass pending).Returns e s (.continues pending') t) :
    Projected e pending' ∧ remaining e (names features) t < remaining e (names features) s := by
  obtain ⟨feature, plan, result, u, v, hchoose, hinvoke, hjudge⟩ := pass_eq_continues h
  have hkept : Kept s u := Call.Respects.of_returns hchoose
  obtain ⟨hfeature, hplan⟩ := choose_eq_invoke hpending hchoose
  obtain ⟨htrace, hcounts, houtcome⟩ := invoke_failed hengine hinvoke
  rcases judge_continues houtcome hjudge with ⟨hgate, hresumes⟩ | ⟨hprojected, hspent⟩
  · have hstays := hbounded.ungated feature plan u result v hchoose hinvoke hgate
    rw [hstays] at hresumes
    cases hresumes
  · have hfresh := hbounded.fresh feature plan u hchoose
    have hsame : remaining e (names features) v = remaining e (names features) s := by
      simp only [remaining, room, htrace, hcounts, hkept.1, hkept.2, List.mem_append,
        List.mem_singleton, reduceCtorEq, or_false]
    refine ⟨hprojected, hsame ▸ remaining_spent (mem_names hengine hplan hfeature) ?_ hspent⟩
    rw [htrace, hkept.1, List.mem_append, not_or]
    exact ⟨hfresh, by simp⟩

/-- However a pass ends, it has not invoked a route for a quarantined feature. -/
theorem pass_neverRerouted (hbounded : PassBounded e pending s) (hs : NeverRerouted s.trace) :
    (pass pending).Ends e s fun t => NeverRerouted t.trace := by
  have hchosen : (choose pending).Ends e s fun t => NeverRerouted t.trace := by
    have hchoice : Call.Respects Kept (choose pending) := kept_choose
    have hkept := hchoice.related e s
    rw [Call.Ends, hkept.1]
    exact hs
  refine hchosen.bind fun choice u hchoose => ?_
  have hkept : Kept s u := Call.Respects.of_returns hchoose
  have hu : NeverRerouted u.trace := hkept.1 ▸ hs
  cases choice with
  | finished ending => exact Call.ends_pure hu
  | invoke feature plan =>
      have hfresh : .quarantined feature ∉ u.trace :=
        hkept.1 ▸ hbounded.fresh feature plan u hchoose
      have hmark (v : AutopilotState) (hv : AtMost (.routed feature) u v) :
          NeverRerouted v.trace := by
        rcases hv with hv | hv
        · exact hv ▸ hu
        · exact hv ▸ neverRerouted_routed hu hfresh
      have hinvoked : (invoke feature plan).Ends e u fun t => NeverRerouted t.trace :=
        hmark _ (atMost_invoke.related e u)
      refine hinvoked.bind fun result v hinvoke => ?_
      have hv : NeverRerouted v.trace := hinvoked.of_returns hinvoke
      rcases atMost_judge.related e v with hw | hw
      · rw [Call.Ends, hw]
        exact hv
      · rw [Call.Ends, hw]
        exact neverRerouted_quarantined hv

theorem passStart_projected (hengine : FailingEngine e features)
    (hbounded : ∀ pending s, PassStart e pending s → PassBounded e pending s)
    (h : PassStart e pending s) : Projected e pending := by
  induction h with
  | first h => exact fun _ hplan => nomatch hplan
  | next before h ih => exact (pass_continues hengine ih (hbounded _ _ before) h).1

theorem passStart_neverRerouted
    (hbounded : ∀ pending s, PassStart e pending s → PassBounded e pending s)
    (h : PassStart e pending s) : NeverRerouted s.trace := by
  induction h with
  | first h =>
      have hkept : Kept start _ := Call.Respects.of_returns h
      rw [hkept.1]
      exact List.Pairwise.nil
  | next before h ih => exact (pass_neverRerouted (hbounded _ _ before) ih).of_returns h

/-- More passes than remain are not all made. -/
theorem loop_ends (hengine : FailingEngine e features)
    (hbounded : ∀ pending s, PassStart e pending s → PassBounded e pending s)
    (hstart : PassStart e pending s) {passes : Nat}
    (hpasses : remaining e (names features) s < passes) :
    (loop passes pending e s).1 ≠ .returned none := by
  induction passes generalizing pending s with
  | zero => omega
  | succ passes ih =>
      intro hrunning
      have hreturns : (loop (passes + 1) pending).Returns e s none (loop (passes + 1) pending e s).2 :=
        Prod.ext hrunning rfl
      rw [loop, Call.returns_bind] at hreturns
      obtain ⟨ended, t, hpass, hrest⟩ := hreturns
      cases ended with
      | finished ending =>
          rw [Call.returns_pure] at hrest
          cases hrest.1
      | continues pending' =>
          have hprojected := passStart_projected hengine hbounded hstart
          have hless := (pass_continues hengine hprojected (hbounded _ _ hstart) hpass).2
          exact ih (hstart.next hpass) (by omega) (congrArg Prod.fst hrest)

theorem loop_neverRerouted
    (hbounded : ∀ pending s, PassStart e pending s → PassBounded e pending s)
    (hstart : PassStart e pending s) (passes : Nat) :
    (loop passes pending).Ends e s fun t => NeverRerouted t.trace := by
  induction passes generalizing pending s with
  | zero => exact Call.ends_pure (passStart_neverRerouted hbounded hstart)
  | succ passes ih =>
      have hs := passStart_neverRerouted hbounded hstart
      refine (pass_neverRerouted (hbounded _ _ hstart) hs).bind fun ended t hpass => ?_
      cases ended with
      | finished ending =>
          have ht := passStart_neverRerouted hbounded hstart
          exact Call.ends_pure ((pass_neverRerouted (hbounded _ _ hstart) ht).of_returns hpass)
      | continues pending' => exact ih (hstart.next hpass)

theorem rescue_ends {failure : Failure} : ¬(rescue failure).Returns e s none t := by
  intro h
  rw [rescue, Call.returns_bind] at h
  obtain ⟨stop, u, -, h⟩ := h
  rw [Call.returns_ite] at h
  rcases h with ⟨-, h⟩ | ⟨-, h⟩
  · simp only [Call.returns_bind, Call.returns_pure, reduceCtorEq, false_and, and_false,
      exists_false] at h
  · rw [Call.returns_pure] at h
    cases h.1

/-- A run that is still going is still in its loop. -/
theorem apply_running {passes : Nat} (h : (apply passes).Returns e s none t) :
    ∃ u, (acquire >>= fun _ => begin).Returns e s () u ∧ (loop passes none).Returns e u none t := by
  rw [apply, Call.returns_bind] at h
  obtain ⟨_, u, hacquire, h⟩ := h
  rw [Call.returns_bind] at h
  obtain ⟨ended, v, hended, h⟩ := h
  cases ended with
  | some ending =>
      simp only [Call.returns_bind, Call.returns_pure, reduceCtorEq, false_and, and_false,
        exists_false] at h
  | none =>
      rw [Call.returns_pure] at h
      obtain ⟨-, rfl⟩ := h
      rw [Call.returns_handle, Call.returns_handle] at hended
      rcases hended with (hloop | ⟨failure, w, -, hrescue⟩) | ⟨failure, w, -, hraised⟩
      · rw [Call.returns_bind] at hloop
        obtain ⟨_, w, hbegin, hloop⟩ := hloop
        exact ⟨w, Call.returns_bind.mpr ⟨(), u, hacquire, hbegin⟩, hloop⟩
      · exact absurd hrescue rescue_ends
      · rw [Call.returns_bind] at hraised
        obtain ⟨_, x, -, hraised⟩ := hraised
        exact absurd hraised Call.returns_raise

theorem apply_neverRerouted
    (hbounded : ∀ pending s, PassStart e pending s → PassBounded e pending s) (passes : Nat) :
    (apply passes).Ends e start fun t => NeverRerouted t.trace := by
  have hkept {α : Type} (call : AutopilotCall α) [hcall : Call.Respects Kept call]
      {s : AutopilotState} (hs : NeverRerouted s.trace) :
      call.Ends e s fun t => NeverRerouted t.trace := by
    rw [Call.Ends, (hcall.related e s).1]
    exact hs
  have hstart : NeverRerouted start.trace := List.Pairwise.nil
  refine (hkept acquire hstart).bind fun _ u hacquire => ?_
  have hu := (hkept acquire hstart).of_returns hacquire
  have hran : (do begin; loop passes none : AutopilotCall (Option Ending)).Ends e u
      fun t => NeverRerouted t.trace := by
    refine (hkept begin hu).bind fun _ v hbegin => ?_
    exact loop_neverRerouted hbounded
      (.first (Call.returns_bind.mpr ⟨(), u, hacquire, hbegin⟩)) passes
  have hrescued : ((do begin; loop passes none).handle rescue).Ends e u
      fun t => NeverRerouted t.trace := by
    refine hran.handle fun failure v hraised => hkept (rescue failure) ?_
    rw [Call.Ends, hraised] at hran
    exact hran
  have hfinal : (((do begin; loop passes none).handle rescue).handle fun failure => do
      conclude ⟨"AUTOPILOT_FAILED", "autopilot ended unexpectedly"⟩
      Call.raise failure).Ends e u fun t => NeverRerouted t.trace := by
    refine hrescued.handle fun failure v hraised => hkept _ ?_
    rw [Call.Ends, hraised] at hrescued
    exact hrescued
  refine hfinal.bind fun ended v hended => ?_
  have hv := hfinal.of_returns hended
  cases ended with
  | none => exact Call.ends_pure hv
  | some ending => exact hkept (conclude ending >>= fun _ => pure (some ending)) hv

/-- Against an engine that only fails, a run ends and never returns to a quarantined feature, if
    each of its passes takes up a plan that is not of a quarantined feature and none goes on
    past a human gate. -/
theorem autopilot_bounded (e : AutopilotEnvironment) (features : Finset String)
    (hengine : FailingEngine e features)
    (hbounded : ∀ pending s, PassStart e pending s → PassBounded e pending s) :
    (∃ passes, ∀ more ≥ passes, (apply more e start).1 ≠ .returned none) ∧
      ∀ passes, NeverRerouted (apply passes e start).2.trace := by
  refine ⟨?_, fun passes => apply_neverRerouted hbounded passes⟩
  by_cases hbegun : ∃ u, (acquire >>= fun _ => begin).Returns e start () u
  · obtain ⟨u, hbegun⟩ := hbegun
    refine ⟨remaining e (names features) u + 1, fun more hmore hrunning => ?_⟩
    obtain ⟨v, hv, hloop⟩ := apply_running (t := (apply more e start).2) (Prod.ext hrunning rfl)
    have hsame : v = u := (Prod.ext_iff.mp (hv.symm.trans hbegun)).2
    subst hsame
    exact loop_ends hengine hbounded (.first hv) hmore (congrArg Prod.fst hloop)
  · refine ⟨0, fun more _ hrunning => hbegun ?_⟩
    obtain ⟨v, hv, -⟩ := apply_running (t := (apply more e start).2) (Prod.ext hrunning rfl)
    exact ⟨v, hv⟩

/-! ### An engine that returns to quarantined features -/

section Alternating

def alternatingPlan (clock : Nat) : Fields :=
  [("next_action", .str "feature_cycle"),
   ("selected_feature", .str (if clock % 2 = 0 then "F001" else "F002"))]

/-- Two features whose routes always fail, projected in turn. -/
def alternating : AutopilotEnvironment where
  platform := .reference
  projectId := "demo"
  runId := "run-1"
  retryBudgets _ := 0
  maxIdenticalFailures := 1
  now _ := "2025-01-01T00:00:00Z"
  stopRequest _ := none
  projectPlan := alternatingPlan
  consistency _ := .obj [("classification", .str "CONSISTENT")]
  repositorySnapshot _ := .null
  route _ _ := .ok [("outcome", .str "TERMINAL_FEATURE_FAILURE")]
  fault _ := .none

def alternatingFeature (clock : Nat) : Option String :=
  some (if clock % 2 = 0 then "F001" else "F002")

theorem planFeature_alternating (clock : Nat) :
    planFeature (alternatingPlan clock) = .ok (alternatingFeature clock) := by
  unfold alternatingPlan alternatingFeature
  split <;> rfl

theorem alternating_failing : FailingEngine alternating {"F001", "F002"} where
  failed clock target result h := by
    cases h
    decide
  named clock feature h := by
    rw [show alternating.projectPlan clock = alternatingPlan clock from rfl,
      planFeature_alternating, alternatingFeature] at h
    cases h
    split <;> simp

theorem alternating_emit (event diagnostic : String) (clock : Nat)
    (hevent : event ∈ AUTOPILOT_EVENTS) :
    ∃ item, (emit event (alternatingPlan clock) diagnostic).Returns alternating s ()
      { s with events := s.events ++ [item], clock := s.clock + 1 } := by
  have hitem : ∃ item, eventItem alternating s.clock event (alternatingPlan clock) diagnostic none =
      .ok item := by
    rw [eventItem, require_of hevent, planFeature_alternating]
    exact ⟨_, rfl⟩
  obtain ⟨item, hitem⟩ := hitem
  refine ⟨item, Call.returns_attempt.mpr ⟨rfl, { s with events := s.events ++ [item] }, ?_, rfl⟩⟩
  rw [hitem]
  rfl

theorem alternating_choose :
    (choose none).Returns alternating s
      (.invoke (alternatingFeature (s.clock + 1)) (alternatingPlan (s.clock + 1)))
      { s with clock := s.clock + 3 } := by
  have hgate : gate .reference [("classification", .str "CONSISTENT")]
      (alternatingPlan (s.clock + 1)) =
      .ok (.invoke (alternatingFeature (s.clock + 1)) (alternatingPlan (s.clock + 1))) := by
    unfold alternatingPlan alternatingFeature
    split <;> rfl
  refine Call.returns_bind.mpr ⟨none, tick s, returns_look.mpr ⟨rfl, rfl, rfl⟩, ?_⟩
  refine Call.returns_bind.mpr ⟨_, _, returns_look.mpr ⟨rfl, rfl, rfl⟩, ?_⟩
  refine Call.returns_bind.mpr ⟨_, _, returns_look.mpr ⟨rfl, rfl, rfl⟩, ?_⟩
  exact returns_lift.mpr ⟨hgate, rfl⟩

theorem planAction_alternating (clock : Nat) :
    planAction .reference (alternatingPlan clock) = "feature_cycle" := rfl

/-- The result of every route of `alternating`. -/
def alternatingResult : Fields := [("outcome", .str "TERMINAL_FEATURE_FAILURE")]

theorem alternating_announce (clock : Nat) :
    ∃ t, (announce (alternatingFeature clock) "feature_cycle" (alternatingPlan clock)).Returns
      alternating s () t ∧ t.clock = s.clock + 1 := by
  let feature := if clock % 2 = 0 then "F001" else "F002"
  let action := "feature_cycle"
  obtain ⟨item, hemit⟩ := alternating_emit (s := s) "FEATURE_SELECTED"
    s!"{feature} selected through {action}" clock (by decide)
  refine ⟨{ s with events := s.events ++ [item], clock := s.clock + 1 }, ?_, rfl⟩
  exact Call.returns_bind.mpr ⟨(), _, hemit, rfl⟩

theorem alternating_record (clock : Nat) :
    ∃ t, (recordResult (alternatingFeature clock) alternatingResult).Returns alternating s () t ∧
      t.clock = s.clock := by
  refine ⟨(recordResult (alternatingFeature clock) alternatingResult alternating s).2, ?_, rfl⟩
  exact Prod.ext rfl rfl

theorem alternating_invoke (clock : Nat) :
    ∃ t, (invoke (alternatingFeature clock) (alternatingPlan clock)).Returns alternating s
      alternatingResult t ∧ t.clock = s.clock + 2 := by
  obtain ⟨u, hannounce, hu⟩ := alternating_announce (s := s) clock
  have hroute : (route (alternatingFeature clock) "feature_cycle" (alternatingPlan clock)).Returns
      alternating u alternatingResult
      { u with trace := u.trace ++ [.routed (alternatingFeature clock)], clock := u.clock + 1 } :=
    rfl
  obtain ⟨v, hrecord, hv⟩ := alternating_record
    (s := { u with trace := u.trace ++ [.routed (alternatingFeature clock)],
                   clock := u.clock + 1 }) clock
  change v.clock = u.clock + 1 at hv
  refine ⟨v, ?_, by omega⟩
  refine Call.returns_bind.mpr ⟨_, s, returns_lift.mpr ⟨rfl, rfl⟩, ?_⟩
  refine Call.returns_bind.mpr ⟨(), u, hannounce, ?_⟩
  refine Call.returns_bind.mpr ⟨_, _, hroute, ?_⟩
  refine Call.returns_bind.mpr ⟨(), v, hrecord, ?_⟩
  rfl

theorem alternating_exhausted (clock : Nat) (repeated : Prop) [Decidable repeated]
    (hother : alternatingFeature (s.clock + 1) ≠ alternatingFeature clock) :
    ∃ t, (judgeExhausted (alternatingFeature clock) (alternatingPlan clock) .implementation
        repeated).Returns alternating s (.continues none) t ∧ t.clock = s.clock + 2 := by
  obtain ⟨item, hemit⟩ := alternating_emit (s := s) "FEATURE_BLOCKED"
    ((if repeated then "identical evidence repeated"
        else s!"{RetryBudget.implementation.key} exhausted") ++
      "; feature quarantined in autopilot evidence without being marked complete") clock (by decide)
  have hquarantine (u : AutopilotState) :
      ∃ v, (quarantine (alternatingFeature clock)).Returns alternating u () v ∧
        v.clock = u.clock :=
    ⟨(quarantine (alternatingFeature clock) alternating u).2, Prod.ext rfl rfl, rfl⟩
  obtain ⟨v, hv, hclock⟩ := hquarantine { s with events := s.events ++ [item], clock := s.clock + 1 }
  change v.clock = s.clock + 1 at hclock
  refine ⟨tick v, ?_, by rw [tick, hclock]⟩
  refine Call.returns_bind.mpr ⟨(), _, hemit, ?_⟩
  refine Call.returns_bind.mpr ⟨(), v, hv, ?_⟩
  refine Call.returns_bind.mpr
    ⟨alternatingPlan v.clock, tick v, returns_look.mpr ⟨rfl, rfl, rfl⟩, ?_⟩
  refine Call.returns_bind.mpr
    ⟨_, tick v, returns_lift.mpr ⟨planFeature_alternating v.clock, rfl⟩, ?_⟩
  refine Call.returns_bind.mpr ⟨_, tick v, returns_lift.mpr ⟨rfl, rfl⟩, ?_⟩
  rw [hclock, if_pos ⟨by simp [alternatingFeature], hother, planAction_alternating _⟩]
  rfl

theorem alternating_judge (clock : Nat)
    (hother : alternatingFeature (s.clock + 1) ≠ alternatingFeature clock) :
    ∃ t, (judge (alternatingFeature clock) (alternatingPlan clock) alternatingResult).Returns
      alternating s (.continues none) t ∧ t.clock = s.clock + 2 := by
  have hsignature : ∃ signature, failureSignature .reference "feature_cycle"
      (alternatingPlan clock) alternatingResult = .ok signature := by
    rw [failureSignature, planFeature_alternating]
    exact ⟨_, rfl⟩
  obtain ⟨signature, hsignature⟩ := hsignature
  let u := (countFailure signature alternating s).2
  let v := (countAttempt (alternatingFeature clock) .implementation alternating u).2
  obtain ⟨t, ht, hclock⟩ := alternating_exhausted (s := v) clock
    (alternating.maxIdenticalFailures < ((s.failureSignatures.get? signature).getD 0 + 1 : Nat))
    hother
  refine ⟨t, ?_, hclock⟩
  refine Call.returns_bind.mpr ⟨_, s, returns_lift.mpr ⟨rfl, rfl⟩, ?_⟩
  refine Call.returns_bind.mpr ⟨_, s, returns_lift.mpr ⟨rfl, rfl⟩, ?_⟩
  refine Call.returns_bind.mpr ⟨none, s, returns_lift.mpr ⟨rfl, rfl⟩, ?_⟩
  refine Call.returns_bind.mpr ⟨signature, s, returns_lift.mpr ⟨hsignature, rfl⟩, ?_⟩
  refine Call.returns_bind.mpr ⟨_, u, rfl, ?_⟩
  refine Call.returns_bind.mpr ⟨.implementation, u, returns_lift.mpr ⟨rfl, rfl⟩, ?_⟩
  refine Call.returns_bind.mpr ⟨_, v, rfl, ?_⟩
  refine Call.returns_bind.mpr ⟨0, v, returns_lift.mpr ⟨rfl, rfl⟩, ?_⟩
  refine Call.returns_bind.mpr ⟨1, v, returns_lift.mpr ⟨rfl, rfl⟩, ?_⟩
  rw [if_pos (Or.inl (by omega))]
  exact ht

theorem alternatingFeature_ne {clock other : Nat} (h : clock % 2 ≠ other % 2) :
    alternatingFeature clock ≠ alternatingFeature other := by
  unfold alternatingFeature
  rcases Nat.mod_two_eq_zero_or_one clock with hclock | hclock <;>
    rcases Nat.mod_two_eq_zero_or_one other with hother | hother <;> simp_all

/-- Every pass routes and quarantines the feature whose turn it is, and continues. -/
theorem alternating_pass (s : AutopilotState) :
    ∃ t, (pass none).Returns alternating s (.continues none) t ∧ t.clock = s.clock + 7 ∧
      t.trace = s.trace ++ [.routed (alternatingFeature (s.clock + 1)),
        .quarantined (alternatingFeature (s.clock + 1))] := by
  have hchoose := alternating_choose (s := s)
  obtain ⟨u, hinvoke, hu⟩ := alternating_invoke (s := { s with clock := s.clock + 3 }) (s.clock + 1)
  change u.clock = s.clock + 3 + 2 at hu
  obtain ⟨t, hjudge, ht⟩ := alternating_judge (s := u) (s.clock + 1)
    (alternatingFeature_ne (by omega))
  refine ⟨t, ?_, by omega, ?_⟩
  · exact Call.returns_bind.mpr ⟨_, _, hchoose, Call.returns_bind.mpr ⟨_, u, hinvoke, hjudge⟩⟩
  · obtain ⟨hrouted, -, houtcome⟩ := invoke_failed alternating_failing hinvoke
    rcases judge_continues houtcome hjudge with ⟨hgate, -⟩ | ⟨-, hspent⟩
    · exact absurd hgate (by decide)
    · cases hspent with
      | retried budget hwithin => simp only [alternating] at hwithin; omega
      | exhausted budget hcounts htrace hmoved => rw [htrace, hrouted, List.append_assoc]; rfl

theorem alternating_loop (passes : Nat) (s : AutopilotState) :
    ∃ t, (loop passes none).Returns alternating s none t ∧
      t.trace = s.trace ++ (List.range passes).flatMap fun i =>
        [.routed (alternatingFeature (s.clock + 7 * i + 1)),
         .quarantined (alternatingFeature (s.clock + 7 * i + 1))] := by
  induction passes generalizing s with
  | zero => exact ⟨s, Call.returns_pure.mpr ⟨rfl, rfl⟩, by simp⟩
  | succ passes ih =>
      obtain ⟨t, hpass, hclock, htrace⟩ := alternating_pass s
      obtain ⟨u, hloop, hmarks⟩ := ih t
      refine ⟨u, Call.returns_bind.mpr ⟨_, t, hpass, hloop⟩, ?_⟩
      rw [hmarks, htrace, hclock, List.range_succ_eq_map, List.flatMap_cons, List.flatMap_map,
        List.append_assoc]
      congr 3
      funext i
      rw [show s.clock + 7 + 7 * i = s.clock + 7 * (i + 1) by omega]

theorem alternating_apply (passes : Nat) :
    ∃ t, (apply passes).Returns alternating start none t ∧
      t.trace = (List.range passes).flatMap fun i =>
        [.routed (alternatingFeature (7 * i + 4)), .quarantined (alternatingFeature (7 * i + 4))] := by
  obtain ⟨item, hemit⟩ := alternating_emit (s := { start with clock := 2 }) "AUTOPILOT_STARTED"
    "continuous controller loop acquired exclusive project ownership" 1 (by decide)
  have hbegin : begin.Returns alternating { start with clock := 1 } ()
      { start with events := [item], clock := 3 } :=
    Call.returns_bind.mpr ⟨alternatingPlan 1, { start with clock := 2 },
      returns_look.mpr ⟨rfl, rfl, rfl⟩, hemit⟩
  obtain ⟨t, hloop, htrace⟩ := alternating_loop passes { start with events := [item], clock := 3 }
  refine ⟨t, ?_, ?_⟩
  · refine Call.returns_bind.mpr
      ⟨(), { start with clock := 1 }, returns_look.mpr ⟨rfl, rfl, rfl⟩, ?_⟩
    refine Call.returns_bind.mpr ⟨none, t, ?_, rfl⟩
    refine Call.returns_handle.mpr (Or.inl (Call.returns_handle.mpr (Or.inl ?_)))
    exact Call.returns_bind.mpr ⟨(), _, hbegin, hloop⟩
  · rw [htrace]
    refine congrArg (List.flatMap · (List.range passes)) (funext fun i => ?_)
    rw [show 3 + 7 * i + 1 = 7 * i + 4 by omega]

/-- The same engine, with the plan of one feature only. -/
def steady : AutopilotEnvironment := { alternating with projectPlan := fun _ => alternatingPlan 0 }

theorem steady_failing : FailingEngine steady {"F001"} where
  failed clock target result h := by
    cases h
    decide
  named clock feature h := by
    rw [show steady.projectPlan clock = alternatingPlan 0 from rfl, planFeature_alternating] at h
    cases h
    decide

/-- Its first pass is its last one. -/
theorem steady_passStart (h : PassStart steady pending s) : pending = none ∧ s.trace = [] := by
  induction h with
  | first h =>
      have hkept : Kept start _ := Call.Respects.of_returns h
      exact ⟨rfl, hkept.1⟩
  | next before h ih =>
      obtain ⟨rfl, -⟩ := ih
      obtain ⟨feature, plan, result, u, v, hchoose, hinvoke, hjudge⟩ := pass_eq_continues h
      have hpending : Projected steady none := by
        intro plan hplan
        cases hplan
      obtain ⟨hfeature, clock, rfl⟩ := choose_eq_invoke hpending hchoose
      obtain ⟨-, -, houtcome⟩ := invoke_failed steady_failing hinvoke
      rcases judge_continues houtcome hjudge with ⟨-, hresumes⟩ | ⟨-, hspent⟩
      · change resumesAfterGate .reference (alternatingPlan 0) = true at hresumes
        exact absurd hresumes (by decide)
      · cases hspent with
        | retried budget hwithin => simp only [steady, alternating] at hwithin; omega
        | exhausted budget hcounts htrace hmoved =>
            obtain ⟨_, other, hother, hne⟩ := hmoved
            exact absurd (Except.ok.inj (hother.symm.trans hfeature)) hne

theorem autopilot_bounded_steady :
    (∃ passes, ∀ more ≥ passes, (apply more steady start).1 ≠ .returned none) ∧
      ∀ passes, NeverRerouted (apply passes steady start).2.trace := by
  refine autopilot_bounded steady {"F001"} steady_failing fun pending s hstart => ?_
  obtain ⟨rfl, htrace⟩ := steady_passStart hstart
  exact {
    fresh := fun feature plan t _ => by rw [htrace]; exact List.not_mem_nil
    ungated := fun _ _ _ _ _ _ _ _ => rfl }

/-- Against `alternating` the loop never ends, and its third pass routes a feature that the first
    has quarantined. -/
theorem alternating_not_bounded :
    FailingEngine alternating {"F001", "F002"} ∧
      (∀ clock, alternating.consistency clock = .obj [("classification", .str "CONSISTENT")]) ∧
      (∀ clock, alternating.stopRequest clock = none) ∧
      (∀ passes, (apply passes alternating start).1 = .returned none) ∧
      ¬NeverRerouted (apply 3 alternating start).2.trace := by
  refine ⟨alternating_failing, fun _ => rfl, fun _ => rfl, fun passes => ?_, fun hnever => ?_⟩
  · obtain ⟨t, hrunning, -⟩ := alternating_apply passes
    exact congrArg Prod.fst hrunning
  · obtain ⟨t, hrunning, htrace⟩ := alternating_apply 3
    rw [hrunning, htrace] at hnever
    have hpair := List.pairwise_iff_getElem.mp hnever 1 4 (by decide) (by decide) (by decide)
    exact hpair "F001" rfl rfl

end Alternating

end Conveyor.Autopilot
