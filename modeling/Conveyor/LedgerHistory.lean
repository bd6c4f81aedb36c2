import Conveyor.LedgerReplay

/-!
# The history of a transaction

The last part of the full check looks at the event types of each transaction by
themselves. This module puts its conditions, which the source states by positions,
into the form in which one more event can be judged: `inOrder_snoc` and
`reacquisitionsAuthorized_snoc`. With them `validate_eq_ok` states what the full
check accepts.
-/

namespace Conveyor

open Library EventType

/-! ### Positions -/

theorem mem_positionsOf {kind : EventType} {history : List EventType} {i : Nat} :
    i ∈ positionsOf kind history ↔ history[i]? = some kind := by
  simp only [positionsOf, List.mem_filter, List.mem_range, decide_eq_true_eq]
  exact ⟨fun h => h.2, fun h => ⟨(List.getElem?_eq_some_iff.mp h).1, h⟩⟩

theorem positionsOf_snoc (kind : EventType) (history : List EventType) (last : EventType) :
    positionsOf kind (history ++ [last]) =
      positionsOf kind history ++ (if last = kind then [history.length] else []) := by
  unfold positionsOf
  rw [List.length_append, List.length_singleton, List.range_succ, List.filter_append]
  congr 1
  · refine List.filter_congr fun i hi => ?_
    rw [List.getElem?_append_left (List.mem_range.mp hi)]
  · by_cases h : last = kind <;> simp [h]

/-- The last position of an event type splits the history after it. -/
theorem getLast?_positionsOf {kind : EventType} {history : List EventType} {p : Nat}
    (h : (positionsOf kind history).getLast? = some p) :
    ∃ before after, history = before ++ kind :: after ∧ before.length = p ∧ kind ∉ after := by
  induction history using List.reverseRecOn generalizing p with
  | nil => simp [positionsOf] at h
  | append_singleton history last ih =>
      rw [positionsOf_snoc] at h
      by_cases hlast : last = kind
      · simp only [hlast, if_true, List.getLast?_append, List.getLast?_singleton,
          Option.some_or, Option.some.injEq] at h
        exact ⟨history, [], by simp [hlast], h, by simp⟩
      · simp only [hlast, if_false, List.append_nil] at h
        obtain ⟨before, after, rfl, hp, hnot⟩ := ih h
        refine ⟨before, after ++ [last], by simp, hp, ?_⟩
        simpa using ⟨hnot, Ne.symm hlast⟩

theorem getLast?_positionsOf_eq_none {kind : EventType} {history : List EventType} :
    (positionsOf kind history).getLast? = none ↔ kind ∉ history := by
  rw [List.getLast?_eq_none_iff, List.eq_nil_iff_forall_not_mem]
  simp only [mem_positionsOf]
  rw [List.mem_iff_getElem?, not_exists]

/-- The adjacent pairs of a list that grew by one. -/
theorem zip_tail_snoc {α : Type} (xs : List α) (x : α) :
    (xs ++ [x]).zip (xs ++ [x]).tail =
      xs.zip xs.tail ++ (xs.getLast?.map fun last => (last, x)).toList := by
  induction xs with
  | nil => rfl
  | cons y ys ih =>
      cases ys with
      | nil => rfl
      | cons z zs =>
          simp only [List.cons_append, List.tail_cons, List.zip_cons_cons] at ih ⊢
          rw [ih]
          simp [List.getLast?_cons_cons]

/-! ### Reacquired leases -/

/-- A recovery authorization has been recorded after the last acquired lease. -/
def RecoveredSinceLease (history : List EventType) : Prop :=
  recoveryApplied ∈ history.reverse.takeWhile (· ≠ leaseAcquired)

instance (history : List EventType) : Decidable (RecoveredSinceLease history) :=
  inferInstanceAs (Decidable (_ ∈ _))

theorem takeWhile_reverse_split {before after : List EventType}
    (h : leaseAcquired ∉ after) :
    (before ++ leaseAcquired :: after).reverse.takeWhile (· ≠ leaseAcquired) = after.reverse := by
  have hall : ∀ kind ∈ after.reverse, (decide (kind ≠ leaseAcquired)) = true := by
    intro kind hkind
    have hne : kind ≠ leaseAcquired := fun heq => h (heq ▸ List.mem_reverse.mp hkind)
    simpa using hne
  rw [List.reverse_append, List.reverse_cons, List.append_assoc,
    List.takeWhile_append_of_pos hall]
  simp

theorem recovered_iff_position {history : List EventType} {p : Nat}
    (h : (positionsOf leaseAcquired history).getLast? = some p) :
    RecoveredSinceLease history ↔
      ∃ recovery ∈ positionsOf recoveryApplied history, p < recovery := by
  obtain ⟨before, after, rfl, rfl, hnot⟩ := getLast?_positionsOf h
  rw [RecoveredSinceLease, takeWhile_reverse_split hnot, List.mem_reverse]
  simp only [mem_positionsOf]
  constructor
  · intro hmem
    obtain ⟨i, hi⟩ := List.mem_iff_getElem?.mp hmem
    refine ⟨before.length + 1 + i, ?_, by omega⟩
    rw [List.getElem?_append_right (by omega)]
    have hindex : before.length + 1 + i - before.length = i + 1 := by omega
    rw [hindex, List.getElem?_cons_succ, hi]
  · rintro ⟨r, hr, hlt⟩
    rw [List.getElem?_append_right (by omega)] at hr
    obtain ⟨i, hi⟩ : ∃ i, r - before.length = i + 1 := ⟨r - before.length - 1, by omega⟩
    rw [hi, List.getElem?_cons_succ] at hr
    exact List.mem_of_getElem? hr

/-- One more event keeps the lease discipline unless it reacquires a lease that no
    recovery has released. -/
theorem reacquisitionsAuthorized_snoc {history : List EventType} {kind : EventType} :
    ReacquisitionsAuthorized (history ++ [kind]) ↔
      ReacquisitionsAuthorized history ∧
        (kind = leaseAcquired → leaseAcquired ∈ history → RecoveredSinceLease history) := by
  have hbound : ∀ pair ∈ (positionsOf leaseAcquired history).zip
      (positionsOf leaseAcquired history).tail, pair.2 < history.length := by
    intro pair hpair
    have hmem := List.mem_of_mem_tail (List.of_mem_zip hpair).2
    exact (List.getElem?_eq_some_iff.mp (mem_positionsOf.mp hmem)).1
  have hprior : (∀ pair ∈ (positionsOf leaseAcquired history).zip
        (positionsOf leaseAcquired history).tail,
        ∃ recovery ∈ positionsOf recoveryApplied (history ++ [kind]),
          pair.1 < recovery ∧ recovery < pair.2) ↔ ReacquisitionsAuthorized history := by
    refine forall₂_congr fun pair hpair => ?_
    have hlt := hbound pair hpair
    rw [positionsOf_snoc]
    constructor
    · rintro ⟨r, hr, h1, h2⟩
      refine ⟨r, ?_, h1, h2⟩
      rcases List.mem_append.mp hr with hr | hr
      · exact hr
      · split at hr
        · simp only [List.mem_singleton] at hr
          omega
        · cases hr
    · rintro ⟨r, hr, h⟩
      exact ⟨r, List.mem_append_left _ hr, h⟩
  unfold ReacquisitionsAuthorized
  by_cases hkind : kind = leaseAcquired
  · subst hkind
    simp only [positionsOf_snoc leaseAcquired, if_true, zip_tail_snoc, forall_const]
    rw [List.forall_mem_append, hprior]
    refine and_congr_right fun _ => ?_
    cases hlast : (positionsOf leaseAcquired history).getLast? with
    | none =>
        have hnot := getLast?_positionsOf_eq_none.mp hlast
        simp [hnot]
    | some p =>
        have hmem : leaseAcquired ∈ history := by
          by_contra hnot
          rw [getLast?_positionsOf_eq_none.mpr hnot] at hlast
          cases hlast
        rw [recovered_iff_position hlast]
        simp only [Option.map_some, Option.toList_some, List.mem_singleton, forall_eq, hmem,
          forall_const, positionsOf_snoc recoveryApplied, reduceCtorEq, if_false,
          List.append_nil]
        refine exists_congr fun r => and_congr_right fun hr => ?_
        have hlt := (List.getElem?_eq_some_iff.mp (mem_positionsOf.mp hr)).1
        exact ⟨fun h => h.1, fun h => ⟨h, hlt⟩⟩
  · simp only [positionsOf_snoc leaseAcquired, hkind, if_false, List.append_nil,
      false_imp_iff, and_true]
    exact hprior

/-! ### Order -/

theorem inOrder_snoc {history : List EventType} {kind first second : EventType}
    (hne : first ≠ second) :
    InOrder (history ++ [kind]) (first, second) ↔
      InOrder history (first, second) ∧
        ¬(kind = first ∧ first ∉ history ∧ second ∈ history) := by
  unfold InOrder
  simp only [List.mem_append, List.mem_singleton, List.idxOf_append]
  by_cases hfirst : first ∈ history
  · by_cases hsecond : second ∈ history
    · simp [hfirst, hsecond]
    · have hlt : history.idxOf first < history.length := List.idxOf_lt_length_of_mem hfirst
      simp only [hfirst, hsecond, if_true, if_false, true_or, forall_const, false_or,
        not_true_eq_false, and_false, not_false_eq_true, and_true, false_imp_iff]
      exact iff_of_true (fun _ => by omega) trivial
  · by_cases hsecond : second ∈ history
    · have hlt : history.idxOf second < history.length := List.idxOf_lt_length_of_mem hsecond
      simp only [hfirst, hsecond, if_true, if_false, true_or, forall_const, false_or,
        not_false_eq_true, and_true, false_imp_iff, true_and]
      constructor
      · intro h heq
        have := h heq.symm
        omega
      · intro h heq
        exact absurd heq.symm h
    · simp only [hfirst, hsecond, false_or, false_imp_iff, and_false, not_false_eq_true,
        and_true, iff_true]
      rintro rfl rfl
      exact absurd rfl hne

/-- What the full check asks of one transaction's event types. -/
structure HistoryOk (events : List LedgerEvent) (transactionId : String)
    (history : List EventType) : Prop where
  begins : history.head? = some transactionStarted
  reacquisitions : ReacquisitionsAuthorized history
  ordered : ∀ pair ∈ ORDERED_PAIRS, InOrder history pair
  session : sessionResultAccepted ∈ history → sessionLaunched ∈ history
  validation : validationPassed ∈ history → validationStarted ∈ history
  commit : commitFinalized ∈ history → validationPassed ∈ history
  projection : projectionUpdated ∈ history → ∃ kind ∈ TERMINAL_EVENT_TYPES, kind ∈ history
  completion : transactionCompleted ∈ history → missingLifecycle history = [] ∨
    ((completionPayload events transactionId).get "legacy_import").truthy = true

theorem checkHistory_eq_ok {events : List LedgerEvent} {transactionId : String}
    {history : List EventType} :
    checkHistory events transactionId history = .ok () ↔
      HistoryOk events transactionId history := by
  simp only [checkHistory, bind_eq_ok, require_eq_ok, requireAll_eq_ok, exists_const]
  constructor
  · rintro ⟨h1, h2, h3, h4, h5, h6, h7, h8⟩
    exact ⟨h1, h2, h3, h4, h5, h6, h7, h8⟩
  · rintro ⟨h1, h2, h3, h4, h5, h6, h7, h8⟩
    exact ⟨h1, h2, h3, h4, h5, h6, h7, h8⟩

/-! ### The full check -/

/-- A ledger the full check accepts. -/
structure Valid (P : Platform) (L : LedgerIdentity) (events : List LedgerEvent) : Prop where
  replays : Replays P L events
  histories : ∀ transactionId, historyOf events transactionId ≠ [] →
    HistoryOk events transactionId (historyOf events transactionId)

variable {P : Platform} {L : LedgerIdentity} {records : List Object} {events : List LedgerEvent}
  {integrity : LedgerIntegrity}

theorem requireAll_histories {s : ReplayState} (h : Tracks P events s) :
    (requireAll (fun transactionId =>
      checkHistory s.events transactionId ((s.histories.get? transactionId).getD []))
      s.histories.keys = .ok ()) ↔
      ∀ transactionId, historyOf events transactionId ≠ [] →
        HistoryOk events transactionId (historyOf events transactionId) := by
  simp only [requireAll_eq_ok, checkHistory_eq_ok, h.keys, h.histories, h.seen]

/-- The full check returns on the objects of valid events only, and returns them
    with their number and the fingerprint of the last. -/
theorem validate_eq_ok (h : validate P L records = .ok (integrity, events)) :
    records = events.map LedgerEvent.toObject ∧ Valid P L events ∧
      integrity.sequence = events.length ∧ integrity.fingerprint = tailFingerprint events := by
  simp only [validate, bind_eq_ok, pure, Except.pure, Except.ok.injEq, Prod.mk.injEq] at h
  obtain ⟨s, hreplay, ⟨⟩, hhistories, hintegrity, hevents⟩ := h
  obtain ⟨replayed, rfl, hreplays, htracks⟩ := replay_eq_ok hreplay
  have heq : replayed = events := htracks.seen.symm.trans hevents
  subst heq
  refine ⟨rfl, ⟨hreplays, (requireAll_histories htracks).mp hhistories⟩, ?_, ?_⟩
  · rw [← hintegrity]
    simp
  · rw [← hintegrity]
    exact htracks.previous

theorem Valid.validate_ok (h : Valid P L events) :
    ∃ integrity, validate P L (events.map LedgerEvent.toObject) = .ok (integrity, events) ∧
      integrity.sequence = events.length ∧ integrity.fingerprint = tailFingerprint events := by
  obtain ⟨s, hreplay, htracks⟩ := h.replays.replay_ok
  have hhistories := (requireAll_histories htracks).mpr h.histories
  refine ⟨⟨events.length, s.previous, events.length, s.started.length⟩, ?_, rfl,
    htracks.previous⟩
  simp only [validate, bind_eq_ok, pure, Except.pure, Except.ok.injEq, Prod.mk.injEq]
  exact ⟨s, hreplay, (), hhistories, by simp, htracks.seen⟩

/-- The object of an event determines the event. -/
theorem LedgerEvent.toObject_injective : Function.Injective LedgerEvent.toObject := by
  intro first second h
  have hfields : first.toFields = second.toFields := congrArg Object.fields h
  simp only [LedgerEvent.toFields_eq, List.cons.injEq, Prod.mk.injEq, Json.str.injEq,
    Json.obj.injEq, Json.int.injEq, Int.natCast_inj, true_and, and_true] at hfields
  obtain ⟨h1, h2, h3, h4, h5, h6, h7, h8, h9, h10, h11, h12⟩ := hfields
  have hkind : first.eventType = second.eventType := by
    have := EventType.ofName?_eq_some.mpr h2
    rw [EventType.ofName?_eq_some.mpr rfl] at this
    exact (Option.some.inj this).symm
  have hworkflow : first.workflowType = second.workflowType := by
    have := WorkflowType.ofValue?_eq_some.mpr h12
    rw [WorkflowType.ofValue?_eq_some.mpr rfl] at this
    exact (Option.some.inj this).symm
  obtain ⟨⟨⟩, _⟩ := first
  obtain ⟨⟨⟩, _⟩ := second
  simp_all

/-- Acceptance of the objects of given events. -/
theorem validate_map_eq_ok :
    (∃ result, validate P L (events.map LedgerEvent.toObject) = .ok result) ↔
      Valid P L events := by
  constructor
  · rintro ⟨⟨integrity, accepted⟩, h⟩
    obtain ⟨heq, hvalid, -⟩ := validate_eq_ok h
    rwa [List.map_injective_iff.mpr LedgerEvent.toObject_injective heq]
  · intro h
    obtain ⟨integrity, hok, -⟩ := h.validate_ok
    exact ⟨_, hok⟩

end Conveyor
