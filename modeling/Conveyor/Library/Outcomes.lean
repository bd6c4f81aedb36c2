import Conveyor.Library.Cleanup

/-!
# Outcomes of calls that do not die

`Meets` gives a call two postconditions, one for its return and one for the failure it raises,
and says that its process does not die. It has a rule for every way calls are put together; the
one for a loop carries an invariant that knows the items already done.
-/

namespace Library

namespace Call

variable {ρ σ ε α β : Type}

/-- The call returns or raises, and what it then left has the property given for that outcome. -/
def Meets (call : Call ρ σ ε α) (r : ρ) (s : σ) (returned : α → σ → Prop)
    (raised : ε → σ → Prop) : Prop :=
  match call r s with
  | (.returned value, t) => returned value t
  | (.raised failure, t) => raised failure t
  | (.died, _) => False

variable {call : Call ρ σ ε α} {rest : α → Call ρ σ ε β} {r : ρ} {s : σ} {value : α}
  {returned returned' : α → σ → Prop} {result : β → σ → Prop} {raised raised' : ε → σ → Prop}

theorem meets_pure (h : returned value s) :
    Meets (pure value : Call ρ σ ε α) r s returned raised := h

theorem meets_raise {failure : ε} (h : raised failure s) :
    Meets (raise failure : Call ρ σ ε α) r s returned raised := h

theorem Meets.mono (h : Meets call r s returned raised)
    (hreturned : ∀ value t, returned value t → returned' value t)
    (hraised : ∀ failure t, raised failure t → raised' failure t) :
    Meets call r s returned' raised' := by
  unfold Meets at h ⊢
  rcases hrun : call r s with ⟨outcome, t⟩
  rw [hrun] at h
  cases outcome with
  | returned value => exact hreturned value t h
  | raised failure => exact hraised failure t h
  | died => exact h

theorem meets_reads {f : ρ → σ → Except ε α} (hdone : ∀ value, f r s = .ok value → returned value s)
    (hfailed : ∀ failure, f r s = .error failure → raised failure s) :
    Meets (reads f) r s returned raised := by
  unfold Meets reads
  cases hf : f r s with
  | ok value => exact hdone value hf
  | error failure => exact hfailed failure hf

theorem meets_update {f : ρ → σ → Except ε (α × σ)}
    (hdone : ∀ value t, f r s = .ok (value, t) → returned value t)
    (hfailed : ∀ failure, f r s = .error failure → raised failure s) :
    Meets (update f) r s returned raised := by
  unfold Meets update
  cases hf : f r s with
  | ok found => exact hdone found.1 found.2 hf
  | error failure => exact hfailed failure hf

theorem Meets.bind (hcall : Meets call r s returned raised)
    (hrest : ∀ value t, returned value t → Meets (rest value) r t result raised) :
    Meets (call >>= rest) r s result raised := by
  unfold Meets at hcall
  rcases hrun : call r s with ⟨outcome, t⟩
  rw [hrun] at hcall
  cases outcome with
  | returned value =>
      unfold Meets
      rw [bind_of_returns hrun]
      exact hrest value t hcall
  | raised failure =>
      unfold Meets
      rw [bind_of_raised hrun]
      exact hcall
  | died => exact hcall.elim

/-- The sequence rule with the postcondition of the first part given. -/
theorem Meets.via (middle : α → σ → Prop) (hcall : Meets call r s middle raised)
    (hrest : ∀ value t, middle value t → Meets (rest value) r t result raised) :
    Meets (call >>= rest) r s result raised := hcall.bind hrest

/-- The handler has to meet the postconditions after every failure of the call. -/
theorem Meets.handle {handler : ε → Call ρ σ ε α} (hcall : Meets call r s returned raised)
    (hhandler : ∀ failure t, raised failure t → Meets (handler failure) r t returned raised') :
    Meets (call.handle handler) r s returned raised' := by
  unfold Meets at hcall
  rcases hrun : call r s with ⟨outcome, t⟩
  rw [hrun] at hcall
  cases outcome with
  | returned value =>
      unfold Meets Call.handle
      rw [hrun]
      exact hcall
  | raised failure =>
      unfold Meets
      rw [handle_of_raised hrun]
      exact hhandler failure t hcall
  | died => exact hcall.elim

/-- A cleanup that returns after either outcome keeps the outcome. -/
theorem Meets.ensure {cleanup : Call ρ σ ε Unit} (hcall : Meets call r s returned raised)
    (hreturned : ∀ value t, returned value t →
      ∃ u, cleanup.Returns r t () u ∧ returned' value u)
    (hraised : ∀ failure t, raised failure t →
      ∃ u, cleanup.Returns r t () u ∧ raised' failure u) :
    Meets (call.ensure cleanup) r s returned' raised' := by
  unfold Meets at hcall
  rcases hrun : call r s with ⟨outcome, t⟩
  rw [hrun] at hcall
  cases outcome with
  | returned value =>
      obtain ⟨u, hcleanup, hafter⟩ := hreturned value t hcall
      unfold Meets
      rw [ensure_of_returns hrun (by simp) hcleanup]
      exact hafter
  | raised failure =>
      obtain ⟨u, hcleanup, hafter⟩ := hraised failure t hcall
      unfold Meets
      rw [ensure_of_returns hrun (by simp) hcleanup]
      exact hafter
  | died => exact hcall.elim

/-- A call that meets a postcondition and raises nothing returns. -/
theorem Meets.returns {post : σ → Prop} {cleanup : Call ρ σ ε Unit}
    (h : Meets cleanup r s (fun _ t => post t) fun _ _ => False) :
    ∃ t, cleanup.Returns r s () t ∧ post t := by
  unfold Meets at h
  rcases hrun : cleanup r s with ⟨outcome, t⟩
  rw [hrun] at h
  cases outcome with
  | returned value => exact ⟨t, hrun, h⟩
  | raised failure => exact h.elim
  | died => exact h.elim

/-- A loop, by an invariant on the items that are done. -/
theorem meets_forEach {call : α → Call ρ σ ε β} {items : List α} (inv : List α → σ → Prop)
    (hstep : ∀ done item rest, items = done ++ item :: rest → ∀ s, inv done s →
      Meets (call item) r s (fun _ t => inv (done ++ [item]) t) raised)
    (h : inv [] s) : Meets (forEach items call) r s (fun _ t => inv items t) raised := by
  suffices hloop : ∀ rest done s, items = done ++ rest → inv done s →
      Meets (forEach rest call) r s (fun _ t => inv items t) raised from
    hloop items [] s rfl h
  intro rest
  induction rest with
  | nil =>
      intro done s hitems hinv
      rw [List.append_nil] at hitems
      subst hitems
      exact meets_pure hinv
  | cons item rest ih =>
      intro done s hitems hinv
      have hafter : items = (done ++ [item]) ++ rest := by
        rw [hitems, List.append_assoc, List.singleton_append]
      refine (hstep done item rest hitems s hinv).bind fun value t ht => ?_
      refine (ih (done ++ [item]) t hafter ht).bind fun values u hu => ?_
      exact meets_pure hu

end Call

end Library
