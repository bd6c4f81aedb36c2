import Conveyor.Library.Call

/-!
# Cleaning up after a call

`ensure` runs a cleanup after a call however the call ended, unless its process died. A
`bracket` acquires something, prepares, and only then uses it under a cleanup: what it acquired
is given back exactly when the preparation came to its end (`bracket_raised_iff`).
-/

namespace Library

namespace Call

variable {ρ σ ε α β : Type}

/-- The outcome of a call whose cleanup ran after it. -/
def afterCleanup (outcome : Outcome ε α) : Outcome ε Unit → Outcome ε α
  | .returned () => outcome
  | .raised failure => .raised failure
  | .died => .died

/-- `try: call finally: cleanup`. -/
def ensure (call : Call ρ σ ε α) (cleanup : Call ρ σ ε Unit) : Call ρ σ ε α := fun r s =>
  match call r s with
  | (.died, t) => (.died, t)
  | (outcome, t) => (afterCleanup outcome (cleanup r t).1, (cleanup r t).2)

/-- Acquire, prepare, and use what was acquired under a cleanup. -/
def bracket (acquire : Call ρ σ ε Unit) (prepare : Call ρ σ ε β) (use : β → Call ρ σ ε α)
    (release : Call ρ σ ε Unit) : Call ρ σ ε α := do
  acquire
  let prepared ← prepare
  ensure (use prepared) release

variable {call : Call ρ σ ε α} {rest : α → Call ρ σ ε β} {cleanup release : Call ρ σ ε Unit}
  {r : ρ} {s s' t : σ} {failure : ε}

theorem bind_of_returns {value : α} (h : call.Returns r s value t) :
    (call >>= rest) r s = rest value r t := by
  change bind call rest r s = _
  rw [bind, h]

theorem bind_of_raised (h : call r s = (.raised failure, t)) :
    (call >>= rest) r s = (.raised failure, t) := by
  change bind call rest r s = _
  rw [bind, h]

theorem bind_of_died (h : call r s = (.died, t)) : (call >>= rest) r s = (.died, t) := by
  change bind call rest r s = _
  rw [bind, h]

theorem handle_of_raised {handler : ε → Call ρ σ ε α} (h : call r s = (.raised failure, t)) :
    handle call handler r s = handler failure r t := by
  rw [handle, h]

theorem handle_of_died {handler : ε → Call ρ σ ε α} (h : call r s = (.died, t)) :
    handle call handler r s = (.died, t) := by
  rw [handle, h]

/-- After a cleanup that returns, the outcome is the call's own. -/
theorem ensure_of_returns {outcome : Outcome ε α} {u : Unit} (hcall : call r s = (outcome, s'))
    (halive : outcome ≠ .died) (hcleanup : cleanup.Returns r s' u t) :
    ensure call cleanup r s = (outcome, t) := by
  rw [Returns] at hcleanup
  cases outcome with
  | returned value | raised failure => simp only [ensure, hcall, hcleanup, afterCleanup]
  | died => exact absurd rfl halive

section Bracket

variable {acquire : Call ρ σ ε Unit} {prepare : Call ρ σ ε β} {use : β → Call ρ σ ε α}
  {held free : σ → Prop}

/-- What a bracket holds between its acquisition and its release. -/
structure Holds (prepare : Call ρ σ ε β) (use : β → Call ρ σ ε α) (release : Call ρ σ ε Unit)
    (r : ρ) (held free : σ → Prop) : Prop where
  prepare : ∀ s, held s → Ends prepare r s held
  use : ∀ prepared s, held s → Ends (use prepared) r s held
  release : ∀ s, held s → ∃ t, release.Returns r s () t ∧ free t
  disjoint : ∀ s, held s → ¬free s

theorem Holds.ensured (h : Holds prepare use release r held free) {prepared : β}
    {outcome : Outcome ε α} (hheld : held s)
    (hrun : ensure (use prepared) release r s = (outcome, t)) (halive : outcome ≠ .died) :
    free t := by
  have hends := h.use prepared s hheld
  rcases hresult : use prepared r s with ⟨found, u⟩
  rw [Ends, hresult] at hends
  obtain ⟨v, hrelease, hfree⟩ := h.release u hends
  cases found with
  | died =>
      rw [ensure, hresult] at hrun
      exact absurd (congrArg Prod.fst hrun).symm halive
  | returned value | raised other =>
      rw [ensure_of_returns hresult (by simp) hrelease] at hrun
      obtain ⟨-, rfl⟩ := Prod.mk.inj hrun
      exact hfree

/-- A bracket that raised gave back what it had acquired exactly when its preparation
    returned. -/
theorem bracket_raised_iff (h : Holds prepare use release r held free)
    (hacquire : acquire.Returns r s () s') (hheld : held s')
    (hrun : bracket acquire prepare use release r s = (.raised failure, t)) :
    free t ↔ ∃ prepared u, prepare.Returns r s' prepared u := by
  rw [bracket, bind_of_returns hacquire] at hrun
  have hends := h.prepare s' hheld
  rcases hresult : prepare r s' with ⟨outcome, u⟩
  rw [Ends, hresult] at hends
  cases outcome with
  | returned prepared =>
      rw [bind_of_returns hresult] at hrun
      exact ⟨fun _ => ⟨prepared, u, hresult⟩, fun _ => h.ensured hends hrun (by simp)⟩
  | raised other =>
      rw [bind_of_raised hresult] at hrun
      obtain ⟨-, rfl⟩ := Prod.mk.inj hrun
      constructor
      · intro hfree
        exact absurd hfree (h.disjoint u hends)
      · rintro ⟨prepared, _, hreturns⟩
        rw [Returns, hresult] at hreturns
        cases congrArg Prod.fst hreturns
  | died =>
      rw [bind_of_died hresult] at hrun
      cases congrArg Prod.fst hrun

end Bracket

end Call

end Library
