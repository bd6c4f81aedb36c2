import Conveyor.Library.Checked

/-!
# Calls with effects

A call reads an environment, changes a state, and comes to one of three outcomes: it
returns, it raises, or its process dies. What a call did before it raised or died
stays done, so a state belongs to every outcome.

`Returns` inverts a call that returned into what its parts did. `Ends` says that the
state after the call satisfies a property whatever the outcome; its rule for a
sequence hands what the first part returned to the second. `Respects` says the same of
every start at once for a relation between the states before and after; with a
preorder for the relation, a call built from parts that respect it respects it.

`attempt` is the one call that touches the outside: the environment decides whether it
is done, whether it fails before or after its effect, or whether the process dies there.
-/

namespace Library

inductive Outcome (ε α : Type) where
  | returned (value : α)
  | raised (failure : ε)
  | died
deriving DecidableEq, Repr

def Call (ρ σ ε α : Type) : Type := ρ → σ → Outcome ε α × σ

namespace Call

variable {ρ σ ε α β : Type}

def bind (call : Call ρ σ ε α) (rest : α → Call ρ σ ε β) : Call ρ σ ε β := fun r s =>
  match call r s with
  | (.returned value, t) => rest value r t
  | (.raised failure, t) => (.raised failure, t)
  | (.died, t) => (.died, t)

instance : Monad (Call ρ σ ε) where
  pure value := fun _ s => (.returned value, s)
  bind := bind

/-- A computation on the environment and the state that changes neither. -/
def reads (f : ρ → σ → Except ε α) : Call ρ σ ε α := fun r s =>
  match f r s with
  | .ok value => (.returned value, s)
  | .error failure => (.raised failure, s)

/-- A change of the state that is either made as a whole or not at all. -/
def update (f : ρ → σ → Except ε (α × σ)) : Call ρ σ ε α := fun r s =>
  match f r s with
  | .ok (value, t) => (.returned value, t)
  | .error failure => (.raised failure, s)

def raise (failure : ε) : Call ρ σ ε α := fun _ s => (.raised failure, s)

/-- Raise unless the condition holds. -/
def check (condition : Prop) [Decidable condition] (failure : ε) : Call ρ σ ε Unit :=
  if condition then pure () else raise failure

/-- What the environment does to one attempt. -/
inductive Fault (ε : Type) where
  | none
  | raises (failure : ε)
  | raisesAfter (failure : ε)
  | dies
  | diesAfter
deriving DecidableEq, Repr

/-- One attempt at a change; `tick` moves the state past the attempt, done or not. -/
def attempt (fault : ρ → σ → Fault ε) (tick : σ → σ) (f : ρ → σ → Except ε (α × σ)) :
    Call ρ σ ε α := fun r s =>
  match fault r s, f r s with
  | .none, .ok (value, t) => (.returned value, tick t)
  | .none, .error failure => (.raised failure, tick s)
  | .raises failure, _ => (.raised failure, tick s)
  | .raisesAfter failure, .ok (_, t) => (.raised failure, tick t)
  | .raisesAfter _, .error failure => (.raised failure, tick s)
  | .dies, _ => (.died, tick s)
  | .diesAfter, .ok (_, t) => (.died, tick t)
  | .diesAfter, .error _ => (.died, tick s)

/-- `try: call except: handler`: a failure runs the handler, a death does not. -/
def handle (call : Call ρ σ ε α) (handler : ε → Call ρ σ ε α) : Call ρ σ ε α := fun r s =>
  match call r s with
  | (.raised failure, t) => handler failure r t
  | (outcome, t) => (outcome, t)

/-- The calls on the items, in their order. -/
def forEach (items : List α) (call : α → Call ρ σ ε β) : Call ρ σ ε (List β) :=
  match items with
  | [] => pure []
  | item :: rest => do
      let value ← call item
      let values ← forEach rest call
      return value :: values

/-! ### What a call that returned did -/

def Returns (call : Call ρ σ ε α) (r : ρ) (s : σ) (value : α) (t : σ) : Prop :=
  call r s = (.returned value, t)

variable {call : Call ρ σ ε α} {rest : α → Call ρ σ ε β} {r : ρ} {s t : σ} {value : α} {b : β}

theorem returns_pure {value' : α} :
    Returns (pure value' : Call ρ σ ε α) r s value t ↔ value = value' ∧ t = s := by
  simp [Returns, pure, eq_comm]

theorem returns_bind :
    Returns (call >>= rest) r s b t ↔
      ∃ value u, Returns call r s value u ∧ Returns (rest value) r u b t := by
  change bind call rest r s = _ ↔ _
  unfold bind Returns
  rcases call r s with ⟨outcome, u⟩
  cases outcome <;> simp

theorem returns_reads {f : ρ → σ → Except ε α} :
    Returns (reads f) r s value t ↔ f r s = .ok value ∧ t = s := by
  unfold Returns reads
  cases f r s <;> simp [eq_comm]

theorem returns_update {f : ρ → σ → Except ε (α × σ)} :
    Returns (update f) r s value t ↔ f r s = .ok (value, t) := by
  unfold Returns update
  cases f r s with
  | error failure => simp
  | ok result => simp [Prod.ext_iff]

theorem returns_raise {failure : ε} :
    ¬Returns (raise failure : Call ρ σ ε α) r s value t := by
  simp [Returns, raise]

theorem returns_check {condition : Prop} [Decidable condition] {failure : ε} {u : Unit} :
    Returns (check condition failure : Call ρ σ ε Unit) r s u t ↔ condition ∧ t = s := by
  unfold check
  split
  · rename_i h
    simp [returns_pure, h]
  · rename_i h
    simp [returns_raise, h]

theorem returns_ite {condition : Prop} [Decidable condition] {other : Call ρ σ ε α} :
    Returns (if condition then call else other) r s value t ↔
      (condition ∧ Returns call r s value t) ∨ (¬condition ∧ Returns other r s value t) := by
  split <;> simp_all

theorem returns_attempt {fault : ρ → σ → Fault ε} {tick : σ → σ}
    {f : ρ → σ → Except ε (α × σ)} :
    Returns (attempt fault tick f) r s value t ↔
      fault r s = .none ∧ ∃ u, f r s = .ok (value, u) ∧ t = tick u := by
  unfold Returns attempt
  rcases fault r s with _ | _ | _ | _ | _ <;> rcases f r s with failure | ⟨found, u⟩ <;>
    simp [eq_comm]

theorem returns_handle {handler : ε → Call ρ σ ε α} :
    Returns (call.handle handler) r s value t ↔
      Returns call r s value t ∨
        ∃ failure u, call r s = (.raised failure, u) ∧ Returns (handler failure) r u value t := by
  unfold Returns handle
  rcases call r s with ⟨outcome, u⟩
  cases outcome <;> simp

/-! ### Where every outcome ends -/

/-- Whatever the outcome of the call, its state has the property. -/
def Ends (call : Call ρ σ ε α) (r : ρ) (s : σ) (post : σ → Prop) : Prop := post (call r s).2

variable {post : σ → Prop}

theorem ends_pure (h : post s) : Ends (pure value : Call ρ σ ε α) r s post := h

theorem ends_reads {f : ρ → σ → Except ε α} (h : post s) : Ends (reads f) r s post := by
  unfold Ends reads
  cases f r s <;> exact h

theorem ends_update {f : ρ → σ → Except ε (α × σ)} (h : post s)
    (hdone : ∀ value t, f r s = .ok (value, t) → post t) : Ends (update f) r s post := by
  unfold Ends update
  rcases hf : f r s with failure | ⟨found, t⟩
  · exact h
  · exact hdone found t hf

theorem ends_raise {failure : ε} (h : post s) : Ends (raise failure : Call ρ σ ε α) r s post := h

theorem ends_check {condition : Prop} [Decidable condition] {failure : ε} (h : post s) :
    Ends (check condition failure : Call ρ σ ε Unit) r s post := by
  unfold check
  split
  · exact ends_pure h
  · exact ends_raise h

theorem ends_attempt {fault : ρ → σ → Fault ε} {tick : σ → σ} {f : ρ → σ → Except ε (α × σ)}
    (h : post (tick s)) (hdone : ∀ value t, f r s = .ok (value, t) → post (tick t)) :
    Ends (attempt fault tick f) r s post := by
  unfold Ends attempt
  rcases hf : f r s with failure | ⟨found, t⟩
  · rcases fault r s with _ | _ | _ | _ | _ <;> exact h
  · have hafter := hdone found t hf
    rcases fault r s with _ | _ | _ | _ | _ <;> assumption

theorem Ends.bind (hcall : Ends call r s post)
    (hrest : ∀ value t, Returns call r s value t → Ends (rest value) r t post) :
    Ends (call >>= rest) r s post := by
  change post (Call.bind call rest r s).2
  unfold Ends at hcall
  unfold Call.bind
  rcases hresult : call r s with ⟨outcome, t⟩
  rw [hresult] at hcall
  cases outcome with
  | returned value => exact hrest value t hresult
  | raised failure => exact hcall
  | died => exact hcall

theorem Ends.handle {handler : ε → Call ρ σ ε α} (hcall : Ends call r s post)
    (hhandler : ∀ failure t, call r s = (.raised failure, t) → Ends (handler failure) r t post) :
    Ends (call.handle handler) r s post := by
  unfold Ends at hcall ⊢
  unfold Call.handle
  rcases hresult : call r s with ⟨outcome, t⟩
  rw [hresult] at hcall
  cases outcome with
  | raised failure => exact hhandler failure t hresult
  | returned value => exact hcall
  | died => exact hcall

theorem Ends.of_returns (h : Ends call r s post) (hcall : Returns call r s value t) : post t := by
  unfold Ends at h
  rwa [hcall] at h

/-! ### Where a call is cut off -/

/-- A postcondition for the return, and one for every other outcome. -/
def Runs (call : Call ρ σ ε α) (r : ρ) (s : σ) (returned : α → σ → Prop) (cut : σ → Prop) : Prop :=
  Ends call r s cut ∧ ∀ value t, Returns call r s value t → returned value t

variable {returned : α → σ → Prop} {result : β → σ → Prop} {cut : σ → Prop}

theorem runs_pure (hcut : cut s) (h : returned value s) :
    Runs (pure value : Call ρ σ ε α) r s returned cut := by
  refine ⟨hcut, fun found t hfound => ?_⟩
  obtain ⟨rfl, rfl⟩ := returns_pure.mp hfound
  exact h

theorem Runs.mono {returned' : α → σ → Prop} {cut' : σ → Prop} (h : Runs call r s returned cut)
    (hreturned : ∀ value t, returned value t → returned' value t) (hcut : ∀ t, cut t → cut' t) :
    Runs call r s returned' cut' :=
  ⟨hcut _ h.1, fun value t hvalue => hreturned value t (h.2 value t hvalue)⟩

/-- A first part whose cuts are cuts of the whole. -/
theorem Runs.step (hcall : Ends call r s cut)
    (hrest : ∀ value t, Returns call r s value t → Runs (rest value) r t result cut) :
    Runs (call >>= rest) r s result cut := by
  constructor
  · exact hcall.bind fun value t hvalue => (hrest value t hvalue).1
  · intro b t h
    obtain ⟨value, u, hvalue, hb⟩ := returns_bind.mp h
    exact (hrest value u hvalue).2 b t hb

theorem Runs.bind (hcall : Runs call r s returned cut)
    (hrest : ∀ value t, returned value t → Runs (rest value) r t result cut) :
    Runs (call >>= rest) r s result cut :=
  Runs.step hcall.1 fun value t hvalue => hrest value t (hcall.2 value t hvalue)

theorem runs_attempt {fault : ρ → σ → Fault ε} {tick : σ → σ} {f : ρ → σ → Except ε (α × σ)}
    (h : cut (tick s))
    (hdone : ∀ value t, f r s = .ok (value, t) → cut (tick t) ∧ returned value (tick t)) :
    Runs (attempt fault tick f) r s returned cut := by
  refine ⟨ends_attempt h fun value t hf => (hdone value t hf).1, fun value t hvalue => ?_⟩
  obtain ⟨-, u, hf, rfl⟩ := returns_attempt.mp hvalue
  exact (hdone value u hf).2

theorem runs_ite {condition : Prop} [Decidable condition] {other : Call ρ σ ε α}
    (hcall : condition → Runs call r s returned cut)
    (hother : ¬condition → Runs other r s returned cut) :
    Runs (if condition then call else other) r s returned cut := by
  split
  · rename_i h
    exact hcall h
  · rename_i h
    exact hother h

/-! ### What every outcome respects

`Respects` is a class, so that a call made of parts with instances has one by unfolding it. -/

/-- Whatever the outcome, the states before and after the call are related. -/
class Respects (relation : σ → σ → Prop) (call : Call ρ σ ε α) : Prop where
  related : ∀ r s, relation s (call r s).2

variable {relation : σ → σ → Prop}

theorem Respects.ends [hcall : Respects relation call] : Ends call r s (relation s) :=
  hcall.related r s

theorem Respects.of_returns [hcall : Respects relation call] (h : Returns call r s value t) :
    relation s t := by
  have hrelated := hcall.related r s
  rwa [h] at hrelated

theorem Respects.of_eq [hcall : Respects relation call] {outcome : Outcome ε α}
    (h : call r s = (outcome, t)) : relation s t := by
  have hrelated := hcall.related r s
  rwa [h] at hrelated

section Preorder

variable [IsPreorder σ relation]

instance respects_pure (value : α) : Respects relation (pure value : Call ρ σ ε α) :=
  ⟨fun _ s => refl_of relation s⟩

instance respects_reads (f : ρ → σ → Except ε α) : Respects relation (reads f) :=
  ⟨fun _ s => ends_reads (refl_of relation s)⟩

instance respects_raise (failure : ε) : Respects relation (raise failure : Call ρ σ ε α) :=
  ⟨fun _ s => refl_of relation s⟩

instance respects_check (condition : Prop) [Decidable condition] (failure : ε) :
    Respects relation (check condition failure : Call ρ σ ε Unit) :=
  ⟨fun _ s => ends_check (refl_of relation s)⟩

instance respects_bind [hcall : Respects relation call]
    [hrest : ∀ value, Respects relation (rest value)] : Respects relation (call >>= rest) :=
  ⟨fun r s => Ends.bind (hcall.related r s) fun value t hvalue =>
    trans_of relation (Respects.of_returns hvalue) ((hrest value).related r t)⟩

theorem Respects.bind (hcall : Respects relation call)
    (hrest : ∀ value, Respects relation (rest value)) : Respects relation (call >>= rest) :=
  respects_bind

/-- A sequence from one state, where the second part counts on what the first returned. -/
theorem Ends.bind_related (hcall : Ends call r s (relation s))
    (hrest : ∀ value t, Returns call r s value t → Ends (rest value) r t (relation t)) :
    Ends (call >>= rest) r s (relation s) :=
  hcall.bind fun value t hvalue =>
    trans_of relation (hcall.of_returns hvalue) (hrest value t hvalue)

instance respects_ite {condition : Prop} [Decidable condition] {other : Call ρ σ ε α}
    [hcall : Respects relation call] [hother : Respects relation other] :
    Respects relation (if condition then call else other) := by
  split
  · exact hcall
  · exact hother

instance respects_handle {handler : ε → Call ρ σ ε α} [hcall : Respects relation call]
    [hhandler : ∀ failure, Respects relation (handler failure)] :
    Respects relation (call.handle handler) := by
  refine ⟨fun r s => Ends.handle (hcall.related r s) fun failure t h => ?_⟩
  have hrelated := hcall.related r s
  rw [h] at hrelated
  exact trans_of relation hrelated ((hhandler failure).related r t)

instance respects_forEach {items : List α} {call : α → Call ρ σ ε β}
    [hcall : ∀ item, Respects relation (call item)] : Respects relation (forEach items call) := by
  induction items with
  | nil => exact respects_pure []
  | cons item rest ih => exact inferInstanceAs (Respects relation (_ >>= fun _ => _ >>= _))

theorem respects_attempt {fault : ρ → σ → Fault ε} {tick : σ → σ}
    {f : ρ → σ → Except ε (α × σ)} (htick : ∀ s, relation s (tick s))
    (h : ∀ r s value t, f r s = .ok (value, t) → relation s t) :
    Respects relation (attempt fault tick f) :=
  ⟨fun r s => ends_attempt (htick s) fun value t hf =>
    trans_of relation (h r s value t hf) (htick t)⟩

theorem respects_update {f : ρ → σ → Except ε (α × σ)}
    (h : ∀ r s value t, f r s = .ok (value, t) → relation s t) :
    Respects relation (update f) :=
  ⟨fun r s => ends_update (refl_of relation s) fun value t hf => h r s value t hf⟩

end Preorder

/-! ### Runs that match

A call that returned in one environment and state returns again in another environment and a
related state. -/

/-- When the first call returns, the second returns a related value in a related state. -/
def Matches (relation : σ → σ → Prop) (r r' : ρ) (values : α → β → Prop) (call : Call ρ σ ε α)
    (other : Call ρ σ ε β) : Prop :=
  ∀ s s' value t, relation s s' → Returns call r s value t →
    ∃ value' t', Returns other r' s' value' t' ∧ values value value' ∧ relation t t'

/-- The call returns the same value from every related state. -/
class Repeats (relation : σ → σ → Prop) (r r' : ρ) (call : Call ρ σ ε α) : Prop where
  repeated : Matches relation r r' Eq call call

variable {r' : ρ}

theorem Repeats.returns [hcall : Repeats relation r r' call] {s' : σ} (hstates : relation s s')
    (h : Returns call r s value t) : ∃ t', Returns call r' s' value t' ∧ relation t t' := by
  obtain ⟨value', t', hother, rfl, hafter⟩ := hcall.repeated s s' value t hstates h
  exact ⟨t', hother, hafter⟩

theorem Matches.bind {γ δ : Type} {values : α → β → Prop} {results : γ → δ → Prop}
    {other : Call ρ σ ε β} {rest : α → Call ρ σ ε γ} {rest' : β → Call ρ σ ε δ}
    (hcall : Matches relation r r' values call other)
    (hrest : ∀ value value', values value value' →
      Matches relation r r' results (rest value) (rest' value')) :
    Matches relation r r' results (call >>= rest) (other >>= rest') := by
  intro s s' result t hstates h
  obtain ⟨value, middle, hvalue, hresult⟩ := returns_bind.mp h
  obtain ⟨value', middle', hvalue', hvalues, hmiddle⟩ := hcall s s' value middle hstates hvalue
  obtain ⟨result', t', hresult', hresults, hafter⟩ :=
    hrest value value' hvalues middle middle' result t hmiddle hresult
  exact ⟨result', t', returns_bind.mpr ⟨value', middle', hvalue', hresult'⟩, hresults, hafter⟩

instance repeats_pure (value : α) : Repeats relation r r' (pure value : Call ρ σ ε α) := by
  refine ⟨fun s s' found t hstates h => ?_⟩
  obtain ⟨rfl, rfl⟩ := returns_pure.mp h
  exact ⟨found, s', rfl, rfl, hstates⟩

instance repeats_raise (failure : ε) : Repeats relation r r' (raise failure : Call ρ σ ε α) :=
  ⟨fun _ _ _ _ _ h => absurd h returns_raise⟩

instance repeats_check (condition : Prop) [Decidable condition] (failure : ε) :
    Repeats relation r r' (check condition failure : Call ρ σ ε Unit) := by
  refine ⟨fun s s' found t hstates h => ?_⟩
  obtain ⟨hcondition, rfl⟩ := returns_check.mp h
  exact ⟨found, s', returns_check.mpr ⟨hcondition, rfl⟩, rfl, hstates⟩

instance repeats_bind [hcall : Repeats relation r r' call]
    [hrest : ∀ value, Repeats relation r r' (rest value)] :
    Repeats relation r r' (call >>= rest) :=
  ⟨hcall.repeated.bind fun value _ h => h ▸ (hrest value).repeated⟩

instance repeats_ite {condition : Prop} [Decidable condition] {other : Call ρ σ ε α}
    [hcall : Repeats relation r r' call] [hother : Repeats relation r r' other] :
    Repeats relation r r' (if condition then call else other) := by
  split
  · exact hcall
  · exact hother

theorem repeats_reads {f : ρ → σ → Except ε α} (h : ∀ s s', relation s s' → f r' s' = f r s) :
    Repeats relation r r' (reads f) := by
  refine ⟨fun s s' found t hstates hreads => ?_⟩
  obtain ⟨hfound, rfl⟩ := returns_reads.mp hreads
  exact ⟨found, s', returns_reads.mpr ⟨(h t s' hstates).trans hfound, rfl⟩, rfl, hstates⟩

/-! ### A call on a part of a larger state -/

section Zoom

variable {τ : Type} {get : τ → σ} {set : σ → τ → τ} {large after : τ}

/-- A call on the part of a state that `get` takes out and `set` puts back. -/
def zoom (get : τ → σ) (set : σ → τ → τ) (call : Call ρ σ ε α) : Call ρ τ ε α := fun r large =>
  ((call r (get large)).1, set (call r (get large)).2 large)

theorem returns_zoom :
    (zoom get set call).Returns r large value after ↔
      ∃ t, call.Returns r (get large) value t ∧ after = set t large := by
  simp only [Returns, zoom, Prod.mk.injEq]
  constructor
  · rintro ⟨hvalue, rfl⟩
    exact ⟨_, Prod.ext hvalue rfl, rfl⟩
  · rintro ⟨t, hcall, rfl⟩
    rw [hcall]
    exact ⟨rfl, rfl⟩

theorem ends_zoom {post : τ → Prop} (h : Ends call r (get large) fun t => post (set t large)) :
    Ends (zoom get set call) r large post := h

theorem respects_zoom {larger : τ → τ → Prop} [hcall : Respects relation call]
    (h : ∀ large t, relation (get large) t → larger large (set t large)) :
    Respects larger (zoom get set call) :=
  ⟨fun r large => h large _ (hcall.related r (get large))⟩

end Zoom

end Call

end Library
