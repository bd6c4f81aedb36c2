import Mathlib.Data.List.Forall2
import Mathlib.Data.List.Induction

/-!
# Checks that raise

A function that validates its input raises at the first check that fails. In the
`Except` monad such a function is a chain of `require`s; the lemmas here turn
"the chain returned" into the conjunction of what its checks ask for, and
"the loop returned" into what its last pass and the passes before it did.
-/

namespace Library

variable {α β σ ε : Type}

/-- Raise unless the condition holds. -/
def require (condition : Prop) [Decidable condition] (failure : ε) : Except ε Unit :=
  if condition then .ok () else .error failure

theorem require_eq_ok {condition : Prop} [Decidable condition] {failure : ε} {u : Unit} :
    require condition failure = .ok u ↔ condition := by
  unfold require
  split <;> simp_all

theorem require_of {condition : Prop} [Decidable condition] {failure : ε} (h : condition) :
    require condition failure = .ok () :=
  require_eq_ok.mpr h

theorem bind_eq_ok {x : Except ε α} {f : α → Except ε β} {b : β} :
    (x >>= f) = .ok b ↔ ∃ a, x = .ok a ∧ f a = .ok b := by
  cases x with
  | error e => simp [bind, Except.bind]
  | ok a => simp [bind, Except.bind]

theorem ok_bind (a : α) (f : α → Except ε β) : (Except.ok a >>= f) = f a := rfl

theorem require_bind_eq_ok {condition : Prop} [Decidable condition] {failure : ε}
    {f : Unit → Except ε β} {b : β} :
    (require condition failure >>= f) = .ok b ↔ condition ∧ f () = .ok b := by
  rw [bind_eq_ok]
  constructor
  · rintro ⟨⟨⟩, h, hf⟩
    exact ⟨require_eq_ok.mp h, hf⟩
  · rintro ⟨h, hf⟩
    exact ⟨(), require_of h, hf⟩

/-- A check, and then the rest. -/
theorem then_eq_ok {check : Except ε Unit} {next : Except ε β} {b : β} :
    (check >>= fun _ => next) = .ok b ↔ check = .ok () ∧ next = .ok b := by
  rw [bind_eq_ok]
  constructor
  · rintro ⟨⟨⟩, hcheck, hnext⟩
    exact ⟨hcheck, hnext⟩
  · rintro ⟨hcheck, hnext⟩
    exact ⟨(), hcheck, hnext⟩

/-- The loop over a list that ends in `x` returned. -/
theorem foldlM_snoc_eq_ok {f : σ → α → Except ε σ} {s t : σ} {xs : List α} {x : α} :
    (xs ++ [x]).foldlM f s = .ok t ↔
      ∃ u, xs.foldlM f s = .ok u ∧ f u x = .ok t := by
  rw [List.foldlM_append, bind_eq_ok]
  refine exists_congr fun u => and_congr_right fun _ => ?_
  rw [List.foldlM_cons, bind_eq_ok]
  constructor
  · rintro ⟨v, hf, hp⟩
    rw [hf, show v = t by simpa [pure, Except.pure] using hp]
  · intro h
    exact ⟨t, h, rfl⟩

/-- What every pass keeps, the loop keeps. -/
theorem foldlM_invariant (inv : σ → Prop) {f : σ → α → Except ε σ} {xs : List α}
    (hstep : ∀ s x t, x ∈ xs → inv s → f s x = .ok t → inv t) {s t : σ} (hs : inv s)
    (h : xs.foldlM f s = .ok t) : inv t := by
  induction xs generalizing s with
  | nil =>
      cases h
      exact hs
  | cons x rest ih =>
      rw [List.foldlM_cons, bind_eq_ok] at h
      obtain ⟨u, hfirst, hrest⟩ := h
      refine ih (fun a b c hb => hstep a b c (List.mem_cons_of_mem _ hb)) ?_ hrest
      exact hstep s x u List.mem_cons_self hs hfirst

/-- Every item passes the check. -/
def requireAll (check : α → Except ε Unit) : List α → Except ε Unit
  | [] => .ok ()
  | x :: xs => do
      check x
      requireAll check xs

/-- A loop of checks returned when each of its checks did. -/
theorem requireAll_eq_ok {check : α → Except ε Unit} {xs : List α} {u : Unit} :
    requireAll check xs = .ok u ↔ ∀ x ∈ xs, check x = .ok () := by
  induction xs with
  | nil => simp [requireAll]
  | cons x xs ih =>
      rw [requireAll, bind_eq_ok, List.forall_mem_cons, ← ih]
      exact ⟨fun ⟨_, h, h'⟩ => ⟨h, h'⟩, fun ⟨h, h'⟩ => ⟨_, h, h'⟩⟩

/-- A loop that reads every item returned the readings of the items. -/
theorem mapM_eq_ok {f : α → Except ε β} {xs : List α} {ys : List β} :
    xs.mapM f = .ok ys ↔ List.Forall₂ (fun x y => f x = .ok y) xs ys := by
  induction xs generalizing ys with
  | nil =>
      rw [List.mapM_nil, List.forall₂_nil_left_iff]
      exact ⟨fun h => (Except.ok.inj h).symm, fun h => by rw [h]; rfl⟩
  | cons x xs ih =>
      rw [List.mapM_cons, bind_eq_ok, List.forall₂_cons_left_iff]
      constructor
      · rintro ⟨y, hy, h⟩
        obtain ⟨rest, hrest, h⟩ := bind_eq_ok.mp h
        exact ⟨y, rest, hy, ih.mp hrest, (Except.ok.inj h).symm⟩
      · rintro ⟨y, rest, hy, hrest, rfl⟩
        exact ⟨y, hy, bind_eq_ok.mpr ⟨rest, ih.mpr hrest, rfl⟩⟩

/-- Either side of a pairwise relation has a partner for every item of the other. -/
theorem exists_partner {R : α → β → Prop} {xs : List α} {ys : List β}
    (h : List.Forall₂ R xs ys) :
    (∀ x ∈ xs, ∃ y ∈ ys, R x y) ∧ ∀ y ∈ ys, ∃ x ∈ xs, R x y := by
  induction h with
  | nil => simp
  | cons hpair _ ih =>
      constructor
      · intro x hx
        rcases List.mem_cons.mp hx with rfl | hx
        · exact ⟨_, List.mem_cons_self, hpair⟩
        · obtain ⟨y, hy, hpair⟩ := ih.1 x hx
          exact ⟨y, List.mem_cons_of_mem _ hy, hpair⟩
      · intro y hy
        rcases List.mem_cons.mp hy with rfl | hy
        · exact ⟨_, List.mem_cons_self, hpair⟩
        · obtain ⟨x, hx, hpair⟩ := ih.2 y hy
          exact ⟨x, List.mem_cons_of_mem _ hx, hpair⟩

/-- A loop that reads every item returns when every reading does. -/
theorem exists_mapM_eq_ok {f : α → Except ε β} {xs : List α} :
    (∃ ys, xs.mapM f = .ok ys) ↔ ∀ x ∈ xs, ∃ y, f x = .ok y := by
  simp only [mapM_eq_ok]
  induction xs with
  | nil => simp
  | cons x xs ih =>
      rw [List.forall_mem_cons, ← ih]
      constructor
      · rintro ⟨ys, hys⟩
        obtain ⟨y, rest, hy, hrest, -⟩ := List.forall₂_cons_left_iff.mp hys
        exact ⟨⟨y, hy⟩, rest, hrest⟩
      · rintro ⟨⟨y, hy⟩, rest, hrest⟩
        exact ⟨y :: rest, List.forall₂_cons.mpr ⟨hy, hrest⟩⟩

/-- The items, each with its reading. -/
theorem mapM_pairs_eq_ok {f : α → Except ε β} {xs : List α} {pairs : List (α × β)} :
    (xs.mapM fun x => do
      let y ← f x
      return (x, y)) = .ok pairs ↔
      pairs.map Prod.fst = xs ∧ ∀ pair ∈ pairs, f pair.1 = .ok pair.2 := by
  rw [mapM_eq_ok]
  induction xs generalizing pairs with
  | nil =>
      rw [List.forall₂_nil_left_iff, List.map_eq_nil_iff]
      exact ⟨fun h => ⟨h, fun pair hpair => by simp [h] at hpair⟩, fun h => h.1⟩
  | cons x xs ih =>
      rw [List.forall₂_cons_left_iff]
      constructor
      · rintro ⟨pair, rest, hpair, hrest, rfl⟩
        obtain ⟨y, hy, heq⟩ := bind_eq_ok.mp hpair
        cases heq
        obtain ⟨rfl, hreads⟩ := ih.mp hrest
        exact ⟨rfl, List.forall_mem_cons.mpr ⟨hy, hreads⟩⟩
      · rintro ⟨hfirst, hreads⟩
        obtain ⟨pair, rest, rfl, rfl, hrest⟩ := List.map_eq_cons_iff.mp hfirst
        rw [List.forall_mem_cons] at hreads
        exact ⟨pair, rest, bind_eq_ok.mpr ⟨pair.2, hreads.1, rfl⟩, ih.mpr ⟨hrest, hreads.2⟩, rfl⟩

/-- Two lists related item by item, place by place. -/
theorem forall₂_iff_places {R : α → β → Prop} {xs : List α} {ys : List β} :
    List.Forall₂ R xs ys ↔ xs.length = ys.length ∧
      ∀ (i : Nat) (x : α) (y : β), xs[i]? = some x → ys[i]? = some y → R x y := by
  rw [List.forall₂_iff_get]
  refine and_congr_right fun _ => ⟨fun h i x y hx hy => ?_, fun h i hi hi' => ?_⟩
  · obtain ⟨hi, rfl⟩ := List.getElem?_eq_some_iff.mp hx
    obtain ⟨hi', rfl⟩ := List.getElem?_eq_some_iff.mp hy
    exact h i hi hi'
  · exact h i xs[i] ys[i] (List.getElem?_eq_getElem hi) (List.getElem?_eq_getElem hi')

/-- The readings of the items, place by place. -/
theorem mapIdx_mapM_eq_ok {γ : Type} {f : Nat → α → γ} {g : γ → Except ε β} {xs : List α}
    {ys : List β} :
    (xs.mapIdx f).mapM g = .ok ys ↔
      xs.length = ys.length ∧
        ∀ (i : Nat) (x : α) (y : β), xs[i]? = some x → ys[i]? = some y → g (f i x) = .ok y := by
  rw [mapM_eq_ok, forall₂_iff_places, List.length_mapIdx]
  refine and_congr_right fun _ => ⟨fun h i x y hx hy => ?_, fun h i z y hz hy => ?_⟩
  · exact h i (f i x) y (by rw [List.getElem?_mapIdx, hx, Option.map_some]) hy
  · rw [List.getElem?_mapIdx, Option.map_eq_some_iff] at hz
    obtain ⟨x, hx, rfl⟩ := hz
    exact h i x y hx hy

end Library
