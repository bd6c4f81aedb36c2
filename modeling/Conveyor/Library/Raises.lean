import Conveyor.Library.Checked

/-!
# What a computation raises

`Raises bad x` says that `x` fails with one of the failures in `bad`. The rules follow the shape of
the computation: a sequence raises in its first part or behind what that returned, a check raises
what it is given, and a loop raises at its first item that is not read.
-/

namespace Library

variable {α β ε : Type} {bad : ε → Prop}

def Raises (bad : ε → Prop) (x : Except ε α) : Prop := ∃ failure, x = .error failure ∧ bad failure

@[simp] theorem raises_ok (a : α) : ¬Raises bad (.ok a : Except ε α) := by
  rintro ⟨_, h, -⟩
  cases h

@[simp] theorem raises_pure (a : α) : ¬Raises bad (pure a : Except ε α) := raises_ok a

@[simp] theorem raises_error {failure : ε} :
    Raises bad (.error failure : Except ε α) ↔ bad failure :=
  ⟨fun ⟨_, h, hbad⟩ => Except.error.inj h ▸ hbad, fun h => ⟨failure, rfl, h⟩⟩

theorem raises_bind {x : Except ε α} {f : α → Except ε β} :
    Raises bad (x >>= f) ↔ Raises bad x ∨ ∃ a, x = .ok a ∧ Raises bad (f a) := by
  cases x with
  | error failure => simp [bind, Except.bind]
  | ok a => simp [bind, Except.bind]

theorem raises_map {x : Except ε α} {f : α → β} : Raises bad (x.map f) ↔ Raises bad x := by
  cases x <;> simp [Except.map]

theorem not_raises_require {condition : Prop} [Decidable condition] {failure : ε}
    (h : ¬bad failure) : ¬Raises bad (require condition failure) := by
  unfold require
  split
  · exact raises_ok _
  · simpa using h

/-- A check that raises nothing bad is passed by on the way to something bad. -/
theorem raises_require_bind {condition : Prop} [Decidable condition] {failure : ε}
    {f : Unit → Except ε β} (h : ¬bad failure) :
    Raises bad (require condition failure >>= f) ↔ condition ∧ Raises bad (f ()) := by
  rw [raises_bind]
  constructor
  · rintro (hfail | ⟨⟨⟩, hpass, hbad⟩)
    · exact absurd hfail (not_raises_require h)
    · exact ⟨require_eq_ok.mp hpass, hbad⟩
  · rintro ⟨hpass, hbad⟩
    exact Or.inr ⟨(), require_of hpass, hbad⟩

/-- A fold of steps that raise nothing bad raises nothing bad. -/
theorem not_raises_foldlM {f : β → α → Except ε β} (h : ∀ acc item, ¬Raises bad (f acc item))
    {items : List α} {acc : β} : ¬Raises bad (items.foldlM f acc) := by
  induction items generalizing acc with
  | nil => exact raises_pure _
  | cons item rest ih =>
      rw [List.foldlM_cons, raises_bind]
      rintro (hfirst | ⟨next, -, hrest⟩)
      · exact h acc item hfirst
      · exact ih hrest

/-- A loop over items raises at the first of them that is not read. -/
theorem raises_mapM {f : α → Except ε β} {items : List α} :
    Raises bad (items.mapM f) ↔ ∃ front item back, items = front ++ item :: back ∧
      (∀ other ∈ front, ∃ b, f other = .ok b) ∧ Raises bad (f item) := by
  induction items with
  | nil => simp
  | cons first rest ih =>
      rw [List.mapM_cons, raises_bind]
      constructor
      · rintro (hfirst | ⟨b, hb, hrest⟩)
        · exact ⟨[], first, rest, rfl, fun _ h => (List.not_mem_nil h).elim, hfirst⟩
        · rcases raises_bind.mp hrest with hloop | ⟨bs, -, hpure⟩
          · obtain ⟨front, item, back, rfl, hfront, hitem⟩ := ih.mp hloop
            exact ⟨first :: front, item, back, rfl,
              List.forall_mem_cons.mpr ⟨⟨b, hb⟩, hfront⟩, hitem⟩
          · exact absurd hpure (raises_pure _)
      · rintro ⟨front, item, back, hitems, hfront, hitem⟩
        cases front with
        | nil =>
            cases hitems
            exact Or.inl hitem
        | cons other front =>
            cases hitems
            rw [List.forall_mem_cons] at hfront
            obtain ⟨b, hb⟩ := hfront.1
            exact Or.inr ⟨b, hb, raises_bind.mpr
              (Or.inl (ih.mpr ⟨front, item, back, rfl, hfront.2, hitem⟩))⟩

/-- Where every item is read or bad, the loop raises for any bad item. -/
theorem raises_mapM_iff {f : α → Except ε β} {items : List α}
    (h : ∀ item, (∃ b, f item = .ok b) ∨ Raises bad (f item)) :
    Raises bad (items.mapM f) ↔ ∃ item ∈ items, Raises bad (f item) := by
  induction items with
  | nil => simp
  | cons first rest ih =>
      rw [List.mapM_cons, raises_bind, List.exists_mem_cons_iff]
      rcases h first with ⟨b, hb⟩ | hbad
      · simp only [hb, raises_bind, Except.ok.injEq, exists_eq_left', ih, raises_pure, raises_ok,
          and_false, exists_false, or_false, false_or]
      · simp only [hbad, true_or]

end Library
