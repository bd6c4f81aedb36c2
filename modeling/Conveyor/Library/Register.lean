import Mathlib.Data.List.Induction
import Conveyor.Library.Checked

/-!
# Registers

A register that the items of a history write to: its value is the last one written, or
the initial one. A loop that sets a field of its state to what an item writes, and keeps
it when the item writes nothing, computes the register: `foldlM_register`.
-/

namespace Library

variable {ε α σ κ : Type}

/-- The value of a register after a history. -/
def lastWrite (writes : ε → Option α) (initial : α) (history : List ε) : α :=
  (history.reverse.findSome? writes).getD initial

variable {writes : ε → Option α} {initial : α} {history later : List ε} {item : ε}

@[simp] theorem lastWrite_nil : lastWrite writes initial [] = initial := rfl

theorem lastWrite_snoc :
    lastWrite writes initial (history ++ [item]) =
      (writes item).getD (lastWrite writes initial history) := by
  cases h : writes item <;> simp [lastWrite, h]

theorem lastWrite_append :
    lastWrite writes initial (history ++ later) =
      lastWrite writes (lastWrite writes initial history) later := by
  induction later using List.reverseRecOn with
  | nil => simp
  | append_singleton rest item ih => rw [← List.append_assoc, lastWrite_snoc, lastWrite_snoc, ih]

/-- A history that writes nothing more leaves the register alone. -/
theorem lastWrite_of_silent (h : ∀ item ∈ later, writes item = none) :
    lastWrite writes initial later = initial := by
  have hnone : later.reverse.findSome? writes = none := by
    rw [List.findSome?_eq_none_iff]
    exact fun item hitem => h item (List.mem_reverse.mp hitem)
  rw [lastWrite, hnone, Option.getD_none]

/-- The register holds what its last writer wrote. -/
theorem lastWrite_split {value : α} (h : writes item = some value)
    (hlater : ∀ other ∈ later, writes other = none) :
    lastWrite writes initial (history ++ item :: later) = value := by
  have hsplit : history ++ item :: later = (history ++ [item]) ++ later := by simp
  rw [hsplit, lastWrite_append, lastWrite_of_silent hlater, lastWrite_snoc, h, Option.getD_some]

/-- Only the items that write count. -/
theorem lastWrite_filter {p : ε → Bool} (h : ∀ item ∈ history, p item = false → writes item = none) :
    lastWrite writes initial (history.filter p) = lastWrite writes initial history := by
  induction history using List.reverseRecOn with
  | nil => rfl
  | append_singleton rest item ih =>
      have hrest := ih fun other hother => h other (List.mem_append_left _ hother)
      rw [List.filter_append, lastWrite_append, hrest, lastWrite_snoc]
      cases hitem : p item with
      | true => rw [List.filter_cons_of_pos hitem, ← List.nil_append (item :: List.filter p []),
          List.filter_nil, lastWrite_snoc, lastWrite_nil]
      | false =>
          rw [List.filter_cons_of_neg (by simp [hitem]), h item (by simp) hitem]
          rfl

theorem lastWrite_map {β : Type} {f : β → ε} {items : List β} :
    lastWrite writes initial (items.map f) = lastWrite (fun item => writes (f item)) initial items := by
  induction items using List.reverseRecOn with
  | nil => rfl
  | append_singleton rest item ih =>
      rw [List.map_append, List.map_singleton, lastWrite_snoc, lastWrite_snoc, ih]

theorem lastWrite_congr {other : ε → Option α} (h : ∀ item ∈ history, writes item = other item) :
    lastWrite writes initial history = lastWrite other initial history := by
  induction history using List.reverseRecOn with
  | nil => rfl
  | append_singleton rest item ih =>
      rw [lastWrite_snoc, lastWrite_snoc, h item (by simp),
        ih fun item hitem => h item (List.mem_append_left _ hitem)]

/-- A register that is not at its initial value has a last writer. -/
theorem exists_lastWrite (h : lastWrite writes initial history ≠ initial) :
    ∃ earlier item later, history = earlier ++ item :: later ∧
      writes item = some (lastWrite writes initial history) ∧
      ∀ other ∈ later, writes other = none := by
  induction history using List.reverseRecOn with
  | nil => exact absurd rfl h
  | append_singleton rest item ih =>
      cases hwrites : writes item with
      | some value =>
          refine ⟨rest, item, [], rfl, ?_, by simp⟩
          rw [lastWrite_snoc, hwrites, Option.getD_some]
      | none =>
          rw [lastWrite_snoc, hwrites, Option.getD_none] at h ⊢
          obtain ⟨earlier, writer, later, hsplit, hwriter, hlater⟩ := ih h
          refine ⟨earlier, writer, later ++ [item], by simp [hsplit], hwriter, fun other hother => ?_⟩
          rcases List.mem_append.mp hother with hother | hother
          · exact hlater other hother
          · rw [List.mem_singleton.mp hother]
            exact hwrites

/-- A loop whose step sets the field to what an item writes computes the register. -/
theorem foldlM_register {step : σ → ε → Except κ σ} {field : σ → α}
    (hstep : ∀ s item t, step s item = .ok t → field t = (writes item).getD (field s)) {s t : σ}
    (h : history.foldlM step s = .ok t) : field t = lastWrite writes (field s) history := by
  induction history using List.reverseRecOn generalizing t with
  | nil =>
      cases h
      rfl
  | append_singleton rest item ih =>
      obtain ⟨u, hrest, hlast⟩ := foldlM_snoc_eq_ok.mp h
      rw [hstep u item t hlast, ih hrest, lastWrite_snoc]

/-! ### Splits of a history -/

/-- An item of a longer history, with what stands before it. -/
theorem split_snoc_iff {claim : List ε → ε → Prop} :
    (∃ earlier other later, history ++ [item] = earlier ++ other :: later ∧ claim earlier other) ↔
      (∃ earlier other later, history = earlier ++ other :: later ∧ claim earlier other) ∨
        claim history item := by
  constructor
  · rintro ⟨earlier, other, later, hsplit, hclaim⟩
    rcases later.eq_nil_or_concat with rfl | ⟨rest, last, rfl⟩
    · obtain ⟨rfl, hlast⟩ := List.append_inj' hsplit rfl
      simp only [List.cons.injEq, and_true] at hlast
      exact Or.inr (hlast ▸ hclaim)
    · rw [List.concat_eq_append, ← List.cons_append, ← List.append_assoc] at hsplit
      obtain ⟨hinit, -⟩ := List.append_inj' hsplit rfl
      exact Or.inl ⟨earlier, other, rest, hinit, hclaim⟩
  · rintro (⟨earlier, other, later, rfl, hclaim⟩ | hclaim)
    · exact ⟨earlier, other, later ++ [item], by simp, hclaim⟩
    · exact ⟨history, item, [], rfl, hclaim⟩

end Library
