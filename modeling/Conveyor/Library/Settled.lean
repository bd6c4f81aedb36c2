import Mathlib.Data.List.Chain
import Mathlib.Logic.Relation

/-!
# Settled lists

A list is settled under a relation when whatever an element relates to stands behind it. Such a
list is the order in which a search has finished with its elements, newest first: no element of it
reaches itself, and read from its end it is a topological order.
-/

namespace Library

open Relation

variable {α : Type} {r : α → α → Prop}

/-- Some element reaches itself. -/
def Cyclic (r : α → α → Prop) : Prop := ∃ x, TransGen r x x

/-- Every element stands once, before all that it relates to. -/
def Settled (r : α → α → Prop) : List α → Prop
  | [] => True
  | x :: rest => x ∉ rest ∧ (∀ y, r x y → y ∈ rest) ∧ Settled r rest

namespace Settled

theorem nodup {items : List α} (h : Settled r items) : items.Nodup := by
  induction items with
  | nil => exact List.nodup_nil
  | cons x rest ih => exact List.nodup_cons.mpr ⟨h.1, ih h.2.2⟩

/-- What an element relates to is in the list. -/
theorem closed {items : List α} (h : Settled r items) {x y : α} (hx : x ∈ items) (hxy : r x y) :
    y ∈ items := by
  induction items with
  | nil => cases hx
  | cons head rest ih =>
      rcases List.mem_cons.mp hx with rfl | hx
      · exact List.mem_cons_of_mem _ (h.2.1 y hxy)
      · exact List.mem_cons_of_mem _ (ih h.2.2 hx)

/-- What an element reaches is in the list. -/
theorem reached {items : List α} (h : Settled r items) {x y : α} (hx : x ∈ items)
    (hxy : TransGen r x y) : y ∈ items := by
  induction hxy with
  | single hstep => exact h.closed hx hstep
  | tail _ hstep ih => exact h.closed ih hstep

/-- No element reaches itself: the first of the list reaches only what stands behind it. -/
theorem irreflexive {items : List α} (h : Settled r items) {x : α} (hx : x ∈ items) :
    ¬TransGen r x x := by
  induction items with
  | nil => cases hx
  | cons head rest ih =>
      rcases List.mem_cons.mp hx with rfl | hx
      · intro hcycle
        obtain ⟨y, hxy, hyx⟩ := TransGen.head'_iff.mp hcycle
        have hy := h.2.1 y hxy
        rcases hyx.cases_head with rfl | ⟨z, hyz, hzx⟩
        · exact h.1 hy
        · exact h.1 (h.2.2.reached hy (TransGen.head' hyz hzx))
      · exact ih h.2.2 hx

/-- From its end the list is a topological order. -/
theorem pairwise_reverse {items : List α} (h : Settled r items) :
    items.reverse.Pairwise fun earlier later => ¬r earlier later := by
  rw [List.pairwise_reverse]
  induction items with
  | nil => exact List.Pairwise.nil
  | cons x rest ih =>
      refine List.pairwise_cons.mpr ⟨fun y hy hyx => ?_, ih h.2.2⟩
      exact h.1 (h.2.2.closed hy hyx)

end Settled

/-- A chain that comes back to one of its elements has a cycle in it. -/
theorem cyclic_of_chain {path : List α} {x : α} (hchain : List.IsChain r (path ++ [x]))
    (hx : x ∈ path) : Cyclic r := by
  obtain ⟨front, behind, rfl⟩ := List.append_of_mem hx
  have htail : List.IsChain r (x :: (behind ++ [x])) := by
    have hsuffix : (x :: (behind ++ [x])) <:+ front ++ x :: behind ++ [x] :=
      ⟨front, by simp⟩
    exact hchain.suffix hsuffix
  have hreached : (x :: (behind ++ [x])).Pairwise (TransGen r) :=
    (htail.imp fun _ _ => TransGen.single).pairwise
  exact ⟨x, (List.pairwise_cons.mp hreached).1 x (by simp)⟩

end Library
