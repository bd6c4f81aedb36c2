import Mathlib.Data.List.Induction

/-!
# Hash chains

Items that name the digest of the item before them. Where the digest determines the
items that occur, a chain is determined by its length and the digest of its last
item: `Chained.eq_of_length_eq`. A single anchor outside the chain therefore pins
the whole history.
-/

namespace Library

variable {α β : Type}

/-- The digest of the last item, or the genesis value of an empty chain. -/
def tailDigest (digest : α → β) (genesis : β) (items : List α) : β :=
  (items.getLast?.map digest).getD genesis

@[simp] theorem tailDigest_nil (digest : α → β) (genesis : β) :
    tailDigest digest genesis [] = genesis := rfl

@[simp] theorem tailDigest_snoc (digest : α → β) (genesis : β) (items : List α) (item : α) :
    tailDigest digest genesis (items ++ [item]) = digest item := by
  simp [tailDigest]

/-- Each item names the digest of the one before it. -/
inductive Chained (previous digest : α → β) (genesis : β) : List α → Prop where
  | nil : Chained previous digest genesis []
  | snoc {items : List α} {item : α} (prior : Chained previous digest genesis items)
      (link : previous item = tailDigest digest genesis items) :
      Chained previous digest genesis (items ++ [item])

variable {previous digest : α → β} {genesis : β} {first second : List α}

theorem Chained.snoc_inv {items : List α} {item : α}
    (h : Chained previous digest genesis (items ++ [item])) :
    Chained previous digest genesis items ∧ previous item = tailDigest digest genesis items := by
  generalize hall : items ++ [item] = all at h
  cases h with
  | nil => simp at hall
  | snoc prior link =>
      obtain ⟨rfl, hlast⟩ := List.append_inj' hall rfl
      simp only [List.cons.injEq, and_true] at hlast
      subst hlast
      exact ⟨prior, link⟩

/-- Backwards along the chain: equal last digests make the last items equal, and
    these name equal digests of the items before them. -/
theorem Chained.eq_of_length_eq (hfirst : Chained previous digest genesis first)
    (hsecond : Chained previous digest genesis second)
    (hinjective : ∀ x ∈ first, ∀ y ∈ second, digest x = digest y → x = y)
    (hlength : first.length = second.length)
    (htail : tailDigest digest genesis first = tailDigest digest genesis second) :
    first = second := by
  induction hfirst generalizing second with
  | nil => exact (List.length_eq_zero_iff.mp hlength.symm).symm
  | @snoc items item prior link ih =>
      rcases second.eq_nil_or_concat with rfl | ⟨others, other, rfl⟩
      · simp at hlength
      rw [List.concat_eq_append] at *
      rw [tailDigest_snoc, tailDigest_snoc] at htail
      have hitem : item = other := hinjective item (by simp) other (by simp) htail
      subst hitem
      obtain ⟨hothers, hlink⟩ := hsecond.snoc_inv
      have hitems : items = others := by
        refine ih hothers (fun x hx y hy => ?_) (by simpa using hlength) (link.symm.trans hlink)
        exact hinjective x (List.mem_append_left _ hx) y (List.mem_append_left _ hy)
      rw [hitems]

end Library
