import Mathlib.Data.List.Basic

/-!
# Dictionaries in insertion order

A dictionary whose iteration order is the order in which its keys were first
inserted. An insertion under a present key replaces its value in place.
-/

namespace Library

abbrev Dict (α : Type) := List (String × α)

namespace Dict

variable {α : Type}

def get? (dict : Dict α) (key : String) : Option α := dict.lookup key

def keys (dict : Dict α) : List String := dict.map Prod.fst

def insert : Dict α → String → α → Dict α
  | [], key, value => [(key, value)]
  | (k, v) :: rest, key, value =>
      if key = k then (k, value) :: rest else (k, v) :: insert rest key value

def erase (dict : Dict α) (key : String) : Dict α := dict.filter fun item => item.1 ≠ key

@[simp] theorem get?_nil (key : String) : get? ([] : Dict α) key = none := rfl

theorem get?_cons (k : String) (v : α) (rest : Dict α) (key : String) :
    get? ((k, v) :: rest) key = if key = k then some v else get? rest key := by
  simp only [get?, List.lookup_cons]
  by_cases h : key = k
  · simp [h]
  · simp [h, beq_eq_false_iff_ne.mpr h]

theorem get?_insert (dict : Dict α) (key : String) (value : α) (other : String) :
    get? (dict.insert key value) other =
      if other = key then some value else get? dict other := by
  induction dict with
  | nil => simp [insert, get?_cons]
  | cons head rest ih =>
      obtain ⟨k, v⟩ := head
      unfold insert
      by_cases hk : key = k
      · subst hk
        by_cases ho : other = key <;> simp [get?_cons, ho]
      · by_cases ho : other = k
        · have hne : ¬k = key := fun h => hk h.symm
          simp [hk, get?_cons, ho, hne]
        · simp [hk, get?_cons, ho, ih]

theorem get?_erase (dict : Dict α) (key other : String) :
    get? (dict.erase key) other = if other = key then none else get? dict other := by
  induction dict with
  | nil => simp [erase]
  | cons head rest ih =>
      obtain ⟨k, v⟩ := head
      by_cases hk : k = key
      · subst hk
        have hstep : erase ((k, v) :: rest) k = erase rest k := by simp [erase]
        rw [hstep, ih, get?_cons]
        by_cases ho : other = k <;> simp [ho]
      · have hstep : erase ((k, v) :: rest) key = (k, v) :: erase rest key := by
          simp [erase, hk]
        rw [hstep, get?_cons, get?_cons, ih]
        by_cases ho : other = k
        · simp [ho, hk]
        · simp [ho]

theorem get?_eq_none {dict : Dict α} {key : String} :
    get? dict key = none ↔ key ∉ dict.keys := by
  induction dict with
  | nil => simp [keys]
  | cons head rest ih =>
      obtain ⟨k, v⟩ := head
      rw [get?_cons]
      by_cases h : key = k
      · simp [h, keys]
      · simpa [h, keys] using ih

/-- An insertion under a new key goes to the end. -/
theorem insert_of_get?_eq_none {dict : Dict α} {key : String} (h : get? dict key = none)
    (value : α) : dict.insert key value = dict ++ [(key, value)] := by
  induction dict with
  | nil => rfl
  | cons head rest ih =>
      obtain ⟨k, v⟩ := head
      rw [get?_cons] at h
      by_cases hk : key = k
      · simp [hk] at h
      · simp only [hk, if_false] at h
        simp [insert, hk, ih h]

theorem mem_keys_insert {dict : Dict α} {key other : String} {value : α} :
    other ∈ (dict.insert key value).keys ↔ other = key ∨ other ∈ dict.keys := by
  have hget := get?_insert dict key value other
  rw [← not_iff_not, ← get?_eq_none, hget, not_or, ← get?_eq_none]
  by_cases h : other = key <;> simp [h]

/-- The later of two insertions under one key is the one that stays. -/
theorem insert_insert (dict : Dict α) (key : String) (value other : α) :
    (dict.insert key value).insert key other = dict.insert key other := by
  induction dict with
  | nil => simp [insert]
  | cons head rest ih =>
      obtain ⟨k, v⟩ := head
      unfold insert
      by_cases hk : key = k
      · simp [hk, insert]
      · simp [hk, insert, ih]

theorem keys_insert (dict : Dict α) (key : String) (value : α) :
    (dict.insert key value).keys = if key ∈ dict.keys then dict.keys else dict.keys ++ [key] := by
  induction dict with
  | nil => simp [insert, keys]
  | cons head rest ih =>
      obtain ⟨k, v⟩ := head
      unfold insert
      by_cases hk : key = k
      · simp [hk, keys]
      · have hcons (dict : Dict α) : keys ((k, v) :: dict) = k :: keys dict := rfl
        simp only [hk, if_false, hcons, ih, List.mem_cons, false_or]
        split <;> rfl
/-- An insertion makes no key occur twice. -/
theorem nodup_keys_insert {dict : Dict α} (h : dict.keys.Nodup) (key : String) (value : α) :
    (dict.insert key value).keys.Nodup := by
  induction dict with
  | nil => simp [insert, keys]
  | cons head rest ih =>
      obtain ⟨k, v⟩ := head
      have hcons : keys ((k, v) :: rest) = k :: keys rest := rfl
      rw [hcons, List.nodup_cons] at h
      unfold insert
      split
      · exact List.nodup_cons.mpr h
      · rename_i hne
        refine List.nodup_cons.mpr ⟨fun hmem => ?_, ih h.2⟩
        rcases mem_keys_insert.mp hmem with heq | hmem
        · exact hne heq.symm
        · exact h.1 hmem

/-- Where no key occurs twice, an entry is found under its key. -/
theorem get?_of_mem {dict : Dict α} (h : dict.keys.Nodup) {key : String} {value : α}
    (hmem : (key, value) ∈ dict) : get? dict key = some value := by
  induction dict with
  | nil => cases hmem
  | cons head rest ih =>
      obtain ⟨k, v⟩ := head
      have hcons : keys ((k, v) :: rest) = k :: keys rest := rfl
      rw [hcons, List.nodup_cons] at h
      rw [get?_cons]
      rcases List.mem_cons.mp hmem with heq | hrest
      · cases heq
        rw [if_pos rfl]
      · have hkey : key ∈ keys rest := List.mem_map_of_mem hrest
        have hne : key ≠ k := fun heq => h.1 (heq ▸ hkey)
        rw [if_neg hne]
        exact ih h.2 hrest

theorem mem_of_get? {dict : Dict α} {key : String} {value : α}
    (h : get? dict key = some value) : (key, value) ∈ dict := by
  induction dict with
  | nil => cases h
  | cons head rest ih =>
      obtain ⟨k, v⟩ := head
      rw [get?_cons] at h
      split at h
      · rename_i heq
        cases h
        rw [heq]
        exact List.mem_cons_self
      · exact List.mem_cons_of_mem _ (ih h)

/-! ### Dictionaries from a list -/

section

variable {β : Type} {key : β → String} {value : β → α}

theorem get?_foldl_insert_of_not_mem {items : List β} {other : String}
    (h : other ∉ items.map key) (start : Dict α) :
    get? (items.foldl (fun dict item => dict.insert (key item) (value item)) start) other =
      get? start other := by
  induction items generalizing start with
  | nil => rfl
  | cons item rest ih =>
      rw [List.map_cons, List.mem_cons, not_or] at h
      rw [List.foldl_cons, ih h.2, get?_insert, if_neg h.1]

/-- With distinct keys every item keeps its value. -/
theorem get?_foldl_insert_of_mem {items : List β} (hdistinct : (items.map key).Nodup) {item : β}
    (hitem : item ∈ items) (start : Dict α) :
    get? (items.foldl (fun dict item => dict.insert (key item) (value item)) start) (key item) =
      some (value item) := by
  induction items generalizing start with
  | nil => cases hitem
  | cons first rest ih =>
      rw [List.map_cons, List.nodup_cons] at hdistinct
      rw [List.foldl_cons]
      rcases List.mem_cons.mp hitem with rfl | hrest
      · rw [get?_foldl_insert_of_not_mem hdistinct.1, get?_insert, if_pos rfl]
      · exact ih hdistinct.2 hrest _

end

end Dict

end Library
