import Conveyor.Library.Dict
import Mathlib.Data.List.Sort
import Mathlib.Data.String.Basic

/-!
# JSON values and their objects

A JSON document as `json.loads` returns it. The fields of an object are kept in
key order, the order in which `json.dumps(..., sort_keys=True)` writes them, so
that two equal objects are the same list. A number with a fraction or an
exponent is kept as its lexeme: no reader of this development computes with one.

The module supplies the object operations, the type tests and the compact
serializer, and the lemmas that let later proofs read an updated object without
unfolding the update.
-/

namespace Library

/-- A JSON value. -/
inductive Json where
  | null
  | bool (value : Bool)
  | int (value : Int)
  | float (lexeme : String)
  | str (value : String)
  | arr (items : List Json)
  | obj (fields : List (String × Json))
deriving Repr, Inhabited

/-- The fields of a JSON object, in key order. -/
abbrev Fields := List (String × Json)

namespace Json

/-! ### Equality -/

mutual

def decEq : (a b : Json) → Decidable (a = b)
  | .null, .null => isTrue rfl
  | .bool a, .bool b => decidable_of_iff (a = b) (by simp)
  | .int a, .int b => decidable_of_iff (a = b) (by simp)
  | .float a, .float b => decidable_of_iff (a = b) (by simp)
  | .str a, .str b => decidable_of_iff (a = b) (by simp)
  | .arr a, .arr b =>
      match decEqItems a b with
      | isTrue h => isTrue (by rw [h])
      | isFalse h => isFalse (by simpa using h)
  | .obj a, .obj b =>
      match decEqFields a b with
      | isTrue h => isTrue (by rw [h])
      | isFalse h => isFalse (by simpa using h)
  | .null, .bool _ | .null, .int _ | .null, .float _ | .null, .str _ | .null, .arr _
  | .null, .obj _ | .bool _, .null | .bool _, .int _ | .bool _, .float _ | .bool _, .str _
  | .bool _, .arr _ | .bool _, .obj _ | .int _, .null | .int _, .bool _ | .int _, .float _
  | .int _, .str _ | .int _, .arr _ | .int _, .obj _ | .float _, .null | .float _, .bool _
  | .float _, .int _ | .float _, .str _ | .float _, .arr _ | .float _, .obj _ | .str _, .null
  | .str _, .bool _ | .str _, .int _ | .str _, .float _ | .str _, .arr _ | .str _, .obj _
  | .arr _, .null | .arr _, .bool _ | .arr _, .int _ | .arr _, .float _ | .arr _, .str _
  | .arr _, .obj _ | .obj _, .null | .obj _, .bool _ | .obj _, .int _ | .obj _, .float _
  | .obj _, .str _ | .obj _, .arr _ => isFalse (by simp)

def decEqItems : (a b : List Json) → Decidable (a = b)
  | [], [] => isTrue rfl
  | a :: as, b :: bs =>
      match decEq a b, decEqItems as bs with
      | isTrue h, isTrue hs => isTrue (by rw [h, hs])
      | isFalse h, _ => isFalse (by simp [h])
      | _, isFalse hs => isFalse (by simp [hs])
  | [], _ :: _ | _ :: _, [] => isFalse (by simp)

def decEqFields : (a b : List (String × Json)) → Decidable (a = b)
  | [], [] => isTrue rfl
  | (k, a) :: as, (l, b) :: bs =>
      match decEq a b, decEqFields as bs with
      | isTrue h, isTrue hs => decidable_of_iff (k = l) (by rw [h, hs]; simp)
      | isFalse h, _ => isFalse (by simp [h])
      | _, isFalse hs => isFalse (by simp [hs])
  | [], _ :: _ | _ :: _, [] => isFalse (by simp)

end

instance : DecidableEq Json := decEq

/-! ### Type tests -/

/-- The types a contract can ask for, as `isinstance` tests them. -/
inductive Kind where
  | str | dict | list | bool | strOrNone
deriving DecidableEq, Repr

def isInstance : Json → Kind → Bool
  | .str _, .str => true
  | .obj _, .dict => true
  | .arr _, .list => true
  | .bool _, .bool => true
  | .str _, .strOrNone => true
  | .null, .strOrNone => true
  | _, _ => false

/-- Truth value of a JSON value, as `bool(value)` computes it. -/
def truthy : Json → Bool
  | .null => false
  | .bool b => b
  | .int n => decide (n ≠ 0)
  | .float lexeme => lexeme.toList.any (fun c => decide ('1' ≤ c) && decide (c ≤ '9'))
  | .str s => decide (s ≠ "")
  | .arr items => !items.isEmpty
  | .obj fields => !fields.isEmpty

/-- `value == n`: a boolean and an integral float equal their integer. -/
def equalsInt : Json → Int → Bool
  | .int m, n => m = n
  | .bool b, n => (if b then 1 else 0) = n
  | .float lexeme, n => lexeme = toString n ++ ".0"
  | _, _ => false

def asString? : Json → Option String
  | .str s => some s
  | _ => none

/-- `value` of a possibly absent text, `null` when it is absent. -/
def ofOption : Option String → Json
  | some s => .str s
  | none => .null

@[simp] theorem asString?_str (s : String) : (Json.str s).asString? = some s := rfl

theorem asString?_eq_some {value : Json} {s : String} :
    value.asString? = some s ↔ value = .str s := by
  cases value <;> simp [asString?]

@[simp] theorem asString?_ofOption (s : Option String) : (ofOption s).asString? = s := by
  cases s <;> rfl

@[simp] theorem ofOption_some (s : String) : ofOption (some s) = .str s := rfl

@[simp] theorem ofOption_none : ofOption none = .null := rfl

/-! ### Equality of values

`first == second`, which does not look at the order of an object's fields and compares numbers
of different types by value.
-/

def isNumber : Json → Bool
  | .bool _ | .int _ | .float _ => true
  | _ => false

mutual

def equals (numbers : Json → Json → Bool) : Json → Json → Bool
  | .null, second => second = .null
  | .str first, second => second = .str first
  | .arr first, .arr second => equalsItems numbers first second
  | .obj first, .obj second =>
      (second.all fun field => (first.lookup field.1).isSome) && equalsFields numbers first second
  | first, second => isNumber first && isNumber second && numbers first second

def equalsItems (numbers : Json → Json → Bool) : List Json → List Json → Bool
  | [], [] => true
  | first :: rest, second :: others => equals numbers first second && equalsItems numbers rest others
  | _, _ => false

/-- Every field has an equal one in the other object. -/
def equalsFields (numbers : Json → Json → Bool) :
    List (String × Json) → List (String × Json) → Bool
  | [], _ => true
  | (key, value) :: rest, second =>
      (match second.lookup key with
        | some other => equals numbers value other
        | none => false) && equalsFields numbers rest second

end

/-- Equal objects have equal fields. -/
theorem equals_lookup {numbers : Json → Json → Bool} {first second : List (String × Json)}
    (h : equals numbers (.obj first) (.obj second) = true) {key : String} {other : Json}
    (hother : second.lookup key = some other) :
    ∃ value, first.lookup key = some value ∧ equals numbers value other = true := by
  rw [equals, Bool.and_eq_true, List.all_eq_true] at h
  obtain ⟨hkeys, hfields⟩ := h
  obtain ⟨value, hvalue⟩ := Option.isSome_iff_exists.mp (hkeys (key, other) (Dict.mem_of_get? hother))
  refine ⟨value, hvalue, ?_⟩
  clear hkeys
  induction first with
  | nil => cases hvalue
  | cons field rest ih =>
      obtain ⟨name, item⟩ := field
      rw [equalsFields, Bool.and_eq_true] at hfields
      rw [List.lookup_cons] at hvalue
      split at hvalue
      · rename_i heq
        cases hvalue
        have hitem := hfields.1
        rw [← eq_of_beq heq, hother] at hitem
        exact hitem
      · exact ih hfields.2 hvalue

theorem equals_arr {numbers : Json → Json → Bool} {value item : Json} {items : List Json}
    (h : equals numbers value (.arr (item :: items)) = true) :
    ∃ first rest, value = .arr (first :: rest) := by
  cases value with
  | arr values =>
      cases values with
      | nil => simp [equals, equalsItems] at h
      | cons first rest => exact ⟨first, rest, rfl⟩
  | _ => simp [equals, isNumber] at h

section Monotone

variable {narrow wide : Json → Json → Bool}

mutual

/-- More numbers are equal, and so more values. -/
theorem equals_mono (h : ∀ a b, narrow a b = true → wide a b = true) :
    ∀ (first second : Json), equals narrow first second = true → equals wide first second = true
  | .null, second, heq => by rw [equals] at heq ⊢; exact heq
  | .str text, second, heq => by rw [equals] at heq ⊢; exact heq
  | .arr first, second, heq => by
      cases second with
      | arr second =>
          rw [equals] at heq ⊢
          exact equalsItems_mono h first second heq
      | _ => simp [equals, isNumber] at heq
  | .obj first, second, heq => by
      cases second with
      | obj second =>
          rw [equals, Bool.and_eq_true] at heq ⊢
          exact ⟨heq.1, equalsFields_mono h first second heq.2⟩
      | _ => simp [equals, isNumber] at heq
  | .bool b, second, heq => by
      simp only [equals, Bool.and_eq_true] at heq ⊢
      exact ⟨heq.1, h _ _ heq.2⟩
  | .int n, second, heq => by
      simp only [equals, Bool.and_eq_true] at heq ⊢
      exact ⟨heq.1, h _ _ heq.2⟩
  | .float lexeme, second, heq => by
      simp only [equals, Bool.and_eq_true] at heq ⊢
      exact ⟨heq.1, h _ _ heq.2⟩

theorem equalsItems_mono (h : ∀ a b, narrow a b = true → wide a b = true) :
    ∀ (first second : List Json), equalsItems narrow first second = true →
      equalsItems wide first second = true
  | [], [], _ => by rw [equalsItems]
  | [], _ :: _, heq => by simp [equalsItems] at heq
  | _ :: _, [], heq => by simp [equalsItems] at heq
  | first :: rest, second :: others, heq => by
      rw [equalsItems, Bool.and_eq_true] at heq ⊢
      exact ⟨equals_mono h first second heq.1, equalsItems_mono h rest others heq.2⟩

theorem equalsFields_mono (h : ∀ a b, narrow a b = true → wide a b = true) :
    ∀ (first second : List (String × Json)), equalsFields narrow first second = true →
      equalsFields wide first second = true
  | [], _, _ => by rw [equalsFields]
  | (key, value) :: rest, second, heq => by
      rw [equalsFields, Bool.and_eq_true] at heq ⊢
      refine ⟨?_, equalsFields_mono h rest second heq.2⟩
      have hvalue := heq.1
      cases hother : second.lookup key with
      | none => rw [hother] at hvalue; exact hvalue
      | some other =>
          rw [hother] at hvalue
          exact equals_mono h value other hvalue

end

end Monotone

/-! ### Serialization

`json.dumps(value, sort_keys=True, separators=(",", ":"), ensure_ascii=False)`.
-/

def hexDigit (n : Nat) : Char :=
  if n < 10 then Char.ofNat (48 + n) else Char.ofNat (87 + n)

def escapeChar (c : Char) : List Char :=
  match c with
  | '"' => ['\\', '"']
  | '\\' => ['\\', '\\']
  | '\n' => ['\\', 'n']
  | '\r' => ['\\', 'r']
  | '\t' => ['\\', 't']
  | c =>
      if c.val = 8 then ['\\', 'b']
      else if c.val = 12 then ['\\', 'f']
      else if c.val < 32 then
        ['\\', 'u', '0', '0', hexDigit (c.toNat / 16), hexDigit (c.toNat % 16)]
      else [c]

def quoted (s : String) : List Char :=
  '"' :: (s.toList.flatMap escapeChar ++ ['"'])

mutual

def dumpsChars : Json → List Char
  | .null => "null".toList
  | .bool b => (if b then "true" else "false").toList
  | .int n => (toString n).toList
  | .float lexeme => lexeme.toList
  | .str s => quoted s
  | .arr items => '[' :: dumpsItems items
  | .obj fields => '\x7b' :: dumpsFields fields

def dumpsItems : List Json → List Char
  | [] => [']']
  | [value] => dumpsChars value ++ [']']
  | value :: rest => dumpsChars value ++ ',' :: dumpsItems rest

def dumpsFields : List (String × Json) → List Char
  | [] => ['\x7d']
  | [(key, value)] => quoted key ++ ':' :: dumpsChars value ++ ['\x7d']
  | (key, value) :: rest => quoted key ++ ':' :: dumpsChars value ++ ',' :: dumpsFields rest

end

def dumps (value : Json) : String := String.ofList (dumpsChars value)

mutual

/-- With the separators `", "` and `": "`. -/
def spacedChars : Json → List Char
  | .arr items => '[' :: spacedItems items
  | .obj fields => '\x7b' :: spacedFields fields
  | value => dumpsChars value

def spacedItems : List Json → List Char
  | [] => [']']
  | [value] => spacedChars value ++ [']']
  | value :: rest => spacedChars value ++ ',' :: ' ' :: spacedItems rest

def spacedFields : List (String × Json) → List Char
  | [] => ['\x7d']
  | [(key, value)] => quoted key ++ ':' :: ' ' :: spacedChars value ++ ['\x7d']
  | (key, value) :: rest =>
      quoted key ++ ':' :: ' ' :: spacedChars value ++ ',' :: ' ' :: spacedFields rest

end

end Json

/-! ### Objects -/

namespace Fields

/-- Field lookup: `value.get(key)` with a missing field read as `none`. -/
def get? (fields : Fields) (key : String) : Option Json := fields.lookup key

/-- `value.get(key)`: a missing field reads as `null`. -/
def get (fields : Fields) (key : String) : Json := (fields.get? key).getD .null

/-- `value.get(key, default)`. -/
def getD (fields : Fields) (key : String) (default : Json) : Json :=
  (fields.get? key).getD default

def keys (fields : Fields) : List String := fields.map Prod.fst

/-- `value[key] = item`, at the key's place in the order. -/
def set : Fields → String → Json → Fields
  | [], key, item => [(key, item)]
  | (k, v) :: rest, key, item =>
      if key = k then (key, item) :: rest
      else if key < k then (key, item) :: (k, v) :: rest
      else (k, v) :: set rest key item

/-- `value.update(items)`. -/
def update (fields : Fields) (items : Fields) : Fields :=
  items.foldl (fun acc item => acc.set item.1 item.2) fields

/-- An object from the pairs of a literal, later pairs overriding earlier ones. -/
def ofPairs (items : Fields) : Fields := update [] items

/-- `value.pop(key, None)`. -/
def erase (fields : Fields) (key : String) : Fields :=
  fields.filter (fun item => item.1 ≠ key)

@[simp] theorem get?_nil (key : String) : get? [] key = none := rfl

theorem get?_cons (k : String) (v : Json) (rest : Fields) (key : String) :
    get? ((k, v) :: rest) key = if key = k then some v else get? rest key := by
  simp only [get?, List.lookup_cons]
  by_cases h : key = k
  · simp [h]
  · simp [h, beq_eq_false_iff_ne.mpr h]

theorem get?_set (fields : Fields) (key : String) (item : Json) (other : String) :
    (fields.set key item).get? other = if other = key then some item else fields.get? other := by
  induction fields with
  | nil => simp [set, get?_cons]
  | cons head rest ih =>
      obtain ⟨k, v⟩ := head
      unfold set
      by_cases hk : key = k
      · subst hk
        by_cases ho : other = key <;> simp [get?_cons, ho]
      · by_cases hlt : key < k
        · by_cases ho : other = key <;> simp [get?_cons, hk, hlt, ho]
        · by_cases ho : other = k
          · have hne : other ≠ key := fun h => hk (h.symm.trans ho)
            simp only [hk, hlt, if_false, get?_cons, ho, if_true, if_neg (Ne.symm hk)]
          · simp only [hk, hlt, if_false, get?_cons, ho, ih]

@[simp] theorem get?_set_self (fields : Fields) (key : String) (item : Json) :
    (fields.set key item).get? key = some item := by
  simp [get?_set]

theorem get?_set_of_ne {other key : String} (h : other ≠ key) (fields : Fields) (item : Json) :
    (fields.set key item).get? other = fields.get? other := by
  simp [get?_set, h]

theorem get?_append (fields items : Fields) (key : String) :
    get? (fields ++ items) key = ((get? fields key).orElse fun _ => get? items key) := by
  simp only [get?, List.lookup_append]
  cases List.lookup key fields <;> simp

theorem get?_update (fields items : Fields) (key : String) :
    get? (update fields items) key = get? (items.reverse ++ fields) key := by
  induction items generalizing fields with
  | nil => rfl
  | cons head rest ih =>
      obtain ⟨k, v⟩ := head
      have hstep : update fields ((k, v) :: rest) = update (fields.set k v) rest := rfl
      rw [hstep, ih (fields.set k v), List.reverse_cons, List.append_assoc, get?_append,
        get?_append, get?_set]
      simp only [List.singleton_append, get?_cons]

/-- A literal object reads as its last pair with that key. -/
theorem get?_ofPairs (items : Fields) (key : String) :
    get? (ofPairs items) key = get? items.reverse key := by
  simp [ofPairs, get?_update]

theorem get?_erase_of_ne {key other : String} (h : other ≠ key) (fields : Fields) :
    (fields.erase key).get? other = fields.get? other := by
  induction fields with
  | nil => rfl
  | cons head rest ih =>
      obtain ⟨k, v⟩ := head
      unfold erase at ih ⊢
      rw [List.filter_cons]
      by_cases hk : k = key
      · subst hk
        simp only [ne_eq, not_true_eq_false, decide_false, Bool.false_eq_true, if_false, ih]
        simp [get?_cons, h]
      · simp only [ne_eq, hk, not_false_eq_true, decide_true, if_true, get?_cons, ih]

/-- A field that reads as something other than `null` is present. -/
theorem get?_of_get {fields : Fields} {key : String} {value : Json} (h : fields.get key = value)
    (hvalue : value ≠ .null) : fields.get? key = some value := by
  unfold get at h
  cases hget : fields.get? key with
  | none => rw [hget] at h; exact absurd h.symm hvalue
  | some found => rw [hget] at h; rw [show found = value from h]

/-! ### Key order -/

/-- The keys are in strictly increasing order, so that none occurs twice. -/
def Ordered (fields : Fields) : Prop := fields.keys.Pairwise (· < ·)

instance (fields : Fields) : Decidable fields.Ordered :=
  inferInstanceAs (Decidable (List.Pairwise _ _))

@[simp] theorem keys_cons (key : String) (value : Json) (rest : Fields) :
    keys ((key, value) :: rest) = key :: keys rest := rfl

theorem get?_eq_none_of_not_mem {fields : Fields} {key : String} (h : key ∉ fields.keys) :
    fields.get? key = none := by
  induction fields with
  | nil => rfl
  | cons head rest ih =>
      obtain ⟨k, v⟩ := head
      rw [keys_cons, List.mem_cons, not_or] at h
      rw [get?_cons, if_neg h.1, ih h.2]

/-- Two objects with the same keys in the same order and the same reading are equal. -/
theorem ext_of_keys {first second : Fields} (hnodup : first.keys.Nodup)
    (hkeys : first.keys = second.keys) (hget : ∀ key ∈ first.keys, first.get? key = second.get? key) :
    first = second := by
  induction first generalizing second with
  | nil =>
      cases second with
      | nil => rfl
      | cons head rest => simp [keys] at hkeys
  | cons head rest ih =>
      obtain ⟨k, v⟩ := head
      cases second with
      | nil => simp [keys] at hkeys
      | cons other rest' =>
          obtain ⟨l, w⟩ := other
          simp only [keys_cons, List.cons.injEq] at hkeys
          obtain ⟨rfl, htail⟩ := hkeys
          rw [keys_cons, List.nodup_cons] at hnodup
          have hvalue : v = w := by simpa [get?_cons] using hget k (by simp)
          have hrest : rest = rest' := by
            refine ih hnodup.2 htail fun key hkey => ?_
            have hne : key ≠ k := fun h => hnodup.1 (h ▸ hkey)
            simpa [get?_cons, hne] using hget key (by simp [hkey])
          rw [hvalue, hrest]

theorem Ordered.nodup {fields : Fields} (h : fields.Ordered) : fields.keys.Nodup :=
  h.imp fun hlt heq => by simp [heq] at hlt

theorem ordered_cons {k : String} {v : Json} {rest : Fields} :
    Ordered ((k, v) :: rest) ↔ (∀ key ∈ rest.keys, k < key) ∧ rest.Ordered := by
  rw [Ordered, keys_cons, List.pairwise_cons]
  rfl

theorem mem_keys_set {fields : Fields} {key other : String} {item : Json} :
    other ∈ (fields.set key item).keys ↔ other = key ∨ other ∈ fields.keys := by
  induction fields with
  | nil => simp [set, keys]
  | cons head rest ih =>
      obtain ⟨k, v⟩ := head
      unfold set
      by_cases hk : key = k
      · subst hk
        simp [keys_cons]
      · by_cases hlt : key < k
        · simp [hk, hlt, keys_cons]
        · simp only [hk, hlt, if_false, keys_cons, List.mem_cons, ih]
          tauto

theorem mem_keys_update {fields items : Fields} {key : String} :
    key ∈ (update fields items).keys ↔ key ∈ items.keys ∨ key ∈ fields.keys := by
  induction items generalizing fields with
  | nil => simp [update, keys]
  | cons head rest ih =>
      have hstep : update fields (head :: rest) = update (fields.set head.1 head.2) rest := rfl
      rw [hstep, ih, mem_keys_set, keys_cons, List.mem_cons]
      tauto

theorem mem_keys_ofPairs {items : Fields} {key : String} :
    key ∈ (ofPairs items).keys ↔ key ∈ items.keys := by
  rw [ofPairs, mem_keys_update]
  simp [keys]

@[simp] theorem update_nil (fields : Fields) : fields.update [] = fields := rfl

theorem mem_of_mem_set {fields : Fields} {key : String} {item : Json} {entry : String × Json}
    (h : entry ∈ fields.set key item) : entry = (key, item) ∨ entry ∈ fields := by
  induction fields with
  | nil => simpa [set] using h
  | cons head rest ih =>
      obtain ⟨k, v⟩ := head
      unfold set at h
      split at h
      · rcases List.mem_cons.mp h with rfl | h
        · exact Or.inl rfl
        · exact Or.inr (List.mem_cons_of_mem _ h)
      · split at h
        · exact List.mem_cons.mp h
        · rcases List.mem_cons.mp h with rfl | h
          · exact Or.inr List.mem_cons_self
          · exact (ih h).imp_right (List.mem_cons_of_mem _)

theorem mem_of_mem_update {fields items : Fields} {entry : String × Json}
    (h : entry ∈ fields.update items) : entry ∈ items ∨ entry ∈ fields := by
  induction items generalizing fields with
  | nil => exact Or.inr h
  | cons head rest ih =>
      have hrest : entry ∈ rest ∨ entry ∈ fields.set head.1 head.2 := ih h
      rcases hrest with hrest | hset
      · exact Or.inl (List.mem_cons_of_mem _ hrest)
      · rcases mem_of_mem_set hset with rfl | hfields
        · exact Or.inl List.mem_cons_self
        · exact Or.inr hfields

theorem Ordered.set {fields : Fields} (h : fields.Ordered) (key : String) (item : Json) :
    (fields.set key item).Ordered := by
  induction fields with
  | nil => simp [Fields.set, Ordered, keys]
  | cons head rest ih =>
      obtain ⟨k, v⟩ := head
      obtain ⟨hhead, hrest⟩ := ordered_cons.mp h
      unfold Fields.set
      by_cases hk : key = k
      · rw [if_pos hk, ordered_cons]
        exact ⟨hk ▸ hhead, hrest⟩
      · rw [if_neg hk]
        by_cases hlt : key < k
        · rw [if_pos hlt, ordered_cons]
          refine ⟨fun other hother => ?_, h⟩
          rcases List.mem_cons.mp hother with rfl | hother
          · exact hlt
          · exact hlt.trans (hhead other hother)
        · rw [if_neg hlt, ordered_cons]
          refine ⟨fun other hother => ?_, ih hrest⟩
          rcases mem_keys_set.mp hother with rfl | hother
          · exact lt_of_le_of_ne (not_lt.mp hlt) (Ne.symm hk)
          · exact hhead other hother

theorem Ordered.update {fields : Fields} (h : fields.Ordered) (items : Fields) :
    (fields.update items).Ordered := by
  induction items generalizing fields with
  | nil => exact h
  | cons head rest ih => exact ih (h.set head.1 head.2)

theorem ordered_nil : Ordered [] := List.Pairwise.nil

theorem ordered_ofPairs (items : Fields) : (ofPairs items).Ordered :=
  ordered_nil.update items

/-- The entries of an object after an assignment. -/
theorem Ordered.mem_set {fields : Fields} (h : fields.Ordered) {key : String} {item : Json}
    {entry : String × Json} :
    entry ∈ fields.set key item ↔ entry = (key, item) ∨ entry ∈ fields.erase key := by
  induction fields with
  | nil => simp [Fields.set, erase]
  | cons head rest ih =>
      obtain ⟨k, v⟩ := head
      obtain ⟨hhead, hrest⟩ := ordered_cons.mp h
      have hkept : ∀ other : String, (∀ name ∈ keys rest, other < name) →
          erase rest other = rest := by
        intro other hother
        refine List.filter_eq_self.mpr fun found hfound => ?_
        have hlt := hother found.1 (List.mem_map_of_mem hfound)
        simpa using hlt.ne'
      unfold Fields.set
      by_cases hk : key = k
      · subst hk
        rw [if_pos rfl, erase, List.filter_cons_of_neg (by simp), List.mem_cons]
        rw [show rest.filter _ = erase rest key from rfl, hkept key hhead]
      · rw [if_neg hk, erase, List.filter_cons_of_pos (by simpa using Ne.symm hk),
          show rest.filter _ = erase rest key from rfl]
        by_cases hlt : key < k
        · rw [if_pos hlt, hkept key fun name hname => hlt.trans (hhead name hname),
            List.mem_cons]
        · rw [if_neg hlt, List.mem_cons, List.mem_cons, ih hrest]
          tauto

theorem erase_set (fields : Fields) (key : String) (item : Json) :
    (fields.set key item).erase key = fields.erase key := by
  induction fields with
  | nil => simp [set, erase]
  | cons head rest ih =>
      obtain ⟨k, v⟩ := head
      unfold set
      by_cases hk : key = k
      · subst hk
        simp [erase]
      · by_cases hlt : key < k
        · simp [hk, hlt, erase]
        · rw [if_neg hk, if_neg hlt]
          unfold erase at ih ⊢
          rw [List.filter_cons, List.filter_cons, ih]

theorem get_set_of_ne {other key : String} (h : other ≠ key) (fields : Fields) (item : Json) :
    (fields.set key item).get other = fields.get other := by
  simp [get, get?_set_of_ne h]

theorem get_set_self (fields : Fields) (key : String) (item : Json) :
    (fields.set key item).get key = item := by
  simp [get]

theorem get_erase_of_ne {other key : String} (h : other ≠ key) (fields : Fields) :
    (fields.erase key).get other = fields.get other := by
  simp [get, get?_erase_of_ne h]

end Fields

/-- A JSON object: its keys are in order and none occurs twice. -/
structure Object where
  fields : Fields
  ordered : fields.Ordered
deriving DecidableEq

end Library
