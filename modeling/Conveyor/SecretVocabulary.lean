import Conveyor.Redaction

/-!
# The two vocabularies of secrets

`redact_text` treats the texts after certain names as secrets, `redact_value` the values under
certain dictionary keys (`redaction.py`), and the two lists are kept apart. `redaction_agrees_iff`
says for which pairs of values that differ only in secrets of the first list `redact_value` hides
the difference.
-/

namespace Conveyor

open Library

namespace Redaction

/-! ### Values that differ in texts -/

/-- A step from a value to a part of it. -/
inductive Step where
  | key (name : String)
  | item
deriving DecidableEq, Repr

/-- Two texts at one place, and the steps to it from the innermost to the outermost. -/
structure Difference where
  path : List Step
  first : String
  second : String
deriving DecidableEq, Repr

mutual

/-- The values are built alike, with the same keys and the same scalars that are not texts. -/
def SameShape : Json → Json → Prop
  | .str _, .str _ => True
  | .arr items, .arr items' => SameShapeItems items items'
  | .obj fields, .obj fields' => SameShapeFields fields fields'
  | .null, .null => True
  | .bool b, .bool b' => b = b'
  | .int n, .int n' => n = n'
  | .float lexeme, .float lexeme' => lexeme = lexeme'
  | _, _ => False

def SameShapeItems : List Json → List Json → Prop
  | [], [] => True
  | value :: rest, value' :: rest' => SameShape value value' ∧ SameShapeItems rest rest'
  | _, _ => False

def SameShapeFields : List (String × Json) → List (String × Json) → Prop
  | [], [] => True
  | (key, value) :: rest, (key', value') :: rest' =>
      key = key' ∧ SameShape value value' ∧ SameShapeFields rest rest'
  | _, _ => False

end

mutual

/-- The places at which two values of one shape have different texts. -/
def differences (path : List Step) : Json → Json → List Difference
  | .str s, .str s' => if s = s' then [] else [⟨path, s, s'⟩]
  | .arr items, .arr items' => differencesItems path items items'
  | .obj fields, .obj fields' => differencesFields path fields fields'
  | _, _ => []

def differencesItems (path : List Step) : List Json → List Json → List Difference
  | value :: rest, value' :: rest' =>
      differences (.item :: path) value value' ++ differencesItems path rest rest'
  | _, _ => []

def differencesFields (path : List Step) :
    List (String × Json) → List (String × Json) → List Difference
  | (key, value) :: rest, (_, value') :: rest' =>
      differences (.key key :: path) value value' ++ differencesFields path rest rest'
  | _, _ => []

end

/-- The dictionary vocabulary covers a key on the path, or redaction makes the texts equal. -/
def Hidden (P : Platform) (difference : Difference) : Prop :=
  (∃ key, .key key ∈ difference.path ∧ isSensitiveKey P key = true) ∨
    redactText P difference.first = redactText P difference.second

variable {P : Platform}

/-! ### What redaction shows of a difference -/

mutual

theorem path_of_mem_differences : ∀ {value value' : Json} {path : List Step} {d : Difference},
    d ∈ differences path value value' → path <:+ d.path
  | .str s, value', path, d, h => by
      cases value' with
      | str s' =>
          rw [differences] at h
          split at h
          · cases h
          · have hd := List.mem_singleton.mp h
            subst hd
            exact List.suffix_rfl
      | _ => simp [differences] at h
  | .arr items, value', path, d, h => by
      cases value' with
      | arr items' =>
          rw [differences] at h
          exact path_of_mem_differencesItems h
      | _ => simp [differences] at h
  | .obj fields, value', path, d, h => by
      cases value' with
      | obj fields' =>
          rw [differences] at h
          exact path_of_mem_differencesFields h
      | _ => simp [differences] at h
  | .null, _, _, _, h | .bool _, _, _, _, h | .int _, _, _, _, h | .float _, _, _, _, h => by
      simp [differences] at h

theorem path_of_mem_differencesItems : ∀ {items items' : List Json} {path : List Step}
    {d : Difference}, d ∈ differencesItems path items items' → path <:+ d.path
  | [], _, _, _, h => by simp [differencesItems] at h
  | _ :: _, [], _, _, h => by simp [differencesItems] at h
  | value :: rest, value' :: rest', path, d, h => by
      rw [differencesItems, List.mem_append] at h
      rcases h with h | h
      · exact (List.suffix_cons _ _).trans (path_of_mem_differences h)
      · exact path_of_mem_differencesItems h

theorem path_of_mem_differencesFields : ∀ {fields fields' : List (String × Json)}
    {path : List Step} {d : Difference},
    d ∈ differencesFields path fields fields' → path <:+ d.path
  | [], _, _, _, h => by simp [differencesFields] at h
  | _ :: _, [], _, _, h => by simp [differencesFields] at h
  | (key, value) :: rest, (_, value') :: rest', path, d, h => by
      rw [differencesFields, List.mem_append] at h
      rcases h with h | h
      · exact (List.suffix_cons _ _).trans (path_of_mem_differences h)
      · exact path_of_mem_differencesFields h

end

/-- No key on the path is in the dictionary vocabulary. -/
def Open (P : Platform) (path : List Step) : Prop :=
  ∀ key, .key key ∈ path → isSensitiveKey P key = false

theorem Open.item {path : List Step} (h : Open P path) : Open P (.item :: path) := by
  intro key hkey
  rcases List.mem_cons.mp hkey with heq | hmem
  · cases heq
  · exact h key hmem

theorem Open.key {path : List Step} {name : String} (h : Open P path)
    (hname : isSensitiveKey P name = false) : Open P (.key name :: path) := by
  intro key hkey
  rcases List.mem_cons.mp hkey with heq | hmem
  · cases heq
    exact hname
  · exact h key hmem

theorem hidden_of_open {path : List Step} {s s' : String} (h : Open P path) :
    Hidden P ⟨path, s, s'⟩ ↔ redactText P s = redactText P s' := by
  constructor
  · rintro (⟨key, hmem, hsensitive⟩ | htexts)
    · rw [h key hmem] at hsensitive
      cases hsensitive
    · exact htexts
  · exact Or.inr

mutual

theorem redactValue_eq_iff : ∀ {value value' : Json} {path : List Step}, SameShape value value' →
    Open P path → (redactValue P value = redactValue P value' ↔
      ∀ d ∈ differences path value value', Hidden P d)
  | .str s, value', path, hshape, hopen => by
      cases value' with
      | str s' =>
          rw [redactValue, redactValue, differences, Json.str.injEq]
          split
          · rename_i heq
            simp [heq]
          · rw [List.forall_mem_singleton, hidden_of_open hopen]
      | _ => simp [SameShape] at hshape
  | .arr items, value', path, hshape, hopen => by
      cases value' with
      | arr items' =>
          rw [SameShape] at hshape
          rw [redactValue, redactValue, differences, Json.arr.injEq]
          exact redactItems_eq_iff hshape hopen
      | _ => simp [SameShape] at hshape
  | .obj fields, value', path, hshape, hopen => by
      cases value' with
      | obj fields' =>
          rw [SameShape] at hshape
          rw [redactValue, redactValue, differences, Json.obj.injEq]
          exact redactFields_eq_iff hshape hopen
      | _ => simp [SameShape] at hshape
  | .null, value', _, hshape, _ | .bool _, value', _, hshape, _ | .int _, value', _, hshape, _
  | .float _, value', _, hshape, _ => by
      cases value' <;> simp_all [SameShape, redactValue, differences]

theorem redactItems_eq_iff : ∀ {items items' : List Json} {path : List Step},
    SameShapeItems items items' → Open P path → (redactItems P items = redactItems P items' ↔
      ∀ d ∈ differencesItems path items items', Hidden P d)
  | [], items', _, hshape, _ => by
      cases items' with
      | nil => simp [differencesItems]
      | cons _ _ => simp [SameShapeItems] at hshape
  | value :: rest, items', path, hshape, hopen => by
      cases items' with
      | nil => simp [SameShapeItems] at hshape
      | cons value' rest' =>
          rw [SameShapeItems] at hshape
          rw [redactItems, redactItems, differencesItems, List.cons.injEq, List.forall_mem_append,
            redactValue_eq_iff hshape.1 hopen.item, redactItems_eq_iff hshape.2 hopen]

theorem redactFields_eq_iff : ∀ {fields fields' : List (String × Json)} {path : List Step},
    SameShapeFields fields fields' → Open P path →
    (redactFields P fields = redactFields P fields' ↔
      ∀ d ∈ differencesFields path fields fields', Hidden P d)
  | [], fields', _, hshape, _ => by
      cases fields' with
      | nil => simp [differencesFields]
      | cons _ _ => simp [SameShapeFields] at hshape
  | (key, value) :: rest, fields', path, hshape, hopen => by
      cases fields' with
      | nil => simp [SameShapeFields] at hshape
      | cons head' rest' =>
          obtain ⟨key', value'⟩ := head'
          rw [SameShapeFields] at hshape
          obtain ⟨rfl, hvalue, hrest⟩ := hshape
          rw [redactFields, redactFields, differencesFields, List.cons.injEq,
            List.forall_mem_append, redactFields_eq_iff hrest hopen, Prod.mk.injEq]
          refine and_congr_left fun _ => ?_
          by_cases hkey : isSensitiveKey P key = true
          · have hhidden : ∀ d ∈ differences (.key key :: path) value value', Hidden P d :=
              fun d hd => Or.inl ⟨key, (path_of_mem_differences hd).mem List.mem_cons_self, hkey⟩
            simp only [hkey, if_true, and_self, true_iff]
            exact hhidden
          · rw [Bool.not_eq_true] at hkey
            rw [← redactValue_eq_iff hvalue (hopen.key hkey), hkey]
            simp

end

/-! ### Secret assignments -/

/-- The names whose assignment `redact_text` redacts in a text. -/
def ASSIGNMENT_NAMES : List String :=
  ["api_key", "api-key", "apikey", "access_token", "access-token", "refresh_token",
   "refresh-token", "client_secret", "client-secret", "password", "passwd", "cookie",
   "set-cookie", "authorization"]

/-- The names among them whose value `redact_value` replaces. -/
def SHARED_NAMES : List String :=
  ["api_key", "apikey", "access_token", "password", "cookie", "authorization"]

/-- The patterns of `redact_text` read the key as one of these names. -/
def isAssignmentKey (key : String) : Bool :=
  decide (String.ofList (key.toList.map fold) ∈ ASSIGNMENT_NAMES)

/-- The values differ only in texts stored under keys that are secret assignments. -/
structure DifferInSecrets (first second : Json) : Prop where
  shape : SameShape first second
  stored : ∀ d ∈ differences [] first second,
    ∃ key outer, d.path = .key key :: outer ∧ isAssignmentKey key = true

/-- Which of the names the dictionary vocabulary has. -/
theorem sensitive_assignment_iff {key : String} (h : P.lowerText key ∈ ASSIGNMENT_NAMES) :
    isSensitiveKey P key = true ↔ P.lowerText key ∈ SHARED_NAMES := by
  have hnames : ∀ name ∈ ASSIGNMENT_NAMES, (decide (name ∈ SENSITIVE_QUERY_KEYS) ||
      ["password", "private_key", "credential"].any fun word =>
        containsText word.toList name.toList) = decide (name ∈ SHARED_NAMES) := by
    decide +kernel
  rw [isSensitiveKey, hnames _ h, decide_eq_true_eq]

/-- For values that differ in secrets only: redaction agrees exactly when each difference lies
    below a key of the dictionary vocabulary or its texts are redacted alike; and of the names of
    the assignments that vocabulary has just those that the two lists share. -/
theorem redaction_agrees_iff (P : Platform) (first second : Json)
    (h : DifferInSecrets first second) :
    (redactValue P first = redactValue P second ↔
      ∀ d ∈ differences [] first second, Hidden P d) ∧
    ∀ key, P.lowerText key ∈ ASSIGNMENT_NAMES →
      (isSensitiveKey P key = true ↔ P.lowerText key ∈ SHARED_NAMES) := by
  refine ⟨redactValue_eq_iff h.shape ?_, fun key => sensitive_assignment_iff⟩
  intro key hkey
  cases hkey

/-- A dictionary with one entry. -/
def assigned (key secret : String) : Json := .obj [(key, .str secret)]

theorem differences_assigned {key first second : String} {d : Difference}
    (h : d ∈ differences [] (assigned key first) (assigned key second)) :
    d = ⟨[.key key], first, second⟩ := by
  rw [assigned, assigned, differences, differencesFields, differences] at h
  split at h
  · cases h
  · simpa [differencesFields] using h

theorem assigned_differ {key : String} (hkey : isAssignmentKey key = true)
    (first second : String) : DifferInSecrets (assigned key first) (assigned key second) where
  shape := ⟨rfl, trivial, trivial⟩
  stored := by
    intro d hd
    obtain rfl := differences_assigned hd
    exact ⟨key, [], rfl, hkey⟩

/-- Two client secrets in the same place, and redaction shows which is which. -/
theorem clientSecret_shown : ∃ first second, DifferInSecrets first second ∧
    redactValue Platform.reference first ≠ redactValue Platform.reference second := by
  have hassignment : isAssignmentKey "client_secret" = true := by decide +kernel
  refine ⟨_, _, assigned_differ hassignment "abc" "def", fun heq => ?_⟩
  have hkey : isSensitiveKey Platform.reference "client_secret" = false :=
    isSensitiveKey_of_ascii _ (by decide) (by decide +kernel)
  have hfirst : redactText Platform.reference "abc" = "abc" :=
    redactText_eq_self_of_hex _ (by simp [Platform.isHexLower])
  have hsecond : redactText Platform.reference "def" = "def" :=
    redactText_eq_self_of_hex _ (by simp [Platform.isHexLower])
  simp [assigned, redactValue, redactFields, hkey, hfirst, hsecond] at heq

theorem password_hidden : redactValue Platform.reference (assigned "password" "abc") =
    redactValue Platform.reference (assigned "password" "def") := by
  refine (redaction_agrees_iff Platform.reference _ _
    (assigned_differ (by decide +kernel) "abc" "def")).1.mpr fun d hd => ?_
  obtain rfl := differences_assigned hd
  exact Or.inl ⟨"password", List.mem_cons_self, by decide +kernel⟩

end Redaction

end Conveyor
