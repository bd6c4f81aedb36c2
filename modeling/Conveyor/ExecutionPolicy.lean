import Conveyor.Library.JsonText
import Conveyor.Redaction
import Conveyor.Repository

/-!
# Execution policies

The execution policy of a feature (`execution_profiles.py`): the profile its sessions run under,
how many sessions it may use, when it escalates, and what a child session is delegated.
`validate_feature_execution_policy` normalizes what a queue, a specification or a configuration
holds; what it returns is written back as a policy that it accepts as it is
(`Accepts.toDict`).
-/

namespace Conveyor

open Library

def configurationError (message : String) : Failure := ⟨.configurationError, message⟩

namespace ExecutionPolicy

/-! ### Profiles -/

def PROFILE_NAMES : List String :=
  ["mechanical", "repository_aware", "bounded_precise", "multi_module_precise",
   "application_feature_implementation", "generic_or_architectural",
   "ambiguous_or_authoritative", "unresolved_after_high"]

/-- What a profile resolves to. -/
structure ModelRoute where
  model : String
  reasoning : String
deriving DecidableEq, Repr

def DEFAULT_PROFILES : Dict ModelRoute :=
  [("mechanical", ⟨"gpt-5.6-luna", "medium"⟩),
   ("repository_aware", ⟨"gpt-5.6-luna", "high"⟩),
   ("bounded_precise", ⟨"gpt-5.6-terra", "medium"⟩),
   ("multi_module_precise", ⟨"gpt-5.6-terra", "high"⟩),
   ("application_feature_implementation", ⟨"gpt-5.6-terra", "medium"⟩),
   ("generic_or_architectural", ⟨"gpt-5.6-sol", "medium"⟩),
   ("ambiguous_or_authoritative", ⟨"gpt-5.6-sol", "high"⟩),
   ("unresolved_after_high", ⟨"gpt-5.6-sol", "xhigh"⟩)]

def MODEL_COST_RANK : Dict Nat := [("gpt-5.6-luna", 0), ("gpt-5.6-terra", 1), ("gpt-5.6-sol", 2)]

def DEFAULT_WORKFLOW_FALLBACKS : Dict String :=
  [("queue_reconciliation", "repository_aware"), ("application_feature", "bounded_precise"),
   ("controller_repair", "generic_or_architectural"), ("metadata", "mechanical")]

/-! ### Policies -/

structure ChildDelegation where
  role : String
  profile : String
  costSavingJustification : String
  taskBoundary : String
  expectedInputContextBytes : Int
  parentContextBytes : Int
  expectedOutputContract : String
  readOnly : Bool
  ownedPaths : List String
  parentOwnedPaths : List String
deriving DecidableEq, Repr

structure FeatureExecutionPolicy where
  profile : String
  parentSessions : Int
  childSessions : Int
  escalationTrigger : Option String
  escalationProfile : Option String
  childDelegation : Option ChildDelegation
deriving DecidableEq, Repr

def textItems (paths : List String) : Json := .arr (paths.map .str)

/-- The dictionary a delegation is kept as. -/
def ChildDelegation.fields (child : ChildDelegation) : Fields := Fields.ofPairs
  [("role", .str child.role), ("profile", .str child.profile),
   ("cost_saving_justification", .str child.costSavingJustification),
   ("task_boundary", .str child.taskBoundary),
   ("expected_input_context_bytes", .int child.expectedInputContextBytes),
   ("parent_context_bytes", .int child.parentContextBytes),
   ("expected_output_contract", .str child.expectedOutputContract),
   ("read_only", .bool child.readOnly), ("owned_paths", textItems child.ownedPaths),
   ("parent_owned_paths", textItems child.parentOwnedPaths)]

def escalationFields (trigger profile : String) : Fields :=
  Fields.ofPairs [("trigger", .str trigger), ("profile", .str profile)]

/-- `value["child_delegation"] = self.child_delegation`, when there is one. -/
def withDelegation (value : Fields) : Option ChildDelegation → Fields
  | some child => value.set "child_delegation" (.obj child.fields)
  | none => value

def FeatureExecutionPolicy.toDict (policy : FeatureExecutionPolicy) : Fields :=
  let value := Fields.ofPairs [("profile", .str policy.profile),
    ("parent_sessions", .int policy.parentSessions), ("child_sessions", .int policy.childSessions)]
  let value := match policy.escalationTrigger, policy.escalationProfile with
    | some trigger, some profile =>
        value.set "escalation" (.obj (escalationFields trigger profile))
    | _, _ => value
  withDelegation value policy.childDelegation

/-! ### The checks of single fields -/

variable (P : Platform)

/-- `text.split()`. -/
def words (text : List Char) : List (List Char) :=
  (text.splitOnP Platform.isSpace).filter (· ≠ [])

def commaSeparated (names : List String) : String := ", ".intercalate names

/-- The keys of a dictionary that are not in the list, and those of the list it lacks. -/
def unknownKeys (fields : Fields) (allowed : List String) : List String :=
  sortedSet (fields.keys.filter (· ∉ allowed))

def missingKeys (fields : Fields) (required : List String) : List String :=
  sortedSet (required.filter (· ∉ fields.keys))

/-- `set(value) == {...}`. -/
def hasExactly (fields : Fields) (required : List String) : Prop :=
  (∀ key ∈ fields.keys, key ∈ required) ∧ ∀ key ∈ required, key ∈ fields.keys

instance (fields : Fields) (required : List String) : Decidable (hasExactly fields required) :=
  inferInstanceAs (Decidable (_ ∧ _))

def supportedProfile (value : Json) (path : String) (errorType : ErrorKind) : Result String :=
  let failure : Failure :=
    ⟨errorType, s!"{path}.profile: unsupported profile {String.ofList (P.repr value)}"⟩
  match value with
  | .str name => do
      require (name ∈ PROFILE_NAMES) failure
      return name
  | _ => .error failure

/-- An integer, and not a boolean, that is not below the least. -/
def integerFrom (least : Int) (value : Json) (failure : Failure) : Result Int :=
  match value with
  | .int n => do
      require (least ≤ n) failure
      return n
  | _ => .error failure

/-- A text that is not blank. -/
def filledText (value : Json) (failure : Failure) : Result String :=
  match value with
  | .str text => do
      require (Platform.hasText text = true) failure
      return text
  | _ => .error failure

def requiredText (fields : Fields) (path : String) (errorType : ErrorKind) (key : String)
    (minimum : Nat) : Result String :=
  let failure : Failure :=
    ⟨errorType, s!"{path}.{key}: expected at least {minimum} non-whitespace characters"⟩
  match fields.get key with
  | .str item => do
      require (minimum ≤ (Platform.strip item).length) failure
      return Platform.strip item
  | _ => .error failure

def boolean (value : Json) (failure : Failure) : Result Bool :=
  match value with
  | .bool found => .ok found
  | _ => .error failure

def requiredBytes (fields : Fields) (path : String) (errorType : ErrorKind) (key : String) :
    Result Int :=
  integerFrom 1 (fields.get key) ⟨errorType, s!"{path}.{key}: expected a positive integer"⟩

def requiredPaths (fields : Fields) (path : String) (errorType : ErrorKind) (key : String) :
    Result (List String) :=
  let failure : Failure :=
    ⟨errorType, s!"{path}.{key}: expected unique non-empty repository-relative paths"⟩
  match fields.get key with
  | .arr items =>
      match items.mapM Json.asString? with
      | some paths => do
          require ((∀ item ∈ paths, Platform.hasText item = true) ∧ paths.Nodup) failure
          return paths.insertionSort (· ≤ ·)
      | none => .error failure
  | _ => .error failure

/-! ### Child delegations -/

def CHILD_KEYS : List String :=
  ["role", "profile", "cost_saving_justification", "task_boundary",
   "expected_input_context_bytes", "parent_context_bytes", "expected_output_contract",
   "read_only", "owned_paths", "parent_owned_paths"]

def GENERIC_CHILD_JUSTIFICATIONS : List String :=
  ["save tokens", "cost saving", "cheaper child", "reduce cost", "use a child"]

def UNSUITABLE_CHILD_BOUNDARY_TERMS : List String :=
  ["whole application", "architecture decision", "durable state", "integration decision",
   "recovery decision", "dispatch policy", "repository-wide contradiction"]

def mentions (terms : List String) (text : List Char) : Prop :=
  ∃ term ∈ terms, containsText term.toList text = true

instance (terms : List String) (text : List Char) : Decidable (mentions terms text) :=
  inferInstanceAs (Decidable (∃ term ∈ terms, _))

/-- A justification that names no cost evidence. -/
def isGeneric (justification : String) : Prop :=
  let text := P.lower justification.toList
  String.ofList text ∈ GENERIC_CHILD_JUSTIFICATIONS ∨
    (mentions GENERIC_CHILD_JUSTIFICATIONS text ∧ (words text).length ≤ 6)

instance (justification : String) : Decidable (isGeneric P justification) :=
  inferInstanceAs (Decidable (_ ∨ _))

def isUnsuitable (boundary : String) : Prop :=
  mentions UNSUITABLE_CHILD_BOUNDARY_TERMS (P.lower boundary.toList)

instance (boundary : String) : Decidable (isUnsuitable P boundary) :=
  inferInstanceAs (Decidable (mentions _ _))

def exactKeysMessage (fields : Fields) (required : List String) : String :=
  let missing := missingKeys fields required
  let unknown := unknownKeys fields required
  "; ".intercalate
    ((if missing = [] then [] else ["missing " ++ commaSeparated missing]) ++
      if unknown = [] then [] else ["unsupported " ++ commaSeparated unknown])

/-- The paths that a child and its parent both own. -/
def sharedPaths (child : ChildDelegation) : List String :=
  sortedSet (child.ownedPaths.filter (· ∈ child.parentOwnedPaths))

def delegationOf (fields : Fields) (path : String) (errorType : ErrorKind) :
    Result ChildDelegation := do
  require (hasExactly fields CHILD_KEYS)
    ⟨errorType, s!"{path}: {exactKeysMessage fields CHILD_KEYS}"⟩
  let role ← requiredText fields path errorType "role" 1
  let justification ← requiredText fields path errorType "cost_saving_justification" 20
  let boundary ← requiredText fields path errorType "task_boundary" 12
  let contract ← requiredText fields path errorType "expected_output_contract" 12
  require (¬isGeneric P justification) ⟨errorType, path ++
    ".cost_saving_justification: generic justification is not cost evidence"⟩
  require (¬isUnsuitable P boundary) ⟨errorType, path ++
    ".task_boundary: child cannot own architecture or durable authority"⟩
  let profile ← supportedProfile P (fields.get "profile") path errorType
  let input ← requiredBytes fields path errorType "expected_input_context_bytes"
  let parent ← requiredBytes fields path errorType "parent_context_bytes"
  require (input * 2 ≤ parent) ⟨errorType,
    s!"{path}: child context must be materially smaller than parent context"⟩
  let readOnly ← boolean (fields.get "read_only")
    ⟨errorType, s!"{path}.read_only: expected a boolean"⟩
  let ownedPaths ← requiredPaths fields path errorType "owned_paths"
  let parentOwnedPaths ← requiredPaths fields path errorType "parent_owned_paths"
  require (readOnly = true ∨ ownedPaths ≠ [])
    ⟨errorType, s!"{path}: a writing child requires exclusive owned_paths"⟩
  let child : ChildDelegation := ⟨role, profile, justification, boundary, input, parent,
    contract, readOnly, ownedPaths, parentOwnedPaths⟩
  require (sharedPaths child = []) ⟨errorType, path ++
    ": child and parent production-file ownership overlaps: " ++ commaSeparated (sharedPaths child)⟩
  return child

/-- `_validate_child_delegation`. -/
def validateChildDelegation (value : Json) (path : String) (errorType : ErrorKind) :
    Result ChildDelegation :=
  match value with
  | .obj fields => delegationOf P fields path errorType
  | _ => .error ⟨errorType, s!"{path}: expected an object"⟩

/-- `_validate_child_delegation(...) if child_delegation is not None else None`. -/
def optionalDelegation (value : Json) (path : String) (errorType : ErrorKind) :
    Result (Option ChildDelegation) :=
  if value = .null then .ok none else (validateChildDelegation P value path errorType).map some

/-! ### Feature policies -/

def POLICY_KEYS : List String :=
  ["profile", "parent_sessions", "child_sessions", "escalation", "child_delegation"]

def escalationOf (fields : Fields) (profile path : String) (errorType : ErrorKind) :
    Result (String × String) := do
  require (hasExactly fields ["trigger", "profile"])
    ⟨errorType, s!"{path}.escalation: expected exactly trigger and profile"⟩
  let trigger ← filledText (fields.get "trigger")
    ⟨errorType, s!"{path}.escalation.trigger: expected a non-empty string"⟩
  let escalated ← supportedProfile P (fields.get "profile") (path ++ ".escalation") errorType
  require (escalated ≠ profile)
    ⟨errorType, s!"{path}.escalation.profile: must change the profile"⟩
  return (Platform.strip trigger, escalated)

/-- The trigger and the profile of an escalation, or neither. -/
def validateEscalation (value : Json) (profile path : String) (errorType : ErrorKind) :
    Result (Option (String × String)) :=
  match value with
  | .null => .ok none
  | .obj fields => (escalationOf P fields profile path errorType).map some
  | _ => .error ⟨errorType, s!"{path}.escalation: expected exactly trigger and profile"⟩

def policyOf (fields : Fields) (path : String) (errorType : ErrorKind) :
    Result FeatureExecutionPolicy := do
  require (∀ key ∈ fields.keys, key ∈ POLICY_KEYS) ⟨errorType,
    s!"{path}: unsupported keys: {commaSeparated (unknownKeys fields POLICY_KEYS)}"⟩
  let profile ← supportedProfile P (fields.get "profile") path errorType
  let parent ← integerFrom 1 (fields.get "parent_sessions")
    ⟨errorType, s!"{path}.parent_sessions: expected an integer of at least 1"⟩
  let child ← integerFrom 0 (fields.get "child_sessions")
    ⟨errorType, s!"{path}.child_sessions: expected a non-negative integer"⟩
  require (child ≤ 1)
    ⟨errorType, s!"{path}.child_sessions: initial policy permits at most one child"⟩
  let delegated := fields.get "child_delegation"
  require (¬(child = 0 ∧ delegated ≠ .null))
    ⟨errorType, s!"{path}.child_delegation: must be absent when child_sessions is zero"⟩
  require (¬(child = 1 ∧ delegated = .null))
    ⟨errorType, s!"{path}.child_delegation: required when child_sessions is positive"⟩
  let childDelegation ← optionalDelegation P delegated (path ++ ".child_delegation") errorType
  let escalation ← validateEscalation P (fields.get "escalation") profile path errorType
  return ⟨profile, parent, child, escalation.map Prod.fst, escalation.map Prod.snd,
    childDelegation⟩

/-- `validate_feature_execution_policy`. -/
def validateFeatureExecutionPolicy (value : Json) (path : String) (errorType : ErrorKind) :
    Result FeatureExecutionPolicy :=
  match value with
  | .obj fields => policyOf P fields path errorType
  | _ => .error ⟨errorType, s!"{path}: expected an object"⟩

/-! ### What the checks of single fields accept -/

section Fields

variable {P} {fields : Fields} {value : Json} {path key : String} {errorType : ErrorKind}
  {failure : Failure}

theorem supportedProfile_eq_ok {name : String} :
    supportedProfile P value path errorType = .ok name ↔
      value = .str name ∧ name ∈ PROFILE_NAMES := by
  unfold supportedProfile
  cases value with
  | str found =>
      rw [require_bind_eq_ok]
      constructor
      · rintro ⟨hname, hfound⟩
        cases hfound
        exact ⟨rfl, hname⟩
      · rintro ⟨hvalue, hname⟩
        cases hvalue
        exact ⟨hname, rfl⟩
  | _ => simp

theorem integerFrom_eq_ok {least n : Int} :
    integerFrom least value failure = .ok n ↔ value = .int n ∧ least ≤ n := by
  unfold integerFrom
  cases value with
  | int found =>
      rw [require_bind_eq_ok]
      constructor
      · rintro ⟨hleast, hfound⟩
        cases hfound
        exact ⟨rfl, hleast⟩
      · rintro ⟨hvalue, hleast⟩
        cases hvalue
        exact ⟨hleast, rfl⟩
  | _ => simp

theorem filledText_eq_ok {text : String} :
    filledText value failure = .ok text ↔ value = .str text ∧ Platform.hasText text = true := by
  unfold filledText
  cases value with
  | str found =>
      rw [require_bind_eq_ok]
      constructor
      · rintro ⟨htext, hfound⟩
        cases hfound
        exact ⟨rfl, htext⟩
      · rintro ⟨hvalue, htext⟩
        cases hvalue
        exact ⟨htext, rfl⟩
  | _ => simp

theorem boolean_eq_ok {found : Bool} : boolean value failure = .ok found ↔ value = .bool found := by
  unfold boolean
  cases value <;> simp

/-- The field holds a text that is this one when it is stripped. -/
def TextReads (fields : Fields) (key text : String) : Prop :=
  ∃ item, fields.get key = .str item ∧ text = Platform.strip item

theorem requiredText_eq_ok {minimum : Nat} {text : String} :
    requiredText fields path errorType key minimum = .ok text ↔
      TextReads fields key text ∧ minimum ≤ text.length := by
  unfold requiredText TextReads
  cases hvalue : fields.get key with
  | str item =>
      rw [require_bind_eq_ok]
      constructor
      · rintro ⟨hlength, htext⟩
        cases htext
        exact ⟨⟨item, rfl, rfl⟩, hlength⟩
      · rintro ⟨⟨found, hfound, rfl⟩, hlength⟩
        cases hfound
        exact ⟨hlength, rfl⟩
  | _ => simp

/-- The field holds these paths, in any order. -/
def PathsRead (fields : Fields) (key : String) (paths : List String) : Prop :=
  ∃ items : List String, fields.get key = textItems items ∧
    (∀ item ∈ items, Platform.hasText item = true) ∧ items.Nodup ∧
      paths = items.insertionSort (· ≤ ·)

theorem mapM_asString?_eq_some {items : List Json} {texts : List String} :
    items.mapM Json.asString? = some texts ↔ items = texts.map .str := by
  induction items generalizing texts with
  | nil => cases texts <;> simp
  | cons item items ih =>
      have hrest : ∀ rest, (items.mapM Json.asString? = some rest) ↔ items = rest.map .str :=
        fun _ => ih
      rw [List.mapM_cons]
      cases item with
      | str text =>
          cases hitems : items.mapM Json.asString? with
          | none =>
              have hnone : ∀ rest, items ≠ List.map .str rest := by
                intro rest heq
                rw [(hrest rest).mpr heq] at hitems
                cases hitems
              cases texts <;> simp [hnone]
          | some read =>
              rw [(hrest read).mp hitems]
              cases texts with
              | nil => simp
              | cons first rest =>
                  have hinjective : Function.Injective (List.map Json.str) :=
                    List.map_injective_iff.mpr fun _ _ h => Json.str.inj h
                  simp [hinjective.eq_iff]
      | _ => cases texts <;> simp [Json.asString?]

theorem requiredPaths_eq_ok {paths : List String} :
    requiredPaths fields path errorType key = .ok paths ↔ PathsRead fields key paths := by
  unfold requiredPaths PathsRead textItems
  cases hvalue : fields.get key with
  | arr items =>
      dsimp only
      cases htexts : items.mapM Json.asString? with
      | none =>
          simp only [reduceCtorEq, false_iff, not_exists, not_and]
          intro texts hitems
          rw [Json.arr.inj hitems, mapM_asString?_eq_some.mpr rfl] at htexts
          cases htexts
      | some texts =>
          have hitems := mapM_asString?_eq_some.mp htexts
          dsimp only
          rw [require_bind_eq_ok]
          constructor
          · rintro ⟨⟨hfilled, hnodup⟩, hpaths⟩
            cases hpaths
            exact ⟨texts, by rw [hitems], hfilled, hnodup, rfl⟩
          · rintro ⟨found, hfound, hfilled, hnodup, rfl⟩
            have hsame : texts = found := by
              have hmap := hitems.symm.trans (Json.arr.inj hfound)
              exact (List.map_injective_iff.mpr fun _ _ h => Json.str.inj h) hmap
            subst hsame
            exact ⟨⟨hfilled, hnodup⟩, rfl⟩
  | _ => simp

end Fields

/-! ### What a validated policy is -/

section Validated

variable {P} {fields : Fields} {value : Json} {path : String} {errorType : ErrorKind}
  {child : ChildDelegation} {policy : FeatureExecutionPolicy}

/-- What the fields of a delegation say, each normalized on its own. -/
structure ChildDelegation.ReadFrom (child : ChildDelegation) (fields : Fields) : Prop where
  keys : hasExactly fields CHILD_KEYS
  role : TextReads fields "role" child.role
  costSavingJustification :
    TextReads fields "cost_saving_justification" child.costSavingJustification
  taskBoundary : TextReads fields "task_boundary" child.taskBoundary
  expectedOutputContract :
    TextReads fields "expected_output_contract" child.expectedOutputContract
  profile : fields.get "profile" = .str child.profile
  expectedInputContextBytes :
    fields.get "expected_input_context_bytes" = .int child.expectedInputContextBytes
  parentContextBytes : fields.get "parent_context_bytes" = .int child.parentContextBytes
  readOnly : fields.get "read_only" = .bool child.readOnly
  ownedPaths : PathsRead fields "owned_paths" child.ownedPaths
  parentOwnedPaths : PathsRead fields "parent_owned_paths" child.parentOwnedPaths

/-- What is checked of a normalized delegation. -/
structure ChildDelegation.Valid (P : Platform) (child : ChildDelegation) : Prop where
  role : 1 ≤ child.role.length
  costSavingJustification : 20 ≤ child.costSavingJustification.length
  taskBoundary : 12 ≤ child.taskBoundary.length
  expectedOutputContract : 12 ≤ child.expectedOutputContract.length
  specific : ¬isGeneric P child.costSavingJustification
  suitable : ¬isUnsuitable P child.taskBoundary
  profile : child.profile ∈ PROFILE_NAMES
  expectedInputContextBytes : 1 ≤ child.expectedInputContextBytes
  parentContextBytes : 1 ≤ child.parentContextBytes
  smaller : child.expectedInputContextBytes * 2 ≤ child.parentContextBytes
  writes : child.readOnly = true ∨ child.ownedPaths ≠ []
  exclusive : sharedPaths child = []

theorem delegationOf_eq_ok : delegationOf P fields path errorType = .ok child ↔
    child.ReadFrom fields ∧ child.Valid P := by
  simp only [delegationOf, requiredBytes, bind_eq_ok, require_eq_ok, exists_const,
    requiredText_eq_ok, supportedProfile_eq_ok, integerFrom_eq_ok, boolean_eq_ok,
    requiredPaths_eq_ok]
  constructor
  · rintro ⟨hkeys, role, ⟨hrole, hrole'⟩, justification, ⟨hjustification, hjustification'⟩,
      boundary, ⟨hboundary, hboundary'⟩, contract, ⟨hcontract, hcontract'⟩, hspecific, hsuitable,
      profile, ⟨hprofile, hprofile'⟩, input, ⟨hinput, hinput'⟩, parent, ⟨hparent, hparent'⟩,
      hsmaller, readOnly, hreadOnly, owned, howned, parentOwned, hparentOwned, hwrites, hexclusive,
      hchild⟩
    cases hchild
    exact ⟨⟨hkeys, hrole, hjustification, hboundary, hcontract, hprofile, hinput, hparent,
      hreadOnly, howned, hparentOwned⟩, ⟨hrole', hjustification', hboundary', hcontract',
      hspecific, hsuitable, hprofile', hinput', hparent', hsmaller, hwrites, hexclusive⟩⟩
  · rintro ⟨hread, hvalid⟩
    exact ⟨hread.keys, _, ⟨hread.role, hvalid.role⟩, _,
      ⟨hread.costSavingJustification, hvalid.costSavingJustification⟩, _,
      ⟨hread.taskBoundary, hvalid.taskBoundary⟩, _,
      ⟨hread.expectedOutputContract, hvalid.expectedOutputContract⟩, hvalid.specific,
      hvalid.suitable, _, ⟨hread.profile, hvalid.profile⟩, _,
      ⟨hread.expectedInputContextBytes, hvalid.expectedInputContextBytes⟩, _,
      ⟨hread.parentContextBytes, hvalid.parentContextBytes⟩, hvalid.smaller, _, hread.readOnly, _,
      hread.ownedPaths, _, hread.parentOwnedPaths, hvalid.writes, hvalid.exclusive, rfl⟩

theorem validateChildDelegation_eq_ok : validateChildDelegation P value path errorType = .ok child ↔
    ∃ fields, value = .obj fields ∧ child.ReadFrom fields ∧ child.Valid P := by
  unfold validateChildDelegation
  cases value with
  | obj found =>
      dsimp only
      rw [delegationOf_eq_ok]
      constructor
      · intro h
        exact ⟨found, rfl, h⟩
      · rintro ⟨fields, hfields, h⟩
        cases hfields
        exact h
  | _ => simp

/-- The texts of a delegation are stripped. -/
def ChildDelegation.texts (child : ChildDelegation) : List String :=
  [child.role, child.costSavingJustification, child.taskBoundary, child.expectedOutputContract]

theorem TextReads.strip_eq {key text : String} (h : TextReads fields key text) :
    Platform.strip text = text := by
  obtain ⟨item, -, rfl⟩ := h
  exact Platform.strip_strip item

theorem TextReads.of_stripped {key text : String} (hget : fields.get key = .str text)
    (hstripped : Platform.strip text = text) : TextReads fields key text :=
  ⟨text, hget, hstripped.symm⟩

/-- The order of a path list is all that normalizing it changes. -/
theorem PathsRead.sorted {key : String} {paths : List String} (h : PathsRead fields key paths) :
    (∀ item ∈ paths, Platform.hasText item = true) ∧ paths.Nodup ∧
      paths.insertionSort (· ≤ ·) = paths := by
  obtain ⟨items, -, hfilled, hnodup, rfl⟩ := h
  refine ⟨fun item hitem => hfilled item ((List.mem_insertionSort _).mp hitem), ?_, ?_⟩
  · exact (List.perm_insertionSort _ items).nodup_iff.mpr hnodup
  · exact (List.pairwise_insertionSort _ items).insertionSort_eq

theorem PathsRead.of_sorted {key other : String} {paths : List String} {source : Fields}
    (h : PathsRead source other paths) (hget : fields.get key = textItems paths) :
    PathsRead fields key paths :=
  ⟨paths, hget, h.sorted.1, h.sorted.2.1, h.sorted.2.2.symm⟩

theorem ChildDelegation.hasExactly_fields (child : ChildDelegation) :
    hasExactly child.fields CHILD_KEYS := by
  have hkeys : ∀ key, key ∈ child.fields.keys ↔ key ∈ CHILD_KEYS := by
    intro key
    unfold ChildDelegation.fields
    rw [Fields.mem_keys_ofPairs]
    rfl
  exact ⟨fun key => (hkeys key).mp, fun key => (hkeys key).mpr⟩

/-- A normalized delegation is read back from its own dictionary. -/
theorem ChildDelegation.ReadFrom.own (h : child.ReadFrom fields) :
    child.ReadFrom child.fields := by
  have hget : ∀ key, child.fields.get key = (Fields.get? (List.reverse
      [("role", .str child.role), ("profile", .str child.profile),
       ("cost_saving_justification", .str child.costSavingJustification),
       ("task_boundary", .str child.taskBoundary),
       ("expected_input_context_bytes", .int child.expectedInputContextBytes),
       ("parent_context_bytes", .int child.parentContextBytes),
       ("expected_output_contract", .str child.expectedOutputContract),
       ("read_only", .bool child.readOnly), ("owned_paths", textItems child.ownedPaths),
       ("parent_owned_paths", textItems child.parentOwnedPaths)]) key).getD .null := by
    intro key
    rw [Fields.get, ChildDelegation.fields, Fields.get?_ofPairs]
  refine ⟨child.hasExactly_fields, .of_stripped ?_ h.role.strip_eq,
    .of_stripped ?_ h.costSavingJustification.strip_eq, .of_stripped ?_ h.taskBoundary.strip_eq,
    .of_stripped ?_ h.expectedOutputContract.strip_eq, ?_, ?_, ?_, ?_, .of_sorted h.ownedPaths ?_,
    .of_sorted h.parentOwnedPaths ?_⟩
  all_goals
    rw [hget]
    simp [Fields.get?_cons]

/-- What the fields of a policy say, each normalized on its own. -/
structure FeatureExecutionPolicy.ReadFrom (policy : FeatureExecutionPolicy) (fields : Fields) :
    Prop where
  keys : ∀ key ∈ fields.keys, key ∈ POLICY_KEYS
  profile : fields.get "profile" = .str policy.profile
  parentSessions : fields.get "parent_sessions" = .int policy.parentSessions
  childSessions : fields.get "child_sessions" = .int policy.childSessions
  childDelegation : match policy.childDelegation with
    | none => fields.get "child_delegation" = .null
    | some child => ∃ found : Fields,
        fields.get "child_delegation" = .obj found ∧ child.ReadFrom found
  escalation : match policy.escalationTrigger, policy.escalationProfile with
    | none, none => fields.get "escalation" = .null
    | some trigger, some profile => ∃ found : Fields, fields.get "escalation" = .obj found ∧
        hasExactly found ["trigger", "profile"] ∧ TextReads found "trigger" trigger ∧
        found.get "profile" = .str profile
    | _, _ => False

/-- What is checked of a normalized policy. -/
structure FeatureExecutionPolicy.Valid (P : Platform) (policy : FeatureExecutionPolicy) :
    Prop where
  profile : policy.profile ∈ PROFILE_NAMES
  parentSessions : 1 ≤ policy.parentSessions
  childSessions : 0 ≤ policy.childSessions ∧ policy.childSessions ≤ 1
  delegated : policy.childSessions = 1 ↔ policy.childDelegation ≠ none
  childDelegation : ∀ child ∈ policy.childDelegation, child.Valid P
  trigger : ∀ trigger ∈ policy.escalationTrigger, Platform.hasText trigger = true
  escalated : ∀ profile ∈ policy.escalationProfile, profile ∈ PROFILE_NAMES ∧
    profile ≠ policy.profile

theorem hasText_strip (text : String) :
    Platform.hasText (Platform.strip text) = Platform.hasText text := by
  unfold Platform.hasText Platform.strip Platform.trim
  rw [String.toList_ofList, Bool.eq_iff_iff]
  simp only [List.any_eq_true, List.mem_reverse, Bool.not_eq_true']
  constructor
  · rintro ⟨c, hc, hkept⟩
    have hfront := (List.dropWhile_suffix _).subset hc
    exact ⟨c, (List.dropWhile_suffix _).subset (List.mem_reverse.mp hfront), hkept⟩
  · rintro ⟨c, hc, hkept⟩
    refine ⟨c, ?_, hkept⟩
    have hstays : ∀ chars : List Char, c ∈ chars → c ∈ chars.dropWhile Platform.isSpace := by
      intro chars hmem
      rcases List.mem_append.mp (List.takeWhile_append_dropWhile ▸ hmem :
        c ∈ chars.takeWhile Platform.isSpace ++ chars.dropWhile Platform.isSpace) with hdropped | h
      · rw [List.mem_takeWhile_imp hdropped] at hkept
        cases hkept
      · exact h
    exact hstays _ (List.mem_reverse.mpr (hstays _ hc))

theorem escalationOf_eq_ok {profile trigger escalated : String} :
    escalationOf P fields profile path errorType = .ok (trigger, escalated) ↔
      hasExactly fields ["trigger", "profile"] ∧ TextReads fields "trigger" trigger ∧
        Platform.hasText trigger = true ∧ fields.get "profile" = .str escalated ∧
          escalated ∈ PROFILE_NAMES ∧ escalated ≠ profile := by
  simp only [escalationOf, bind_eq_ok, require_eq_ok, exists_const, filledText_eq_ok,
    supportedProfile_eq_ok]
  constructor
  · rintro ⟨hkeys, found, ⟨hfound, hfilled⟩, name, ⟨hname, hprofile⟩, hchanged, hresult⟩
    cases hresult
    exact ⟨hkeys, ⟨found, hfound, rfl⟩, by rw [hasText_strip, hfilled], hname, hprofile, hchanged⟩
  · rintro ⟨hkeys, ⟨found, hfound, rfl⟩, hfilled, hname, hprofile, hchanged⟩
    rw [hasText_strip] at hfilled
    exact ⟨hkeys, found, ⟨hfound, hfilled⟩, escalated, ⟨hname, hprofile⟩, hchanged, rfl⟩

theorem map_some_eq_ok {α : Type} {x : Result α} {found : Option α} :
    x.map some = .ok found ↔ ∃ a, found = some a ∧ x = .ok a := by
  cases x <;> simp [Except.map, eq_comm]

theorem validateEscalation_eq_ok {profile : String} {found : Option (String × String)} :
    validateEscalation P value profile path errorType = .ok found ↔
      (found = none ∧ value = .null) ∨ ∃ pair fields, found = some pair ∧ value = .obj fields ∧
        escalationOf P fields profile path errorType = .ok pair := by
  unfold validateEscalation
  cases value with
  | null => simp [eq_comm]
  | obj fields =>
      dsimp only
      rw [map_some_eq_ok]
      constructor
      · rintro ⟨pair, hfound, hpair⟩
        exact Or.inr ⟨pair, fields, hfound, rfl, hpair⟩
      · rintro (⟨-, hvalue⟩ | ⟨pair, found', hfound, hvalue, hpair⟩)
        · cases hvalue
        · cases hvalue
          exact ⟨pair, hfound, hpair⟩
  | _ => simp

theorem optionalDelegation_eq_ok {found : Option ChildDelegation} :
    optionalDelegation P value path errorType = .ok found ↔
      (found = none ∧ value = .null) ∨ ∃ child fields, found = some child ∧ value = .obj fields ∧
        child.ReadFrom fields ∧ child.Valid P := by
  unfold optionalDelegation
  split
  · rename_i hnull
    subst hnull
    simp [eq_comm]
  · rename_i hvalue
    rw [map_some_eq_ok]
    constructor
    · rintro ⟨child, hfound, hchild⟩
      obtain ⟨fields, hfields, hread, hvalid⟩ := validateChildDelegation_eq_ok.mp hchild
      exact Or.inr ⟨child, fields, hfound, hfields, hread, hvalid⟩
    · rintro (⟨-, hnull⟩ | ⟨child, fields, hfound, hfields, hread, hvalid⟩)
      · exact absurd hnull hvalue
      · exact ⟨child, hfound, validateChildDelegation_eq_ok.mpr ⟨fields, hfields, hread, hvalid⟩⟩

theorem policyOf_eq_ok : policyOf P fields path errorType = .ok policy ↔
    policy.ReadFrom fields ∧ policy.Valid P := by
  simp only [policyOf, bind_eq_ok, require_eq_ok, exists_const, supportedProfile_eq_ok,
    integerFrom_eq_ok, optionalDelegation_eq_ok, validateEscalation_eq_ok]
  constructor
  · rintro ⟨hkeys, profile, ⟨hprofile, hknown⟩, parent, ⟨hparent, hparent'⟩, child,
      ⟨hchild, hchild'⟩, hone, hzero, hdelegated, delegation, hdelegation, escalation, hescalation,
      hpolicy⟩
    cases hpolicy
    refine ⟨⟨hkeys, hprofile, hparent, hchild, ?_, ?_⟩,
      ⟨hknown, hparent', ⟨hchild', hone⟩, ?_, ?_, ?_, ?_⟩⟩
    · rcases hdelegation with ⟨rfl, hnull⟩ | ⟨child, found, rfl, hfound, hread, -⟩
      · exact hnull
      · exact ⟨found, hfound, hread⟩
    · rcases hescalation with ⟨rfl, hnull⟩ | ⟨⟨trigger, name⟩, found, rfl, hfound, hpair⟩
      · exact hnull
      · obtain ⟨hexact, htrigger, -, hname, -⟩ := escalationOf_eq_ok.mp hpair
        exact ⟨found, hfound, hexact, htrigger, hname⟩
    · rcases hdelegation with ⟨rfl, hnull⟩ | ⟨found, object, rfl, hobject, -⟩
      · simp only [ne_eq, not_true_eq_false, iff_false]
        exact fun h => hdelegated ⟨h, hnull⟩
      · simp only [ne_eq, reduceCtorEq, not_false_eq_true, iff_true]
        have hne : child ≠ 0 := fun h => hzero ⟨h, by rw [hobject]; simp⟩
        omega
    · intro found hfound
      rcases hdelegation with ⟨rfl, -⟩ | ⟨child, -, rfl, -, -, hvalid⟩
      · cases hfound
      · cases hfound
        exact hvalid
    · intro trigger htrigger
      rcases hescalation with ⟨rfl, -⟩ | ⟨⟨found, name⟩, _, rfl, -, hpair⟩
      · cases htrigger
      · cases htrigger
        exact (escalationOf_eq_ok.mp hpair).2.2.1
    · intro name hname
      rcases hescalation with ⟨rfl, -⟩ | ⟨⟨trigger, found⟩, _, rfl, -, hpair⟩
      · cases hname
      · cases hname
        exact (escalationOf_eq_ok.mp hpair).2.2.2.2
  · rintro ⟨hread, hvalid⟩
    have hdelegated := hvalid.delegated
    refine ⟨hread.keys, _, ⟨hread.profile, hvalid.profile⟩, _,
      ⟨hread.parentSessions, hvalid.parentSessions⟩, _,
      ⟨hread.childSessions, hvalid.childSessions.1⟩, hvalid.childSessions.2, ?_, ?_,
      policy.childDelegation, ?_, ?_⟩
    · rintro ⟨hzero, hpresent⟩
      cases hchild : policy.childDelegation with
      | none =>
          have hnull := hread.childDelegation
          rw [hchild] at hnull
          exact hpresent hnull
      | some child =>
          have hone := hdelegated.mpr (by rw [hchild]; simp)
          omega
    · rintro ⟨hone, hnull⟩
      obtain ⟨child, hchild⟩ := Option.ne_none_iff_exists'.mp (hdelegated.mp hone)
      have hobject := hread.childDelegation
      rw [hchild] at hobject
      obtain ⟨found, hfound, -⟩ := hobject
      rw [hnull] at hfound
      cases hfound
    · have hread' := hread.childDelegation
      cases hchild : policy.childDelegation with
      | none =>
          rw [hchild] at hread'
          exact Or.inl ⟨rfl, hread'⟩
      | some child =>
          rw [hchild] at hread'
          obtain ⟨found, hfound, hfields⟩ := hread'
          exact Or.inr ⟨child, found, rfl, hfound, hfields, hvalid.childDelegation child hchild⟩
    · have hread' := hread.escalation
      obtain ⟨profile, parent, child, trigger, escalated, delegation⟩ := policy
      cases trigger with
      | none =>
          cases escalated with
          | none => exact ⟨none, Or.inl ⟨rfl, hread'⟩, rfl⟩
          | some name => exact hread'.elim
      | some trigger =>
          cases escalated with
          | none => exact hread'.elim
          | some name =>
              obtain ⟨found, hfound, hexact, htrigger, hname⟩ := hread'
              obtain ⟨hknown, hchanged⟩ := hvalid.escalated name rfl
              exact ⟨some (trigger, name), Or.inr ⟨(trigger, name), found, rfl, hfound,
                escalationOf_eq_ok.mpr ⟨hexact, htrigger, hvalid.trigger trigger rfl, hname, hknown,
                  hchanged⟩⟩, rfl⟩

/-- The value is accepted and this policy is what it is normalized to. -/
def Accepts (P : Platform) (value : Json) (policy : FeatureExecutionPolicy) : Prop :=
  ∃ fields, value = .obj fields ∧ policy.ReadFrom fields ∧ policy.Valid P

theorem validateFeatureExecutionPolicy_eq_ok :
    validateFeatureExecutionPolicy P value path errorType = .ok policy ↔
      Accepts P value policy := by
  unfold validateFeatureExecutionPolicy Accepts
  cases value with
  | obj found =>
      dsimp only
      rw [policyOf_eq_ok]
      constructor
      · intro h
        exact ⟨found, rfl, h⟩
      · rintro ⟨fields, hfields, h⟩
        cases hfields
        exact h
  | _ => simp

/-! ### Writing a policy back -/

theorem mem_keys_toDict {key : String} (h : key ∈ policy.toDict.keys) : key ∈ POLICY_KEYS := by
  obtain ⟨profile, parent, child, trigger, escalated, delegation⟩ := policy
  rcases trigger with _ | trigger <;> rcases escalated with _ | escalated <;>
    rcases delegation with _ | delegation <;>
    simp only [FeatureExecutionPolicy.toDict, withDelegation, Fields.mem_keys_set,
      Fields.mem_keys_ofPairs, Fields.keys_cons, List.mem_cons] at h <;>
    rcases h with h | h | h | h | h <;> simp_all [POLICY_KEYS, Fields.keys]

theorem escalationFields_reads (trigger profile : String) :
    hasExactly (escalationFields trigger profile) ["trigger", "profile"] ∧
      (escalationFields trigger profile).get "trigger" = .str trigger ∧
      (escalationFields trigger profile).get "profile" = .str profile := by
  have hkeys : ∀ key, key ∈ (escalationFields trigger profile).keys ↔
      key ∈ ["trigger", "profile"] := by
    intro key
    unfold escalationFields
    rw [Fields.mem_keys_ofPairs]
    rfl
  refine ⟨⟨fun key => (hkeys key).mp, fun key => (hkeys key).mpr⟩, ?_, ?_⟩
  all_goals simp [escalationFields, Fields.get, Fields.get?_ofPairs, Fields.get?_cons]

/-- A normalized policy is read back from its own dictionary. -/
theorem FeatureExecutionPolicy.ReadFrom.own (h : policy.ReadFrom fields) :
    policy.ReadFrom policy.toDict := by
  have hdelegation := h.childDelegation
  have hescalation := h.escalation
  obtain ⟨profile, parent, child, trigger, escalated, delegation⟩ := policy
  refine ⟨fun _ => mem_keys_toDict, ?_, ?_, ?_, ?_, ?_⟩
  case refine_4 =>
    cases delegation with
    | none =>
        rcases trigger with _ | trigger <;> rcases escalated with _ | escalated <;>
          simp [FeatureExecutionPolicy.toDict, withDelegation, Fields.get, Fields.get?_set,
            Fields.get?_ofPairs, Fields.get?_cons]
    | some delegation =>
        obtain ⟨found, -, hread⟩ := hdelegation
        exact ⟨delegation.fields, Fields.get_set_self _ _ _, hread.own⟩
  case refine_5 =>
    have hothers : ∀ values : Fields,
        (withDelegation values delegation).get "escalation" = values.get "escalation" := by
      intro values
      cases delegation with
      | none => rfl
      | some child => exact Fields.get_set_of_ne (by decide) _ _
    rcases trigger with _ | trigger
    · rcases escalated with _ | escalated
      · refine (hothers _).trans ?_
        simp [Fields.get, Fields.get?_ofPairs, Fields.get?_cons]
      · exact hescalation
    · rcases escalated with _ | escalated
      · exact hescalation
      · obtain ⟨found, -, -, htrigger, -⟩ := hescalation
        obtain ⟨hexact, hget, hname⟩ := escalationFields_reads trigger escalated
        exact ⟨escalationFields trigger escalated,
          (hothers _).trans (Fields.get_set_self _ _ _), hexact,
          .of_stripped hget htrigger.strip_eq, hname⟩
  all_goals
    rcases trigger with _ | trigger <;> rcases escalated with _ | escalated <;>
      rcases delegation with _ | delegation <;>
      simp [FeatureExecutionPolicy.toDict, withDelegation, Fields.get, Fields.get?_set,
        Fields.get?_ofPairs, Fields.get?_cons]

/-- A policy that was accepted is accepted again as it is written back. -/
theorem Accepts.toDict (h : Accepts P value policy) : Accepts P (.obj policy.toDict) policy := by
  obtain ⟨fields, -, hread, hvalid⟩ := h
  exact ⟨policy.toDict, rfl, hread.own, hvalid⟩

end Validated

/-! ### A policy with a child -/

def sampleChild : ChildDelegation where
  role := "fixture author"
  profile := "mechanical"
  costSavingJustification := "The fixtures are edited without repository context."
  taskBoundary := "Edit the listed fixtures."
  expectedInputContextBytes := 1000
  parentContextBytes := 4000
  expectedOutputContract := "One patch of the fixtures."
  readOnly := false
  ownedPaths := ["tests/a.json", "tests/b.json"]
  parentOwnedPaths := ["src/main.py"]

def samplePolicy : FeatureExecutionPolicy where
  profile := "bounded_precise"
  parentSessions := 1
  childSessions := 1
  escalationTrigger := some "review found drift"
  escalationProfile := some "generic_or_architectural"
  childDelegation := some sampleChild

theorem sample_accepted : validateFeatureExecutionPolicy Platform.reference
    (.obj samplePolicy.toDict) "$.execution_policy" .queueError = .ok samplePolicy := by
  decide +kernel

end ExecutionPolicy

end Conveyor
