import Conveyor.ExecutionPolicy
import Conveyor.Library.JsonAscii
import Conveyor.Library.TextLines

/-!
# Execution policies in Markdown

The execution policy of a feature contract stands in a fenced YAML block.
`render_markdown_execution_policy` writes one and `markdown_execution_policy` reads one back
(`execution_profiles.py`). What is read has no line boundary in any text but its path lists
(`plain_of_read`).
-/

namespace Conveyor

open Library

namespace ExecutionPolicy

/-! ### Integers as texts -/

/-- `str.isdigit` of a character, and the value that `int` gives it. -/
structure Numerals where
  isDigit : Char → Bool
  value : Char → Option Nat
  isDigit_ascii : ∀ c, isAscii c = true → isDigit c = JsonText.isDigit c
  value_ascii : ∀ c, JsonText.isDigit c = true → value c = some (c.toNat - 48)

variable (P : Platform) (N : Numerals) (D : JsonText.Decoding)

/-- The integer is one that `str` converts. -/
def Convertible (n : Int) : Prop := (Nat.toDigits 10 n.natAbs).length ≤ JsonText.maxDigits

instance (n : Int) : Decidable (Convertible n) := inferInstanceAs (Decidable (_ ≤ _))

/-- `str(n)`. -/
def intText (n : Int) : Result String := do
  require (Convertible n) ⟨.valueError,
    "Exceeds the limit (4300 digits) for integer string conversion; " ++
      "use sys.set_int_max_str_digits() to increase the limit"⟩
  return toString n

theorem intText_eq_ok {n : Int} {text : String} :
    intText n = .ok text ↔ Convertible n ∧ toString n = text := by
  unfold intText
  rw [require_bind_eq_ok]
  exact and_congr_right fun _ => ⟨Except.ok.inj, congrArg _⟩

/-- `text.isdigit()`. -/
def isNumeral (text : List Char) : Prop := text ≠ [] ∧ ∀ c ∈ text, N.isDigit c = true

instance (text : List Char) : Decidable (isNumeral N text) := inferInstanceAs (Decidable (_ ∧ _))

/-- `int(text)` of a text for which `isdigit` holds. -/
def intOf (text : List Char) : Result Int :=
  match text.mapM N.value with
  | none => .error ⟨.valueError,
      "invalid literal for int() with base 10: " ++ String.ofList (P.reprText text)⟩
  | some digits => do
      require (digits.length ≤ JsonText.maxDigits) ⟨.valueError,
        "Exceeds the limit (4300 digits) for integer string conversion: value has " ++
          s!"{digits.length} digits; use sys.set_int_max_str_digits() to increase the limit"⟩
      return (digits.foldl (fun value digit => 10 * value + digit) 0 : Nat)

/-- `int(value) if value.isdigit() else value`. -/
def coerced (text : List Char) : Result Json :=
  if isNumeral N text then (intOf P N text).map .int else .ok (.str (String.ofList text))

/-! ### Writing -/

/-- `"\n".join(lines)`. -/
def joinLines (lines : List String) : String :=
  String.ofList (['\n'].intercalate (lines.map String.toList))

def escalationLines (policy : FeatureExecutionPolicy) : List String :=
  match policy.escalationTrigger, policy.escalationProfile with
  | some trigger, some profile =>
      ["  escalation:", s!"    trigger: {trigger}", s!"    profile: {profile}"]
  | _, _ => []

def delegationLines (child : ChildDelegation) : Result (List String) := do
  let input ← intText child.expectedInputContextBytes
  let parent ← intText child.parentContextBytes
  let readOnly := if child.readOnly then "true" else "false"
  return ["  child_delegation:", s!"    role: {child.role}", s!"    profile: {child.profile}",
    s!"    cost_saving_justification: {child.costSavingJustification}",
    s!"    task_boundary: {child.taskBoundary}", s!"    expected_input_context_bytes: {input}",
    s!"    parent_context_bytes: {parent}",
    s!"    expected_output_contract: {child.expectedOutputContract}",
    s!"    read_only: {readOnly}",
    s!"    owned_paths: {Platform.dumpsAscii (textItems child.ownedPaths)}",
    s!"    parent_owned_paths: {Platform.dumpsAscii (textItems child.parentOwnedPaths)}"]

/-- The lines of a delegation, when there is one. -/
def optionalLines : Option ChildDelegation → Result (List String)
  | some child => delegationLines child
  | none => .ok []

def policyLines (policy : FeatureExecutionPolicy) : Result (List String) := do
  let parent ← intText policy.parentSessions
  let child ← intText policy.childSessions
  let delegation ← optionalLines policy.childDelegation
  return ["execution_policy:", s!"  profile: {policy.profile}", s!"  parent_sessions: {parent}",
    s!"  child_sessions: {child}"] ++ escalationLines policy ++ delegation

/-- `render_markdown_execution_policy`. -/
def renderMarkdownExecutionPolicy (value : Json) : Result String := do
  let policy ← validateFeatureExecutionPolicy P value "$.execution_policy" .queueError
  let lines ← policyLines policy
  return joinLines (["## Execution policy", "", "```yaml"] ++ lines ++ ["```", ""])

/-! ### Fenced blocks -/

/-- `[ \t]`. -/
def isTabOrSpace (c : Char) : Bool := c = ' ' || c = '\t'

/-- `[ \t]*\r?` up to the end of the line. -/
def fenceEnds (tail : List Char) : Bool := [[], ['\r']].contains (tail.dropWhile isTabOrSpace)

def isFence (mark line : List Char) : Bool :=
  mark.isPrefixOf line && fenceEnds (line.drop mark.length)

def opensYaml (line : List Char) : Bool :=
  isFence "```yaml".toList line || isFence "```yml".toList line

def closesYaml (line : List Char) : Bool := isFence "```".toList line

/-- The bodies of the matches of `_YAML_FENCE`, behind what was read of an open one. Where a fence
    is not closed no later one is, so what it opened is no match. -/
def fencesFrom : Option (List Char) → List (List Char) → List (List Char)
  | _, [] => []
  | none, line :: rest => fencesFrom (if opensYaml line then some [] else none) rest
  | some body, line :: rest =>
      if closesYaml line then body :: fencesFrom none rest
      else fencesFrom (some (body ++ line ++ ['\n'])) rest

/-- `_YAML_FENCE.finditer(text)`. -/
def yamlFences (text : String) : List (List Char) := fencesFrom none (text.toList.splitOn '\n')

/-- The indentation of a line `execution_policy:`. -/
def headerIndent? (line : List Char) : Option Nat :=
  let header := "execution_policy:".toList
  let rest := line.dropWhile (· = ' ')
  if header.isPrefixOf rest && (rest.drop header.length).all isTabOrSpace
  then some (line.takeWhile (· = ' ')).length else none

/-- The lines behind each header, with its indentation. -/
def blocksIn : List (List Char) → List (List (List Char) × Nat)
  | [] => []
  | line :: rest =>
      match headerIndent? line with
      | some indent => (rest, indent) :: blocksIn rest
      | none => blocksIn rest

/-! ### Reading -/

inductive Nested where
  | escalation | childDelegation
deriving DecidableEq, Repr

/-- What was read of a policy; a nested section is part of it from its header on. -/
structure PolicyDraft where
  policy : Fields
  escalation : Option Fields
  childDelegation : Option Fields
  nested : Option Nested

namespace PolicyDraft

def empty : PolicyDraft := ⟨[], none, none, none⟩

def toDict (draft : PolicyDraft) : Fields :=
  let value := match draft.escalation with
    | some escalation => draft.policy.set "escalation" (.obj escalation)
    | none => draft.policy
  match draft.childDelegation with
  | some child => value.set "child_delegation" (.obj child)
  | none => value

end PolicyDraft

def contractError (featureId what : String) : Failure :=
  ⟨.queueError, s!"feature contract contains {what} for {featureId}"⟩

/-- `[a-z_]`. -/
def isKeyChar (c : Char) : Bool := (decide ('a' ≤ c) && decide (c ≤ 'z')) || c = '_'

/-- `fullmatch(r" *([a-z_]+):[ \t]*(.*?)[ \t]*", line)`. -/
def keyValue? (line : List Char) : Option (String × List Char) :=
  let rest := line.dropWhile (· = ' ')
  match rest.takeWhile isKeyChar, rest.dropWhile isKeyChar with
  | [], _ => none
  | key, ':' :: value => some (String.ofList key, Platform.trim isTabOrSpace value)
  | _, _ => none

def topLevelValue (key : String) (value : List Char) : Result Json :=
  if key = "profile" then .ok (.str (String.ofList value)) else coerced P N value

def readTopLevel (featureId key : String) (value : List Char) (draft : PolicyDraft) :
    Result PolicyDraft := do
  let duplicate := contractError featureId "duplicate execution_policy keys"
  if key = "escalation" ∧ value = [] then
    require (draft.escalation = none) duplicate
    return { draft with escalation := some [], nested := some .escalation }
  else if key = "child_delegation" ∧ value = [] then
    require (draft.childDelegation = none) duplicate
    return { draft with childDelegation := some [], nested := some .childDelegation }
  else if key ∈ ["profile", "parent_sessions", "child_sessions"] then
    require (key ∉ draft.policy.keys) duplicate
    let found ← topLevelValue P N key value
    return { draft with policy := draft.policy.set key found, nested := none }
  else .error (contractError featureId "unsupported execution_policy YAML")

def readEscalation (featureId key : String) (value : List Char) (escalation : Fields) :
    Result Fields := do
  require (key ∈ ["trigger", "profile"])
    (contractError featureId "malformed execution_policy escalation")
  require (key ∉ escalation.keys)
    (contractError featureId "duplicate execution_policy escalation keys")
  return escalation.set key (.str (String.ofList value))

/-- `json.loads(value)`, or the text itself where it is no JSON. -/
def pathsValue (value : List Char) : Result Json :=
  match Json.loads D value with
  | .ok parsed => .ok parsed
  | .error .malformed => .ok (.str (String.ofList value))
  | .error .tooManyDigits => .error ⟨.valueError,
      "Exceeds the limit (4300 digits) for integer string conversion"⟩

def childValue (key : String) (value : List Char) : Result Json :=
  if key ∈ ["expected_input_context_bytes", "parent_context_bytes"] then coerced P N value
  else if key = "read_only" then
    .ok (if value = "true".toList then .bool true
      else if value = "false".toList then .bool false else .str (String.ofList value))
  else if key ∈ ["owned_paths", "parent_owned_paths"] then pathsValue D value
  else .ok (.str (String.ofList value))

def readChild (featureId key : String) (value : List Char) (child : Fields) : Result Fields := do
  require (key ∈ CHILD_KEYS ∧ key ∉ child.keys)
    (contractError featureId "malformed execution_policy child_delegation")
  let found ← childValue P N D key value
  return child.set key found

def readNested (featureId key : String) (value : List Char) (draft : PolicyDraft) :
    Result PolicyDraft :=
  match draft.nested, draft.escalation, draft.childDelegation with
  | some .escalation, some escalation, _ => do
      let escalation ← readEscalation featureId key value escalation
      return { draft with escalation := some escalation }
  | some .childDelegation, _, some child => do
      let child ← readChild P N D featureId key value child
      return { draft with childDelegation := some child }
  | _, _, _ => .error (contractError featureId "malformed nested execution_policy")

def readEntry (featureId : String) (isNested : Bool) (key : String) (value : List Char)
    (draft : PolicyDraft) : Result PolicyDraft :=
  if isNested then readNested P N D featureId key value draft
  else readTopLevel P N featureId key value draft

/-- The loop over the lines behind a header of this indentation. -/
def readLines (featureId : String) (base : Nat) :
    List (List Char) → PolicyDraft → Result PolicyDraft
  | [], draft => .ok draft
  | line :: rest, draft =>
      let indent := (line.takeWhile (· = ' ')).length
      let malformed := contractError featureId "malformed execution_policy YAML"
      if line.all Platform.isSpace then readLines featureId base rest draft
      else if indent ≤ base then .ok draft
      else do
        require ('\t' ∉ line.take indent ∧ (indent = base + 2 ∨ indent = base + 4)) malformed
        match keyValue? line with
        | none => .error malformed
        | some (key, value) => do
            let draft ← readEntry P N D featureId (indent ≠ base + 2) key value draft
            readLines featureId base rest draft

/-- `markdown_execution_policy`. -/
def markdownExecutionPolicy (featureId text : String) (required : Bool) :
    Result (Option Fields) :=
  let blocks := (yamlFences text).flatMap fun body => blocksIn (splitlines body)
  match blocks with
  | [] => if required then .error (ambiguous featureId) else .ok none
  | [(lines, base)] => do
      let draft ← readLines P N D featureId base lines .empty
      let _ ← validateFeatureExecutionPolicy P (.obj draft.toDict)
        s!"feature {featureId}.spec.execution_policy" .queueError
      return some draft.toDict
  | _ => .error (ambiguous featureId)
where
  ambiguous (featureId : String) : Failure := ⟨.queueError, "feature contract must contain " ++
    s!"exactly one fenced-YAML execution_policy block for {featureId}"⟩

/-! ### What is read has no line boundary -/

section Plain

variable {P} {N} {D} {featureId text : String} {draft after : PolicyDraft} {base : Nat}

def PlainText (text : String) : Prop := ∀ c ∈ text.toList, isLineBoundary c = false

/-- The texts of a section, apart from the path lists that are read as JSON. -/
def PlainTexts (fields : Fields) : Prop :=
  ∀ key text, key ∉ ["owned_paths", "parent_owned_paths"] →
    fields.get? key = some (.str text) → PlainText text

structure PolicyDraft.Plain (draft : PolicyDraft) : Prop where
  keys : ∀ key ∈ draft.policy.keys, key ∈ ["profile", "parent_sessions", "child_sessions"]
  escalation : ∀ fields ∈ draft.escalation, PlainTexts fields
  childDelegation : ∀ fields ∈ draft.childDelegation, PlainTexts fields

theorem mem_of_mem_trim {drops : Char → Bool} {chars : List Char} {c : Char}
    (h : c ∈ Platform.trim drops chars) : c ∈ chars := by
  unfold Platform.trim at h
  rw [List.mem_reverse] at h
  have hback := (List.dropWhile_suffix _).subset h
  exact (List.dropWhile_suffix _).subset (List.mem_reverse.mp hback)

theorem PlainTexts.set {fields : Fields} (h : PlainTexts fields) {key : String} {item : Json}
    (hitem : key ∉ ["owned_paths", "parent_owned_paths"] → ∀ text, item = .str text →
      PlainText text) : PlainTexts (fields.set key item) := by
  intro other text hother hget
  rw [Fields.get?_set] at hget
  split at hget
  · rename_i heq
    subst heq
    exact hitem hother text (Option.some.inj hget)
  · exact h other text hother hget

theorem keyValue?_plain {line value : List Char} {key : String}
    (h : keyValue? line = some (key, value)) (hline : ∀ c ∈ line, isLineBoundary c = false) :
    PlainText (String.ofList value) := by
  unfold keyValue? at h
  dsimp only at h
  split at h
  · cases h
  · rename_i name rest hrest _
    cases h
    intro c hc
    rw [String.toList_ofList] at hc
    have hmem : c ∈ ':' :: rest := List.mem_cons_of_mem _ (mem_of_mem_trim hc)
    rw [← hrest] at hmem
    exact hline c ((List.dropWhile_suffix _).subset ((List.dropWhile_suffix _).subset hmem))
  · cases h

theorem readChild_plain {key : String} {value : List Char} {child child' : Fields}
    (hvalue : PlainText (String.ofList value)) (hchild : PlainTexts child)
    (h : readChild P N D featureId key value child = .ok child') : PlainTexts child' := by
  simp only [readChild, bind_eq_ok, require_eq_ok, exists_const] at h
  obtain ⟨-, found, hfound, hresult⟩ := h
  cases hresult
  refine hchild.set fun hkey text hitem => ?_
  subst hitem
  unfold childValue at hfound
  split at hfound
  · unfold coerced at hfound
    split at hfound
    · cases hint : intOf P N value <;> rw [hint] at hfound <;> cases hfound
    · cases hfound
      exact hvalue
  · split at hfound
    · split at hfound
      · cases hfound
      · split at hfound
        · cases hfound
        · cases hfound
          exact hvalue
    · cases hfound
      exact hvalue

theorem readTopLevel_plain {key : String} {value : List Char} (hdraft : draft.Plain)
    (h : readTopLevel P N featureId key value draft = .ok after) : after.Plain := by
  have hempty : PlainTexts [] := fun _ _ _ hget => by cases hget
  unfold readTopLevel at h
  dsimp only at h
  split at h
  · simp only [require_bind_eq_ok] at h
    cases h.2
    exact ⟨hdraft.keys, fun fields hfields => by cases hfields; exact hempty,
      hdraft.childDelegation⟩
  · split at h
    · simp only [require_bind_eq_ok] at h
      cases h.2
      exact ⟨hdraft.keys, hdraft.escalation,
        fun fields hfields => by cases hfields; exact hempty⟩
    · split at h
      · rename_i hkey
        simp only [bind_eq_ok] at h
        obtain ⟨_, -, found, -, hresult⟩ := h
        cases hresult
        refine ⟨fun other hother => ?_, hdraft.escalation, hdraft.childDelegation⟩
        rcases Fields.mem_keys_set.mp hother with rfl | hother
        · exact hkey
        · exact hdraft.keys other hother
      · cases h

theorem readNested_plain {key : String} {value : List Char}
    (hvalue : PlainText (String.ofList value)) (hdraft : draft.Plain)
    (h : readNested P N D featureId key value draft = .ok after) : after.Plain := by
  obtain ⟨policy, escalation, child, nested⟩ := draft
  unfold readNested at h
  dsimp only at h
  split at h
  · rename_i fields
    obtain ⟨read, hread, hresult⟩ := bind_eq_ok.mp h
    cases hresult
    refine ⟨hdraft.keys, fun found hfound => ?_, hdraft.childDelegation⟩
    cases hfound
    simp only [readEscalation, bind_eq_ok, require_eq_ok, exists_const] at hread
    obtain ⟨-, -, hresult⟩ := hread
    cases hresult
    exact (hdraft.escalation fields rfl).set fun _ text hitem => by cases hitem; exact hvalue
  · rename_i fields
    obtain ⟨read, hread, hresult⟩ := bind_eq_ok.mp h
    cases hresult
    refine ⟨hdraft.keys, hdraft.escalation, fun found hfound => ?_⟩
    cases hfound
    exact readChild_plain hvalue (hdraft.childDelegation fields rfl) hread
  · cases h

/-- From lines without boundaries only such texts are read. -/
theorem readLines_plain {lines : List (List Char)}
    (hlines : ∀ line ∈ lines, ∀ c ∈ line, isLineBoundary c = false) (hdraft : draft.Plain)
    (h : readLines P N D featureId base lines draft = .ok after) : after.Plain := by
  induction lines generalizing draft with
  | nil =>
      cases h
      exact hdraft
  | cons line lines ih =>
      rw [List.forall_mem_cons] at hlines
      unfold readLines at h
      dsimp only at h
      split at h
      · exact ih hlines.2 hdraft h
      · split at h
        · cases h
          exact hdraft
        · simp only [require_bind_eq_ok] at h
          obtain ⟨-, h⟩ := h
          split at h
          · cases h
          · rename_i key value hkey
            have hvalue := keyValue?_plain hkey hlines.1
            obtain ⟨read, hread, h⟩ := bind_eq_ok.mp h
            refine ih hlines.2 ?_ h
            unfold readEntry at hread
            split at hread
            · exact readNested_plain hvalue hdraft hread
            · exact readTopLevel_plain hdraft hread

end Plain

/-! ### What an accepted policy that was read holds -/

section Read

variable {P} {N} {D} {featureId : String} {value : Json} {policy : FeatureExecutionPolicy}

theorem TextReads.plain {fields : Fields} {key text : String} (h : TextReads fields key text)
    (hfields : PlainTexts fields) (hkey : key ∉ ["owned_paths", "parent_owned_paths"]) :
    PlainText text := by
  obtain ⟨item, hget, rfl⟩ := h
  have hitem : PlainText item := hfields key item hkey (Fields.get?_of_get hget (by simp))
  intro c hc
  unfold Platform.strip at hc
  rw [String.toList_ofList] at hc
  exact hitem c (mem_of_mem_trim hc)

theorem FeatureExecutionPolicy.ReadFrom.trigger {fields : Fields} {trigger : String}
    (h : policy.ReadFrom fields) (htrigger : policy.escalationTrigger = some trigger) :
    ∃ escalation : Fields, fields.get "escalation" = .obj escalation ∧
      TextReads escalation "trigger" trigger := by
  have hescalation := h.escalation
  rw [htrigger] at hescalation
  cases hprofile : policy.escalationProfile with
  | none =>
      rw [hprofile] at hescalation
      exact hescalation.elim
  | some profile =>
      rw [hprofile] at hescalation
      obtain ⟨found, hfound, -, htext, -⟩ := hescalation
      exact ⟨found, hfound, htext⟩

/-- What a draft holds, read from its dictionary. -/
theorem PolicyDraft.Plain.get_toDict {draft : PolicyDraft} (h : draft.Plain) :
    draft.toDict.get "escalation" = (draft.escalation.map .obj).getD .null ∧
      draft.toDict.get "child_delegation" = (draft.childDelegation.map .obj).getD .null := by
  have hkeys := h.keys
  obtain ⟨policy, escalation, child, nested⟩ := draft
  have habsent : ∀ key, key ∉ ["profile", "parent_sessions", "child_sessions"] →
      policy.get? key = none := fun key hkey =>
    Fields.get?_eq_none_of_not_mem fun hmem => hkey (hkeys key hmem)
  have hescalation := habsent "escalation" (by decide)
  have hchild := habsent "child_delegation" (by decide)
  cases escalation <;> cases child <;>
    simp [PolicyDraft.toDict, Fields.get, Fields.get?_set, hescalation, hchild]

/-- The lines of a block are lines behind its header. -/
theorem suffix_of_mem_blocksIn {all lines : List (List Char)} {base : Nat}
    (h : (lines, base) ∈ blocksIn all) : lines <:+ all := by
  induction all with
  | nil => cases h
  | cons line rest ih =>
      unfold blocksIn at h
      split at h
      · rcases List.mem_cons.mp h with heq | h
        · cases heq
          exact List.suffix_cons line lines
        · exact (ih h).trans (List.suffix_cons line rest)
      · exact (ih h).trans (List.suffix_cons line rest)

/-- What is read is free of line boundaries, so only a policy that is can be read back. -/
theorem plain_of_read {text : String} {required : Bool} {fields : Fields}
    (h : markdownExecutionPolicy P N D featureId text required = .ok (some fields))
    (haccepted : Accepts P (.obj fields) policy) :
    (∀ trigger ∈ policy.escalationTrigger, PlainText trigger) ∧
      ∀ child ∈ policy.childDelegation, ∀ text ∈ child.texts, PlainText text := by
  unfold markdownExecutionPolicy at h
  dsimp only at h
  split at h
  · split at h <;> cases h
  · rename_i lines base hblocks
    simp only [bind_eq_ok] at h
    obtain ⟨draft, hdraft, found, -, hresult⟩ := h
    cases hresult
    have hlines : ∀ line ∈ lines, ∀ c ∈ line, isLineBoundary c = false := by
      have hmem : (lines, base) ∈ (yamlFences text).flatMap fun body =>
          blocksIn (splitlines body) := by
        rw [hblocks]
        exact List.mem_singleton_self _
      obtain ⟨body, -, hblock⟩ := List.mem_flatMap.mp hmem
      intro line hline
      exact splitlines_pieces line ((suffix_of_mem_blocksIn hblock).subset hline)
    have hempty : PolicyDraft.empty.Plain := by
      refine ⟨?_, ?_, ?_⟩
      · intro key hkey
        cases hkey
      · intro fields hfields
        cases hfields
      · intro fields hfields
        cases hfields
    have hplain := readLines_plain hlines hempty hdraft
    obtain ⟨hescalation, hdelegation⟩ := hplain.get_toDict
    obtain ⟨fields, hfields, hread, -⟩ := haccepted
    cases hfields
    constructor
    · intro trigger htrigger
      obtain ⟨found, hfound, htext⟩ := hread.trigger htrigger
      rw [hescalation] at hfound
      cases hread : draft.escalation with
      | none =>
          rw [hread] at hfound
          cases hfound
      | some escalation =>
          rw [hread] at hfound
          cases hfound
          exact htext.plain (hplain.escalation _ hread) (by decide)
    · intro child hchild
      have hread' := hread.childDelegation
      rw [Option.mem_def.mp hchild] at hread'
      obtain ⟨found, hfound, htexts⟩ := hread'
      rw [hdelegation] at hfound
      cases hread : draft.childDelegation with
      | none =>
          rw [hread] at hfound
          cases hfound
      | some fields =>
          rw [hread] at hfound
          cases hfound
          have hplain' := hplain.childDelegation _ hread
          intro text htext
          simp only [ChildDelegation.texts, List.mem_cons, List.not_mem_nil, or_false] at htext
          rcases htext with rfl | rfl | rfl | rfl
          · exact htexts.role.plain hplain' (by decide)
          · exact htexts.costSavingJustification.plain hplain' (by decide)
          · exact htexts.taskBoundary.plain hplain' (by decide)
          · exact htexts.expectedOutputContract.plain hplain' (by decide)
  · cases h

end Read

end ExecutionPolicy

end Conveyor
