import Conveyor.Contracts
import Conveyor.Library.Raises
import Conveyor.Library.TextLines

/-!
# Failures reported by a test run

What `validation_tiers.py` reads from the output of a `unittest` run: the headings `FAIL:` and
`ERROR:` of its summary and the verbose lines that end in `... FAIL` or `... ERROR`. Each names a
test, in one of several notations for the parameters of a subtest; `_debt_records` reduces them to
one list. `debt_records_iff` says that no reported failure is dropped.
-/

namespace Conveyor

open Library

namespace DebtRecords

inductive Outcome where
  | failure | error
deriving DecidableEq, Repr

structure DebtRecord where
  id : String
  outcome : Outcome
deriving DecidableEq, Repr

/-- What `ast.literal_eval` returns: a text, or a value of another type. -/
inductive Literal where
  | text (value : List Char)
  | other

/-- `ast.literal_eval`, with what it raises. -/
structure LiteralEval where
  eval : List Char → Result Literal
  documented : ∀ text failure, eval text = .error failure →
    failure.kind ∈ [.valueError, .typeError, .syntaxError, .memoryError, .recursionError]

def strip (text : List Char) : List Char := Platform.trim Platform.isSpace text

/-! ### Parameters of subtests -/

def unparseableParameters : Failure := conveyorError "unparseable unittest subtest parameters"

def ambiguousParameter : Failure := conveyorError "ambiguous unittest subtest parameter value"

def unparseableHeading : Failure :=
  conveyorError "unparseable unittest failure/error result heading"

/-- The loop of `_split_subtest_parameters`, with what was read of a parameter so far. -/
def splitFrom : Option Char → Bool → List Char → List Char → Option (List (List Char))
  | none, false, current, [] => some [strip current]
  | _, _, _, [] => none
  | quote, true, current, c :: rest => splitFrom quote false (current ++ [c]) rest
  | quote, false, current, c :: rest =>
      if quote ≠ none ∧ c = '\\' then splitFrom quote true (current ++ [c]) rest
      else if c = '\'' ∨ c = '"' then
        let quote := if quote = some c then none else if quote = none then some c else quote
        splitFrom quote false (current ++ [c]) rest
      else if c = ',' ∧ quote = none then
        (splitFrom none false [] rest).map (strip current :: ·)
      else splitFrom quote false (current ++ [c]) rest

/-- `_split_subtest_parameters`. -/
def splitSubtestParameters (value : List Char) : Result (List (List Char)) :=
  match splitFrom none false [] value with
  | none => .error unparseableParameters
  | some parameters => do
      require (∀ item ∈ parameters, item ≠ []) unparseableParameters
      return parameters

/-- `re.fullmatch(r"[A-Za-z_][A-Za-z0-9_]*", name)`. -/
def isParameterName : List Char → Bool
  | [] => false
  | first :: rest =>
      (first.isAlpha || first = '_') && rest.all fun c => c.isAlphanum || c = '_'

def isAmbiguous (text : List Char) : Bool := text.any fun c => c ∈ ['\r', '\n', ',', '[', ']']

variable (E : LiteralEval)

/-- `ast.literal_eval(raw_value)` with its errors of the text raised anew. -/
def decodedText (raw : List Char) : Result (List Char) :=
  match E.eval raw with
  | .ok (.text value) => .ok value
  | .ok .other => .error ambiguousParameter
  | .error failure =>
      if failure.kind = .syntaxError ∨ failure.kind = .valueError
      then .error unparseableParameters else .error failure

def isQuoted (raw : List Char) : Bool := raw.head? = some '\'' || raw.head? = some '"'

def renderedValue (raw : List Char) : Result (List Char) := do
  if isQuoted raw then
    require (raw.getLast? = raw.head?) unparseableParameters
    let decoded ← decodedText E raw
    require (isAmbiguous decoded = false) ambiguousParameter
    return decoded
  else
    require (isAmbiguous raw = false) ambiguousParameter
    return raw

/-- One parameter `name=value`. -/
def canonicalParameter (parameter : List Char) : Result (List Char) :=
  match parameter.dropWhile (· ≠ '=') with
  | [] => .error unparseableParameters
  | _ :: behind => do
      let name := strip (parameter.takeWhile (· ≠ '='))
      let raw := strip behind
      require (isParameterName name = true ∧ raw ≠ []) unparseableParameters
      let rendered ← renderedValue E raw
      return name ++ '=' :: rendered

/-- `_canonical_subtest_parameters`. -/
def canonicalSubtestParameters (value : List Char) : Result (List Char) := do
  let parameters ← splitSubtestParameters value
  let canonical ← parameters.mapM (canonicalParameter E)
  return '[' :: ([','].intercalate canonical ++ [']'])

/-! ### Identities -/

/-- A match of `(?:\s*(\[[^\]\r\n]+\]))` at the start of a text: the match, its group, and what
    stands behind it. -/
def bracket? (text : List Char) : Option (List Char × List Char × List Char) :=
  match text.dropWhile Platform.isSpace with
  | '[' :: body =>
      let inner := body.takeWhile fun c => c ∉ [']', '\r', '\n']
      match inner, body.drop inner.length with
      | _ :: _, ']' :: rest =>
          let group := '[' :: (inner ++ [']'])
          some (text.takeWhile Platform.isSpace ++ group, group, rest)
      | _, _ => none
  | _ => none

/-- `_BRACKET_PARAMETERS.finditer(text)`: each match with its group. Every step leaves a shorter
    text, so the length of the text is fuel enough. -/
def brackets : Nat → List Char → List (List Char × List Char)
  | 0, _ => []
  | fuel + 1, text =>
      match bracket? text with
      | some (whole, group, rest) => (whole, group) :: brackets fuel rest
      | none => brackets fuel text.tail

def bracketMatches (text : List Char) : List (List Char × List Char) :=
  brackets text.length text

/-- `"".join(match.group(0) for match in ...)`. -/
def consumed (text : List Char) : List Char := (bracketMatches text).flatMap Prod.fst

/-- The name of a test, without dots at its ends or spaces. -/
def IsIdentity (identity : List Char) : Prop :=
  identity ≠ [] ∧ identity.head? ≠ some '.' ∧ identity.getLast? ≠ some '.' ∧
    ∀ c ∈ identity, Platform.isSpace c = false

instance (identity : List Char) : Decidable (IsIdentity identity) :=
  inferInstanceAs (Decidable (_ ∧ _ ∧ _ ∧ _))

/-- `_canonical_result_identity`. -/
def canonicalResultIdentity (identity parameters : List Char) : Result (List Char) := do
  let identity := strip identity
  require (IsIdentity identity) unparseableHeading
  let suffix := strip parameters
  if suffix = [] then return identity
  else if suffix.head? = some '[' then
    require (bracketMatches suffix ≠ [] ∧ strip (consumed suffix) = suffix) unparseableHeading
    return identity ++ (bracketMatches suffix).flatMap Prod.snd
  else if suffix.head? = some '(' ∧ suffix.getLast? = some ')' then
    let canonical ← canonicalSubtestParameters E (strip suffix.tail.dropLast)
    return identity ++ canonical
  else .error unparseableHeading

/-! ### Result lines -/

/-- A test as a result line names it. -/
structure Heading where
  display : List Char
  identity : List Char
  parameters : List Char

/-- `(?P<identity>[^()]+)\)(?P<parameters>.*)`. -/
def parenthesized? (text : List Char) : Option (List Char × List Char) :=
  let identity := text.takeWhile fun c => c ∉ ['(', ')']
  match identity, text.drop identity.length with
  | _ :: _, ')' :: parameters => some (identity, parameters)
  | _, _ => none

/-- `(?P<display>\S+)\s+\((?P<identity>[^()]+)\)(?P<parameters>.*)`. -/
def heading? (text : List Char) : Option Heading :=
  let display := text.takeWhile (!Platform.isSpace ·)
  match display, (text.drop display.length).dropWhile Platform.isSpace with
  | _ :: _, '(' :: body => (parenthesized? body).map fun found => ⟨display, found.1, found.2⟩
  | _, _ => none

/-- `(?P<identity>...)` with the displayed name at its end. -/
def Heading.fullIdentity (heading : Heading) : List Char :=
  if ('.' :: heading.display).isSuffixOf heading.identity then heading.identity
  else heading.identity ++ '.' :: heading.display

def OUTCOMES : List (String × Outcome) := [("FAIL", .failure), ("ERROR", .error)]

/-- `_SUMMARY_RESULT.fullmatch(line)`. -/
def summaryResult? (line : List Char) : Option (Outcome × Heading) :=
  OUTCOMES.findSome? fun item =>
    match (item.1 ++ ":").toList.isPrefixOf? line with
    | some (c :: rest) =>
        if Platform.isSpace c
        then (heading? (rest.dropWhile Platform.isSpace)).map fun heading => (item.2, heading)
        else none
    | _ => none

/-- What stands in front of `\.\.\.\s+(?:FAIL|ERROR)$`. -/
def verdict? (line : List Char) : Option (List Char × Outcome) :=
  OUTCOMES.findSome? fun item =>
    match item.1.toList.isSuffixOf? line with
    | some front =>
        if front.getLast?.any Platform.isSpace
        then ("...".toList.isSuffixOf? (front.rdropWhile Platform.isSpace)).map fun front =>
          (front, item.2)
        else none
    | none => none

/-- `_VERBOSE_RESULT.fullmatch(line)`. -/
def verboseResult? (line : List Char) : Option (Outcome × Heading) := do
  let heading ← heading? line
  let (front, outcome) ← verdict? heading.parameters
  if front.getLast?.any Platform.isSpace
  then some (outcome, { heading with parameters := front.rdropWhile Platform.isSpace })
  else none

/-- `_parsed_result`, of a match or none. -/
def parsedResult (found : Option (Outcome × Heading)) : Result DebtRecord :=
  match found with
  | none => .error unparseableHeading
  | some (outcome, heading) => do
      let id ← canonicalResultIdentity E heading.fullIdentity heading.parameters
      return ⟨String.ofList id, outcome⟩

/-- What stands behind `\s+\.\.\.` at the start of a text. -/
def ellipsis? (text : List Char) : Option (List Char) :=
  if text.head?.any Platform.isSpace
  then "...".toList.isPrefixOf? (text.dropWhile Platform.isSpace) else none

/-- `(?P<parameters>.*?)\s+\.\.\.(?P<tail>.*)`. -/
def splitEllipsis : List Char → Option (List Char × List Char)
  | [] => none
  | c :: rest =>
      match ellipsis? (c :: rest) with
      | some tail => some ([], tail)
      | none => (splitEllipsis rest).map fun found => (c :: found.1, found.2)

/-- `_VERBOSE_PREFIX.fullmatch(line)`, with the tail. -/
def verbosePrefix? (line : List Char) : Option (Heading × List Char) := do
  let heading ← heading? line
  let (parameters, tail) ← splitEllipsis heading.parameters
  some ({ heading with parameters }, tail)

/-- `_VERBOSE_TERMINAL.fullmatch(tail)`. -/
def isTerminal (tail : List Char) : Bool :=
  String.ofList tail ∈ ["ok", "FAIL", "ERROR", "expected failure", "unexpected success"] ||
    ("skipped".toList.isPrefixOf? tail).any fun rest => rest.head?.all Platform.isSpace

/-- The test of a verbose line that breaks off before its verdict. -/
def incompleteHeading? (line : List Char) : Option Heading := do
  let (heading, tail) ← verbosePrefix? line
  let follows := (verbosePrefix? (strip tail)).any fun found => isTerminal (strip found.2)
  if isTerminal (strip tail) || (strip tail ≠ [] && !follows) then none else some heading

/-- `_incomplete_verbose_identity`. -/
def incompleteVerboseIdentity (line : List Char) : Result (Option (List Char)) :=
  match incompleteHeading? line with
  | none => .ok none
  | some heading =>
      (canonicalResultIdentity E heading.fullIdentity heading.parameters).map some

/-- `_subtest_parent_identity`. -/
def subtestParentIdentity (identity : List Char) : Option (List Char) :=
  let parent := identity.takeWhile (· ≠ '[')
  let suffix := identity.drop parent.length
  if parent = [] ∨ suffix = [] ∨ consumed suffix ≠ suffix then none else some parent

/-! ### The records of an output -/

/-- What a line of the output says. -/
inductive ResultLine where
  | summary (record : DebtRecord)
  | verbose (record : DebtRecord)
  | incomplete (identity : List Char)
  | other

def isSummary (line : List Char) : Bool :=
  "FAIL:".toList.isPrefixOf line || "ERROR:".toList.isPrefixOf line

def isVerbose (line : List Char) : Bool := (verdict? line).isSome

/-- One turn of the loop, over a line that is stripped. -/
def readLine (line : List Char) : Result ResultLine :=
  if isSummary line then (parsedResult E (summaryResult? line)).map .summary
  else if isVerbose line then (parsedResult E (verboseResult? line)).map .verbose
  else (incompleteVerboseIdentity E line).map fun found =>
    match found with
    | some identity => .incomplete identity
    | none => .other

namespace ResultLine

def summary? : ResultLine → Option DebtRecord
  | summary record => some record
  | _ => none

def verbose? : ResultLine → Option DebtRecord
  | verbose record => some record
  | _ => none

def incomplete? : ResultLine → Option (List Char)
  | incomplete identity => some identity
  | _ => none

end ResultLine

def ids (records : List DebtRecord) : List String := records.map (·.id)

/-- The first identity that stood before. -/
def firstDuplicate : List String → List String → String
  | _, [] => ""
  | seen, id :: rest => if id ∈ seen then id else firstDuplicate (id :: seen) rest

/-- `_validate_unique_debt_records`. -/
def validateUniqueDebtRecords (records : List DebtRecord) (source : String) : Result Unit :=
  require (ids records).Nodup (conveyorError
    s!"duplicate normalized unittest debt identity in {source}: {firstDuplicate [] (ids records)}")

/-- The two reports hold the same map of identities. -/
def SameMap (summary verbose : List DebtRecord) : Prop :=
  (∀ record ∈ summary, record ∈ verbose) ∧ ∀ record ∈ verbose, record ∈ summary

instance (summary verbose : List DebtRecord) : Decidable (SameMap summary verbose) :=
  inferInstanceAs (Decidable (_ ∧ _))

/-- `python39_subtests`: all that the verbose report lacks are subtests of tests that it left
    incomplete. -/
def Python39Subtests (summary verbose : List DebtRecord) (incomplete : List (List Char)) : Prop :=
  (∃ record ∈ summary, record.id ∉ ids verbose) ∧
  (∀ record ∈ verbose, record.id ∈ ids summary) ∧
  (∀ record ∈ summary, ∀ other ∈ verbose, record.id = other.id → record.outcome = other.outcome) ∧
  ∀ record ∈ summary, record.id ∉ ids verbose →
    (subtestParentIdentity record.id.toList).any incomplete.contains = true

instance (summary verbose : List DebtRecord) (incomplete : List (List Char)) :
    Decidable (Python39Subtests summary verbose incomplete) :=
  inferInstanceAs (Decidable (_ ∧ _ ∧ _ ∧ _))

/-- What is returned once every line is read. -/
def reconciled (lines : List ResultLine) : Result (List DebtRecord) := do
  let summary := lines.filterMap ResultLine.summary?
  let verbose := lines.filterMap ResultLine.verbose?
  validateUniqueDebtRecords summary "summary headings"
  validateUniqueDebtRecords verbose "verbose results"
  require (summary = [] ∨ verbose = [] ∨ SameMap summary verbose ∨
    Python39Subtests summary verbose (lines.filterMap ResultLine.incomplete?))
    (conveyorError "unittest verbose and summary failure/error maps differ")
  return if summary ≠ [] then summary else verbose

/-- `_debt_records`. -/
def debtRecords (output : String) : Result (List DebtRecord) := do
  let lines ← (splitlines output.toList).mapM fun line => readLine E (strip line)
  reconciled lines

/-! ### What a run reports -/

/-- The line is a heading of the summary or a verbose line with a verdict, and names this test with
    this outcome. -/
def Reported (line : List Char) (record : DebtRecord) : Prop :=
  (isSummary line = true ∧ parsedResult E (summaryResult? line) = .ok record) ∨
    (isVerbose line = true ∧ parsedResult E (verboseResult? line) = .ok record)

section Reported

variable {E} {line : List Char} {record : DebtRecord}

theorem getLast?_strip {text : List Char} {c : Char} (h : text.getLast? = some c)
    (hc : Platform.isSpace c = false) : (strip text).getLast? = some c := by
  have hshape : strip text = (text.dropWhile Platform.isSpace).rdropWhile Platform.isSpace := rfl
  obtain ⟨front, rfl⟩ := List.getLast?_eq_some_iff.mp h
  have hfront : ∀ front, ∃ kept, (front ++ [c]).dropWhile Platform.isSpace = kept ++ [c] := by
    intro front
    induction front with
    | nil => exact ⟨[], by simp [hc]⟩
    | cons d front ih =>
        rw [List.cons_append]
        by_cases hd : Platform.isSpace d = true
        · rw [List.dropWhile_cons_of_pos hd]
          exact ih
        · exact ⟨d :: front, by rw [List.dropWhile_cons_of_neg hd, List.cons_append]⟩
  obtain ⟨kept, hkept⟩ := hfront front
  rw [hshape, hkept, List.rdropWhile_concat_neg _ _ _ (by simp [hc]), List.getLast?_append]
  rfl

theorem bracket?_eq_some {text whole group rest : List Char}
    (h : bracket? text = some (whole, group, rest)) : whole.getLast? = some ']' := by
  unfold bracket? at h
  split at h
  · dsimp only at h
    split at h
    · cases h
      rw [← List.cons_append, ← List.append_assoc, List.getLast?_append]
      rfl
    · cases h
  · cases h

theorem getLast?_consumed {text : List Char} (h : consumed text ≠ []) :
    (consumed text).getLast? = some ']' := by
  have hall : ∀ fuel text, ∀ found ∈ brackets fuel text, found.1.getLast? = some ']' := by
    intro fuel
    induction fuel with
    | zero => exact fun _ _ hfound => nomatch hfound
    | succ fuel ih =>
        intro text found hfound
        unfold brackets at hfound
        split at hfound
        · rename_i whole group rest hmatch
          rcases List.mem_cons.mp hfound with rfl | hfound
          · exact bracket?_eq_some hmatch
          · exact ih rest found hfound
        · exact ih _ found hfound
  have hmatches := hall text.length text
  unfold consumed bracketMatches at h ⊢
  rcases List.eq_nil_or_concat (brackets text.length text) with hnil | ⟨front, last, hlast⟩
  · rw [hnil] at h
    exact absurd rfl h
  · have hend := hmatches last (by rw [hlast]; simp)
    rw [hlast, List.concat_eq_append, List.flatMap_append, List.flatMap_singleton,
      List.getLast?_append, hend]
    rfl

/-- Parameters with a verdict behind them are none. -/
theorem not_canonical_of_verdict {identity parameters : List Char} {c : Char}
    (hlast : parameters.getLast? = some c) (hc : c ∈ ['L', 'R']) (id : List Char) :
    canonicalResultIdentity E identity parameters ≠ .ok id := by
  have hspace : Platform.isSpace c = false ∧ c ≠ ']' ∧ c ≠ ')' := by
    simp only [List.mem_cons, List.not_mem_nil, or_false] at hc
    rcases hc with rfl | rfl <;> decide
  have hstrip := getLast?_strip hlast hspace.1
  intro h
  unfold canonicalResultIdentity at h
  simp only [require_bind_eq_ok] at h
  obtain ⟨-, h⟩ := h
  split at h
  · rename_i hnil
    rw [hnil] at hstrip
    cases hstrip
  · split at h
    · obtain ⟨⟨-, hconsumed⟩, -⟩ := require_bind_eq_ok.mp h
      have hne : consumed (strip parameters) ≠ [] := by
        intro hnil
        rw [hnil] at hconsumed
        rw [← hconsumed] at hstrip
        cases hstrip
      have hbracket := getLast?_strip (getLast?_consumed hne) (by decide)
      rw [hconsumed, hstrip] at hbracket
      exact hspace.2.1 (Option.some.inj hbracket)
    · split at h
      · rename_i hparen
        rw [hstrip] at hparen
        exact hspace.2.2 (Option.some.inj hparen.2)
      · cases h

theorem verdict?_getLast? {line front : List Char} {outcome : Outcome}
    (h : verdict? line = some (front, outcome)) : ∃ c ∈ ['L', 'R'], line.getLast? = some c := by
  unfold verdict? at h
  obtain ⟨item, hitem, hfound⟩ := List.exists_of_findSome?_eq_some h
  split at hfound
  · rename_i body hbody
    have hline := List.append_eq_of_isSuffixOf?_eq_some hbody
    rw [← hline]
    simp only [OUTCOMES, List.mem_cons, List.not_mem_nil, or_false] at hitem
    rcases hitem with rfl | rfl
    · exact ⟨'L', by decide, by rw [List.getLast?_append]; rfl⟩
    · exact ⟨'R', by decide, by rw [List.getLast?_append]; rfl⟩
  · cases hfound

theorem heading?_suffix {text : List Char} {heading : Heading} (h : heading? text = some heading) :
    ')' :: heading.parameters <:+ text := by
  unfold heading? at h
  dsimp only at h
  split at h
  · rename_i display body hdisplay hbody
    obtain ⟨⟨identity, parameters⟩, hfound, rfl⟩ := Option.map_eq_some_iff.mp h
    have hinner : ')' :: parameters <:+ body := by
      unfold parenthesized? at hfound
      dsimp only at hfound
      split at hfound
      · rename_i hrest
        cases hfound
        rw [← hrest]
        exact List.drop_suffix _ _
      · cases hfound
    have houter : '(' :: body <:+ text := by
      rw [← hbody]
      exact (List.dropWhile_suffix _).trans (List.drop_suffix _ _)
    exact (hinner.trans (List.suffix_cons _ _)).trans houter
  · cases h

/-- A heading of the summary is no verbose line. -/
theorem not_summary_and_verbose (hverbose : isVerbose line = true) :
    parsedResult E (summaryResult? line) ≠ .ok record := by
  obtain ⟨⟨front, outcome⟩, hverdict⟩ := Option.isSome_iff_exists.mp hverbose
  obtain ⟨c, hc, hlast⟩ := verdict?_getLast? hverdict
  intro h
  unfold parsedResult at h
  split at h
  · cases h
  · rename_i found heading hsummary
    obtain ⟨id, hid, -⟩ := bind_eq_ok.mp h
    have hsuffix : ')' :: heading.parameters <:+ line := by
      unfold summaryResult? at hsummary
      obtain ⟨item, -, hfound⟩ := List.exists_of_findSome?_eq_some hsummary
      split at hfound
      · rename_i d rest hrest
        split at hfound
        · obtain ⟨other, hother, heq⟩ := Option.map_eq_some_iff.mp hfound
          cases heq
          have hline := List.append_eq_of_isPrefixOf?_eq_some hrest
          rw [← hline]
          exact ((heading?_suffix hother).trans (List.dropWhile_suffix _)).trans
            ((List.suffix_cons _ _).trans (List.suffix_append _ _))
        · cases hfound
      · cases hfound
    obtain ⟨before, rfl⟩ := hsuffix
    cases hparameters : heading.parameters.getLast? with
    | none =>
        rw [List.getLast?_eq_none_iff.mp hparameters, List.getLast?_append] at hlast
        cases hlast
        revert hc
        decide
    | some d =>
        rw [List.getLast?_append, List.getLast?_cons, hparameters] at hlast
        cases hlast
        exact not_canonical_of_verdict hparameters hc id hid

theorem map_eq_ok {α β : Type} {x : Result α} {f : α → β} {b : β} :
    x.map f = .ok b ↔ ∃ a, x = .ok a ∧ f a = b := by
  cases x <;> simp [Except.map]

theorem readLine_summary : readLine E line = .ok (.summary record) ↔
    isSummary line = true ∧ parsedResult E (summaryResult? line) = .ok record := by
  unfold readLine
  split
  · rename_i hsummary
    simp [map_eq_ok, hsummary]
  · rename_i hsummary
    split
    · simp [map_eq_ok, hsummary]
    · rw [map_eq_ok]
      constructor
      · rintro ⟨found, -, hfound⟩
        cases found <;> cases hfound
      · rintro ⟨h, -⟩
        exact absurd h hsummary

theorem readLine_verbose : readLine E line = .ok (.verbose record) ↔ isSummary line = false ∧
    isVerbose line = true ∧ parsedResult E (verboseResult? line) = .ok record := by
  unfold readLine
  split
  · rename_i hsummary
    simp [map_eq_ok, hsummary]
  · rename_i hsummary
    rw [Bool.not_eq_true] at hsummary
    split
    · rename_i hverbose
      simp [map_eq_ok, hsummary, hverbose]
    · rename_i hverbose
      rw [map_eq_ok]
      constructor
      · rintro ⟨found, -, hfound⟩
        cases found <;> cases hfound
      · rintro ⟨-, h, -⟩
        exact absurd h hverbose

/-- A line that was read reports what it was read as. -/
theorem reported_iff {read : ResultLine} (h : readLine E line = .ok read) :
    Reported E line record ↔ read = .summary record ∨ read = .verbose record := by
  have hread : ∀ found, readLine E line = .ok found ↔ read = found := by
    intro found
    rw [h]
    exact ⟨Except.ok.inj, congrArg _⟩
  rw [← hread, ← hread, readLine_summary, readLine_verbose]
  unfold Reported
  refine or_congr_right ⟨fun ⟨hverbose, hparsed⟩ => ⟨?_, hverbose, hparsed⟩, fun hparsed => hparsed.2⟩
  by_contra hsummary
  rw [Bool.not_eq_false] at hsummary
  unfold readLine at h
  rw [if_pos hsummary] at h
  obtain ⟨found, hfound, -⟩ := map_eq_ok.mp h
  exact not_summary_and_verbose hverbose hfound

/-- What is returned is all that the lines report, each test once. -/
theorem reconciled_law {lines : List ResultLine} {records : List DebtRecord}
    (h : reconciled lines = .ok records) : (ids records).Nodup ∧
      ∀ record, record ∈ records ↔ .summary record ∈ lines ∨ .verbose record ∈ lines := by
  have hsummary : ∀ record, record ∈ lines.filterMap ResultLine.summary? ↔
      .summary record ∈ lines := by
    intro record
    rw [List.mem_filterMap]
    constructor
    · rintro ⟨line, hline, hfound⟩
      cases line <;> cases hfound
      exact hline
    · exact fun hline => ⟨_, hline, rfl⟩
  have hverbose : ∀ record, record ∈ lines.filterMap ResultLine.verbose? ↔
      .verbose record ∈ lines := by
    intro record
    rw [List.mem_filterMap]
    constructor
    · rintro ⟨line, hline, hfound⟩
      cases line <;> cases hfound
      exact hline
    · exact fun hline => ⟨_, hline, rfl⟩
  simp only [← hsummary, ← hverbose]
  unfold reconciled validateUniqueDebtRecords at h
  simp only [require_bind_eq_ok] at h
  obtain ⟨hunique, hunique', hmaps, hrecords⟩ := h
  generalize lines.filterMap ResultLine.summary? = summary at *
  generalize lines.filterMap ResultLine.verbose? = verbose at *
  have hresult := Except.ok.inj hrecords
  by_cases hempty : summary = []
  · subst hempty
    rw [if_neg (not_not_intro rfl)] at hresult
    subst hresult
    exact ⟨hunique', fun record => by simp⟩
  · rw [if_pos hempty] at hresult
    subst hresult
    have hcovers : ∀ record ∈ verbose, record ∈ summary := by
      intro record hrecord
      rcases hmaps with hnil | hnil | hsame | hsubtests
      · exact absurd hnil hempty
      · rw [hnil] at hrecord
        cases hrecord
      · exact hsame.2 record hrecord
      · obtain ⟨-, hids, houtcomes, -⟩ := hsubtests
        obtain ⟨other, hother, hid⟩ := List.mem_map.mp (hids record hrecord)
        have hequal : other = record := by
          have houtcome := houtcomes other hother record hrecord hid
          cases other
          cases record
          cases hid
          cases houtcome
          rfl
        exact hequal ▸ hother
    exact ⟨hunique, fun record => ⟨Or.inl, fun h => h.elim id (hcovers record)⟩⟩

/-- No reported failure is dropped. -/
theorem debtRecords_law {output : String} {records : List DebtRecord}
    (h : debtRecords E output = .ok records) : (ids records).Nodup ∧
      ∀ record, record ∈ records ↔
        ∃ line ∈ splitlines output.toList, Reported E (strip line) record := by
  obtain ⟨lines, hlines, hreconciled⟩ := bind_eq_ok.mp h
  obtain ⟨hunique, hrecords⟩ := reconciled_law hreconciled
  refine ⟨hunique, fun record => ?_⟩
  obtain ⟨hforward, hbackward⟩ := exists_partner (mapM_eq_ok.mp hlines)
  rw [hrecords]
  constructor
  · rintro (hmem | hmem)
    · obtain ⟨line, hline, hread⟩ := hbackward _ hmem
      exact ⟨line, hline, (reported_iff hread).mpr (Or.inl rfl)⟩
    · obtain ⟨line, hline, hread⟩ := hbackward _ hmem
      exact ⟨line, hline, (reported_iff hread).mpr (Or.inr rfl)⟩
  · rintro ⟨line, hline, hreported⟩
    obtain ⟨read, hmem, hread⟩ := hforward line hline
    rcases (reported_iff hread).mp hreported with rfl | rfl
    · exact Or.inl hmem
    · exact Or.inr hmem

end Reported

/-! ### What else is raised -/

/-- The value of a parameter that `literal_eval` is asked for. -/
def quotedValue? (parameter : List Char) : Option (List Char) :=
  match parameter.dropWhile (· ≠ '=') with
  | [] => none
  | _ :: behind =>
      let raw := strip behind
      if isParameterName (strip (parameter.takeWhile (· ≠ '='))) = true ∧ raw ≠ [] ∧
        isQuoted raw = true ∧ raw.getLast? = raw.head? then some raw else none

/-- The parameters of a subtest in parentheses. -/
def subtestParameters? (heading : Heading) : Option (List (List Char)) :=
  let suffix := strip heading.parameters
  if IsIdentity (strip heading.fullIdentity) ∧ suffix.head? = some '(' ∧
    suffix.getLast? = some ')' then (splitSubtestParameters (strip suffix.tail.dropLast)).toOption
  else none

/-- The test that a line names, if its result is to be read. -/
def namedHeading? (line : List Char) : Option Heading :=
  if isSummary line then (summaryResult? line).map Prod.snd
  else if isVerbose line then (verboseResult? line).map Prod.snd
  else incompleteHeading? line

/-- At the first parameter that is not canonicalized, `literal_eval` raises what is not caught. -/
def EvalEscapes (heading : Heading) : Prop :=
  ∃ front parameter back raw failure,
    subtestParameters? heading = some (front ++ parameter :: back) ∧
    (∀ earlier ∈ front, ∃ text, canonicalParameter E earlier = .ok text) ∧
    quotedValue? parameter = some raw ∧ E.eval raw = .error failure ∧
    failure.kind ∈ [.typeError, .memoryError, .recursionError]

/-- It does so for the test of the first line that is not read. -/
def OutputEscapes (output : String) : Prop :=
  ∃ before line behind heading, splitlines output.toList = before ++ line :: behind ∧
    (∀ earlier ∈ before, ∃ read, readLine E (strip earlier) = .ok read) ∧
    namedHeading? (strip line) = some heading ∧ EvalEscapes E heading

section Escapes

variable {E} {line : List Char} {heading : Heading}

def Foreign (failure : Failure) : Prop := failure.kind ≠ .conveyorError

theorem not_foreign (message : String) : ¬Foreign (conveyorError message) := fun h => h rfl

theorem own_parameters : ¬Foreign unparseableParameters := not_foreign _

theorem own_ambiguous : ¬Foreign ambiguousParameter := not_foreign _

theorem own_heading : ¬Foreign unparseableHeading := not_foreign _

theorem raises_decodedText {raw : List Char} : Raises Foreign (decodedText E raw) ↔
    ∃ failure, E.eval raw = .error failure ∧
      failure.kind ∈ [.typeError, .memoryError, .recursionError] := by
  have hdocumented := E.documented raw
  unfold decodedText
  cases heval : E.eval raw with
  | ok value =>
      cases value with
      | text decoded => simp
      | other => simp [ambiguousParameter, not_foreign]
  | error failure =>
      have hkind := hdocumented failure heval
      simp only [Except.error.injEq, exists_eq_left']
      split
      · rename_i hcaught
        simp only [raises_error, unparseableParameters, not_foreign, false_iff]
        rcases hcaught with h | h <;> rw [h] <;> decide
      · rename_i hother
        rw [raises_error, Foreign]
        rw [not_or] at hother
        simp only [List.mem_cons, List.not_mem_nil, or_false] at hkind ⊢
        constructor
        · intro _
          rcases hkind with h | h | h | h | h
          · exact absurd h hother.2
          · exact Or.inl h
          · exact absurd h hother.1
          · exact Or.inr (Or.inl h)
          · exact Or.inr (Or.inr h)
        · rintro (h | h | h) <;> rw [h] <;> decide

theorem raises_renderedValue {raw : List Char} : Raises Foreign (renderedValue E raw) ↔
    isQuoted raw = true ∧ raw.getLast? = raw.head? ∧ Raises Foreign (decodedText E raw) := by
  unfold renderedValue
  split
  · rename_i hquoted
    rw [raises_require_bind own_parameters, raises_bind]
    constructor
    · rintro ⟨hends, hraises | ⟨decoded, -, hraises⟩⟩
      · exact ⟨hquoted, hends, hraises⟩
      · rw [raises_require_bind own_ambiguous] at hraises
        exact absurd hraises.2 (raises_pure _)
    · rintro ⟨-, hends, hraises⟩
      exact ⟨hends, Or.inl hraises⟩
  · rename_i hquoted
    rw [raises_require_bind own_ambiguous]
    constructor
    · rintro ⟨-, hraises⟩
      exact absurd hraises (raises_pure _)
    · rintro ⟨h, -⟩
      exact absurd h hquoted

theorem raises_canonicalParameter {parameter : List Char} :
    Raises Foreign (canonicalParameter E parameter) ↔ ∃ raw failure,
      quotedValue? parameter = some raw ∧ E.eval raw = .error failure ∧
        failure.kind ∈ [.typeError, .memoryError, .recursionError] := by
  unfold canonicalParameter quotedValue?
  split
  · simp [unparseableParameters, not_foreign]
  · rename_i behind _
    dsimp only
    rw [raises_require_bind own_parameters, raises_bind, raises_renderedValue, raises_decodedText]
    constructor
    · rintro ⟨⟨hname, hraw⟩, ⟨hquoted, hends, failure, heval, hkind⟩ | ⟨text, -, hraises⟩⟩
      · exact ⟨strip behind, failure, if_pos ⟨hname, hraw, hquoted, hends⟩, heval, hkind⟩
      · exact absurd hraises (raises_pure _)
    · rintro ⟨raw, failure, hvalue, heval, hkind⟩
      split at hvalue
      · rename_i hall
        obtain ⟨hname, hraw, hquoted, hends⟩ := hall
        cases hvalue
        exact ⟨⟨hname, hraw⟩, Or.inl ⟨hquoted, hends, failure, heval, hkind⟩⟩
      · cases hvalue

theorem toOption_eq_some {α : Type} {x : Result α} {a : α} : x.toOption = some a ↔ x = .ok a := by
  cases x <;> simp [Except.toOption]

theorem raises_canonicalSubtestParameters {value : List Char} :
    Raises Foreign (canonicalSubtestParameters E value) ↔ ∃ front parameter back raw failure,
      splitSubtestParameters value = .ok (front ++ parameter :: back) ∧
      (∀ earlier ∈ front, ∃ text, canonicalParameter E earlier = .ok text) ∧
      quotedValue? parameter = some raw ∧ E.eval raw = .error failure ∧
      failure.kind ∈ [.typeError, .memoryError, .recursionError] := by
  have hsplit : ¬Raises Foreign (splitSubtestParameters value) := by
    unfold splitSubtestParameters
    split
    · simpa using own_parameters
    · rw [raises_require_bind own_parameters]
      exact fun h => raises_pure _ h.2
  unfold canonicalSubtestParameters
  rw [raises_bind]
  constructor
  · rintro (hraises | ⟨parameters, hparameters, hraises⟩)
    · exact absurd hraises hsplit
    · rcases raises_bind.mp hraises with hloop | ⟨canonical, -, hpure⟩
      · obtain ⟨front, parameter, back, rfl, hfront, hparameter⟩ := raises_mapM.mp hloop
        obtain ⟨raw, failure, hvalue, heval, hkind⟩ := raises_canonicalParameter.mp hparameter
        exact ⟨front, parameter, back, raw, failure, hparameters, hfront, hvalue, heval, hkind⟩
      · exact absurd hpure (raises_pure _)
  · rintro ⟨front, parameter, back, raw, failure, hparameters, hfront, hvalue, heval, hkind⟩
    refine Or.inr ⟨_, hparameters, raises_bind.mpr (Or.inl (raises_mapM.mpr ?_))⟩
    exact ⟨front, parameter, back, rfl, hfront,
      raises_canonicalParameter.mpr ⟨raw, failure, hvalue, heval, hkind⟩⟩

theorem raises_canonicalResultIdentity : Raises Foreign
    (canonicalResultIdentity E heading.fullIdentity heading.parameters) ↔ EvalEscapes E heading := by
  have hopen : ∀ suffix : List Char, suffix.head? = some '(' →
      suffix ≠ [] ∧ suffix.head? ≠ some '[' := by
    intro suffix hsuffix
    rw [hsuffix]
    refine ⟨?_, by decide⟩
    rintro rfl
    cases hsuffix
  unfold canonicalResultIdentity EvalEscapes subtestParameters?
  dsimp only
  rw [raises_require_bind own_heading]
  constructor
  · rintro ⟨hidentity, hraises⟩
    split at hraises
    · exact absurd hraises (raises_pure _)
    · split at hraises
      · rw [raises_require_bind own_heading] at hraises
        exact absurd hraises.2 (raises_pure _)
      · split at hraises
        · rename_i hparen
          rcases raises_bind.mp hraises with hparameters | ⟨_, -, hpure⟩
          · obtain ⟨front, parameter, back, raw, failure, hparameters, hrest⟩ :=
              raises_canonicalSubtestParameters.mp hparameters
            refine ⟨front, parameter, back, raw, failure, ?_, hrest⟩
            rw [if_pos ⟨hidentity, hparen⟩, toOption_eq_some, hparameters]
          · exact absurd hpure (raises_pure _)
        · rw [raises_error] at hraises
          exact absurd hraises own_heading
  · rintro ⟨front, parameter, back, raw, failure, hparameters, hrest⟩
    split at hparameters
    · rename_i hall
      obtain ⟨hidentity, hparen⟩ := hall
      obtain ⟨hne, hbracket⟩ := hopen _ hparen.1
      rw [toOption_eq_some] at hparameters
      refine ⟨hidentity, ?_⟩
      rw [if_neg hne, if_neg hbracket, if_pos hparen]
      exact raises_bind.mpr (Or.inl (raises_canonicalSubtestParameters.mpr
        ⟨front, parameter, back, raw, failure, hparameters, hrest⟩))
    · cases hparameters

theorem raises_parsedResult {found : Option (Outcome × Heading)} :
    Raises Foreign (parsedResult E found) ↔
      ∃ heading, found.map Prod.snd = some heading ∧ EvalEscapes E heading := by
  unfold parsedResult
  split
  · simpa using own_heading
  · rename_i outcome heading
    rw [raises_bind, raises_canonicalResultIdentity]
    simp

/-- Reading a line raises something else where `literal_eval` does. -/
theorem raises_readLine : Raises Foreign (readLine E line) ↔
    ∃ heading, namedHeading? line = some heading ∧ EvalEscapes E heading := by
  unfold readLine namedHeading?
  split
  · rw [raises_map, raises_parsedResult]
  · split
    · rw [raises_map, raises_parsedResult]
    · rw [raises_map, incompleteVerboseIdentity]
      split
      · rename_i hnone
        simp [hnone]
      · rename_i heading hheading
        rw [raises_map, raises_canonicalResultIdentity, hheading]
        simp

theorem not_raises_reconciled (lines : List ResultLine) : ¬Raises Foreign (reconciled lines) := by
  unfold reconciled validateUniqueDebtRecords
  simp only [raises_require_bind (not_foreign _), raises_pure, and_false, not_false_eq_true]

theorem raises_debtRecords {output : String} :
    Raises Foreign (debtRecords E output) ↔ OutputEscapes E output := by
  unfold debtRecords OutputEscapes
  rw [raises_bind, raises_mapM]
  constructor
  · rintro (⟨before, line, behind, hlines, hbefore, hraises⟩ | ⟨lines, -, hraises⟩)
    · obtain ⟨heading, hheading, hescapes⟩ := raises_readLine.mp hraises
      exact ⟨before, line, behind, heading, hlines, hbefore, hheading, hescapes⟩
    · exact absurd hraises (not_raises_reconciled lines)
  · rintro ⟨before, line, behind, heading, hlines, hbefore, hheading, hescapes⟩
    exact Or.inl ⟨before, line, behind, hlines, hbefore,
      raises_readLine.mpr ⟨heading, hheading, hescapes⟩⟩

end Escapes

/-! ### The law -/

/-- A list that is returned holds every test that the output reports, once, and what is raised is a
    `ConveyorError`. -/
structure DropsNothing (output : String) (result : Result (List DebtRecord)) : Prop where
  returns : ∀ records, result = .ok records → (ids records).Nodup ∧
    ∀ record, record ∈ records ↔
      ∃ line ∈ splitlines output.toList, Reported E (strip line) record
  raises : ∀ failure, result = .error failure → failure.kind = .conveyorError

/-- No reported failure is dropped, unless `literal_eval` runs out of memory or of recursion depth
    over the parameter of a subtest. -/
theorem debt_records_iff (output : String) :
    DropsNothing E output (debtRecords E output) ↔ ¬OutputEscapes E output := by
  rw [← raises_debtRecords]
  constructor
  · rintro h ⟨failure, hfailure, hforeign⟩
    exact hforeign (h.raises failure hfailure)
  · intro h
    refine ⟨fun records hrecords => debtRecords_law hrecords, fun failure hfailure => ?_⟩
    by_contra hforeign
    exact h ⟨failure, hfailure, hforeign⟩

/-! ### A parameter that is nested too deep -/

/-- A `literal_eval` that runs out of memory over a long expression. -/
def shallowEval : LiteralEval where
  eval raw :=
    if 100000 ≤ raw.length then .error ⟨.memoryError, ""⟩
    else match raw with
      | '\'' :: body =>
          if body.dropLast.all (fun c => c ∉ ['\'', '\\', '\n'])
          then .ok (.text body.dropLast) else .error ⟨.syntaxError, "invalid syntax"⟩
      | _ => .error ⟨.valueError, "malformed node or string"⟩
  documented := by
    intro text failure h
    split at h
    · cases h
      decide
    · split at h
      · split at h
        · cases h
        · cases h
          decide
      · cases h
        decide

/-- `'' if ~~~...~1 else ''`. -/
def nestedValue (depth : Nat) : List Char :=
  "'' if ".toList ++ (List.replicate depth '~' ++ "1 else ''".toList)

def nestedParameters (depth : Nat) : List Char :=
  ' ' :: '(' :: ('i' :: '=' :: nestedValue depth ++ [')'])

/-- `FAIL: test_a (m.T) (i='' if ~~~...~1 else '')`. -/
def nestedLine (depth : Nat) : List Char :=
  "FAIL: ".toList ++ ("test_a".toList ++ ' ' :: '(' :: ("m.T".toList ++ ')' ::
    nestedParameters depth))

def nestedOutput (depth : Nat) : String := String.ofList (nestedLine depth)

section Nested

variable (depth : Nat)

theorem strip_bounded {first last : Char} {inner : List Char}
    (hfirst : Platform.isSpace first = false) (hlast : Platform.isSpace last = false) :
    strip (first :: (inner ++ [last])) = first :: (inner ++ [last]) := by
  have hshape : strip (first :: (inner ++ [last])) =
      ((first :: (inner ++ [last])).dropWhile Platform.isSpace).rdropWhile Platform.isSpace := rfl
  rw [hshape, List.dropWhile_cons_of_neg (by simp [hfirst]), ← List.cons_append,
    List.rdropWhile_concat_neg _ _ _ (by simp [hlast])]

theorem splitFrom_replicate (current rest : List Char) :
    splitFrom none false current (List.replicate depth '~' ++ rest) =
      splitFrom none false (current ++ List.replicate depth '~') rest := by
  induction depth generalizing current with
  | zero => rw [List.replicate_zero, List.nil_append, List.append_nil]
  | succ depth ih =>
      rw [List.replicate_succ, List.cons_append, splitFrom]
      simp only [ne_eq, not_true_eq_false, false_and, if_false, Char.reduceEq, or_self]
      rw [ih, List.append_assoc, List.singleton_append]

theorem nestedValue_ends : ∃ inner, nestedValue depth = '\'' :: (inner ++ ['\'']) :=
  ⟨"' if ".toList ++ (List.replicate depth '~' ++ "1 else '".toList), by
    rw [nestedValue, List.append_assoc, List.append_assoc]
    rfl⟩

theorem splitSubtestParameters_nested :
    splitSubtestParameters ('i' :: '=' :: nestedValue depth) =
      .ok [strip ('i' :: '=' :: nestedValue depth)] := by
  have hsplit : splitFrom none false [] ('i' :: '=' :: nestedValue depth) =
      some [strip ('i' :: '=' :: nestedValue depth)] := by
    have hopen : splitFrom none false [] ('i' :: '=' :: nestedValue depth) =
        splitFrom none false "i='' if ".toList
          (List.replicate depth '~' ++ "1 else ''".toList) := rfl
    have hclose : ∀ current, splitFrom none false current "1 else ''".toList =
        some [strip (current ++ "1 else ''".toList)] := by
      intro current
      have hchars : "1 else ''".toList = ['1', ' ', 'e', 'l', 's', 'e', ' ', '\'', '\''] := rfl
      rw [hchars]
      simp [splitFrom]
    rw [hopen, splitFrom_replicate, hclose, List.append_assoc]
    rfl
  obtain ⟨inner, hinner⟩ := nestedValue_ends depth
  have hstrip : strip ('i' :: '=' :: nestedValue depth) = 'i' :: '=' :: nestedValue depth := by
    rw [hinner, ← List.cons_append, ← List.cons_append]
    exact strip_bounded (by decide) (by decide)
  unfold splitSubtestParameters
  rw [hsplit, hstrip]
  dsimp only
  rw [require_of (by simp)]
  rfl

theorem heading?_of {display identity parameters : List Char} (hdisplay : display ≠ [])
    (hspace : display.all (!Platform.isSpace ·) = true) (hidentity : identity ≠ [])
    (hparens : identity.all (fun c => c ∉ ['(', ')']) = true) :
    heading? (display ++ ' ' :: '(' :: (identity ++ ')' :: parameters)) =
      some ⟨display, identity, parameters⟩ := by
  have htake : (display ++ ' ' :: '(' :: (identity ++ ')' :: parameters)).takeWhile
      (!Platform.isSpace ·) = display := by
    rw [List.takeWhile_append_of_pos (List.all_eq_true.mp hspace),
      List.takeWhile_cons_of_neg (by decide), List.append_nil]
  have hbody : (identity ++ ')' :: parameters).takeWhile (fun c => c ∉ ['(', ')']) = identity := by
    rw [List.takeWhile_append_of_pos (List.all_eq_true.mp hparens),
      List.takeWhile_cons_of_neg (by decide), List.append_nil]
  have hrest : (' ' :: '(' :: (identity ++ ')' :: parameters)).dropWhile Platform.isSpace =
      '(' :: (identity ++ ')' :: parameters) := rfl
  obtain ⟨c, display, rfl⟩ := List.exists_cons_of_ne_nil hdisplay
  obtain ⟨d, identity, rfl⟩ := List.exists_cons_of_ne_nil hidentity
  have hfound : parenthesized? (d :: identity ++ ')' :: parameters) =
      some (d :: identity, parameters) := by
    unfold parenthesized?
    rw [hbody]
    dsimp only
    rw [List.drop_left]
    rfl
  unfold heading?
  rw [htake]
  dsimp only
  rw [List.drop_left, hrest]
  exact congrArg (Option.map fun found => (⟨c :: display, found.1, found.2⟩ : Heading)) hfound

theorem namedHeading?_nested : namedHeading? (nestedLine depth) =
    some ⟨"test_a".toList, "m.T".toList, nestedParameters depth⟩ := by
  have hheading : heading? ("test_a".toList ++ ' ' :: '(' :: ("m.T".toList ++ ')' ::
      nestedParameters depth)) = some ⟨"test_a".toList, "m.T".toList, nestedParameters depth⟩ :=
    heading?_of (by decide) (by decide) (by decide) (by decide)
  have hsummary : isSummary (nestedLine depth) = true := rfl
  have hmarker : ("FAIL" ++ ":").toList.isPrefixOf? (nestedLine depth) =
      some (' ' :: ("test_a".toList ++ ' ' :: '(' :: ("m.T".toList ++ ')' ::
        nestedParameters depth))) := rfl
  have hresult : summaryResult? (nestedLine depth) = some (.failure,
      ⟨"test_a".toList, "m.T".toList, nestedParameters depth⟩) := by
    have hdrop : ("test_a".toList ++ ' ' :: '(' :: ("m.T".toList ++ ')' ::
        nestedParameters depth)).dropWhile Platform.isSpace = "test_a".toList ++ ' ' :: '(' ::
          ("m.T".toList ++ ')' :: nestedParameters depth) := rfl
    unfold summaryResult?
    rw [OUTCOMES, List.findSome?_cons]
    dsimp only
    rw [hmarker]
    dsimp only
    rw [if_pos (by decide), hdrop, hheading]
    rfl
  rw [namedHeading?, if_pos hsummary, hresult]
  rfl

theorem quotedValue?_nested :
    quotedValue? ('i' :: '=' :: nestedValue depth) = some (nestedValue depth) := by
  obtain ⟨inner, hinner⟩ := nestedValue_ends depth
  have hstrip : strip (nestedValue depth) = nestedValue depth := by
    rw [hinner]
    exact strip_bounded (by decide) (by decide)
  have hends : (nestedValue depth).getLast? = (nestedValue depth).head? := by
    rw [hinner, ← List.cons_append, List.getLast?_append]
    rfl
  have hquoted : isQuoted (nestedValue depth) = true := by
    rw [hinner]
    rfl
  have hne : nestedValue depth ≠ [] := by
    rw [hinner]
    exact List.cons_ne_nil _ _
  have hdrop : ('i' :: '=' :: nestedValue depth).dropWhile (· ≠ '=') =
      '=' :: nestedValue depth := rfl
  have htake : ('i' :: '=' :: nestedValue depth).takeWhile (· ≠ '=') = ['i'] := rfl
  unfold quotedValue?
  rw [hdrop, htake]
  dsimp only
  rw [hstrip, if_pos ⟨by decide, hne, hquoted, hends⟩]

theorem evalEscapes_nested (h : 100000 ≤ depth) : EvalEscapes shallowEval
    ⟨"test_a".toList, "m.T".toList, nestedParameters depth⟩ := by
  obtain ⟨inner, hinner⟩ := nestedValue_ends depth
  have hsuffix : strip (nestedParameters depth) =
      '(' :: ('i' :: '=' :: nestedValue depth ++ [')']) := by
    have hdrop : ∀ text, strip (' ' :: text) = strip text := fun _ => rfl
    rw [nestedParameters, hdrop]
    exact strip_bounded (by decide) (by decide)
  have hvalue : strip ('i' :: '=' :: nestedValue depth) = 'i' :: '=' :: nestedValue depth := by
    rw [hinner, ← List.cons_append, ← List.cons_append]
    exact strip_bounded (by decide) (by decide)
  have hparameters : subtestParameters? ⟨"test_a".toList, "m.T".toList, nestedParameters depth⟩ =
      some [strip ('i' :: '=' :: nestedValue depth)] := by
    have hidentity : IsIdentity (strip (Heading.fullIdentity
        ⟨"test_a".toList, "m.T".toList, nestedParameters depth⟩)) := by
      have hfull : Heading.fullIdentity ⟨"test_a".toList, "m.T".toList, nestedParameters depth⟩ =
          "m.T.test_a".toList := rfl
      have hplain : "m.T.test_a".toList.all (fun c => !Platform.isSpace c) = true := by decide
      rw [hfull]
      refine ⟨by decide, by decide, by decide, fun c hc => ?_⟩
      simpa using List.all_eq_true.mp hplain c hc
    have hlast : ('(' :: ('i' :: '=' :: nestedValue depth ++ [')'])).getLast? = some ')' := by
      rw [← List.cons_append, List.getLast?_append]
      rfl
    have hinside : ('(' :: ('i' :: '=' :: nestedValue depth ++ [')'])).tail.dropLast =
        'i' :: '=' :: nestedValue depth := by
      rw [List.tail_cons, List.dropLast_concat]
    unfold subtestParameters?
    dsimp only
    rw [hsuffix, if_pos ⟨hidentity, rfl, hlast⟩, hinside, hvalue, splitSubtestParameters_nested,
      hvalue]
    rfl
  have hlong : 100000 ≤ (nestedValue depth).length := by
    rw [nestedValue, List.length_append, List.length_append, List.length_replicate]
    omega
  refine ⟨[], strip ('i' :: '=' :: nestedValue depth), [], nestedValue depth, ⟨.memoryError, ""⟩,
    hparameters, (fun _ hmem => nomatch hmem), ?_, ?_, by decide⟩
  · rw [hvalue, quotedValue?_nested]
  · exact if_pos hlong

/-- The output is one line, which is no further stripped. -/
theorem outputEscapes_nested (h : 100000 ≤ depth) :
    OutputEscapes shallowEval (nestedOutput depth) := by
  have hplain : ∀ c ∈ nestedLine depth, isLineBoundary c = false := by
    have hpart : ∀ text : List Char, (text.all fun c => !isLineBoundary c) = true →
        ∀ c ∈ text, isLineBoundary c = false := fun _ => not_isLineBoundary_of_all
    unfold nestedLine nestedParameters nestedValue
    simp only [List.forall_mem_append, List.forall_mem_cons]
    refine ⟨hpart _ (by decide), hpart _ (by decide), by decide, by decide, hpart _ (by decide),
      by decide, by decide, by decide, ⟨by decide, by decide, hpart _ (by decide), ?_,
        hpart _ (by decide)⟩, by decide, fun _ hmem => nomatch hmem⟩
    intro c hc
    rw [(List.mem_replicate.mp hc).2]
    decide
  have hlines : splitlines (nestedOutput depth).toList = [nestedLine depth] := by
    rw [nestedOutput, String.toList_ofList]
    exact splitlines_single hplain (List.cons_ne_nil _ _)
  have hstrip : strip (nestedLine depth) = nestedLine depth := by
    have hline : nestedLine depth = 'F' :: (("AIL: ".toList ++ ("test_a".toList ++ ' ' :: '(' ::
        ("m.T".toList ++ ')' :: ' ' :: '(' :: 'i' :: '=' :: nestedValue depth))) ++ [')']) := by
      unfold nestedLine nestedParameters
      simp only [List.append_assoc, List.cons_append]
      rfl
    rw [hline]
    exact strip_bounded (by decide) (by decide)
  refine ⟨[], nestedLine depth, [], _, hlines, (fun _ hmem => nomatch hmem), ?_,
    evalEscapes_nested depth h⟩
  rw [hstrip, namedHeading?_nested]

end Nested

/-- Over such an output a `MemoryError` is raised. -/
theorem nested_not_refused : ¬DropsNothing shallowEval (nestedOutput 100000)
    (debtRecords shallowEval (nestedOutput 100000)) := by
  rintro ⟨-, hraises⟩
  obtain ⟨failure, hfailure, hforeign⟩ :=
    raises_debtRecords.mpr (outputEscapes_nested 100000 (Nat.le_refl _))
  exact hforeign (hraises failure hfailure)

end DebtRecords

end Conveyor
