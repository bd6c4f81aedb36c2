import Conveyor.FeatureQueue
import Conveyor.MarkdownRoundTrip

/-!
# The sections of a brief

How a Markdown brief is cut into the sections of its features (`_brief_sections` in
`feature_scoping.py`), and what is read from each section. The pattern of a heading is matched
line by line: it matches within a line, from its start to its end.
-/

namespace Conveyor

open Library ExecutionPolicy

/-! ### Headings -/

def isIdStart (c : Char) : Bool := ('a' ≤ c && c ≤ 'z') || ('A' ≤ c && c ≤ 'Z')

/-- `[A-Za-z0-9._-]`. -/
def isIdChar (c : Char) : Bool :=
  isIdStart c || ('0' ≤ c && c ≤ '9') || decide (c ∈ ['.', '_', '-'])

/-- `_FEATURE_ID`. -/
def isFeatureId : List Char → Bool
  | [] => false
  | first :: rest => isIdStart first && decide (rest.length ≤ 63) && rest.all isIdChar

/-- `[—–:-]`. -/
def isHeadingMark (c : Char) : Bool := decide (c ∈ ['—', '–', ':', '-'])

/-- The line without the carriage return at its end. -/
def withoutReturn (line : List Char) : List Char :=
  if line.getLast? = some '\r' then line.dropLast else line

/-- `[ \t]*(?P<title>[^\r\n]*?[^ \t\r\n])[ \t]*\r?$`. -/
def headingTitle (rest : List Char) : Option (List Char) :=
  let title := Platform.trim isTabOrSpace (withoutReturn rest)
  if title ≠ [] ∧ '\r' ∉ title then some title else none

/-- `[ \t]*(?:[—–:-]+)` before the title, the longest run of marks first. -/
def markedTitle (rest : List Char) : Option (List Char) :=
  let run := rest.dropWhile isTabOrSpace
  (List.range (run.takeWhile isHeadingMark).length).reverse.findSome? fun k =>
    headingTitle (run.drop (k + 1))

/-- `_HEADING` on one line, the longest identifier first. -/
def headingOf (line : List Char) : Option (List Char × List Char) :=
  let marks := line.takeWhile (· = '#')
  let rest := line.dropWhile (· = '#')
  let named := rest.dropWhile isTabOrSpace
  if 1 ≤ marks.length ∧ marks.length ≤ 6 ∧ named.length < rest.length ∧
      (named.head?.any isIdStart) = true then
    (List.range (min 64 (named.takeWhile isIdChar).length)).reverse.findSome? fun k =>
      (markedTitle (named.drop (k + 1))).map fun title => (named.take (k + 1), title)
  else none

/-- A match of `_HEADING`, with the text up to the next one. -/
structure HeadingMatch where
  featureId : List Char
  title : List Char
  body : List Char

/-- What stands between a heading and the next one; the line end before it belongs to it. -/
def bodyBefore : List (List Char) → List Char
  | [] => []
  | line :: rest =>
      if (headingOf line).isSome then ['\n'] else '\n' :: line ++ bodyBefore rest

/-- `_HEADING.finditer` on the lines of a text. -/
def headingMatches : List (List Char) → List HeadingMatch
  | [] => []
  | line :: rest =>
      match headingOf line with
      | none => headingMatches rest
      | some (featureId, title) => ⟨featureId, title, bodyBefore rest⟩ :: headingMatches rest

/-- One round of the loop over the matches. -/
def addSection (sections : Dict (String × String)) (found : HeadingMatch) :
    Result (Dict (String × String)) := do
  let featureId := String.ofList found.featureId
  require (sections.get? featureId = none)
    (queueError s!"brief contains duplicate feature heading {featureId}")
  return sections.insert featureId
    (Platform.strip (String.ofList found.title), String.ofList found.body)

/-- `_brief_sections`. -/
def briefSections (text : String) : Result (Dict (String × String)) :=
  (headingMatches (text.toList.splitOn '\n')).foldlM addSection []

/-! ### What a section says -/

variable (P : Platform) (N : Numerals) (D : JsonText.Decoding)

/-- `_brief_policy`. -/
def briefPolicy (featureId body : String) : Result Fields :=
  match markdownExecutionPolicy P N D featureId body true with
  | .ok (some policy) => .ok policy
  | .ok none => .error (queueError
      s!"brief must contain exactly one fenced-YAML execution_policy block for {featureId}")
  | .error failure =>
      if failure.kind = .queueError then
        .error (queueError (failure.message.replace "feature contract" "brief"))
      else .error failure

/-- The character matches the small letter where case is ignored. -/
def foldsTo (letter c : Char) : Bool :=
  decide (c.toLower = letter) || (decide (letter = 'i') && decide (c ∈ ['İ', 'ı'])) ||
    (decide (letter = 's') && decide (c = 'ſ'))

/-- What follows the word, where it stands in front. -/
def afterWord : List Char → List Char → Option (List Char)
  | [], text => some text
  | letter :: word, c :: text => if foldsTo letter c then afterWord word text else none
  | _ :: _, [] => none

/-- `(?:dependencies|depends[_ -]?on)`. -/
def afterDependencyKey (text : List Char) : Option (List Char) :=
  match afterWord "dependencies".toList text with
  | some rest => some rest
  | none =>
      match afterWord "depends".toList text with
      | some (c :: rest) =>
          afterWord "on".toList (if c ∈ ['_', ' ', '-'] then rest else c :: rest)
      | _ => none

/-- `_DEPENDENCY_LINE` at the start of a line: its `ids`. -/
def dependencyIds (text : List Char) : Option (List Char) :=
  let text := text.dropWhile Platform.isSpace
  let text := match text with
    | '-' :: rest => rest.dropWhile Platform.isSpace
    | '*' :: rest => rest.dropWhile Platform.isSpace
    | text => text
  match (afterDependencyKey text).map (List.dropWhile Platform.isSpace) with
  | some (':' :: rest) =>
      some ((rest.dropWhile Platform.isSpace).takeWhile (· ≠ '\n'))
  | _ => none

/-- The text from each of its line ends on. -/
def afterLineEnds : List Char → List (List Char)
  | [] => []
  | c :: rest => if c = '\n' then rest :: afterLineEnds rest else afterLineEnds rest

/-- `_brief_dependencies`. -/
def briefDependencies (body : String) : Result (Option (List String)) :=
  match (body.toList :: afterLineEnds body.toList).findSome? dependencyIds with
  | none => .ok none
  | some ids =>
      let raw := Platform.strip (String.ofList ids)
      if P.lowerText raw ∈ ["", "none", "[]"] then .ok (some [])
      else
        let listed := Platform.trim (fun c => c ∈ ['[', ']', ' ']) raw.toList
        let items := (listed.splitOnP fun c => Platform.isSpace c || decide (c = ',')).filter
          (· ≠ [])
        if items.all isFeatureId = true ∧ items.Nodup then .ok (some (items.map String.ofList))
        else .error (queueError "brief contains malformed or duplicate dependencies")

/-- The title, the policy and the dependencies that `inspect` takes for a feature. -/
def briefFeature (sections : Dict (String × String)) (featureId : String) :
    Result (String × Fields × Option (List String)) :=
  match sections.get? featureId with
  | none => .error (queueError s!"brief lacks a feature heading for {featureId}")
  | some (title, body) => do
      let policy ← briefPolicy P N D featureId body
      let dependencies ← briefDependencies P body
      return (title, policy, dependencies)

/-! ### Briefs made of sections -/

/-- The level of a Markdown heading; 0 for any other line. -/
def headingLevel (line : List Char) : Nat :=
  let spaces := (line.takeWhile (· = ' ')).length
  let marked := line.drop spaces
  let level := (marked.takeWhile (· = '#')).length
  if spaces ≤ 3 ∧ level ≤ 6 ∧ (marked.drop level).head?.all (fun c => c ∈ [' ', '\t', '\r']) then
    level
  else 0

/-- The fence that a line opens: its mark and length. -/
def opensFence (line : List Char) : Option (Char × Nat) :=
  let spaces := (line.takeWhile (· = ' ')).length
  let marked := line.drop spaces
  let fence := fun mark => (marked.takeWhile (· = mark)).length
  if 3 < spaces then none
  else if 3 ≤ fence '~' then some ('~', fence '~')
  else if 3 ≤ fence '`' ∧ '`' ∉ marked.drop (fence '`') then some ('`', fence '`')
  else none

/-- The line closes a fence of this mark and length. -/
def closesFence (mark : Char) (length : Nat) (line : List Char) : Bool :=
  let spaces := (line.takeWhile (· = ' ')).length
  let marked := line.drop spaces
  let fence := (marked.takeWhile (· = mark)).length
  decide (spaces ≤ 3 ∧ length ≤ fence) && (marked.drop fence).all Platform.isSpace

/-- The lines outside of fenced blocks. -/
def unfenced : Option (Char × Nat) → List (List Char) → List (List Char)
  | _, [] => []
  | some (mark, length), line :: rest =>
      unfenced (if closesFence mark length line then none else some (mark, length)) rest
  | none, line :: rest =>
      match opensFence line with
      | some fence => unfenced (some fence) rest
      | none => line :: unfenced none rest

/-- A section of a brief: a heading of level two, and lines whose own headings are deeper. -/
structure BriefSection where
  featureId : List Char
  title : List Char
  carriageReturn : Bool
  body : List (List Char)
  named : isFeatureId featureId = true
  titled : ∃ c ∈ title, isTabOrSpace c = false
  oneLine : '\n' ∉ title ∧ '\r' ∉ title
  lines : ∀ line ∈ body, '\n' ∉ line
  deeper : ∀ line ∈ unfenced none body, headingLevel line ∉ [1, 2]

namespace BriefSection

/-- `## <id> — <title>`. -/
def heading (item : BriefSection) : List Char :=
  "## ".toList ++ item.featureId ++ " — ".toList ++ item.title ++
    (if item.carriageReturn then ['\r'] else [])

def strippedTitle (item : BriefSection) : String := Platform.strip (String.ofList item.title)

/-- The body, with the line ends around its lines. -/
def bodyText (item : BriefSection) (isLast : Bool) : List Char :=
  item.body.flatMap (fun line => '\n' :: line) ++ (if isLast then [] else ['\n'])

end BriefSection

/-- The sections with the texts of their bodies. -/
def sectionBodies : List BriefSection → List (BriefSection × List Char)
  | [] => []
  | item :: rest => (item, item.bodyText rest.isEmpty) :: sectionBodies rest

/-- The brief is the concatenation of its sections. -/
def briefText (items : List BriefSection) : String :=
  String.ofList ((sectionBodies items).flatMap fun entry => entry.1.heading ++ entry.2)

/-- Each identifier with its stripped title and its entire body. -/
def wholeSections (items : List BriefSection) : Dict (String × String) :=
  (sectionBodies items).map fun entry =>
    (String.ofList entry.1.featureId, entry.1.strippedTitle, String.ofList entry.2)

/-! ### The heading of a section -/

theorem isIdChar_not_blank {c : Char} (h : isIdChar c = true) : isTabOrSpace c = false := by
  rw [Bool.eq_false_iff]
  intro hblank
  simp only [isTabOrSpace, Bool.or_eq_true, decide_eq_true_eq] at hblank
  rcases hblank with rfl | rfl
  · exact absurd h (by decide)
  · exact absurd h (by decide)

theorem isIdStart_isIdChar {c : Char} (h : isIdStart c = true) : isIdChar c = true := by
  rw [isIdChar, h, Bool.true_or, Bool.true_or]

theorem trim_append_left {drops : Char → Bool} {front : List Char}
    (h : ∀ c ∈ front, drops c = true) (text : List Char) :
    Platform.trim drops (front ++ text) = Platform.trim drops text := by
  rw [Platform.trim, Platform.trim, List.dropWhile_append_of_pos h]

theorem trim_append_right {drops : Char → Bool} {back : List Char}
    (h : ∀ c ∈ back, drops c = true) (text : List Char) :
    Platform.trim drops (text ++ back) = Platform.trim drops text := by
  have hback : back.dropWhile drops = [] := List.dropWhile_eq_nil_iff.mpr h
  rw [Platform.trim, Platform.trim, List.dropWhile_append]
  split
  · rename_i hempty
    rw [hback, List.isEmpty_iff.mp hempty]
  · rw [List.reverse_append, List.dropWhile_append_of_pos fun c hc => h c (List.mem_reverse.mp hc)]

/-- What is trimmed of fewer characters first is trimmed all the same. -/
theorem trim_trim_of_le {drops fewer : Char → Bool}
    (hle : ∀ c, fewer c = true → drops c = true) (text : List Char) :
    Platform.trim drops (Platform.trim fewer text) = Platform.trim drops text := by
  have hback : text.dropWhile fewer = Platform.trim fewer text ++
      ((text.dropWhile fewer).reverse.takeWhile fewer).reverse := by
    rw [Platform.trim, ← List.reverse_append, List.takeWhile_append_dropWhile,
      List.reverse_reverse]
  have hkept : ∀ {c chars}, c ∈ List.takeWhile fewer chars → drops c = true := fun hc =>
    hle _ (List.mem_takeWhile_imp hc)
  calc Platform.trim drops (Platform.trim fewer text)
      = Platform.trim drops (Platform.trim fewer text ++
          ((text.dropWhile fewer).reverse.takeWhile fewer).reverse) :=
        (trim_append_right (fun c hc => hkept (List.mem_reverse.mp hc)) _).symm
    _ = Platform.trim drops (text.takeWhile fewer ++ text.dropWhile fewer) := by
        rw [← hback, trim_append_left fun c hc => hkept hc]
    _ = Platform.trim drops text := by rw [List.takeWhile_append_dropWhile]

theorem withoutReturn_append {line : List Char} (carriageReturn : Bool) (h : '\r' ∉ line) :
    withoutReturn (line ++ if carriageReturn then ['\r'] else []) = line := by
  unfold withoutReturn
  cases carriageReturn with
  | true =>
      simp only [if_true]
      rw [List.getLast?_concat, if_pos rfl, List.dropLast_concat]
  | false =>
      simp only [Bool.false_eq_true, if_false, List.append_nil]
      exact if_neg fun heq => h (List.mem_of_getLast? heq)

theorem headingTitle_of_section {title : List Char} {carriageReturn : Bool}
    (htitled : ∃ c ∈ title, isTabOrSpace c = false)
    (honeLine : '\n' ∉ title ∧ '\r' ∉ title) :
    headingTitle (' ' :: title ++ if carriageReturn then ['\r'] else []) =
      some (Platform.trim isTabOrSpace title) := by
  have hfront : Platform.trim isTabOrSpace (' ' :: title) = Platform.trim isTabOrSpace title :=
    @trim_append_left isTabOrSpace [' '] (List.forall_mem_singleton.mpr (by decide)) title
  have hreturn : '\r' ∉ Platform.trim isTabOrSpace title := fun hmem =>
    honeLine.2 (mem_of_mem_trim hmem)
  have hcontent := @withoutReturn_append (' ' :: title) carriageReturn (by
    intro hmem
    rcases List.mem_cons.mp hmem with hspace | hmem
    · exact absurd hspace (by decide)
    · exact honeLine.2 hmem)
  unfold headingTitle
  rw [hcontent]
  simp only [hfront]
  exact if_pos ⟨Platform.trim_ne_nil htitled, hreturn⟩

theorem findSome_longest {α : Type} {f : Nat → Option α} {n : Nat} {found : α}
    (h : f n = some found) : (List.range (n + 1)).reverse.findSome? f = some found := by
  rw [List.range_succ, List.reverse_append, List.reverse_singleton, List.singleton_append,
    List.findSome?_cons, h]

theorem markedTitle_of_section {rest : List Char} {title : List Char}
    (h : headingTitle (' ' :: rest) = some title) :
    markedTitle (" — ".toList ++ rest) = some title := by
  have hrun : (" — ".toList ++ rest).dropWhile isTabOrSpace = '—' :: ' ' :: rest := by
    show (' ' :: '—' :: ' ' :: rest).dropWhile isTabOrSpace = _
    rw [List.dropWhile_cons_of_pos (by decide), List.dropWhile_cons_of_neg (by decide)]
  have hmarks : (('—' :: ' ' :: rest).takeWhile isHeadingMark).length = 0 + 1 := by
    rw [List.takeWhile_cons_of_pos (by decide), List.takeWhile_cons_of_neg (by decide)]
    rfl
  simp only [markedTitle, hrun, hmarks]
  exact findSome_longest h

/-- A heading of level two reads as its identifier and its title. -/
theorem headingOf_line {featureId tail title : List Char}
    (hnamed : isFeatureId featureId = true) (htitle : headingTitle (' ' :: tail) = some title) :
    headingOf ("## ".toList ++ featureId ++ " — ".toList ++ tail) = some (featureId, title) := by
  cases featureId with
  | nil => cases hnamed
  | cons first rest =>
  simp only [isFeatureId, Bool.and_eq_true, decide_eq_true_eq, List.all_eq_true] at hnamed
  obtain ⟨⟨hfirst, hlength⟩, hrest⟩ := hnamed
  have hchars : ∀ c ∈ first :: rest, isIdChar c = true := by
    intro c hc
    rcases List.mem_cons.mp hc with rfl | hmem
    · exact isIdStart_isIdChar hfirst
    · exact hrest c hmem
  have hline : "## ".toList ++ first :: rest ++ " — ".toList ++ tail =
      '#' :: '#' :: ' ' :: (first :: rest ++ (" — ".toList ++ tail)) := by
    rw [List.append_assoc, List.append_assoc]
    rfl
  have hmarks : ('#' :: '#' :: ' ' :: (first :: rest ++ (" — ".toList ++ tail))).takeWhile
      (fun c => decide (c = '#')) = ['#', '#'] := by
    rw [List.takeWhile_cons_of_pos (by decide), List.takeWhile_cons_of_pos (by decide),
      List.takeWhile_cons_of_neg (by decide)]
  have hafter : ('#' :: '#' :: ' ' :: (first :: rest ++ (" — ".toList ++ tail))).dropWhile
      (fun c => decide (c = '#')) = ' ' :: (first :: rest ++ (" — ".toList ++ tail)) := by
    rw [List.dropWhile_cons_of_pos (by decide), List.dropWhile_cons_of_pos (by decide),
      List.dropWhile_cons_of_neg (by decide)]
  have hblank : (' ' :: (first :: rest ++ (" — ".toList ++ tail))).dropWhile isTabOrSpace =
      first :: rest ++ (" — ".toList ++ tail) := by
    have hkept := isIdChar_not_blank (hchars first List.mem_cons_self)
    rw [List.dropWhile_cons_of_pos (by decide), List.cons_append,
      List.dropWhile_cons_of_neg (by simp [hkept])]
  have hid : ((first :: rest ++ (" — ".toList ++ tail)).takeWhile isIdChar).length =
      rest.length + 1 := by
    rw [List.takeWhile_append_of_pos hchars]
    have hstop : (" — ".toList ++ tail).takeWhile isIdChar = [] :=
      List.takeWhile_cons_of_neg (by decide)
    rw [hstop, List.append_nil, List.length_cons]
  have hmin : min 64 (rest.length + 1) = rest.length + 1 := by omega
  rw [hline]
  unfold headingOf
  simp only [hmarks, hafter, hblank, hid, hmin]
  rw [if_pos ⟨by decide, by decide, by simp, by simp [hfirst]⟩]
  apply findSome_longest
  have hdrop : (first :: rest ++ (" — ".toList ++ tail)).drop (rest.length + 1) =
      " — ".toList ++ tail := List.drop_left' (by simp)
  have htake : (first :: rest ++ (" — ".toList ++ tail)).take (rest.length + 1) =
      first :: rest := List.take_left' (by simp)
  rw [hdrop, htake, markedTitle_of_section htitle]
  rfl

/-- The heading of a section reads as its identifier and its title. -/
theorem headingOf_section (item : BriefSection) :
    headingOf item.heading = some (item.featureId, Platform.trim isTabOrSpace item.title) := by
  have htitle := @headingTitle_of_section item.title item.carriageReturn item.titled item.oneLine
  have hline := headingOf_line item.named htitle
  rw [BriefSection.heading, List.append_assoc]
  exact hline

/-! ### The lines of a brief -/

/-- The lines of the brief, section by section. -/
def briefLines (items : List BriefSection) : List (List Char) :=
  items.flatMap fun item => item.heading :: item.body

theorem newline_not_mem_heading (item : BriefSection) : '\n' ∉ item.heading := by
  intro hmem
  have hid : ∀ c ∈ item.featureId, c ≠ '\n' := by
    have hnamed := item.named
    cases hfeature : item.featureId with
    | nil => simp
    | cons first rest =>
      rw [hfeature] at hnamed
      simp only [isFeatureId, Bool.and_eq_true, decide_eq_true_eq, List.all_eq_true] at hnamed
      rintro c hc rfl
      rcases List.mem_cons.mp hc with rfl | hmem
      · exact absurd hnamed.1.1 (by decide)
      · exact absurd (hnamed.2 _ hmem) (by decide)
  simp only [BriefSection.heading, List.mem_append] at hmem
  rcases hmem with (((hmem | hmem) | hmem) | hmem) | hmem
  · exact absurd hmem (by decide)
  · exact hid '\n' hmem rfl
  · exact absurd hmem (by decide)
  · exact item.oneLine.1 hmem
  · revert hmem
    cases item.carriageReturn <;> decide

theorem splitOn_lines {line : List Char} {lines : List (List Char)} (hline : '\n' ∉ line)
    (hlines : ∀ line ∈ lines, '\n' ∉ line) :
    (line ++ lines.flatMap fun line => '\n' :: line).splitOn '\n' = line :: lines := by
  induction lines generalizing line with
  | nil => rw [List.flatMap_nil, List.append_nil, List.splitOn_eq_singleton hline]
  | cons next rest ih =>
      rw [List.flatMap_cons, List.cons_append,
        List.splitOn_append_cons_self_of_not_mem hline,
        ih (hlines next List.mem_cons_self) fun line hmem =>
          hlines line (List.mem_cons_of_mem _ hmem)]

theorem splitOn_lines_append {line : List Char} {lines : List (List Char)} (hline : '\n' ∉ line)
    (hlines : ∀ line ∈ lines, '\n' ∉ line) (text : List Char) :
    ((line ++ lines.flatMap fun line => '\n' :: line) ++ '\n' :: text).splitOn '\n' =
      line :: lines ++ text.splitOn '\n' := by
  rw [List.splitOn_append_cons_self, splitOn_lines hline hlines]

theorem briefText_cons (item : BriefSection) (rest : List BriefSection) :
    (briefText (item :: rest)).toList =
      item.heading ++ item.bodyText rest.isEmpty ++ (briefText rest).toList := by
  simp [briefText, sectionBodies]

theorem splitOn_brief {items : List BriefSection} (h : items ≠ []) :
    (briefText items).toList.splitOn '\n' = briefLines items := by
  induction items with
  | nil => exact absurd rfl h
  | cons item rest ih =>
      rw [briefText_cons, briefLines, List.flatMap_cons]
      have hheading := newline_not_mem_heading item
      cases rest with
      | nil =>
          have hnone : (briefText []).toList = [] := rfl
          rw [hnone, List.append_nil, List.flatMap_nil, List.append_nil, BriefSection.bodyText]
          simp only [List.isEmpty_nil, if_true, List.append_nil]
          exact splitOn_lines hheading item.lines
      | cons next others =>
          rw [BriefSection.bodyText, ← List.append_assoc,
            List.append_assoc _ _ (briefText _).toList]
          exact (splitOn_lines_append hheading item.lines _).trans
            (congrArg _ (ih (List.cons_ne_nil _ _)))

/-! ### The matches in a brief -/

theorem length_headingMatches (lines : List (List Char)) :
    (headingMatches lines).length = lines.countP fun line => (headingOf line).isSome := by
  induction lines with
  | nil => rfl
  | cons line rest ih =>
      unfold headingMatches
      cases hline : headingOf line with
      | none => rw [List.countP_cons_of_neg (by simp [hline])]; exact ih
      | some found => rw [List.countP_cons_of_pos (by simp [hline]), List.length_cons, ih]

theorem headingMatches_append {lines : List (List Char)}
    (h : ∀ line ∈ lines, headingOf line = none) (rest : List (List Char)) :
    headingMatches (lines ++ rest) = headingMatches rest := by
  induction lines with
  | nil => rfl
  | cons line others ih =>
      rw [List.cons_append, headingMatches, h line List.mem_cons_self]
      exact ih fun line hmem => h line (List.mem_cons_of_mem _ hmem)

theorem bodyBefore_append {lines : List (List Char)}
    (h : ∀ line ∈ lines, headingOf line = none) (rest : List (List Char)) :
    bodyBefore (lines ++ rest) =
      (lines.flatMap fun line => '\n' :: line) ++ bodyBefore rest := by
  induction lines with
  | nil => rfl
  | cons line others ih =>
      rw [List.cons_append, bodyBefore, h line List.mem_cons_self, List.flatMap_cons,
        ih fun line hmem => h line (List.mem_cons_of_mem _ hmem)]
      simp

/-- Where no line of a body reads as a heading, the matches are the sections. -/
theorem headingMatches_brief {items : List BriefSection}
    (h : ∀ item ∈ items, ∀ line ∈ item.body, headingOf line = none) :
    headingMatches (briefLines items) = (sectionBodies items).map fun entry =>
      ⟨entry.1.featureId, Platform.trim isTabOrSpace entry.1.title, entry.2⟩ := by
  induction items with
  | nil => rfl
  | cons item rest ih =>
      have hbody := h item List.mem_cons_self
      have hrest := ih fun item hmem => h item (List.mem_cons_of_mem _ hmem)
      have hlast : bodyBefore (briefLines rest) = if rest.isEmpty then [] else ['\n'] := by
        cases rest with
        | nil => rfl
        | cons next others =>
            simp only [briefLines, List.flatMap_cons, List.cons_append, bodyBefore,
              headingOf_section, Option.isSome_some, if_true, List.isEmpty_cons,
              Bool.false_eq_true, if_false]
      rw [briefLines, List.flatMap_cons, List.cons_append, headingMatches, headingOf_section]
      simp only [sectionBodies, List.map_cons]
      rw [bodyBefore_append hbody, headingMatches_append hbody]
      exact congrArg₂ _ (congrArg _ (congrArg _ hlast)) hrest

/-! ### When the sections of a brief are whole -/

/-- The entry of the dictionary that a match adds. -/
def sectionOf (found : HeadingMatch) : String × String × String :=
  (String.ofList found.featureId, Platform.strip (String.ofList found.title),
    String.ofList found.body)

theorem addSection_new {sections : Dict (String × String)} {found : HeadingMatch}
    (h : String.ofList found.featureId ∉ sections.keys) :
    addSection sections found = .ok (sections ++ [sectionOf found]) := by
  have hnone := Dict.get?_eq_none.mpr h
  refine bind_eq_ok.mpr ⟨(), require_eq_ok.mpr hnone, ?_⟩
  rw [Dict.insert_of_get?_eq_none hnone]
  rfl

theorem addSection_twice {sections : Dict (String × String)} {found : HeadingMatch}
    (h : String.ofList found.featureId ∈ sections.keys) (result : Dict (String × String)) :
    addSection sections found ≠ .ok result := by
  intro hok
  obtain ⟨_, hnew, -⟩ := bind_eq_ok.mp hok
  exact Dict.get?_eq_none.mp (require_eq_ok.mp hnew) h

/-- The loop returns where no identifier is found twice, with an entry for each match. -/
theorem foldlM_addSection {found : List HeadingMatch} {sections result : Dict (String × String)}
    (h : sections.keys.Nodup) : found.foldlM addSection sections = .ok result ↔
      (sections.keys ++ found.map fun item => String.ofList item.featureId).Nodup ∧
        result = sections ++ found.map sectionOf := by
  induction found generalizing sections with
  | nil =>
      rw [List.foldlM_nil, List.map_nil, List.map_nil, List.append_nil, List.append_nil]
      exact ⟨fun heq => ⟨h, (Except.ok.inj heq).symm⟩, fun heq => congrArg _ heq.2.symm⟩
  | cons item rest ih =>
      rw [List.foldlM_cons, List.map_cons, List.map_cons]
      by_cases hmem : String.ofList item.featureId ∈ sections.keys
      · refine iff_of_false (fun hok => ?_) fun hnodup => ?_
        · obtain ⟨added, hadded, -⟩ := bind_eq_ok.mp hok
          exact addSection_twice hmem added hadded
        · exact (List.nodup_append.mp hnodup.1).2.2 _ hmem _ List.mem_cons_self rfl
      · have hkeys : Dict.keys (sections ++ [sectionOf item]) =
            sections.keys ++ [String.ofList item.featureId] := by
          rw [Dict.keys, List.map_append]
          rfl
        have hnodup : (Dict.keys (sections ++ [sectionOf item])).Nodup := by
          rw [hkeys]
          exact List.nodup_append.mpr ⟨h, List.nodup_singleton _, fun key hkey other hother => by
            rw [List.mem_singleton.mp hother]
            rintro rfl
            exact hmem hkey⟩
        rw [addSection_new hmem, ok_bind, ih hnodup, hkeys, List.append_assoc, List.append_assoc]
        rfl

theorem strippedTitle_eq (item : BriefSection) :
    Platform.strip (String.ofList (Platform.trim isTabOrSpace item.title)) =
      item.strippedTitle := by
  have hle : ∀ c, isTabOrSpace c = true → Platform.isSpace c = true := by
    intro c hc
    simp only [isTabOrSpace, Bool.or_eq_true, decide_eq_true_eq] at hc
    rcases hc with rfl | rfl <;> decide
  rw [Platform.strip, BriefSection.strippedTitle, Platform.strip, String.toList_ofList,
    String.toList_ofList, trim_trim_of_le hle]

theorem map_fst_sectionBodies (items : List BriefSection) :
    (sectionBodies items).map Prod.fst = items := by
  induction items with
  | nil => rfl
  | cons item rest ih => rw [sectionBodies, List.map_cons, ih]

/-- The sections are read as they stand, and each feature reads exactly its own body. -/
structure ReadWhole (P : Platform) (N : Numerals) (D : JsonText.Decoding)
    (items : List BriefSection) : Prop where
  sections : briefSections (briefText items) = .ok (wholeSections items)
  features : ∀ entry ∈ sectionBodies items,
    (do briefFeature P N D (← briefSections (briefText items))
          (String.ofList entry.1.featureId)) =
      (do
        let policy ← briefPolicy P N D (String.ofList entry.1.featureId) (String.ofList entry.2)
        let dependencies ← briefDependencies P (String.ofList entry.2)
        return (entry.1.strippedTitle, policy, dependencies))

variable {P : Platform} {N : Numerals} {D : JsonText.Decoding} {items : List BriefSection}

theorem countP_briefLines (item : BriefSection) (rest : List BriefSection) :
    (briefLines (item :: rest)).countP (fun line => (headingOf line).isSome) =
      item.body.countP (fun line => (headingOf line).isSome) +
        (briefLines rest).countP (fun line => (headingOf line).isSome) + 1 := by
  rw [briefLines, List.flatMap_cons, List.cons_append,
    List.countP_cons_of_pos (by simp [headingOf_section]), List.countP_append]
  rfl

theorem length_le_countP (items : List BriefSection) :
    items.length ≤ (briefLines items).countP fun line => (headingOf line).isSome := by
  induction items with
  | nil => exact Nat.le_refl 0
  | cons item rest ih =>
      rw [countP_briefLines, List.length_cons]
      omega

/-- As many headings as sections: no line of a body is one. -/
theorem none_of_countP
    (h : (briefLines items).countP (fun line => (headingOf line).isSome) = items.length) :
    ∀ item ∈ items, ∀ line ∈ item.body, headingOf line = none := by
  induction items with
  | nil => simp
  | cons first rest ih =>
      rw [countP_briefLines, List.length_cons] at h
      have hle := length_le_countP rest
      have hbody : first.body.countP (fun line => (headingOf line).isSome) = 0 := by omega
      intro item hitem line hline
      rcases List.mem_cons.mp hitem with rfl | hmem
      · have hnot := List.countP_eq_zero.mp hbody line hline
        exact Option.not_isSome_iff_eq_none.mp hnot
      · exact ih (by omega) item hmem line hline

theorem briefSections_eq_ok {result : Dict (String × String)} (hitems : items ≠ []) :
    briefSections (briefText items) = .ok result ↔
      ((headingMatches (briefLines items)).map fun found => String.ofList found.featureId).Nodup ∧
        result = (headingMatches (briefLines items)).map sectionOf := by
  rw [briefSections, splitOn_brief hitems]
  exact @foldlM_addSection _ [] result List.nodup_nil

theorem briefSections_whole_iff (hids : (items.map BriefSection.featureId).Nodup) :
    briefSections (briefText items) = .ok (wholeSections items) ↔
      ∀ item ∈ items, ∀ line ∈ item.body, headingOf line = none := by
  by_cases hitems : items = []
  · subst hitems
    exact iff_of_true rfl (by simp)
  rw [briefSections_eq_ok hitems]
  constructor
  · rintro ⟨-, hwhole⟩
    apply none_of_countP
    have hlength := congrArg List.length hwhole
    rw [List.length_map, length_headingMatches, wholeSections, List.length_map,
      ← List.length_map Prod.fst, map_fst_sectionBodies] at hlength
    exact hlength.symm
  · intro hnone
    rw [headingMatches_brief hnone, List.map_map, List.map_map]
    refine ⟨?_, List.map_congr_left fun entry _ => ?_⟩
    · have hnodup : ((items.map BriefSection.featureId).map String.ofList).Nodup :=
        hids.map fun _ _ heq => String.ofList_injective heq
      rw [← map_fst_sectionBodies items, List.map_map, List.map_map] at hnodup
      exact hnodup
    · simp only [Function.comp_apply, sectionOf, strippedTitle_eq]

/-- The sections of a brief are whole exactly where no line of a body reads as a heading. -/
theorem brief_sections_whole_iff (hids : (items.map BriefSection.featureId).Nodup) :
    ReadWhole P N D items ↔ ∀ item ∈ items, ∀ line ∈ item.body, headingOf line = none := by
  constructor
  · intro hwhole
    exact (briefSections_whole_iff hids).mp hwhole.sections
  · intro hnone
    have hsections := (briefSections_whole_iff hids).mpr hnone
    refine ⟨hsections, fun entry hentry => ?_⟩
    have hkeys : (wholeSections items).keys.Nodup := by
      have hnodup : ((items.map BriefSection.featureId).map String.ofList).Nodup :=
        hids.map fun _ _ heq => String.ofList_injective heq
      rw [← map_fst_sectionBodies items, List.map_map, List.map_map] at hnodup
      rw [wholeSections, Dict.keys, List.map_map]
      exact hnodup
    have hget : (wholeSections items).get? (String.ofList entry.1.featureId) =
        some (entry.1.strippedTitle, String.ofList entry.2) :=
      Dict.get?_of_mem hkeys (List.mem_map_of_mem hentry)
    rw [hsections, ok_bind, briefFeature, hget]

/-! ### A comment in a fenced block -/

/-- A section with the policy of a feature. -/
def policySection : BriefSection where
  featureId := "F006".toList
  title := "Durable store".toList
  carriageReturn := false
  body := ["".toList, "```yaml".toList, "execution_policy:".toList,
    "  profile: multi_module_precise".toList, "  parent_sessions: 1".toList,
    "  child_sessions: 0".toList, "```".toList, "Dependencies: F005".toList,
    "### Acceptance criteria".toList, "".toList]
  named := by decide
  titled := ⟨'D', by decide, by decide⟩
  oneLine := by decide
  lines := by decide +kernel
  deeper := by decide +kernel

theorem policy_read_whole :
    ReadWhole .reference .reference sampleDecoding [policySection] :=
  (brief_sections_whole_iff (by decide +kernel)).mpr (by decide +kernel)

/-- A section whose fenced block has a comment. -/
def ownerSection : BriefSection where
  featureId := "F006".toList
  title := "Durable store".toList
  carriageReturn := false
  body := ["```yaml".toList, "# owner: controller team".toList, "```".toList]
  named := by decide
  titled := ⟨'D', by decide, by decide⟩
  oneLine := by decide
  lines := by decide +kernel
  deeper := by decide +kernel

/-- The comment in the fenced block is read as the heading of a second feature. -/
theorem comment_opens_section :
    (∃ sections, briefSections (briefText [ownerSection]) = .ok sections ∧
        sections.keys = ["F006", "owner"]) ∧
      ¬ReadWhole .reference .reference sampleDecoding [ownerSection] := by
  have hread : ∃ sections, briefSections (briefText [ownerSection]) = .ok sections ∧
      sections.keys = ["F006", "owner"] := ⟨_, rfl, by decide +kernel⟩
  refine ⟨hread, fun hwhole => ?_⟩
  obtain ⟨sections, hsections, hkeys⟩ := hread
  cases hsections.symm.trans hwhole.sections
  exact absurd hkeys (by decide +kernel)

end Conveyor
