import Conveyor.Contracts
import Conveyor.Library.Checked
import Conveyor.Library.LineEnds
import Conveyor.Library.Platform

/-!
# Editors of acceptance documents

An accepted feature is noted in three documents (`accepted_commit.py`): its row in the feature
catalog, the Factory status of its specification, and the feature state in the Factory position
section of the current status. Each editor looks for the one line that it replaces; the rest of
the document is meant to stay as it is. `editors_touch_only_targets_iff` says for which documents
it does.
-/

namespace Conveyor

open Library

namespace DocumentEditors

/-- The only element with the property, between what stands before and behind it. -/
def single? {α : Type} (p : α → Bool) (items : List α) : Option (List α × α × List α) :=
  match items.dropWhile (!p ·) with
  | [] => none
  | item :: behind => if behind.any p then none else some (items.takeWhile (!p ·), item, behind)

/-! ### The feature catalog -/

/-- `line.lstrip().startswith(f"| {feature_id} |")`. -/
def isRow (featureId : String) (line : List Char) : Bool :=
  ("| " ++ featureId ++ " |").toList.isPrefixOf (line.dropWhile Platform.isSpace)

/-- `[field.strip() for field in line.strip().strip("|").split("|")]`. -/
def rowFields (line : List Char) : List (List Char) :=
  ((Platform.trim (· = '|') (Platform.trim Platform.isSpace line)).splitOn '|').map
    (Platform.trim Platform.isSpace)

def WellFormedRow (featureId : String) (line : List Char) : Prop :=
  3 ≤ (rowFields line).length ∧ (rowFields line)[0]? = some featureId.toList

instance (featureId : String) (line : List Char) : Decidable (WellFormedRow featureId line) :=
  inferInstanceAs (Decidable (_ ∧ _))

/-- The row with its third field replaced. -/
def acceptedRow (acceptedStatus : String) (line : List Char) : List Char :=
  "| ".toList ++
    " | ".toList.intercalate ((rowFields line).set 2 acceptedStatus.toList) ++ " |".toList

/-- `_replace_catalog_status`. -/
def replaceCatalogStatus (text featureId acceptedStatus : String) : Result String :=
  match single? (isRow featureId) (splitlines text.toList) with
  | none => .error (transactionError s!"feature catalog must contain exactly one {featureId} row")
  | some (before, line, behind) => do
      require (WellFormedRow featureId line)
        (transactionError s!"feature catalog row for {featureId} is malformed")
      let suffix := if text.toList.getLast? = some '\n' then ['\n'] else []
      return String.ofList
        (joinLines (before ++ acceptedRow acceptedStatus line :: behind) ++ suffix)

/-! ### The specification -/

def factoryMarker : List Char := "- Factory status:".toList

def factoryReplacement : List Char :=
  ("- Factory status: Integration pending — deterministic acceptance metadata " ++
    "is committed with the validated implementation").toList

/-- `re.subn(r"(?m)^- Factory status:.*$", replacement, text, count=1)`, from a place that `^`
    matches or not. A match goes on up to the next `"\n"`. -/
def replaceFirst : Bool → List Char → Option (List Char)
  | _, [] => none
  | lineStart, c :: rest =>
      if lineStart && factoryMarker.isPrefixOf (c :: rest)
      then some (factoryReplacement ++ (c :: rest).dropWhile (· ≠ '\n'))
      else (replaceFirst (c = '\n') rest).map (c :: ·)

/-- `text.replace("- [ ] ", "- [x] ")`. -/
def checkBoxes : List Char → List Char
  | [] => []
  | '-' :: ' ' :: '[' :: ' ' :: ']' :: ' ' :: rest =>
      '-' :: ' ' :: '[' :: 'x' :: ']' :: ' ' :: checkBoxes rest
  | c :: rest => c :: checkBoxes rest

/-- `_replace_factory_status`. -/
def replaceFactoryStatus (text featureId : String) : Result String :=
  match replaceFirst true text.toList with
  | none => .error (transactionError
      s!"{featureId} specification lacks exactly one Factory status line")
  | some rendered => .ok (String.ofList (checkBoxes rendered))

/-! ### The current status -/

/-- `line.rstrip("\r\n")`. -/
def content (piece : Piece) : List Char :=
  piece.text.rdropWhile fun c => c = '\r' || c = '\n'

def isPositionHeading (piece : Piece) : Bool := content piece = "## Factory position".toList

/-- `re.match(r"^##(?:\s|$)", content)`. -/
def isHeading (piece : Piece) : Bool :=
  match content piece with
  | '#' :: '#' :: rest => rest.head?.all Platform.isSpace
  | _ => false

def STATE_LABELS : List String := ["Selected next feature", "Selected feature", "Active feature"]

/-- `state_prefix.match(content)`. -/
def isState (piece : Piece) : Bool :=
  STATE_LABELS.any fun label => s!"- {label}:".toList.isPrefixOf (content piece)

def isIdChar (c : Char) : Bool := c.isAlphanum || c = '.' || c = '-'

/-- `(?:\s+—\s+.+)?`, up to the end of a text without `"\n"`. -/
def titled (tail : List Char) : Bool :=
  match tail, tail.dropWhile Platform.isSpace with
  | [], _ => true
  | first :: _, '—' :: space :: _ :: _ => Platform.isSpace first && Platform.isSpace space
  | _, _ => false

/-- `([A-Za-z0-9][A-Za-z0-9.-]*)` with what may stand behind it. -/
def identified? (rest : List Char) : Option String :=
  match rest.takeWhile isIdChar with
  | [] => none
  | first :: name =>
      if first.isAlphanum && titled (rest.dropWhile isIdChar)
      then some (String.ofList (first :: name)) else none

/-- The feature of `state_line.fullmatch(content)`. -/
def stateFeature? (piece : Piece) : Option String :=
  STATE_LABELS.findSome? fun label =>
    (s!"- {label}: ".toList.isPrefixOf? (content piece)).bind identified?

/-- The end of the line as it is written back. -/
def newlineOf (piece : Piece) : List Char :=
  if ['\r', '\n'].isSuffixOf piece.text then ['\r', '\n']
  else if ['\n'].isSuffixOf piece.text then ['\n'] else []

def currentReplacement (featureId title : String) : List Char :=
  s!"- Active feature: {featureId} — {title} (accepted; milestone integration pending)".toList

def positionError (what : String) : Failure :=
  transactionError s!"docs/CURRENT_STATUS.md Factory position {what}"

/-- `_replace_current_status`. -/
def replaceCurrentStatus (text featureId title : String) : Result String :=
  match single? isPositionHeading (keepends text.toList) with
  | none => .error (transactionError
      "docs/CURRENT_STATUS.md must contain exactly one Factory position section")
  | some (before, heading, behind) => do
      let position := behind.takeWhile (!isHeading ·)
      require (position ≠ []) (positionError "section is malformed")
      require (∀ piece ∈ position, isState piece = true → (stateFeature? piece).isSome = true)
        (positionError "section is malformed")
      match single? (fun piece => (stateFeature? piece).isSome) position with
      | none => .error (positionError
          s!"must contain exactly one authoritative feature-state line for {featureId}")
      | some (first, piece, last) => do
          require (stateFeature? piece = some featureId)
            (positionError "identifies another feature")
          let line : Piece := ⟨currentReplacement featureId title, newlineOf piece⟩
          return String.ofList (joined (before ++ heading ::
            (first ++ line :: last ++ behind.dropWhile (!isHeading ·))))

/-! ### The only element -/

section Single

variable {α : Type} {p : α → Bool} {items before behind : List α} {item : α}

theorem single?_eq_some : single? p items = some (before, item, behind) ↔
    items = before ++ item :: behind ∧ p item = true ∧
      ∀ other ∈ before ++ behind, p other = false := by
  have hcut : items = items.takeWhile (!p ·) ++ items.dropWhile (!p ·) :=
    List.takeWhile_append_dropWhile.symm
  have htake : ∀ other ∈ items.takeWhile (!p ·), p other = false := by
    intro other hother
    simpa using List.mem_takeWhile_imp hother
  constructor
  · intro h
    unfold single? at h
    split at h
    · cases h
    · rename_i first rest hrest
      split at h
      · cases h
      · rename_i hany
        cases h
        have hfirst : p item = true := by
          have hhead := List.head_dropWhile_not (!p ·) (l := items) (by rw [hrest]; simp)
          simpa [hrest] using hhead
        rw [hrest] at hcut
        refine ⟨hcut, hfirst, fun other hother => ?_⟩
        rcases List.mem_append.mp hother with hother | hother
        · exact htake other hother
        · rw [Bool.eq_false_iff]
          intro hp
          exact hany (List.any_eq_true.mpr ⟨other, hother, hp⟩)
  · rintro ⟨rfl, hitem, hothers⟩
    have hbefore : ∀ other ∈ before, (!p other) = true := fun other hother => by
      rw [hothers other (List.mem_append_left _ hother)]
      rfl
    have hstop : ¬(!p item) = true := by simp [hitem]
    have hnone : behind.any p = false := by
      rw [List.any_eq_false]
      intro other hother
      rw [hothers other (List.mem_append_right _ hother)]
      exact Bool.false_ne_true
    unfold single?
    rw [List.dropWhile_append_of_pos hbefore,
      List.dropWhile_cons_of_neg (p := fun other => !p other) hstop,
      List.takeWhile_append_of_pos hbefore,
      List.takeWhile_cons_of_neg (p := fun other => !p other) hstop, List.append_nil]
    dsimp only
    rw [hnone, if_neg Bool.false_ne_true]

end Single

/-! ### What an editor is meant to do -/

/-- The text comes back with nothing but its target line changed, and without a target the editor
    raises. `IsTarget` sees the line between the lines before and behind it. -/
structure TouchesOnlyTarget (IsTarget : List Piece → Piece → List Piece → Prop)
    (edited : Piece → List Char) (finish : List Char → List Char) (text : String)
    (result : Result String) : Prop where
  returns : ∀ before piece behind, keepends text.toList = before ++ piece :: behind →
    IsTarget before piece behind → result = .ok (String.ofList (finish
      (joined (before ++ ⟨edited piece, piece.terminator⟩ :: behind))))
  raises : (∀ before piece behind, keepends text.toList = before ++ piece :: behind →
    ¬IsTarget before piece behind) →
      ∃ failure, result = .error failure ∧ failure.kind = .transactionError

/-! ### The catalog -/

/-- The only row of the feature, and well formed. -/
def IsCatalogTarget (featureId : String) (before : List Piece) (piece : Piece)
    (behind : List Piece) : Prop :=
  isRow featureId piece.line = true ∧
    (∀ other ∈ before ++ behind, isRow featureId other.line = false) ∧
      WellFormedRow featureId piece.line

section Catalog

variable {text featureId acceptedStatus : String} {before behind : List Piece} {piece : Piece}

theorem replaceCatalogStatus_target (hpieces : keepends text.toList = before ++ piece :: behind)
    (h : IsCatalogTarget featureId before piece behind) :
    replaceCatalogStatus text featureId acceptedStatus = .ok (String.ofList
      (joinLines ((before ++ ⟨acceptedRow acceptedStatus piece.line, piece.terminator⟩ ::
        behind).map Piece.line) ++ newlineSuffix ((keepends text.toList).map Piece.terminator))) := by
  obtain ⟨hrow, hothers, hformed⟩ := h
  have hsingle : single? (isRow featureId) (splitlines text.toList) =
      some (before.map Piece.line, piece.line, behind.map Piece.line) := by
    rw [single?_eq_some, ← lines_keepends, hpieces, List.map_append, List.map_cons]
    refine ⟨rfl, hrow, ?_⟩
    rw [← List.map_append]
    intro line hline
    obtain ⟨other, hother, rfl⟩ := List.mem_map.mp hline
    exact hothers other hother
  unfold replaceCatalogStatus
  rw [hsingle, newlineSuffix_keepends]
  dsimp only
  rw [require_of hformed, List.map_append, List.map_cons]
  rfl

theorem replaceCatalogStatus_error (h : ∀ before piece behind,
    keepends text.toList = before ++ piece :: behind →
      ¬IsCatalogTarget featureId before piece behind) :
    ∃ failure, replaceCatalogStatus text featureId acceptedStatus = .error failure ∧
      failure.kind = .transactionError := by
  unfold replaceCatalogStatus
  split
  · exact ⟨_, rfl, rfl⟩
  · rename_i front line back hsingle
    obtain ⟨hlines, hrow, hothers⟩ := single?_eq_some.mp hsingle
    rw [← lines_keepends] at hlines
    obtain ⟨before, rest, hpieces, hbefore, hrest⟩ := List.map_eq_append_iff.mp hlines
    obtain ⟨piece, behind, rfl, hpiece, hbehind⟩ := List.map_eq_cons_iff.mp hrest
    have hnot : ¬WellFormedRow featureId line := by
      intro hformed
      refine h before piece behind hpieces ⟨hpiece ▸ hrow, fun other hother => ?_,
        hpiece ▸ hformed⟩
      apply hothers
      rw [← hbefore, ← hbehind, ← List.map_append]
      exact List.mem_map_of_mem hother
    refine ⟨transactionError s!"feature catalog row for {featureId} is malformed", ?_, rfl⟩
    unfold require
    rw [if_neg hnot]
    rfl

/-- The catalog editor joins its lines by `"\n"`: it keeps all but the target exactly when the
    text has no other line boundary. -/
theorem catalog_iff : TouchesOnlyTarget (IsCatalogTarget featureId)
    (fun piece => acceptedRow acceptedStatus piece.line) id text
    (replaceCatalogStatus text featureId acceptedStatus) ↔
      ((∃ before piece behind, keepends text.toList = before ++ piece :: behind ∧
        IsCatalogTarget featureId before piece behind) →
          ∀ c ∈ text.toList, isLineBoundary c = true → c = '\n') := by
  have hreturns : ∀ before piece behind, keepends text.toList = before ++ piece :: behind →
      IsCatalogTarget featureId before piece behind →
        (replaceCatalogStatus text featureId acceptedStatus = .ok (String.ofList (id
          (joined (before ++ ⟨acceptedRow acceptedStatus piece.line, piece.terminator⟩ ::
            behind)))) ↔ ∀ c ∈ text.toList, isLineBoundary c = true → c = '\n') := by
    intro before piece behind hpieces htarget
    have hterminators : (before ++ ⟨acceptedRow acceptedStatus piece.line, piece.terminator⟩ ::
        behind).map Piece.terminator = (keepends text.toList).map Piece.terminator := by
      rw [hpieces, List.map_append, List.map_append, List.map_cons, List.map_cons]
    have hterminated := terminated_keepends text.toList
    rw [← hterminators] at hterminated
    have hjoin := joinLines_eq_joined_iff hterminated
    rw [replaceCatalogStatus_target hpieces htarget, ← hterminators, Except.ok.injEq,
      String.ofList_inj, id, hjoin, ← forall_terminator_iff, hpieces]
    simp only [List.forall_mem_append, List.forall_mem_cons]
  constructor
  · rintro h ⟨before, piece, behind, hpieces, htarget⟩
    exact (hreturns before piece behind hpieces htarget).mp
      (h.returns before piece behind hpieces htarget)
  · intro h
    refine ⟨fun before piece behind hpieces htarget => ?_, replaceCatalogStatus_error⟩
    exact (hreturns before piece behind hpieces htarget).mpr
      (h ⟨before, piece, behind, hpieces, htarget⟩)

end Catalog

/-! ### The specification -/

section Factory

variable {text featureId : String} {before behind : List Piece} {piece : Piece}

/-- The place is matched by `^`. -/
def Anchored (lineStart : Bool) (passed : List Char) : Prop :=
  (passed = [] ∧ lineStart = true) ∨ ∃ front, passed = front ++ ['\n']

theorem Anchored.cons {lineStart : Bool} {c : Char} {passed : List Char}
    (h : Anchored (c = '\n') passed) : Anchored lineStart (c :: passed) := by
  rcases h with ⟨rfl, hc⟩ | ⟨front, rfl⟩
  · exact Or.inr ⟨[], by rw [of_decide_eq_true hc]; rfl⟩
  · exact Or.inr ⟨c :: front, rfl⟩

theorem anchored_cons_iff {lineStart : Bool} {c : Char} {passed : List Char} :
    Anchored lineStart (c :: passed) ↔ Anchored (c = '\n') passed := by
  refine ⟨fun h => ?_, Anchored.cons⟩
  rcases h with ⟨hnil, -⟩ | ⟨front, hfront⟩
  · cases hnil
  · cases front with
    | nil =>
        cases hfront
        exact Or.inl ⟨rfl, rfl⟩
    | cons d front =>
        cases hfront
        exact Or.inr ⟨front, rfl⟩

/-- What is replaced is the rest of a `"\n"`-line that begins with the marker. -/
theorem replaceFirst_eq_some {lineStart : Bool} {chars rendered : List Char}
    (h : replaceFirst lineStart chars = some rendered) : ∃ passed rest, chars = passed ++ rest ∧
      Anchored lineStart passed ∧ factoryMarker <+: rest ∧
        rendered = passed ++ (factoryReplacement ++ rest.dropWhile (· ≠ '\n')) := by
  induction chars generalizing lineStart rendered with
  | nil => cases h
  | cons c rest ih =>
      unfold replaceFirst at h
      split at h
      · rename_i hmatch
        rw [Bool.and_eq_true, List.isPrefixOf_iff_prefix] at hmatch
        have hrendered := Option.some.inj h
        subst hrendered
        exact ⟨[], c :: rest, rfl, Or.inl ⟨rfl, hmatch.1⟩, hmatch.2, (List.nil_append _).symm⟩
      · obtain ⟨found, hfound, rfl⟩ := Option.map_eq_some_iff.mp h
        obtain ⟨passed, tail, rfl, hanchored, hmarker, rfl⟩ := ih hfound
        exact ⟨c :: passed, tail, rfl, hanchored.cons, hmarker, rfl⟩

theorem replaceFirst_eq_none {lineStart : Bool} {chars : List Char}
    (h : replaceFirst lineStart chars = none) {passed rest : List Char}
    (hchars : chars = passed ++ rest) (hanchored : Anchored lineStart passed) :
    ¬factoryMarker <+: rest := by
  induction chars generalizing lineStart passed with
  | nil =>
      obtain ⟨-, rfl⟩ := List.append_eq_nil_iff.mp hchars.symm
      decide
  | cons c chars ih =>
      unfold replaceFirst at h
      split at h
      · cases h
      · rename_i hmatch
        cases passed with
        | nil =>
            rcases hanchored with ⟨-, hstart⟩ | ⟨front, hfront⟩
            · intro hmarker
              rw [← List.nil_append rest, ← hchars] at hmarker
              exact hmatch (Bool.and_eq_true _ _ ▸ ⟨hstart, List.isPrefixOf_iff_prefix.mpr hmarker⟩)
            · simp at hfront
        | cons d passed =>
            cases hchars
            exact ih (Option.map_eq_none_iff.mp h) rfl (anchored_cons_iff.mp hanchored)

theorem anchored_true_iff {passed : List Char} : Anchored true passed ↔ AtLineStart passed := by
  unfold Anchored AtLineStart
  simp

theorem length_checkBoxes (chars : List Char) : (checkBoxes chars).length = chars.length := by
  fun_induction checkBoxes chars with
  | case1 => rfl
  | case2 rest ih => simp [ih]
  | case3 c rest hbox ih => rw [List.length_cons, ih, List.length_cons]

/-- A line of the specification that states its Factory status. -/
def isFactoryLine (piece : Piece) : Bool := factoryMarker.isPrefixOf piece.line

/-- The only such line. -/
def IsFactoryTarget (before : List Piece) (piece : Piece) (behind : List Piece) : Prop :=
  isFactoryLine piece = true ∧ ∀ other ∈ before ++ behind, isFactoryLine other = false

/-- Every such line that starts the text or stands behind a `"\n"` is the only one, and ends in a
    `"\n"` or ends the text; and where there is only one, it is such a line. -/
def FactoryTextPlain (text : String) : Prop :=
  ∀ before piece behind, keepends text.toList = before ++ piece :: behind →
    isFactoryLine piece = true →
      (AtLineStart (joined before) → (∀ other ∈ before ++ behind, isFactoryLine other = false) ∧
        (piece.terminator = ['\n'] ∨ piece.terminator = [])) ∧
      ((∀ other ∈ before ++ behind, isFactoryLine other = false) → AtLineStart (joined before))

/-- An element with a property stands where the only one with it stands. -/
theorem eq_of_only {α : Type} {p : α → Bool} {front back before behind : List α} {x y : α}
    (heq : before ++ x :: behind = front ++ y :: back) (hx : p x = true)
    (honly : ∀ other ∈ front ++ back, p other = false) :
    before = front ∧ x = y ∧ behind = back := by
  have hnot : ∀ other, p other = true → other ∉ front ++ back := fun other hp hmem => by
    rw [honly other hmem] at hp
    cases hp
  rcases List.append_eq_append_iff.mp heq with ⟨gap, hfront, hrest⟩ | ⟨gap, hbefore, hrest⟩
  · cases gap with
    | nil =>
        rw [List.append_nil] at hfront
        cases hrest
        exact ⟨hfront.symm, rfl, rfl⟩
    | cons d gap =>
        cases hrest
        exact absurd (by rw [hfront]; simp) (hnot _ hx)
  · cases gap with
    | nil =>
        rw [List.append_nil] at hbefore
        cases hrest
        exact ⟨hbefore, rfl, rfl⟩
    | cons d gap =>
        cases hrest
        exact absurd (by simp) (hnot _ hx)

theorem factory_pieces {a s : List Char} (htext : text.toList = a ++ s) (hstart : AtLineStart a)
    (hmarker : factoryMarker <+: s) : ∃ line terminator more,
      keepends text.toList = keepends a ++ ⟨factoryMarker ++ line, terminator⟩ :: more ∧
        s = factoryMarker ++ (line ++ (terminator ++ joined more)) := by
  obtain ⟨tail, rfl⟩ := hmarker
  have hplain : ∀ c ∈ factoryMarker, isLineBoundary c = false :=
    not_isLineBoundary_of_all (by decide)
  have hread : keepends (factoryMarker ++ tail) = keependsFrom factoryMarker tail := by
    rw [keepends, keependsFrom_plain hplain, List.nil_append]
  have hne : factoryMarker ++ tail ≠ [] := by
    intro hnil
    exact absurd (List.append_eq_nil_iff.mp hnil).1 (by decide)
  obtain ⟨line, terminator, more, hfirst⟩ := keependsFrom_first factoryMarker tail hne
  refine ⟨line, terminator, more, ?_, ?_⟩
  · rw [htext, keepends_append hstart, hread, hfirst]
  · have hjoined := joined_keepends (factoryMarker ++ tail)
    rw [hread, hfirst, joined_cons, List.append_assoc] at hjoined
    exact hjoined.symm

theorem isFactoryLine_marker (line terminator : List Char) :
    isFactoryLine ⟨factoryMarker ++ line, terminator⟩ = true :=
  List.isPrefixOf_iff_prefix.mpr (List.prefix_append _ _)

/-- The match goes to the end of its line exactly when a `"\n"` or the end of the text ends it. -/
theorem dropWhile_newline_iff {line terminator : List Char} {more : List Piece}
    (hline : ∀ c ∈ line, isLineBoundary c = false)
    (hterminated : Terminated (terminator :: more.map Piece.terminator)) :
    (line ++ (terminator ++ joined more)).dropWhile (· ≠ '\n') = terminator ++ joined more ↔
      terminator = ['\n'] ∨ terminator = [] := by
  have hkeep : ∀ c ∈ line, decide (c ≠ '\n') = true := by
    intro c hc
    rw [decide_eq_true_eq]
    rintro rfl
    cases hline '\n' hc
  rw [List.dropWhile_append_of_pos hkeep, List.dropWhile_eq_self_iff]
  have hnone : terminator = [] → more = [] := by
    rintro rfl
    cases more with
    | nil => rfl
    | cons next more =>
        rcases hterminated.1 with hpair | ⟨c, -, hsingle⟩
        · cases hpair
        · cases hsingle
  rcases hterminated.mem List.mem_cons_self with (rfl | ⟨c, -, rfl⟩) | rfl
  · simp
  · simp
  · rw [hnone rfl]
    simp

theorem replaceFactoryStatus_of_some {rendered : List Char}
    (h : replaceFirst true text.toList = some rendered) :
    replaceFactoryStatus text featureId = .ok (String.ofList (checkBoxes rendered)) := by
  rw [replaceFactoryStatus, h]

theorem replaceFactoryStatus_of_none (h : replaceFirst true text.toList = none) :
    ∃ failure, replaceFactoryStatus text featureId = .error failure ∧
      failure.kind = .transactionError := by
  rw [replaceFactoryStatus, h]
  exact ⟨_, rfl, rfl⟩

/-- Two ends of one list that are equally long are the same. -/
theorem suffix_eq {α : Type} {whole first second : List α} (hfirst : first <:+ whole)
    (hsecond : second <:+ whole) (hlength : first.length = second.length) : first = second :=
  (List.suffix_of_suffix_length_le hfirst hsecond hlength.le).eq_of_length hlength

theorem factory_edit {a line terminator : List Char} {more : List Piece}
    (hsub : replaceFirst true text.toList = some (a ++ (factoryReplacement ++
      (factoryMarker ++ (line ++ (terminator ++ joined more))).dropWhile (· ≠ '\n'))))
    (hpieces : keepends text.toList =
      keepends a ++ ⟨factoryMarker ++ line, terminator⟩ :: more) :
    replaceFactoryStatus text featureId = .ok (String.ofList (checkBoxes
      (joined (keepends a ++ ⟨factoryReplacement, terminator⟩ :: more)))) ↔
        terminator = ['\n'] ∨ terminator = [] := by
  have hmem : ⟨factoryMarker ++ line, terminator⟩ ∈ keepends text.toList := by
    rw [hpieces]
    exact List.mem_append_right _ List.mem_cons_self
  have hplain := plain_of_mem_keepends hmem
  have hterminated := terminated_keepends text.toList
  rw [hpieces, List.map_append, List.map_cons] at hterminated
  have hdrop := dropWhile_newline_iff hplain hterminated.of_append
  rw [List.append_assoc] at hdrop
  rw [replaceFactoryStatus_of_some hsub, Except.ok.injEq, String.ofList_inj, joined_append,
    joined_keepends, joined_cons, ← hdrop]
  constructor
  · intro heq
    have hlength := congrArg List.length heq
    simp only [length_checkBoxes, List.length_append] at hlength
    refine suffix_eq (List.dropWhile_suffix _) ?_ ?_
    · exact (List.suffix_append _ _).trans (List.suffix_append _ _)
    · simp only [List.length_append]
      omega
  · intro heq
    rw [heq]

/-- The specification editor replaces the first line that follows a `"\n"`, up to the next. -/
theorem factory_iff : TouchesOnlyTarget IsFactoryTarget (fun _ => factoryReplacement) checkBoxes
    text (replaceFactoryStatus text featureId) ↔ FactoryTextPlain text := by
  cases hsub : replaceFirst true text.toList with
  | none =>
      obtain ⟨failure, herror, hkind⟩ : ∃ failure, replaceFactoryStatus text featureId =
          .error failure ∧ failure.kind = .transactionError := replaceFactoryStatus_of_none hsub
      have hnever : ∀ before piece behind, keepends text.toList = before ++ piece :: behind →
          isFactoryLine piece = true → ¬AtLineStart (joined before) := by
        intro before piece behind hpieces hfactory hstart
        have htext := joined_keepends text.toList
        rw [hpieces, joined_append, joined_cons] at htext
        refine replaceFirst_eq_none hsub htext.symm (anchored_true_iff.mpr hstart) ?_
        exact (List.isPrefixOf_iff_prefix.mp hfactory).trans (List.prefix_append _ _)
      constructor
      · intro h before piece behind hpieces hfactory
        refine ⟨fun hstart => absurd hstart (hnever before piece behind hpieces hfactory),
          fun honly => ?_⟩
        have hreturned := h.returns before piece behind hpieces ⟨hfactory, honly⟩
        rw [herror] at hreturned
        cases hreturned
      · intro h
        refine ⟨fun before piece behind hpieces htarget => ?_, fun _ => ⟨failure, herror, hkind⟩⟩
        have hstart := (h before piece behind hpieces htarget.1).2 htarget.2
        exact absurd hstart (hnever before piece behind hpieces htarget.1)
  | some rendered =>
      obtain ⟨a, s, htext, hanchored, hmarker, rfl⟩ := replaceFirst_eq_some hsub
      have hstart := anchored_true_iff.mp hanchored
      obtain ⟨line, terminator, more, hpieces, rfl⟩ := factory_pieces htext hstart hmarker
      have hfactory := isFactoryLine_marker line terminator
      have hedit : replaceFactoryStatus text featureId = .ok (String.ofList (checkBoxes (joined
          (keepends a ++ ⟨factoryReplacement, terminator⟩ :: more)))) ↔ _ :=
        factory_edit hsub hpieces
      constructor
      · intro h before piece behind hpieces' hfactory'
        -- the editor returned, so there is a target, and it is the line that was replaced
        have honly : ∀ other ∈ keepends a ++ more, isFactoryLine other = false := by
          by_contra hseveral
          obtain ⟨failure, herror, -⟩ := h.raises fun before piece behind hsplit htarget => by
            obtain ⟨hbefore, -, hbehind⟩ := eq_of_only (hpieces.symm.trans hsplit) hfactory htarget.2
            rw [hbefore, hbehind] at hseveral
            exact hseveral htarget.2
          rw [replaceFactoryStatus_of_some hsub] at herror
          cases herror
        obtain ⟨rfl, rfl, rfl⟩ := eq_of_only (hpieces'.symm.trans hpieces) hfactory' honly
        refine ⟨fun _ => ⟨honly, hedit.mp ?_⟩, fun _ => ?_⟩
        · exact h.returns _ _ _ hpieces ⟨hfactory, honly⟩
        · rw [joined_keepends]
          exact hstart
      · intro h
        have hplain := (h _ _ _ hpieces hfactory).1 (by rw [joined_keepends]; exact hstart)
        refine ⟨fun before piece behind hpieces' htarget => ?_, fun hnone => ?_⟩
        · obtain ⟨rfl, rfl, rfl⟩ := eq_of_only (hpieces'.symm.trans hpieces) htarget.1 hplain.1
          exact hedit.mpr hplain.2
        · exact absurd ⟨hfactory, hplain.1⟩ (hnone _ _ _ hpieces)

end Factory

/-! ### The current status -/

section Current

variable {text featureId title : String} {before behind : List Piece} {piece : Piece}

/-- The only state line of the only Factory position section, and it names the feature. -/
def IsCurrentTarget (featureId : String) (before : List Piece) (piece : Piece)
    (behind : List Piece) : Prop :=
  ∃ front heading first last rest, before = front ++ heading :: first ∧ behind = last ++ rest ∧
    isPositionHeading heading = true ∧
    (∀ other ∈ front ++ (first ++ piece :: last ++ rest), isPositionHeading other = false) ∧
    (∀ other ∈ first ++ piece :: last, isHeading other = false) ∧
    (∀ next ∈ rest.head?, isHeading next = true) ∧
    stateFeature? piece = some featureId ∧ ∀ other ∈ first ++ last, isState other = false

theorem isState_of_stateFeature? (h : (stateFeature? piece).isSome = true) :
    isState piece = true := by
  obtain ⟨name, hname⟩ := Option.isSome_iff_exists.mp h
  obtain ⟨label, hlabel, hfound⟩ := List.exists_of_findSome?_eq_some hname
  obtain ⟨rest, hrest, -⟩ := Option.bind_eq_some_iff.mp hfound
  refine List.any_eq_true.mpr ⟨label, hlabel, List.isPrefixOf_iff_prefix.mpr ?_⟩
  have hcontent := List.append_eq_of_isPrefixOf?_eq_some hrest
  have hlonger : s!"- {label}: ".toList = s!"- {label}:".toList ++ [' '] := by
    simp [toString, String.toList_append]
  rw [← hcontent, hlonger, List.append_assoc]
  exact List.prefix_append _ _

/-- The end of a line is written back when it is none or one that ends in a `"\n"`. -/
theorem newlineOf_eq_iff {whole : List Char} (h : piece ∈ keepends whole) :
    newlineOf piece = piece.terminator ↔
      piece.terminator ∈ [[], ['\n'], ['\r', '\n']] := by
  have hplain := plain_of_mem_keepends h
  have hends := (terminated_keepends whole).mem (List.mem_map_of_mem h)
  obtain ⟨line, terminator⟩ := piece
  dsimp only at hplain hends ⊢
  have hnot : ∀ c, isLineBoundary c = true → c ∉ line := by
    intro c hc hmem
    rw [hplain c hmem] at hc
    cases hc
  have hlast : ∀ c, isLineBoundary c = true → ¬[c] <:+ line := fun c hc hsuffix =>
    hnot c hc (hsuffix.subset List.mem_cons_self)
  unfold newlineOf Piece.text
  dsimp only
  rcases hends with (rfl | ⟨c, -, rfl⟩) | rfl
  · simp [List.isSuffixOf_iff_suffix]
  · have hpair : ¬['\r', '\n'] <:+ line ++ [c] := by
      intro hsuffix
      obtain ⟨front, hfront⟩ := hsuffix
      have happend : (front ++ ['\r']) ++ ['\n'] = line ++ [c] := by
        rw [← hfront, List.append_assoc]
        rfl
      have hline := (List.append_inj' happend rfl).1
      exact hnot '\r' (by decide) (by rw [← hline]; simp)
    have hsingle : ['\n'] <:+ line ++ [c] ↔ c = '\n' := by
      constructor
      · rintro ⟨front, hfront⟩
        exact (List.cons.inj (List.append_inj' hfront rfl).2).1.symm
      · rintro rfl
        exact List.suffix_append _ _
    rw [if_neg (by rw [List.isSuffixOf_iff_suffix]; exact hpair)]
    by_cases hc : c = '\n'
    · rw [if_pos (by rw [List.isSuffixOf_iff_suffix]; exact hsingle.mpr hc), hc]
      decide
    · rw [if_neg (by rw [List.isSuffixOf_iff_suffix, hsingle]; exact hc)]
      simp [hc]
  · have hpair : ¬['\r', '\n'] <:+ line := fun hsuffix =>
      hnot '\n' (by decide) (hsuffix.subset (by simp))
    rw [List.append_nil, if_neg (by rw [List.isSuffixOf_iff_suffix]; exact hpair),
      if_neg (by rw [List.isSuffixOf_iff_suffix]; exact hlast '\n' (by decide))]
    simp

theorem replaceCurrentStatus_target (hpieces : keepends text.toList = before ++ piece :: behind)
    (h : IsCurrentTarget featureId before piece behind) :
    replaceCurrentStatus text featureId title = .ok (String.ofList (joined
      (before ++ ⟨currentReplacement featureId title, newlineOf piece⟩ :: behind))) := by
  obtain ⟨front, heading, first, last, rest, rfl, rfl, hheading, hother, hsection, hrest, hfeature,
    honly⟩ := h
  have hwhole : single? isPositionHeading (keepends text.toList) =
      some (front, heading, first ++ piece :: last ++ rest) := by
    rw [single?_eq_some, hpieces]
    exact ⟨by simp, hheading, hother⟩
  have hkeep : ∀ other ∈ first ++ piece :: last, (!isHeading other) = true := by
    intro other hmem
    rw [hsection other hmem]
    rfl
  have htake : (first ++ piece :: last ++ rest).takeWhile (!isHeading ·) =
      first ++ piece :: last := by
    rw [List.takeWhile_append_of_pos hkeep]
    cases rest with
    | nil => rw [List.takeWhile_nil, List.append_nil]
    | cons next rest =>
        have hnext := hrest next rfl
        rw [List.takeWhile_cons_of_neg (by simp [hnext]), List.append_nil]
  have hdrop : (first ++ piece :: last ++ rest).dropWhile (!isHeading ·) = rest := by
    rw [List.dropWhile_append_of_pos hkeep]
    cases rest with
    | nil => rfl
    | cons next rest =>
        have hnext := hrest next rfl
        rw [List.dropWhile_cons_of_neg (by simp [hnext])]
  have hsingle : single? (fun piece => (stateFeature? piece).isSome) (first ++ piece :: last) =
      some (first, piece, last) := by
    refine single?_eq_some.mpr ⟨rfl, by simp [hfeature], fun other hmem => ?_⟩
    rw [Bool.eq_false_iff]
    intro hsome
    have hstate := isState_of_stateFeature? hsome
    rw [honly other hmem] at hstate
    cases hstate
  have hformed : ∀ other ∈ first ++ piece :: last, isState other = true →
      (stateFeature? other).isSome = true := by
    intro other hmem hstate
    rcases List.mem_append.mp hmem with hmem | hmem
    · rw [honly other (List.mem_append_left _ hmem)] at hstate
      cases hstate
    · rcases List.mem_cons.mp hmem with rfl | hmem
      · rw [hfeature]
        rfl
      · rw [honly other (List.mem_append_right _ hmem)] at hstate
        cases hstate
  unfold replaceCurrentStatus
  rw [hwhole]
  dsimp only
  rw [htake, hdrop, require_of (by simp), require_of hformed, hsingle]
  dsimp only
  rw [require_of hfeature]
  simp only [List.append_assoc, List.cons_append]
  rfl

theorem replaceCurrentStatus_error (h : ∀ before piece behind,
    keepends text.toList = before ++ piece :: behind →
      ¬IsCurrentTarget featureId before piece behind) :
    ∃ failure, replaceCurrentStatus text featureId title = .error failure ∧
      failure.kind = .transactionError := by
  unfold replaceCurrentStatus
  split
  · exact ⟨_, rfl, rfl⟩
  · rename_i front heading whole hsingle
    obtain ⟨hpieces, hheading, hother⟩ := single?_eq_some.mp hsingle
    have hwhole : whole = whole.takeWhile (!isHeading ·) ++ whole.dropWhile (!isHeading ·) :=
      List.takeWhile_append_dropWhile.symm
    have htake : ∀ other ∈ whole.takeWhile (!isHeading ·), isHeading other = false := by
      intro other hmem
      simpa using List.mem_takeWhile_imp hmem
    have hdrop : ∀ next ∈ (whole.dropWhile (!isHeading ·)).head?, isHeading next = true := by
      intro next hnext
      have hhead := List.head?_dropWhile_not (!isHeading ·) whole
      rw [Option.mem_def.mp hnext] at hhead
      simpa using hhead
    dsimp only
    generalize whole.takeWhile (!isHeading ·) = position at *
    generalize whole.dropWhile (!isHeading ·) = rest at *
    subst hwhole
    unfold require
    split
    · split
      · rename_i hformed
        dsimp only [bind, Except.bind]
        split
        · exact ⟨_, rfl, rfl⟩
        · rename_i first piece last hone
          obtain ⟨rfl, hsome, hothers⟩ := single?_eq_some.mp hone
          by_cases hfeature : stateFeature? piece = some featureId
          · refine absurd ⟨front, heading, first, last, rest, rfl, rfl, hheading, hother, htake,
              hdrop, hfeature, fun other hmem => ?_⟩ (h (front ++ heading :: first) piece
                (last ++ rest) (by rw [hpieces]; simp))
            rw [Bool.eq_false_iff]
            intro hstate
            have hmem' : other ∈ first ++ piece :: last := by
              rcases List.mem_append.mp hmem with hmem | hmem
              · exact List.mem_append_left _ hmem
              · exact List.mem_append_right _ (List.mem_cons_of_mem _ hmem)
            have hnone := hothers other hmem
            rw [hformed other hmem' hstate] at hnone
            cases hnone
          · rw [if_neg hfeature]
            exact ⟨_, rfl, rfl⟩
      · exact ⟨_, rfl, rfl⟩
    · exact ⟨_, rfl, rfl⟩

/-- The status editor writes the end of its line back only where it ends in a `"\n"` or not at
    all. -/
theorem current_iff : TouchesOnlyTarget (IsCurrentTarget featureId)
    (fun _ => currentReplacement featureId title) id text
    (replaceCurrentStatus text featureId title) ↔
      ∀ before piece behind, keepends text.toList = before ++ piece :: behind →
        IsCurrentTarget featureId before piece behind →
          piece.terminator ∈ [[], ['\n'], ['\r', '\n']] := by
  have hreturns : ∀ before piece behind, keepends text.toList = before ++ piece :: behind →
      IsCurrentTarget featureId before piece behind →
        (replaceCurrentStatus text featureId title = .ok (String.ofList (id (joined
          (before ++ ⟨currentReplacement featureId title, piece.terminator⟩ :: behind)))) ↔
            piece.terminator ∈ [[], ['\n'], ['\r', '\n']]) := by
    intro before piece behind hpieces htarget
    have hmem : piece ∈ keepends text.toList := by
      rw [hpieces]
      exact List.mem_append_right _ List.mem_cons_self
    rw [replaceCurrentStatus_target hpieces htarget, ← newlineOf_eq_iff hmem, Except.ok.injEq,
      String.ofList_inj, id, joined_append, joined_append, joined_cons, joined_cons]
    simp only [List.append_cancel_left_eq, List.append_cancel_right_eq]
  constructor
  · intro h before piece behind hpieces htarget
    exact (hreturns before piece behind hpieces htarget).mp
      (h.returns before piece behind hpieces htarget)
  · intro h
    refine ⟨fun before piece behind hpieces htarget => ?_, replaceCurrentStatus_error⟩
    exact (hreturns before piece behind hpieces htarget).mpr
      (h before piece behind hpieces htarget)

end Current

/-! ### All three editors -/

/-- Which texts each editor changes in its target alone: the catalog editor those whose line
    boundaries are all `"\n"`, the specification editor those of `FactoryTextPlain`, and the status
    editor those whose target ends in a `"\n"`, in `"\r\n"` or at the end of the text. -/
theorem editors_touch_only_targets_iff (text featureId title acceptedStatus : String) :
    (TouchesOnlyTarget (IsCatalogTarget featureId)
        (fun piece => acceptedRow acceptedStatus piece.line) id text
        (replaceCatalogStatus text featureId acceptedStatus) ↔
      ((∃ before piece behind, keepends text.toList = before ++ piece :: behind ∧
        IsCatalogTarget featureId before piece behind) →
          ∀ c ∈ text.toList, isLineBoundary c = true → c = '\n')) ∧
    (TouchesOnlyTarget IsFactoryTarget (fun _ => factoryReplacement) checkBoxes text
        (replaceFactoryStatus text featureId) ↔ FactoryTextPlain text) ∧
    (TouchesOnlyTarget (IsCurrentTarget featureId)
        (fun _ => currentReplacement featureId title) id text
        (replaceCurrentStatus text featureId title) ↔
      ∀ before piece behind, keepends text.toList = before ++ piece :: behind →
        IsCurrentTarget featureId before piece behind →
          piece.terminator ∈ [[], ['\n'], ['\r', '\n']]) :=
  ⟨catalog_iff, factory_iff, current_iff⟩

/-- A specification with two Factory status lines. -/
def twiceStated : String := "- Factory status: Draft\n- Factory status: Ready\n"

/-- The first of them is replaced, where the editor is meant to raise. -/
theorem twice_stated_not_refused :
    ¬TouchesOnlyTarget IsFactoryTarget (fun _ => factoryReplacement) checkBoxes twiceStated
      (replaceFactoryStatus twiceStated "F009") := by
  rw [factory_iff]
  intro h
  have hpieces : keepends twiceStated.toList = [] ++ ⟨"- Factory status: Draft".toList, ['\n']⟩ ::
      [⟨"- Factory status: Ready".toList, ['\n']⟩] := by decide
  have honly := ((h _ _ _ hpieces (by decide)).1 (Or.inl rfl)).1
    ⟨"- Factory status: Ready".toList, ['\n']⟩ (by simp)
  revert honly
  decide

end DocumentEditors

end Conveyor
