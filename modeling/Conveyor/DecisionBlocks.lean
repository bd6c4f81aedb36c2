import Conveyor.DocumentEditors
import Conveyor.Library.MarkedRegions
import Conveyor.PlanningReadiness

/-!
# Blocks of approved decisions

The resolution of feature decisions writes a block between two markers into the documents of a
project (`feature_decisions.py`), and the Factory status into the specifications. A later
resolution takes the block away again and writes its own. `decision_block_iff` says for which texts
that gives what the later resolution alone gives, and touches nothing else of the document.
-/

namespace Conveyor

open Library Platform DocumentEditors

namespace DecisionBlocks

/-! ### The markers -/

def MARKER_BEGIN : Marker '<' where
  rest := "!-- CONVEYOR_FEATURE_DECISION_RESOLUTION_BEGIN -->".toList
  once := by decide +kernel
  oneLine := by decide +kernel

def MARKER_END : Marker '<' where
  rest := "!-- CONVEYOR_FEATURE_DECISION_RESOLUTION_END -->".toList
  once := by decide +kernel
  oneLine := by decide +kernel

def resolutionMarkers : RegionMarkers '<' where
  opening := MARKER_BEGIN
  closing := MARKER_END
  apart := by decide +kernel

/-- `text.rstrip()`. -/
def rstrip (text : List Char) : List Char := text.rdropWhile isSpace

/-- `_replace_marker`. -/
def replaceMarker (text block : List Char) : List Char :=
  rstrip (resolutionMarkers.eraseRegions text) ++ '\n' :: '\n' :: (rstrip block ++ ['\n'])

/-! ### The Factory status -/

/-- A match of `^(- Factory status:\s*).+$`: what stands before it, the blanks behind the label, the
value, and what stands behind it. -/
structure StatusMatch where
  front : List Char
  blanks : List Char
  value : List Char
  behind : List Char
deriving DecidableEq

namespace StatusMatch

variable (found : StatusMatch)

/-- The text that was matched. -/
def text : List Char :=
  found.front ++ (factoryMarker ++ (found.blanks ++ (found.value ++ found.behind)))

/-- The text with another value. -/
def withValue (value : List Char) : List Char := { found with value := value }.text

end StatusMatch

/-- What `\s*` and `.+$` take behind the label: `\s*` goes on over line ends, and gives characters
back where nothing but blanks follows. -/
def matchValue (text : List Char) : Option (List Char × List Char × List Char) :=
  match text.dropWhile isSpace with
  | c :: rest => some (text.takeWhile isSpace, (c :: rest).takeWhile (· ≠ '\n'),
      (c :: rest).dropWhile (· ≠ '\n'))
  | [] =>
      let kept := text.rdropWhile (· = '\n')
      kept.getLast?.map fun c => (kept.dropLast, [c], text.rtakeWhile (· = '\n'))

/-- The first match of the pattern, from a place that `^` matches or not. -/
def matchStatus : Bool → List Char → Option StatusMatch
  | _, [] => none
  | lineStart, c :: rest =>
      match (if lineStart && factoryMarker.isPrefixOf (c :: rest) then
        matchValue ((c :: rest).drop factoryMarker.length) else none) with
      | some (blanks, value, behind) => some ⟨[], blanks, value, behind⟩
      | none => (matchStatus (c = '\n') rest).map fun found =>
          { found with front := c :: found.front }

/-- `_replace_factory_status`. -/
def replaceFactoryStatus (text : List Char) (status featureId : String) : Result (List Char) :=
  match matchStatus true text with
  | some found => .ok (found.withValue status.toList)
  | none => .error (queueError
      s!"feature specification lacks one Factory status line: {featureId}")

/-- `_status_label`. -/
def statusLabel (status : String) : Result String :=
  if status = "ready" then .ok "Ready"
  else if status = "proposed" then .ok "Proposed"
  else .error ⟨.keyError, status⟩

/-! ### The blocks -/

/-- A document that a resolution renders. -/
inductive DecisionDocument where
  | summary
  | specification (featureId : String)
  | runLog
deriving DecidableEq

section Blocks

variable (request : FeatureDecisionRequest)

/-- `resolutions.get(feature_id)`: a later decision on a feature takes the place of an earlier
one. -/
def resolutionOf (featureId : String) : Option FeatureDecision :=
  (request.decisions.filter fun decision => decision.featureId = featureId).getLast?

def joinedIds (ids : List String) : String := ", ".intercalate ids

def decisionLine (decision : FeatureDecision) : Result String := do
  let dependency := match decision.approvedDependencies with
    | some approved => " Dependencies: " ++ joinedIds approved ++ "."
    | none => ""
  let label ← statusLabel decision.targetStatus
  return s!"- {decision.featureId}: {label}; human decision resolved.{dependency}"

def summaryLines : Result (List String) := do
  let decisions ← request.decisions.mapM decisionLine
  return ["## Queue feature decision resolution", "",
    s!"- Previous selection: {request.expectedSelectedFeature} " ++
      "(returned to Proposed; implementation and preparation did not start).",
    s!"- Selected ready feature: {request.selectedFeature}.",
    s!"- Decision evidence: `{request.decisionSha256}`."] ++ decisions

def specificationLines (featureId : String) : List String :=
  match resolutionOf request featureId with
  | some decision =>
      ["## Approved decision resolution", "",
       s!"- Recorded question: {decision.recordedQuestion}",
       s!"- Approved resolution: {decision.approvedResolution}",
       s!"- Resulting queue status: `{decision.targetStatus}`."] ++
      (match decision.approvedDependencies with
        | some approved => ["- Resulting dependencies: " ++ joinedIds approved ++ "."]
        | none => [])
  | none =>
      ["## Selection transition", "",
       s!"{featureId} returned from Ready to Proposed without feature preparation or " ++
         s!"implementation. {request.selectedFeature} is the sole ready feature."]

def runLogLines : List String :=
  ["## Deterministic queue-feature decision resolution", "",
   s!"- Decision file SHA-256: `{request.decisionSha256}`.",
   s!"- Previous selection preserved: {request.expectedSelectedFeature}.",
   s!"- Sole ready and selected feature: {request.selectedFeature}.",
   "- Execution: deterministic controller route; zero model sessions; " ++
     "zero child sessions; no feature preparation or implementation.",
   "- Historical project-level gate evidence was preserved and was not resolved."]

/-- The lines between the markers of a document's block. -/
def blockLines : DecisionDocument → Result (List String)
  | .summary => summaryLines request
  | .specification featureId => .ok (specificationLines request featureId)
  | .runLog => .ok (runLogLines request)

/-- The block of the lines, `"\n".join([_MARKER_BEGIN, *lines, _MARKER_END])`. -/
def block (lines : List String) : List Char :=
  joinLines (MARKER_BEGIN.chars :: (lines.map String.toList ++ [MARKER_END.chars]))

/-- The label of the status that a feature comes to. -/
def labelOf (featureId : String) : Result String := do
  let status ← if featureId = request.expectedSelectedFeature then .ok "proposed"
    else match resolutionOf request featureId with
      | some decision => .ok decision.targetStatus
      | none => .error ⟨.keyError, featureId⟩
  statusLabel status

/-- What `_render` makes of a document. -/
def renderDocument (document : DecisionDocument) (text : List Char) : Result (List Char) := do
  match document with
  | .summary =>
      let lines ← summaryLines request
      return replaceMarker text (block lines)
  | .specification featureId =>
      let label ← labelOf request featureId
      let text ← replaceFactoryStatus text label featureId
      return replaceMarker text (block (specificationLines request featureId))
  | .runLog => return rstrip text ++ '\n' :: '\n' :: (block (runLogLines request) ++ ['\n'])

end Blocks

/-! ### What they are meant to do -/

/-- The first line that begins with the label of the Factory status. -/
structure StatusLine (text before line behind : List Char) : Prop where
  split : text = before ++ (line ++ behind)
  starts : AtLineStart before
  label : factoryMarker <+: line
  single : '\n' ∉ line
  ends : behind = [] ∨ ∃ rest, behind = '\n' :: rest
  first : ∀ front rest, text = front ++ rest → AtLineStart front → factoryMarker <+: rest →
    before.length ≤ front.length

/-- The text with a block behind it. -/
def placed (text : List Char) (lines : List String) : List Char :=
  rstrip text ++ '\n' :: '\n' :: (block lines ++ ['\n'])

/-- Nothing else of the text changed, but for its blanks at the end. -/
def OnlyBlock (request : FeatureDecisionRequest) (document : DecisionDocument)
    (text rendered : List Char) : Prop :=
  ∃ lines, blockLines request document = .ok lines ∧
    match document with
    | .specification _ => ∃ before line behind line', StatusLine text before line behind ∧
        factoryMarker <+: line' ∧ '\n' ∉ line' ∧
        rendered = placed (before ++ (line' ++ behind)) lines
    | _ => rendered = placed text lines

/-- The two laws of a document that a request rendered: another request renders the result as it
renders the text itself, and nothing else of the text changed. -/
structure Replaceable (first second : FeatureDecisionRequest) (document : DecisionDocument)
    (text once other : List Char) : Prop where
  again : renderDocument second document once = .ok other
  only : OnlyBlock first document text once

/-- What stands between the markers of a block. -/
def bodyOf (lines : List String) : List Char :=
  lines.flatMap (fun line => '\n' :: line.toList) ++ ['\n']

/-- The document has a block that is taken away whole, and a status on its own line. -/
structure Fits (request : FeatureDecisionRequest) (document : DecisionDocument)
    (text : List Char) : Prop where
  replaced : document ≠ .runLog
  closed : ∀ lines, blockLines request document = .ok lines →
    resolutionMarkers.Closed isSpace (bodyOf lines)
  inLine : ∀ featureId label found, document = .specification featureId →
    labelOf request featureId = .ok label → matchStatus true text = some found →
      '\n' ∉ found.blanks ∨
        rstrip (found.value ++ found.behind) = rstrip (label.toList ++ found.behind)

/-! ### Blocks -/

theorem joinLines_append (front back : List Char) (lines : List String) :
    joinLines (front :: (lines.map String.toList ++ [back])) =
      front ++ (bodyOf lines ++ back) := by
  induction lines generalizing front with
  | nil => simp [joinLines, bodyOf]
  | cons line rest ih =>
      have hrest := ih line.toList
      rw [joinLines] at hrest ⊢
      rw [List.map_cons, List.cons_append, List.intercalate_cons_cons, hrest, bodyOf, bodyOf]
      simp

/-- A block is its lines between the markers. -/
theorem block_eq (lines : List String) :
    block lines = MARKER_BEGIN.chars ++ (bodyOf lines ++ MARKER_END.chars) :=
  joinLines_append _ _ lines

theorem rstrip_append_of_last {text : List Char} {c : Char} (h : isSpace c = false) :
    rstrip (text ++ [c]) = text ++ [c] := by
  rw [rstrip]
  exact List.rdropWhile_concat_neg _ _ _ (by simp [h])

theorem rstrip_block (lines : List String) : rstrip (block lines) = block lines := by
  have hlast : MARKER_END.chars =
      "<!-- CONVEYOR_FEATURE_DECISION_RESOLUTION_END --".toList ++ ['>'] := by
    decide
  rw [block_eq, hlast, ← List.append_assoc, ← List.append_assoc]
  exact rstrip_append_of_last (by decide)

theorem rstrip_rstrip (text : List Char) : rstrip (rstrip text) = rstrip text :=
  List.rdropWhile_idempotent _ _

/-! ### Replacing a block -/

section Replacing

variable {text base : List Char} {lines others : List String}

theorem replaceMarker_plain (h : ¬MARKER_BEGIN.chars <:+: text) :
    replaceMarker text (block lines) = placed text lines := by
  have herased : resolutionMarkers.eraseRegions text = text :=
    RegionMarkers.eraseRegions_plain h
  rw [replaceMarker, placed, herased, rstrip_block]

/-- A block is replaced exactly where its own is taken away whole. -/
theorem replaceMarker_placed_iff (hbase : rstrip base = base)
    (hplain : ¬MARKER_BEGIN.chars <:+: base) :
    replaceMarker (placed base lines) (block others) = placed base others ↔
      resolutionMarkers.Closed isSpace (bodyOf lines) := by
  have htext : placed base lines = base ++ '\n' :: '\n' ::
      (MARKER_BEGIN.chars ++ (bodyOf lines ++ (MARKER_END.chars ++ ['\n']))) := by
    rw [placed, hbase, block_eq, List.append_assoc, List.append_assoc]
  have hstart : isSpace '<' = false := by decide
  rw [replaceMarker, htext, rstrip_block, placed, hbase, List.append_cancel_right_eq]
  exact RegionMarkers.erased_iff hstart (by decide) hbase hplain

end Replacing

/-! ### The match of the status -/

section Status

variable {text front rest blanks value behind status : List Char} {lineStart : Bool}

/-- The label as a marker. -/
def STATUS_LABEL : Marker '-' where
  rest := " Factory status:".toList
  once := by decide +kernel
  oneLine := by decide +kernel

theorem status_label_chars : STATUS_LABEL.chars = factoryMarker := by decide

/-- No line of the text begins with the label. -/
def NoLabel (lineStart : Bool) (front : List Char) : Prop :=
  ∀ passed rest, front = passed ++ rest → Anchored lineStart passed → ¬factoryMarker <+: rest

theorem label_begins (h : factoryMarker <+: front ++ (factoryMarker ++ rest)) :
    factoryMarker <+: front ∨ front = [] := by
  rw [← status_label_chars] at h ⊢
  exact Marker.prefix_append h

theorem NoLabel.cons {c : Char} (hhead : lineStart = true → ¬factoryMarker <+: c :: front)
    (h : NoLabel (c = '\n') front) : NoLabel lineStart (c :: front) := by
  intro passed rest hsplit hanchored
  cases passed with
  | nil =>
      obtain rfl : c :: front = rest := hsplit
      rcases hanchored with ⟨-, hstart⟩ | ⟨before, hbefore⟩
      · exact hhead hstart
      · simp at hbefore
  | cons d passed =>
      obtain ⟨rfl, rfl⟩ := List.cons.inj hsplit
      exact h passed rest rfl (anchored_cons_iff.mp hanchored)

theorem NoLabel.head {c : Char} (h : NoLabel lineStart (c :: front)) (hstart : lineStart = true) :
    ¬factoryMarker <+: c :: front :=
  h [] (c :: front) rfl (Or.inl ⟨rfl, hstart⟩)

theorem NoLabel.tail {c : Char} (h : NoLabel lineStart (c :: front)) :
    NoLabel (c = '\n') front := by
  intro passed rest hsplit hanchored
  exact h (c :: passed) rest (by rw [hsplit, List.cons_append]) hanchored.cons

theorem matchValue_eq_none (h : matchValue text = none) : ∀ c ∈ text, c = '\n' := by
  unfold matchValue at h
  split at h
  · cases h
  · rw [Option.map_eq_none_iff, List.getLast?_eq_none_iff, List.rdropWhile_eq_nil_iff] at h
    simpa using h

theorem matchValue_eq_some (h : matchValue text = some (blanks, value, behind)) :
    text = blanks ++ (value ++ behind) ∧ (∀ c ∈ blanks, isSpace c = true) ∧ '\n' ∉ value ∧
      (behind = [] ∨ ∃ rest, behind = '\n' :: rest) := by
  unfold matchValue at h
  split at h
  · rename_i c rest hdropped
    simp only [Option.some.injEq, Prod.mk.injEq] at h
    obtain ⟨rfl, rfl, rfl⟩ := h
    refine ⟨?_, fun c hc => List.mem_takeWhile_imp hc, fun hmem => ?_, ?_⟩
    · rw [List.takeWhile_append_dropWhile, ← hdropped, List.takeWhile_append_dropWhile]
    · have hne := List.mem_takeWhile_imp hmem
      simp at hne
    · have hhead := List.head?_dropWhile_not (· ≠ '\n') (c :: rest)
      cases hbehind : (c :: rest).dropWhile (· ≠ '\n') with
      | nil => exact Or.inl rfl
      | cons d tail =>
          rw [hbehind] at hhead
          obtain rfl : d = '\n' := by simpa using hhead
          exact Or.inr ⟨tail, rfl⟩
  · rename_i hblank
    obtain ⟨c, hc, hsplit⟩ := Option.map_eq_some_iff.mp h
    simp only [Prod.mk.injEq] at hsplit
    obtain ⟨rfl, rfl, rfl⟩ := hsplit
    have hne : text.rdropWhile (· = '\n') ≠ [] := by
      intro hnil
      rw [hnil] at hc
      cases hc
    rw [List.getLast?_eq_some_getLast hne, Option.some_inj] at hc
    have hlast := List.rdropWhile_last_not _ _ hne
    refine ⟨?_, fun d hd => ?_, ?_, ?_⟩
    · rw [← List.append_assoc, ← hc, List.dropLast_append_getLast,
        List.rdropWhile_append_rtakeWhile]
    · rw [List.dropWhile_eq_nil_iff] at hblank
      have hkept : text.rdropWhile (· = '\n') <+: text := List.rdropWhile_prefix _ _
      exact hblank d (hkept.subset (List.mem_of_mem_dropLast hd))
    · rw [List.mem_singleton]
      rintro rfl
      exact hlast (by rw [hc]; decide)
    · have hends : ∀ d ∈ text.rtakeWhile (· = '\n'), d = '\n' := fun d hd => by
        simpa using List.mem_rtakeWhile_imp hd
      cases hbehind : text.rtakeWhile (· = '\n') with
      | nil => exact Or.inl rfl
      | cons d tail =>
          rw [hbehind, List.forall_mem_cons] at hends
          exact Or.inr ⟨tail, by rw [hends.1]⟩

/-- A status of one line, without a blank at either end. -/
structure PlainStatus (status : List Char) : Prop where
  head : ∃ c rest, status = c :: rest ∧ isSpace c = false
  last : ∃ front c, status = front ++ [c] ∧ isSpace c = false
  single : '\n' ∉ status

/-- A status in the place of the value is matched there. -/
theorem matchValue_status (hblanks : ∀ c ∈ blanks, isSpace c = true) (hstatus : PlainStatus status)
    (hbehind : behind = [] ∨ ∃ rest, behind = '\n' :: rest) :
    matchValue (blanks ++ (status ++ behind)) = some (blanks, status, behind) := by
  obtain ⟨c, rest, rfl, hc⟩ := hstatus.head
  have hsingle : ∀ d ∈ c :: rest, decide (d ≠ '\n') = true := by
    intro d hd
    rw [decide_eq_true_eq]
    rintro rfl
    exact hstatus.single hd
  have hnone : behind.takeWhile (· ≠ '\n') = [] ∧ behind.dropWhile (· ≠ '\n') = behind := by
    rcases hbehind with rfl | ⟨tail, rfl⟩
    · exact ⟨rfl, rfl⟩
    · exact ⟨List.takeWhile_cons_of_neg (by simp), List.dropWhile_cons_of_neg (by simp)⟩
  have hdropped : (blanks ++ (c :: rest ++ behind)).dropWhile isSpace = c :: (rest ++ behind) := by
    rw [List.dropWhile_append_of_pos hblanks, List.cons_append,
      List.dropWhile_cons_of_neg (by simp [hc])]
  have htaken : (blanks ++ (c :: rest ++ behind)).takeWhile isSpace = blanks := by
    rw [List.takeWhile_append_of_pos hblanks, List.cons_append,
      List.takeWhile_cons_of_neg (by simp [hc]), List.append_nil]
  have htaken' : (c :: rest ++ behind).takeWhile (· ≠ '\n') = c :: rest := by
    rw [List.takeWhile_append_of_pos hsingle, hnone.1, List.append_nil]
  have hdropped' : (c :: rest ++ behind).dropWhile (· ≠ '\n') = behind := by
    rw [List.dropWhile_append_of_pos hsingle, hnone.2]
  rw [List.cons_append] at htaken' hdropped'
  unfold matchValue
  rw [hdropped, htaken]
  simp only
  rw [htaken', hdropped']

/-- The first line that begins with the label is matched, where it has a value. -/
theorem matchStatus_of_first (hstart : Anchored lineStart front) (hfirst : NoLabel lineStart front)
    (hvalue : matchValue rest = some (blanks, value, behind)) :
    matchStatus lineStart (front ++ (factoryMarker ++ rest)) =
      some ⟨front, blanks, value, behind⟩ := by
  induction front generalizing lineStart with
  | nil =>
      rcases hstart with ⟨-, hstart⟩ | ⟨before, hbefore⟩
      · have hbegins : (lineStart && factoryMarker.isPrefixOf (factoryMarker ++ rest)) = true := by
          rw [hstart, Bool.true_and, List.isPrefixOf_iff_prefix]
          exact List.prefix_append _ _
        have hcons : factoryMarker ++ rest = '-' :: (STATUS_LABEL.rest ++ rest) := by
          rw [← status_label_chars]
          rfl
        rw [hcons] at hbegins
        rw [List.nil_append, hcons, matchStatus, if_pos hbegins, ← hcons, List.drop_left, hvalue]
      · simp at hbefore
  | cons c front ih =>
      have hnot : ¬(lineStart &&
          factoryMarker.isPrefixOf (c :: (front ++ (factoryMarker ++ rest)))) = true := by
        rw [Bool.and_eq_true, List.isPrefixOf_iff_prefix]
        rintro ⟨htrue, hbegins⟩
        rcases @label_begins (c :: front) _ hbegins with hin | hnil
        · exact hfirst.head htrue hin
        · cases hnil
      rw [List.cons_append, matchStatus, if_neg hnot, ih (anchored_cons_iff.mp hstart) hfirst.tail]
      rfl

/-- A match is at the first line that begins with the label. -/
theorem matchStatus_eq_some {found : StatusMatch} (h : matchStatus lineStart text = some found) :
    ∃ rest, text = found.front ++ (factoryMarker ++ rest) ∧ Anchored lineStart found.front ∧
      NoLabel lineStart found.front ∧
        matchValue rest = some (found.blanks, found.value, found.behind) := by
  induction text generalizing lineStart found with
  | nil => cases h
  | cons c text ih =>
      rw [matchStatus] at h
      split at h
      · rename_i blanks value behind hmatch
        have hfound := Option.some.inj h
        subst hfound
        split at hmatch
        · rename_i hbegins
          rw [Bool.and_eq_true, List.isPrefixOf_iff_prefix] at hbegins
          obtain ⟨htrue, rest, hrest⟩ := hbegins
          rw [← hrest, List.drop_left] at hmatch
          refine ⟨rest, hrest.symm, Or.inl ⟨rfl, htrue⟩, ?_, hmatch⟩
          intro passed tail hnil _
          obtain ⟨-, rfl⟩ := List.append_eq_nil_iff.mp hnil.symm
          decide
        · cases hmatch
      · rename_i hmatch
        obtain ⟨found, hfound, rfl⟩ := Option.map_eq_some_iff.mp h
        obtain ⟨rest, rfl, hanchored, hfirst, hvalue⟩ := ih hfound
        refine ⟨rest, rfl, hanchored.cons, hfirst.cons ?_, hvalue⟩
        rintro rfl ⟨tail, htail⟩
        -- a label before the match has the label of the match behind it, which is no line end
        rw [← List.cons_append, ← htail, List.append_assoc, if_pos, List.drop_left] at hmatch
        · have hmem : '-' ∈ tail ++ (factoryMarker ++ rest) :=
            List.mem_append_right _ (List.mem_append_left _ (by decide))
          exact absurd (matchValue_eq_none hmatch _ hmem) (by decide)
        · rw [Bool.true_and, List.isPrefixOf_iff_prefix]
          exact List.prefix_append _ _

end Status

/-! ### A block behind a status -/

section Placed

variable {text behind status : List Char} {found : StatusMatch} {lines : List String}

theorem rstrip_status (hstatus : PlainStatus status) :
    rstrip (status ++ behind) = status ++ rstrip behind := by
  obtain ⟨front, c, rfl, hc⟩ := hstatus.last
  by_cases hbehind : rstrip behind = []
  · have hblanks := List.rdropWhile_eq_nil_iff.mp hbehind
    rw [hbehind, List.append_nil]
    exact (rdropWhile_append_blanks hblanks).trans (rstrip_append_of_last hc)
  · exact rdropWhile_append hbehind

theorem rstrip_withValue (hstatus : PlainStatus status) :
    rstrip (found.withValue status) =
      found.front ++ (factoryMarker ++ (found.blanks ++ (status ++ rstrip found.behind))) := by
  obtain ⟨c, rest, hcons, -⟩ := hstatus.head
  have hne : rstrip (status ++ found.behind) ≠ [] := by
    rw [rstrip_status hstatus, hcons]
    simp
  have happend := @rdropWhile_append _ _ (found.front ++ (factoryMarker ++ found.blanks)) _ hne
  simp only [List.append_assoc] at happend
  rw [← rstrip_status hstatus]
  exact happend

/-- The block stands behind the match. -/
theorem placed_withValue (hstatus : PlainStatus status) :
    placed (found.withValue status) lines =
      found.front ++ (factoryMarker ++ (found.blanks ++ (status ++
        (rstrip found.behind ++ '\n' :: '\n' :: (block lines ++ ['\n']))))) := by
  rw [placed, rstrip_withValue hstatus]
  simp only [List.append_assoc]

theorem rstrip_ends {more : List Char} (h : behind = [] ∨ ∃ rest, behind = '\n' :: rest) :
    ∃ rest, rstrip behind ++ '\n' :: more = '\n' :: rest := by
  rcases h with rfl | ⟨rest, rfl⟩
  · exact ⟨more, by rw [rstrip, List.rdropWhile_nil, List.nil_append]⟩
  · obtain ⟨tail, htail⟩ := List.rdropWhile_prefix (l := '\n' :: rest) isSpace
    rw [rstrip]
    cases hstripped : ('\n' :: rest).rdropWhile isSpace with
    | nil => exact ⟨more, rfl⟩
    | cons c stripped =>
        rw [hstripped, List.cons_append] at htail
        exact ⟨stripped ++ '\n' :: more, by rw [(List.cons.inj htail).1, List.cons_append]⟩

/-- A status is written over the one that was written, in front of a block. -/
theorem replaceFactoryStatus_placed {label featureId : String}
    (h : matchStatus true text = some found) (hstatus : PlainStatus status)
    (hlabel : PlainStatus label.toList) :
    replaceFactoryStatus (placed (found.withValue status) lines) label featureId =
      .ok (placed (found.withValue label.toList) lines) := by
  obtain ⟨rest, -, hanchored, hfirst, hvalue⟩ := matchStatus_eq_some h
  obtain ⟨-, hblanks, -, hbehind⟩ := matchValue_eq_some hvalue
  have hends := @rstrip_ends _ ('\n' :: (block lines ++ ['\n'])) hbehind
  have hmatch := matchStatus_of_first hanchored hfirst
    (matchValue_status hblanks hstatus (Or.inr hends))
  rw [replaceFactoryStatus, placed_withValue hstatus, hmatch, placed_withValue hlabel]
  rfl

end Placed

/-! ### What stands outside the block -/

section Outside

variable {text front behind status : List Char} {found : StatusMatch} {lines : List String}

/-- Two splits at the first line end are one. -/
theorem split_line {first second more others : List Char} (hfirst : '\n' ∉ first)
    (hsecond : '\n' ∉ second) (h : first ++ '\n' :: more = second ++ '\n' :: others) :
    first = second ∧ more = others := by
  induction first generalizing second with
  | nil =>
      cases second with
      | nil => exact ⟨rfl, (List.cons.inj h).2⟩
      | cons c second =>
          have hc : '\n' = c := (List.cons.inj h).1
          exact absurd (hc ▸ List.mem_cons_self) hsecond
  | cons c first ih =>
      cases second with
      | nil =>
          have hc : c = '\n' := (List.cons.inj h).1
          exact absurd (hc ▸ List.mem_cons_self) hfirst
      | cons d second =>
          obtain ⟨rfl, htail⟩ := List.cons.inj h
          rw [List.mem_cons, not_or] at hfirst hsecond
          obtain ⟨rfl, rfl⟩ := ih hfirst.2 hsecond.2 htail
          exact ⟨rfl, rfl⟩

/-- A line that begins with the label does not stand before the first one. -/
theorem NoLabel.le {rest passed more : List Char} (h : NoLabel true front)
    (hsplit : front ++ (factoryMarker ++ rest) = passed ++ more) (hpassed : AtLineStart passed)
    (hlabel : factoryMarker <+: more) : front.length ≤ passed.length := by
  rcases List.append_eq_append_iff.mp hsplit with ⟨tail, rfl, -⟩ | ⟨tail, rfl, rfl⟩
  · rw [List.length_append]
    omega
  · rcases label_begins hlabel with hin | rfl
    · exact absurd hin (h passed tail rfl (anchored_true_iff.mpr hpassed))
    · rw [List.append_nil]

theorem placed_inj {first second : List Char} :
    placed first lines = placed second lines ↔ rstrip first = rstrip second := by
  rw [placed, placed, List.append_cancel_right_eq]

/-- The match begins where the status line does. -/
theorem statusLine_front {before line : List Char} (h : matchStatus true text = some found)
    (hline : StatusLine text before line behind) : before = found.front := by
  obtain ⟨rest, hrest, hanchored, hfirst, -⟩ := matchStatus_eq_some h
  have hlabel : factoryMarker <+: line ++ behind := hline.label.trans (List.prefix_append _ _)
  have hle := hfirst.le (hrest.symm.trans hline.split) hline.starts hlabel
  have hge := hline.first found.front _ hrest (anchored_true_iff.mp hanchored)
    (List.prefix_append _ _)
  exact (List.append_inj (hline.split.symm.trans hrest) (Nat.le_antisymm hge hle)).1

/-- The line of a match, where its text is split at the first line end. -/
theorem statusLine_of_match {line : List Char} (h : matchStatus true text = some found)
    (hline : factoryMarker <+: line) (hsingle : '\n' ∉ line)
    (hends : behind = [] ∨ ∃ rest, behind = '\n' :: rest)
    (hsplit : line ++ behind =
      factoryMarker ++ (found.blanks ++ (found.value ++ found.behind))) :
    StatusLine text found.front line behind := by
  obtain ⟨rest, hrest, hanchored, hfirst, hvalue⟩ := matchStatus_eq_some h
  obtain ⟨rfl, -, -, -⟩ := matchValue_eq_some hvalue
  refine ⟨by rw [hsplit, hrest], anchored_true_iff.mp hanchored, hline, hsingle, hends, ?_⟩
  intro front rest hfront hstart hlabel
  exact hfirst.le (hrest.symm.trans hfront) hstart hlabel

/-- Two texts that are the same behind a line keep that line and what stands behind its blanks. -/
theorem kept_behind {line line' blanks rest other : List Char} (hline : '\n' ∉ line)
    (hline' : '\n' ∉ line') (hblanks : ∀ c ∈ blanks, isSpace c = true)
    (h : front ++ (line ++ '\n' :: (blanks ++ other)) =
      rstrip (front ++ (line' ++ '\n' :: (blanks ++ rest)))) :
    other = rstrip rest := by
  by_cases hrest : rstrip rest = []
  · -- nothing but the other line would be left, without its line end
    have hblank : ∀ c ∈ '\n' :: (blanks ++ rest), isSpace c = true := by
      rw [List.forall_mem_cons, List.forall_mem_append]
      exact ⟨by decide, hblanks, List.rdropWhile_eq_nil_iff.mp hrest⟩
    have hdropped : rstrip (front ++ line' ++ '\n' :: (blanks ++ rest)) = rstrip (front ++ line') :=
      rdropWhile_append_blanks hblank
    rw [← List.append_assoc front line', hdropped] at h
    have hkept : rstrip (front ++ line') <+: front ++ line' := List.rdropWhile_prefix _ _
    rw [← h, List.prefix_append_right_inj] at hkept
    exact absurd (hkept.subset (by simp)) hline'
  · have happend : rstrip (front ++ (line' ++ '\n' :: blanks) ++ rest) =
        front ++ (line' ++ '\n' :: blanks) ++ rstrip rest := rdropWhile_append hrest
    simp only [List.append_assoc, List.cons_append] at happend
    rw [happend, List.append_cancel_left_eq] at h
    exact List.append_cancel_left (split_line hline hline' h).2

/-- The value is replaced on the status line, or what is replaced behind it was the label
already. -/
theorem only_status_iff (h : matchStatus true text = some found) (hstatus : PlainStatus status) :
    (∃ before line behind line', StatusLine text before line behind ∧ factoryMarker <+: line' ∧
      '\n' ∉ line' ∧ placed (found.withValue status) lines =
        placed (before ++ (line' ++ behind)) lines) ↔
      '\n' ∉ found.blanks ∨
        rstrip (found.value ++ found.behind) = rstrip (status ++ found.behind) := by
  obtain ⟨rest, hrest, -, -, hvalue⟩ := matchStatus_eq_some h
  obtain ⟨rfl, hblanks, hsingle, hends⟩ := matchValue_eq_some hvalue
  have hlabel : '\n' ∉ factoryMarker := by decide
  have hne : status ++ rstrip found.behind ≠ [] := by
    obtain ⟨c, tail, rfl, -⟩ := hstatus.head
    simp
  rw [rstrip_status hstatus]
  constructor
  · rintro ⟨before, line, behind, line', hline, -, hline', hplaced⟩
    obtain rfl := statusLine_front h hline
    rw [placed_inj, rstrip_withValue hstatus] at hplaced
    rw [or_iff_not_imp_left, not_not]
    intro hnewline
    obtain ⟨first, second, hsplit, hfirst⟩ := List.eq_append_cons_of_mem hnewline
    have hlabelled : '\n' ∉ factoryMarker ++ first := by simp [hlabel, hfirst]
    have hwhole : line ++ behind =
        factoryMarker ++ first ++ '\n' :: (second ++ (found.value ++ found.behind)) := by
      rw [List.append_cancel_left (hline.split.symm.trans hrest), hsplit]
      simp
    have hbehind : behind = '\n' :: (second ++ (found.value ++ found.behind)) := by
      rcases hline.ends with rfl | ⟨tail, rfl⟩
      · rw [List.append_nil] at hwhole
        exact absurd (by rw [hwhole]; simp) hline.single
      · rw [(split_line hline.single hlabelled hwhole).2]
    have hsecond : ∀ c ∈ second, isSpace c = true := fun c hc =>
      hblanks c (hsplit ▸ List.mem_append_right _ (List.mem_cons_of_mem _ hc))
    rw [hbehind, hsplit, List.append_assoc, ← List.append_assoc factoryMarker] at hplaced
    exact (kept_behind hlabelled hline' hsecond hplaced).symm
  · intro hvalue
    by_cases hnewline : '\n' ∈ found.blanks
    · have hsame := hvalue.resolve_left (not_not.mpr hnewline)
      obtain ⟨first, second, hsplit, hfirst⟩ := List.eq_append_cons_of_mem hnewline
      have hlabelled : '\n' ∉ factoryMarker ++ first := by simp [hlabel, hfirst]
      refine ⟨found.front, factoryMarker ++ first,
        '\n' :: (second ++ (found.value ++ found.behind)), factoryMarker ++ first,
        statusLine_of_match h (List.prefix_append _ _) hlabelled (Or.inr ⟨_, rfl⟩)
          (by rw [hsplit]; simp), List.prefix_append _ _, hlabelled, ?_⟩
      have happend : rstrip (found.front ++ (factoryMarker ++ (first ++ '\n' :: second)) ++
          (found.value ++ found.behind)) =
            found.front ++ (factoryMarker ++ (first ++ '\n' :: second)) ++
              rstrip (found.value ++ found.behind) := rdropWhile_append (hsame.trans_ne hne)
      rw [placed_inj, rstrip_withValue hstatus, hsplit, ← hsame]
      simp only [List.append_assoc, List.cons_append] at happend ⊢
      exact happend.symm
    · refine ⟨found.front, factoryMarker ++ (found.blanks ++ found.value), found.behind,
        factoryMarker ++ (found.blanks ++ status),
        statusLine_of_match h (List.prefix_append _ _) (by simp [hlabel, hnewline, hsingle]) hends
          (by simp), List.prefix_append _ _, by simp [hlabel, hnewline, hstatus.single], ?_⟩
      rw [StatusMatch.withValue, StatusMatch.text]
      simp only [List.append_assoc]

/-- The status line brings in no marker. -/
theorem not_marker_withValue (h : matchStatus true text = some found) (hstatus : '<' ∉ status)
    (hplain : ¬MARKER_BEGIN.chars <:+: text) :
    ¬MARKER_BEGIN.chars <:+: found.withValue status := by
  obtain ⟨rest, hrest, hanchored, -, hvalue⟩ := matchStatus_eq_some h
  obtain ⟨rfl, hblanks, -, -⟩ := matchValue_eq_some hvalue
  have hinserted : '<' ∉ factoryMarker ++ (found.blanks ++ status) := by
    have hmarker : '<' ∉ factoryMarker := by decide
    have hblank : '<' ∉ found.blanks := fun hmem => absurd (hblanks _ hmem) (by decide)
    simp [hmarker, hblank, hstatus]
  have hfront : ¬MARKER_BEGIN.chars <:+: found.front := fun hin =>
    hplain (hin.trans ⟨[], _, by rw [List.nil_append]; exact hrest.symm⟩)
  have hbehind : ¬MARKER_BEGIN.chars <:+: found.behind := fun hin =>
    hplain (hin.trans ⟨found.front ++ (factoryMarker ++ (found.blanks ++ found.value)), [], by
      rw [hrest]; simp⟩)
  have hnot := Marker.not_infix_inserted (anchored_true_iff.mp hanchored) hinserted hfront hbehind
  simp only [List.append_assoc] at hnot
  exact hnot

end Outside

/-! ### The documents -/

section Documents

variable {first second request : FeatureDecisionRequest} {document : DecisionDocument}
  {text base once other : List Char} {lines others : List String} {featureId label : String}

/-- The label of a status. -/
def IsLabel (label : String) : Prop := label = "Ready" ∨ label = "Proposed"

theorem statusLabel_ok {status : String} (h : statusLabel status = .ok label) : IsLabel label := by
  rw [statusLabel] at h
  split at h
  · exact Or.inl (Except.ok.inj h).symm
  · split at h
    · exact Or.inr (Except.ok.inj h).symm
    · cases h

theorem labelOf_ok (h : labelOf request featureId = .ok label) : IsLabel label := by
  rw [labelOf] at h
  split at h
  · rw [Library.ok_bind] at h
    exact statusLabel_ok h
  · split at h
    · rw [Library.ok_bind] at h
      exact statusLabel_ok h
    · cases h

theorem IsLabel.plain (h : IsLabel label) : PlainStatus label.toList := by
  rcases h with rfl | rfl
  · exact ⟨⟨'R', "eady".toList, by decide⟩, ⟨"Read".toList, 'y', by decide⟩,
      by decide⟩
  · exact ⟨⟨'P', "roposed".toList, by decide⟩, ⟨"Propose".toList, 'd', by decide⟩,
      by decide⟩

theorem IsLabel.no_marker (h : IsLabel label) : '<' ∉ label.toList := by
  rcases h with rfl | rfl
  · decide
  · decide

/-- A block is replaced behind its text exactly where its own is taken away whole. -/
theorem replaceMarker_again_iff (hplain : ¬MARKER_BEGIN.chars <:+: base) :
    replaceMarker (placed base lines) (block others) = placed base others ↔
      resolutionMarkers.Closed isSpace (bodyOf lines) := by
  have hplaced : ∀ more, placed (rstrip base) more = placed base more := fun more => by
    rw [placed, rstrip_rstrip, placed]
  have hstripped : rstrip base <+: base := List.rdropWhile_prefix _ _
  rw [← hplaced lines, ← hplaced others]
  exact replaceMarker_placed_iff (rstrip_rstrip base) fun hin => hplain (hin.trans hstripped.isInfix)

theorem renderDocument_summary_iff :
    renderDocument request .summary text = .ok once ↔
      ∃ lines, summaryLines request = .ok lines ∧ replaceMarker text (block lines) = once := by
  rw [renderDocument, Library.bind_eq_ok]
  simp only [pure, Except.pure, Except.ok.injEq]

theorem renderDocument_specification_iff :
    renderDocument request (.specification featureId) text = .ok once ↔
      ∃ label found, labelOf request featureId = .ok label ∧ matchStatus true text = some found ∧
        replaceMarker (found.withValue label.toList)
          (block (specificationLines request featureId)) = once := by
  rw [renderDocument, Library.bind_eq_ok]
  refine exists_congr fun label => ?_
  rw [Library.bind_eq_ok, replaceFactoryStatus]
  cases matchStatus true text with
  | none => simp
  | some found => simp [pure, Except.pure]

theorem summary_iff (hplain : ¬MARKER_BEGIN.chars <:+: text)
    (h1 : renderDocument first .summary text = .ok once)
    (h2 : renderDocument second .summary text = .ok other) :
    Replaceable first second .summary text once other ↔ Fits first .summary text := by
  obtain ⟨lines, hlines, rfl⟩ := renderDocument_summary_iff.mp h1
  obtain ⟨others, hothers, rfl⟩ := renderDocument_summary_iff.mp h2
  rw [replaceMarker_plain hplain, replaceMarker_plain hplain]
  have hagain : renderDocument second .summary (placed text lines) = .ok (placed text others) ↔
      resolutionMarkers.Closed isSpace (bodyOf lines) := by
    rw [renderDocument_summary_iff, ← @replaceMarker_again_iff text lines others hplain]
    constructor
    · rintro ⟨others', hothers', hreplaced⟩
      rw [hothers, Except.ok.injEq] at hothers'
      rw [← hothers'] at hreplaced
      exact hreplaced
    · exact fun h => ⟨others, hothers, h⟩
  constructor
  · intro h
    refine ⟨nofun, fun lines' hlines' => ?_, nofun⟩
    obtain rfl := Except.ok.inj (hlines.symm.trans hlines')
    exact hagain.mp h.again
  · intro h
    exact ⟨hagain.mpr (h.closed lines hlines), lines, hlines, rfl⟩

section Specification

variable {found : StatusMatch} {label' : String}

theorem renderDocument_of_match (hplain : ¬MARKER_BEGIN.chars <:+: text)
    (hlabel : labelOf request featureId = .ok label) (hfound : matchStatus true text = some found) :
    renderDocument request (.specification featureId) text =
      .ok (placed (found.withValue label.toList) (specificationLines request featureId)) := by
  refine renderDocument_specification_iff.mpr ⟨label, found, hlabel, hfound, ?_⟩
  exact replaceMarker_plain (not_marker_withValue hfound (labelOf_ok hlabel).no_marker hplain)

/-- The status is written over the earlier one; the block is replaced where it is taken away
whole. -/
theorem specification_again_iff (hplain : ¬MARKER_BEGIN.chars <:+: text)
    (hlabel : labelOf first featureId = .ok label) (hlabel' : labelOf second featureId = .ok label')
    (hfound : matchStatus true text = some found) :
    renderDocument second (.specification featureId)
        (placed (found.withValue label.toList) (specificationLines first featureId)) =
          .ok (placed (found.withValue label'.toList) (specificationLines second featureId)) ↔
      resolutionMarkers.Closed isSpace (bodyOf (specificationLines first featureId)) := by
  have hstatus := (labelOf_ok hlabel).plain
  have hstatus' := (labelOf_ok hlabel').plain
  have hmarker := not_marker_withValue hfound (labelOf_ok hlabel').no_marker hplain
  rw [← replaceMarker_again_iff hmarker, renderDocument, hlabel']
  simp only [bind, Except.bind, replaceFactoryStatus_placed hfound hstatus hstatus', pure,
    Except.pure, Except.ok.injEq]
  exact Iff.rfl

theorem specification_iff (hplain : ¬MARKER_BEGIN.chars <:+: text)
    (h1 : renderDocument first (.specification featureId) text = .ok once)
    (h2 : renderDocument second (.specification featureId) text = .ok other) :
    Replaceable first second (.specification featureId) text once other ↔
      Fits first (.specification featureId) text := by
  obtain ⟨label, found, hlabel, hfound, -⟩ := renderDocument_specification_iff.mp h1
  obtain ⟨label', found', hlabel', hfound', -⟩ := renderDocument_specification_iff.mp h2
  obtain rfl := Option.some.inj (hfound.symm.trans hfound')
  obtain rfl := Except.ok.inj ((renderDocument_of_match hplain hlabel hfound).symm.trans h1)
  obtain rfl := Except.ok.inj ((renderDocument_of_match hplain hlabel' hfound).symm.trans h2)
  have hagain := specification_again_iff hplain hlabel hlabel' hfound
  have honly := @only_status_iff _ _ _ (specificationLines first featureId) hfound
    (labelOf_ok hlabel).plain
  constructor
  · rintro ⟨hreplaced, lines, hlines, hkept⟩
    obtain rfl := Except.ok.inj hlines
    refine ⟨nofun, fun lines' hlines' => ?_, fun featureId' label'' found' hdocument hlabel''
      hfound' => ?_⟩
    · obtain rfl := Except.ok.inj hlines'
      exact hagain.mp hreplaced
    · obtain rfl := DecisionDocument.specification.inj hdocument
      obtain rfl := Except.ok.inj (hlabel.symm.trans hlabel'')
      obtain rfl := Option.some.inj (hfound.symm.trans hfound')
      exact honly.mp hkept
  · intro h
    exact ⟨hagain.mpr (h.closed _ rfl), _, rfl,
      honly.mpr (h.inLine featureId label found rfl hlabel hfound)⟩

end Specification

theorem rstrip_placed :
    rstrip (placed base lines) = rstrip base ++ '\n' :: '\n' :: block lines := by
  have hblock : rstrip (block lines ++ ['\n']) = block lines := by
    rw [rstrip, List.rdropWhile_concat_pos _ _ _ (by decide)]
    exact rstrip_block lines
  have hne : rstrip (block lines ++ ['\n']) ≠ [] := by
    rw [hblock, block_eq]
    exact List.cons_ne_nil _ _
  have happend : rstrip (rstrip base ++ ['\n', '\n'] ++ (block lines ++ ['\n'])) =
      rstrip base ++ ['\n', '\n'] ++ rstrip (block lines ++ ['\n']) := rdropWhile_append hne
  simp only [List.append_assoc, List.cons_append, List.nil_append] at happend
  rw [placed, happend, hblock]

/-- The run log keeps the blocks of all resolutions. -/
theorem runLog_not_replaceable (h1 : renderDocument first .runLog text = .ok once)
    (h2 : renderDocument second .runLog text = .ok other) :
    renderDocument second .runLog once ≠ .ok other := by
  obtain rfl : placed text (runLogLines first) = once := Except.ok.inj h1
  obtain rfl : placed text (runLogLines second) = other := Except.ok.inj h2
  intro h
  have hplaced : placed (placed text (runLogLines first)) (runLogLines second) =
      placed text (runLogLines second) := Except.ok.inj h
  rw [placed_inj, rstrip_placed] at hplaced
  simp at hplaced

/-- A later resolution replaces the block of an earlier one, and either leaves the text outside it
as it was, exactly where the block is taken away whole and the status has a value on its own
line. -/
theorem decision_block_iff (hplain : ¬MARKER_BEGIN.chars <:+: text)
    (h1 : renderDocument first document text = .ok once)
    (h2 : renderDocument second document text = .ok other) :
    Replaceable first second document text once other ↔ Fits first document text := by
  cases document with
  | summary => exact summary_iff hplain h1 h2
  | specification featureId => exact specification_iff hplain h1 h2
  | runLog =>
      refine ⟨fun h => absurd h.again (runLog_not_replaceable h1 h2), fun h => ?_⟩
      exact absurd rfl h.replaced

end Documents

/-! ### A resolution with a closing marker in it -/

/-- A worktree whose specifications all name the feature `F010`. -/
def site : PlanningSite where
  toQueueSite := .plain
  readText _ := .ok "# F010"
  diffCheck := true
  numbersEqual first second := first = second

def question (featureId : String) : Fields := [("question", .str s!"Which {featureId}?")]

def gatedFeature (featureId : String) : Json :=
  .obj [("acceptance_criteria", .arr [.str "works"]), ("dependencies", .arr []),
    ("human_decision", .obj (question featureId)), ("id", .str featureId),
    ("milestone", .str "M1"), ("requires_human_decision", .bool true),
    ("spec", .str s!"docs/features/{featureId}.md"), ("status", .str "human_decision_required"),
    ("title", .str featureId)]

def gatedQueue : Fields :=
  [("features", .arr [.obj [("dependencies", .arr []), ("id", .str "F006"),
      ("milestone", .str "M1"), ("status", .str "ready"), ("title", .str "F006")],
    gatedFeature "F010", gatedFeature "F011", gatedFeature "F097"]),
   ("milestones", .arr [.obj [("id", .str "M1")]])]

def resolution (featureId targetStatus text : String) : Json :=
  .obj [("approved_resolution", .str text), ("feature_id", .str featureId),
    ("recorded_question", .str s!"Which {featureId}?"), ("target_status", .str targetStatus)]

def decisionFile (text : String) : Fields :=
  [("commit_subject", .str "Resolve decisions"),
   ("desired", .obj [("selected_feature", .str "F010"), ("sole_ready_feature", .str "F010")]),
   ("expected", .obj [("branch", .str "main"), ("head", .str "c1"),
     ("projection_state", .str "feature_ready"), ("selected_feature", .str "F006")]),
   ("features", .arr [resolution "F010" "ready" text, resolution "F011" "proposed" "Later",
     resolution "F097" "proposed" "Later"]),
   ("project_id", .str "p1"),
   ("repository", .obj [("adapter_project_id", .str "a1"), ("path", .str "/repo"),
     ("path_fingerprint", .str "f1"), ("repository_id", .str "r1")]),
   ("schema_version", .int 1)]

def context (text : String) : DecisionContext where
  regularFile := some true
  document := some (.obj (decisionFile text))
  decisionSha256 := "d1"
  projectId := "p1"
  activeMilestone := some "M1"
  repository := "/repo"
  repositoryId := "r1"
  pathFingerprint := "f1"
  ledgerHeadCurrent := true
  projection := [("current_state", .str "feature_ready"), ("selected_next_feature", .str "F006")]
  adapter := .ok (.obj [("project", .obj [("id", .str "a1")])])
  currentBranch := some "main"
  head := "c1"
  isClean := true
  gitOperation := false
  writerLease := false
  controllerReservation := false
  events := []

/-- A specification with a status. -/
def statusText : List Char := "# F010\n\n- Factory status: Proposed\n".toList

/-- The lines of the block of `F010`, with this resolution. -/
def decidedLines (text : String) : List String :=
  ["## Approved decision resolution", "", "- Recorded question: Which F010?",
   s!"- Approved resolution: {text}", "- Resulting queue status: `ready`."]

theorem statusText_plain {marker : Marker '<'} : ¬marker.chars <:+: statusText := by
  intro hin
  have hstart : '<' ∉ statusText := by decide
  exact hstart (hin.subset List.mem_cons_self)

theorem statusText_match : matchStatus true statusText =
    some ⟨"# F010\n\n".toList, " ".toList, "Proposed".toList, "\n".toList⟩ := by
  decide

/-- What stands behind a closing marker in the resolution stays when the block is replaced. -/
theorem closing_marker_stays :
    ∃ request once, inspectDecisions site
        (context "Stop <!-- CONVEYOR_FEATURE_DECISION_RESOLUTION_END --> here") "F010"
          (some (.obj gatedQueue)) = .ok request ∧
      ¬MARKER_BEGIN.chars <:+: statusText ∧ ¬MARKER_END.chars <:+: statusText ∧
      renderDocument request (.specification "F010") statusText = .ok once ∧
      renderDocument request (.specification "F010") once ≠ .ok once := by
  obtain ⟨request, hrequest, hlines, hlabel⟩ : ∃ request, inspectDecisions site
      (context "Stop <!-- CONVEYOR_FEATURE_DECISION_RESOLUTION_END --> here") "F010"
        (some (.obj gatedQueue)) = .ok request ∧
      specificationLines request "F010" =
        decidedLines "Stop <!-- CONVEYOR_FEATURE_DECISION_RESOLUTION_END --> here" ∧
      labelOf request "F010" = .ok "Ready" := ⟨_, rfl, rfl, rfl⟩
  refine ⟨request, _, hrequest, statusText_plain, statusText_plain,
    renderDocument_of_match statusText_plain hlabel statusText_match, fun h => ?_⟩
  have hclosed := (specification_again_iff statusText_plain hlabel hlabel statusText_match).mp h
  rw [hlines] at hclosed
  exact absurd ((@replaceMarker_again_iff [] _ [] (by decide +kernel)).mpr hclosed)
    (by decide +kernel)

/-- A resolution without one is replaced whole. -/
theorem plain_resolution_replaced :
    ∃ request once, inspectDecisions site (context "Keep it") "F010" (some (.obj gatedQueue)) =
        .ok request ∧ Fits request (.specification "F010") statusText ∧
      Replaceable request request (.specification "F010") statusText once once := by
  obtain ⟨request, hrequest, hlines, hlabel⟩ : ∃ request, inspectDecisions site
      (context "Keep it") "F010" (some (.obj gatedQueue)) = .ok request ∧
      specificationLines request "F010" = decidedLines "Keep it" ∧
      labelOf request "F010" = .ok "Ready" := ⟨_, rfl, rfl, rfl⟩
  have hrendered := renderDocument_of_match statusText_plain hlabel statusText_match
  have hfits : Fits request (.specification "F010") statusText := by
    refine ⟨nofun, fun lines hblock => ?_, fun featureId label found _ _ hfound => Or.inl ?_⟩
    · obtain rfl := Except.ok.inj hblock
      rw [hlines]
      exact (@replaceMarker_again_iff [] _ [] (by decide +kernel)).mp (by decide +kernel)
    · obtain rfl := Option.some.inj (statusText_match.symm.trans hfound)
      decide +kernel
  exact ⟨request, _, hrequest, hfits,
    (decision_block_iff statusText_plain hrendered hrendered).mpr hfits⟩

end DecisionBlocks

end Conveyor
