import Conveyor.MarkdownPolicy

/-!
# Execution policies written and read back

What `render_markdown_execution_policy` writes is one fenced block, a line for each entry of the
policy. `policy_round_trips_iff` says for which policies `markdown_execution_policy` reads the
same one back.
-/

namespace Conveyor

open Library

namespace ExecutionPolicy

section RoundTrip

variable {P : Platform} {N : Numerals} {D : JsonText.Decoding} {featureId : String} {value : Json}
  {policy : FeatureExecutionPolicy}

/-- No free text of the policy has a line boundary, and its integers are not too long. -/
structure FeatureExecutionPolicy.Writable (policy : FeatureExecutionPolicy) : Prop where
  parentSessions : Convertible policy.parentSessions
  trigger : ∀ trigger ∈ policy.escalationTrigger, PlainText trigger
  texts : ∀ child ∈ policy.childDelegation, ∀ text ∈ child.texts, PlainText text
  expectedInputContextBytes :
    ∀ child ∈ policy.childDelegation, Convertible child.expectedInputContextBytes
  parentContextBytes : ∀ child ∈ policy.childDelegation, Convertible child.parentContextBytes

/-! ### Lines as they are written -/

theorem not_isLineBoundary_of_isKeyChar {c : Char} (h : isKeyChar c = true) :
    isLineBoundary c = false := by
  have hrange : 95 ≤ c.toNat ∧ c.toNat ≤ 122 := by
    simp only [isKeyChar, Bool.or_eq_true, Bool.and_eq_true, decide_eq_true_eq] at h
    rcases h with ⟨hlow, hhigh⟩ | rfl
    · have hlow' : 97 ≤ c.toNat := hlow
      have hhigh' : c.toNat ≤ 122 := hhigh
      omega
    · decide
  rw [isLineBoundary, decide_eq_false_iff_not]
  simp only [List.mem_cons, List.not_mem_nil, or_false]
  omega

/-- One line of a block: whether it is nested, its key, and what stands behind the colon. -/
structure Entry where
  isNested : Bool
  key : String
  tail : List Char

namespace Entry

def line (entry : Entry) : List Char :=
  List.replicate (if entry.isNested then 4 else 2) ' ' ++ (entry.key.toList ++ ':' :: entry.tail)

def opening (key : String) : Entry := ⟨false, key, []⟩

def item (isNested : Bool) (key text : String) : Entry := ⟨isNested, key, ' ' :: text.toList⟩

/-- The key is read as it is, and not as a header. -/
structure KeyLegible (key : String) : Prop where
  filled : key.toList ≠ []
  chars : key.toList.all isKeyChar = true
  noHeader : key ≠ "execution_policy"

structure Legible (entry : Entry) : Prop extends KeyLegible entry.key where
  plain : ∀ c ∈ entry.tail, isLineBoundary c = false

variable {entry : Entry}

theorem Legible.key (h : entry.Legible) : ∀ c ∈ entry.key.toList, isKeyChar c = true :=
  List.all_eq_true.mp h.chars

theorem dropWhile_line (h : entry.Legible) :
    entry.line.dropWhile (· = ' ') = entry.key.toList ++ ':' :: entry.tail := by
  have hspaces : ∀ c ∈ List.replicate (if entry.isNested then 4 else 2) ' ',
      decide (c = ' ') = true := fun c hc => by simpa using (List.mem_replicate.mp hc).2
  rw [line, List.dropWhile_append_of_pos hspaces]
  obtain ⟨c, rest, hkey⟩ := List.exists_cons_of_ne_nil h.filled
  have hc : c ≠ ' ' := by
    rintro rfl
    have hspace := h.key ' ' (by rw [hkey]; exact List.mem_cons_self)
    revert hspace
    decide
  rw [hkey, List.cons_append, List.dropWhile_cons_of_neg (by simpa using hc)]

theorem takeWhile_line (h : entry.Legible) :
    entry.line.takeWhile (· = ' ') = List.replicate (if entry.isNested then 4 else 2) ' ' := by
  have hparts : entry.line.takeWhile (· = ' ') ++ entry.line.dropWhile (· = ' ') = entry.line :=
    List.takeWhile_append_dropWhile
  rw [dropWhile_line h] at hparts
  exact List.append_cancel_right hparts

theorem keyValue?_line (h : entry.Legible) :
    keyValue? entry.line = some (entry.key, Platform.trim isTabOrSpace entry.tail) := by
  have hcolon : isKeyChar ':' = false := by decide
  unfold keyValue?
  rw [dropWhile_line h]
  dsimp only
  rw [List.takeWhile_append_of_pos h.key, List.dropWhile_append_of_pos h.key,
    List.takeWhile_cons_of_neg (by simp [hcolon]), List.dropWhile_cons_of_neg (by simp [hcolon]),
    List.append_nil]
  cases hkey : entry.key.toList with
  | nil => exact absurd hkey h.filled
  | cons c rest =>
      have hname : String.ofList (c :: rest) = entry.key := by rw [← hkey, String.ofList_toList]
      rw [← hname]
      rfl

theorem headerIndent?_line (h : entry.Legible) : headerIndent? entry.line = none := by
  have hcolon : ∀ c ∈ entry.key.toList, decide (c ≠ ':') = true := by
    intro c hc
    have hkey := h.key c hc
    rw [decide_eq_true_eq]
    rintro rfl
    revert hkey
    decide
  have hother : "execution_policy:".toList.isPrefixOf (entry.key.toList ++ ':' :: entry.tail)
      = false := by
    rw [Bool.eq_false_iff]
    intro hpre
    obtain ⟨rest, hrest⟩ := List.isPrefixOf_iff_prefix.mp hpre
    have hsplit := congrArg (List.takeWhile fun c => decide (c ≠ ':')) hrest
    rw [List.takeWhile_append_of_pos hcolon, List.takeWhile_cons_of_neg (by simp),
      List.append_nil] at hsplit
    have hkey : "execution_policy".toList = entry.key.toList := hsplit
    exact h.noHeader (String.toList_injective hkey.symm)
  unfold headerIndent?
  rw [dropWhile_line h]
  dsimp only
  rw [hother, Bool.false_and, if_neg Bool.false_ne_true]

theorem not_blank (h : entry.Legible) : entry.line.all Platform.isSpace = false := by
  obtain ⟨c, rest, hkey⟩ := List.exists_cons_of_ne_nil h.filled
  rw [Bool.eq_false_iff]
  intro hall
  have hspace : Platform.isSpace ':' = true := List.all_eq_true.mp hall ':' (by simp [line])
  revert hspace
  decide

theorem line_plain (h : entry.Legible) : ∀ c ∈ entry.line, isLineBoundary c = false := by
  intro c hc
  rcases List.mem_append.mp hc with hc | hc
  · rw [(List.mem_replicate.mp hc).2]
    decide
  · rcases List.mem_append.mp hc with hc | hc
    · exact not_isLineBoundary_of_isKeyChar (h.key c hc)
    · rcases List.mem_cons.mp hc with rfl | hc
      · decide
      · exact h.plain c hc

/-- The line opens and closes no fence. -/
theorem closesYaml_line (entry : Entry) : closesYaml entry.line = false := by
  unfold line closesYaml isFence
  cases entry.isNested <;> rfl

end Entry

/-- Legible lines are read one entry at a time. -/
theorem readLines_cons {entry : Entry} (h : entry.Legible) (rest : List (List Char))
    (draft : PolicyDraft) :
    readLines P N D featureId 0 (entry.line :: rest) draft =
      (readEntry P N D featureId entry.isNested entry.key
        (Platform.trim isTabOrSpace entry.tail) draft).bind
          (readLines P N D featureId 0 rest) := by
  have htake : entry.line.take (if entry.isNested then 4 else 2) =
      List.replicate (if entry.isNested then 4 else 2) ' ' := by
    rw [Entry.line, List.take_left' List.length_replicate]
  have hindent : (if entry.isNested then 4 else 2) = 0 + 2 ∨
      (if entry.isNested then 4 else 2) = 0 + 4 := by
    cases entry.isNested <;> decide
  have hnested : decide ((if entry.isNested then 4 else 2) ≠ 0 + 2) = entry.isNested := by
    cases entry.isNested <;> decide
  have htab : '\t' ∉ List.replicate (if entry.isNested then 4 else 2) ' ' := by
    intro hmem
    have hspace := (List.mem_replicate.mp hmem).2
    revert hspace
    decide
  have hdeep : ¬(if entry.isNested then 4 else 2) ≤ 0 := by
    cases entry.isNested <;> decide
  rw [readLines, Entry.not_blank h, if_neg Bool.false_ne_true, Entry.takeWhile_line h,
    List.length_replicate, if_neg hdeep, htake, Entry.keyValue?_line h,
    require_of ⟨htab, hindent⟩, hnested]
  rfl

/-- The entries of a block, one after the other. -/
def readEntries (P : Platform) (N : Numerals) (D : JsonText.Decoding) (featureId : String) :
    List Entry → PolicyDraft → Result PolicyDraft
  | [], draft => .ok draft
  | entry :: entries, draft => do
      let draft ← readEntry P N D featureId entry.isNested entry.key
        (Platform.trim isTabOrSpace entry.tail) draft
      readEntries P N D featureId entries draft

theorem readLines_entries {entries : List Entry} (h : ∀ entry ∈ entries, entry.Legible)
    (draft : PolicyDraft) :
    readLines P N D featureId 0 (entries.map Entry.line) draft =
      readEntries P N D featureId entries draft := by
  induction entries generalizing draft with
  | nil => rfl
  | cons entry entries ih =>
      rw [List.forall_mem_cons] at h
      rw [List.map_cons, readLines_cons h.1, readEntries]
      exact congrArg _ (funext fun draft => ih h.2 draft)

theorem blocksIn_entries {entries : List Entry} (h : ∀ entry ∈ entries, entry.Legible) :
    blocksIn (entries.map Entry.line) = [] := by
  induction entries with
  | nil => rfl
  | cons entry entries ih =>
      rw [List.forall_mem_cons] at h
      rw [List.map_cons, blocksIn, Entry.headerIndent?_line h.1]
      exact ih h.2

/-- The text of a section with these entries. -/
def sectionText (entries : List Entry) : String :=
  joinLines (["## Execution policy", "", "```yaml", "execution_policy:"] ++
    entries.map (fun entry => String.ofList entry.line) ++ ["```", ""])

theorem fencesFrom_entries (entries : List Entry) (body : List Char) :
    fencesFrom (some body) (entries.map Entry.line ++ ["```".toList, []]) =
      [body ++ (entries.map Entry.line).flatMap fun line => line ++ ['\n']] := by
  induction entries generalizing body with
  | nil =>
      rw [List.map_nil, List.flatMap_nil, List.append_nil]
      rfl
  | cons entry entries ih =>
      rw [List.map_cons, List.cons_append, fencesFrom, Entry.closesYaml_line,
        if_neg Bool.false_ne_true, ih, List.flatMap_cons, List.append_assoc, List.append_assoc,
        List.append_assoc]

theorem yamlFences_sectionText {entries : List Entry} (h : ∀ entry ∈ entries, entry.Legible) :
    yamlFences (sectionText entries) =
      [("execution_policy:".toList :: entries.map Entry.line).flatMap fun line =>
        line ++ ['\n']] := by
  have hlines : ∀ line ∈ entries.map Entry.line, '\n' ∉ line := by
    intro line hline hmem
    obtain ⟨entry, hentry, rfl⟩ := List.mem_map.mp hline
    have hplain := Entry.line_plain (h entry hentry) '\n' hmem
    revert hplain
    decide
  have htext : (sectionText entries).toList = ['\n'].intercalate
      ("## Execution policy".toList :: [] :: "```yaml".toList :: "execution_policy:".toList ::
        (entries.map Entry.line ++ ["```".toList, []])) := by
    unfold sectionText joinLines
    rw [String.toList_ofList, List.map_append, List.map_append, List.map_map]
    simp only [List.map_cons, List.map_nil, List.cons_append, List.nil_append, Function.comp_def,
      String.toList_ofList]
    rfl
  have hfree : ∀ line ∈ "## Execution policy".toList :: [] :: "```yaml".toList ::
      "execution_policy:".toList :: (entries.map Entry.line ++ ["```".toList, []]),
      '\n' ∉ line := by
    simp only [List.forall_mem_cons, List.forall_mem_append]
    refine ⟨by decide, by decide, by decide, by decide, hlines, by decide, by decide, ?_⟩
    exact fun _ hline => nomatch hline
  have hbody := fencesFrom_entries entries ("execution_policy:".toList ++ ['\n'])
  rw [yamlFences, htext, List.splitOn_intercalate _ hfree (List.cons_ne_nil _ _),
    List.flatMap_cons]
  exact hbody

/-- A section whose entries make an accepted policy is read back as that policy. -/
theorem markdownExecutionPolicy_sectionText {entries : List Entry} {draft : PolicyDraft}
    (h : ∀ entry ∈ entries, entry.Legible)
    (hdraft : readEntries P N D featureId entries .empty = .ok draft)
    (haccepted : Accepts P (.obj draft.toDict) policy) (required : Bool) :
    markdownExecutionPolicy P N D featureId (sectionText entries) required =
      .ok (some draft.toDict) := by
  have hplain : ∀ line ∈ "execution_policy:".toList :: entries.map Entry.line,
      ∀ c ∈ line, isLineBoundary c = false := by
    rw [List.forall_mem_cons]
    refine ⟨not_isLineBoundary_of_all (by decide), fun line hline => ?_⟩
    obtain ⟨entry, hentry, rfl⟩ := List.mem_map.mp hline
    exact Entry.line_plain (h entry hentry)
  have hheader : headerIndent? "execution_policy:".toList = some 0 := by decide
  have hblocks : (yamlFences (sectionText entries)).flatMap (fun body =>
      blocksIn (splitlines body)) = [(entries.map Entry.line, 0)] := by
    rw [yamlFences_sectionText h, List.flatMap_singleton, splitlines_joined hplain, blocksIn,
      hheader, blocksIn_entries h]
  unfold markdownExecutionPolicy
  rw [hblocks]
  dsimp only
  rw [readLines_entries h, hdraft, ok_bind,
    validateFeatureExecutionPolicy_eq_ok.mpr haccepted]
  rfl

/-! ### The entries of a policy -/

def escalationEntries (policy : FeatureExecutionPolicy) : List Entry :=
  match policy.escalationTrigger, policy.escalationProfile with
  | some trigger, some profile =>
      [.opening "escalation", .item true "trigger" trigger, .item true "profile" profile]
  | _, _ => []

def delegationEntries (child : ChildDelegation) : List Entry :=
  [.opening "child_delegation", .item true "role" child.role, .item true "profile" child.profile,
   .item true "cost_saving_justification" child.costSavingJustification,
   .item true "task_boundary" child.taskBoundary,
   .item true "expected_input_context_bytes" (toString child.expectedInputContextBytes),
   .item true "parent_context_bytes" (toString child.parentContextBytes),
   .item true "expected_output_contract" child.expectedOutputContract,
   .item true "read_only" (if child.readOnly then "true" else "false"),
   .item true "owned_paths" (Platform.dumpsAscii (textItems child.ownedPaths)),
   .item true "parent_owned_paths" (Platform.dumpsAscii (textItems child.parentOwnedPaths))]

def markdownEntries (policy : FeatureExecutionPolicy) : List Entry :=
  [.item false "profile" policy.profile,
   .item false "parent_sessions" (toString policy.parentSessions),
   .item false "child_sessions" (toString policy.childSessions)] ++ escalationEntries policy ++
    policy.childDelegation.elim [] delegationEntries

theorem ofList_opening (key : String) :
    String.ofList (Entry.opening key).line = "  " ++ key ++ ":" := by
  apply String.toList_injective
  rw [String.toList_ofList, String.toList_append, String.toList_append, List.append_assoc]
  rfl

theorem ofList_item (isNested : Bool) (key text : String) :
    String.ofList (Entry.item isNested key text).line =
      (if isNested then "    " else "  ") ++ key ++ ": " ++ text := by
  apply String.toList_injective
  rw [String.toList_ofList, String.toList_append, String.toList_append, String.toList_append,
    List.append_assoc, List.append_assoc]
  cases isNested <;> rfl

theorem delegationLines_eq {child : ChildDelegation}
    (hinput : Convertible child.expectedInputContextBytes)
    (hparent : Convertible child.parentContextBytes) :
    delegationLines child =
      .ok ((delegationEntries child).map fun entry => String.ofList entry.line) := by
  unfold delegationLines
  rw [intText_eq_ok.mpr ⟨hinput, rfl⟩, intText_eq_ok.mpr ⟨hparent, rfl⟩]
  simp only [delegationEntries, List.map_cons, List.map_nil, ofList_opening, ofList_item]
  rfl

theorem policyLines_eq (h : policy.Writable) (hchild : Convertible policy.childSessions) :
    policyLines policy =
      .ok ("execution_policy:" :: (markdownEntries policy).map fun entry =>
        String.ofList entry.line) := by
  have hescalation : escalationLines policy =
      (escalationEntries policy).map fun entry => String.ofList entry.line := by
    unfold escalationLines escalationEntries
    cases policy.escalationTrigger with
    | none => rfl
    | some trigger =>
        cases policy.escalationProfile with
        | none => rfl
        | some profile =>
            simp only [List.map_cons, List.map_nil, ofList_opening, ofList_item]
            rfl
  unfold policyLines markdownEntries
  rw [intText_eq_ok.mpr ⟨h.parentSessions, rfl⟩, intText_eq_ok.mpr ⟨hchild, rfl⟩, hescalation]
  cases hdelegation : policy.childDelegation with
  | none =>
      simp only [List.map_append, List.map_cons, List.map_nil, ofList_item]
      rfl
  | some child =>
      have hlines := delegationLines_eq (h.expectedInputContextBytes child hdelegation)
        (h.parentContextBytes child hdelegation)
      rw [optionalLines, hlines]
      simp only [List.map_append, List.map_cons, List.map_nil, ofList_item]
      rfl

theorem legible_opening {key : String} (h : Entry.KeyLegible key) :
    (Entry.opening key).Legible :=
  ⟨h, fun _ hc => nomatch hc⟩

theorem legible_item {isNested : Bool} {key text : String} (h : Entry.KeyLegible key)
    (htext : PlainText text) : (Entry.item isNested key text).Legible := by
  refine ⟨h, fun c hc => ?_⟩
  rcases List.mem_cons.mp hc with rfl | hc
  · decide
  · exact htext c hc

theorem keyLegible_of_mem {key : String}
    (h : key ∈ "trigger" :: (POLICY_KEYS ++ CHILD_KEYS)) : Entry.KeyLegible key := by
  have hall : ∀ key ∈ "trigger" :: (POLICY_KEYS ++ CHILD_KEYS),
      key.toList ≠ [] ∧ key.toList.all isKeyChar = true ∧ key ≠ "execution_policy" := by decide
  obtain ⟨hfilled, hchars, hheader⟩ := hall key h
  exact ⟨hfilled, hchars, hheader⟩

theorem trim_eq_self_iff {drops : Char → Bool} {chars : List Char} :
    Platform.trim drops chars = chars ↔ (∀ _ : 0 < chars.length, ¬drops chars[0] = true) ∧
      ∀ h : chars ≠ [], ¬drops (chars.getLast h) = true := by
  have hshape : Platform.trim drops chars = (chars.dropWhile drops).rdropWhile drops := rfl
  rw [← List.dropWhile_eq_self_iff, ← List.rdropWhile_eq_self_iff, hshape]
  constructor
  · intro h
    have hsuffix := List.dropWhile_suffix (l := chars) drops
    have hlength : chars.length ≤ (chars.dropWhile drops).length := by
      have hle := (List.rdropWhile_prefix drops (chars.dropWhile drops)).length_le
      rw [h] at hle
      exact hle
    have hfront := hsuffix.eq_of_length_le hlength
    rw [hfront] at h
    exact ⟨hfront, h⟩
  · rintro ⟨hfront, hback⟩
    rw [hfront, hback]

/-- What is trimmed of more has nothing less to drop. -/
theorem trim_eq_self_mono {drops fewer : Char → Bool} {chars : List Char}
    (h : Platform.trim drops chars = chars) (himp : ∀ c, fewer c = true → drops c = true) :
    Platform.trim fewer chars = chars := by
  rw [trim_eq_self_iff] at h ⊢
  exact ⟨fun hlength hdrop => h.1 hlength (himp _ hdrop), fun hne hdrop => h.2 hne (himp _ hdrop)⟩

theorem isSpace_of_isTabOrSpace {c : Char} (h : isTabOrSpace c = true) :
    Platform.isSpace c = true := by
  simp only [isTabOrSpace, Bool.or_eq_true, decide_eq_true_eq] at h
  rcases h with rfl | rfl <;> decide

theorem trim_space {chars : List Char} (h : Platform.trim isTabOrSpace chars = chars) :
    Platform.trim isTabOrSpace (' ' :: chars) = chars := by
  have hdrop : Platform.trim isTabOrSpace (' ' :: chars) = Platform.trim isTabOrSpace chars := by
    unfold Platform.trim
    rw [List.dropWhile_cons_of_pos (by decide)]
  rw [hdrop, h]

theorem trim_of_stripped {text : String} (h : Platform.strip text = text) :
    Platform.trim isTabOrSpace (' ' :: text.toList) = text.toList := by
  have htrim : Platform.trim Platform.isSpace text.toList = text.toList := by
    have hchars := congrArg String.toList h
    rw [Platform.strip, String.toList_ofList] at hchars
    exact hchars
  exact trim_space (trim_eq_self_mono htrim fun _ => isSpace_of_isTabOrSpace)

theorem trim_of_kept {chars : List Char} (h : ∀ c ∈ chars, isTabOrSpace c = false) :
    Platform.trim isTabOrSpace (' ' :: chars) = chars := by
  refine trim_space (trim_eq_self_iff.mpr ⟨fun hlength => ?_, fun hne => ?_⟩)
  · rw [h _ (List.getElem_mem hlength)]
    exact Bool.false_ne_true
  · rw [h _ (List.getLast_mem hne)]
    exact Bool.false_ne_true

theorem trim_dumpsAscii (paths : List String) :
    Platform.trim isTabOrSpace (' ' :: (Platform.dumpsAscii (textItems paths)).toList) =
      (Platform.dumpsAscii (textItems paths)).toList := by
  have hends : ∀ items : List Json, ∃ front, Json.dumpsItems items = front ++ [']'] := by
    intro items
    induction items with
    | nil => exact ⟨[], rfl⟩
    | cons item items ih =>
        cases items with
        | nil => exact ⟨_, rfl⟩
        | cons next items =>
            obtain ⟨front, hfront⟩ := ih
            refine ⟨item.dumpsChars ++ ',' :: front, ?_⟩
            rw [Json.dumpsItems, hfront, List.append_assoc, List.cons_append]
            exact List.cons_ne_nil _ _
  obtain ⟨front, hfront⟩ := hends (paths.map .str)
  have hchars : (Platform.dumpsAscii (textItems paths)).toList =
      '[' :: (front.flatMap Platform.asciiChar ++ [']']) := by
    rw [Platform.dumpsAscii, String.toList_ofList, textItems, Json.dumpsChars, hfront,
      List.flatMap_cons, List.flatMap_append]
    rfl
  rw [hchars]
  refine trim_space (trim_eq_self_iff.mpr ⟨fun _ => ?_, fun hne => ?_⟩)
  · exact (by decide : ¬isTabOrSpace '[' = true)
  · rw [List.getLast_cons (by simp), List.getLast_append_singleton]
    decide

/-! ### What the entries are read as -/

theorem toList_toString {n : Int} (h : 0 ≤ n) : (toString n).toList = Nat.toDigits 10 n.natAbs := by
  obtain ⟨m, rfl⟩ := Int.eq_ofNat_of_zero_le h
  exact Nat.toList_repr

theorem printable_toDigits {n : Nat} {c : Char} (h : c ∈ Nat.toDigits 10 n) :
    48 ≤ c.toNat ∧ c.toNat ≤ 57 := by
  have hdigit := Nat.isDigit_of_mem_toDigits (by decide) (by decide) h
  rw [Char.isDigit, Bool.and_eq_true, decide_eq_true_eq, decide_eq_true_eq] at hdigit
  exact hdigit

theorem mapM_value {chars : List Char} (h : ∀ c ∈ chars, JsonText.isDigit c = true) :
    chars.mapM N.value = some (chars.map fun c => c.toNat - 48) := by
  induction chars with
  | nil => rfl
  | cons c chars ih =>
      rw [List.forall_mem_cons] at h
      rw [List.mapM_cons, N.value_ascii c h.1, ih h.2]
      rfl

/-- Decimal digits are a numeral, of their own value. -/
theorem coerced_toString {n : Int} (h : 0 ≤ n) (hn : Convertible n) :
    coerced P N (toString n).toList = .ok (.int n) := by
  have hdigit : ∀ c ∈ Nat.toDigits 10 n.natAbs, JsonText.isDigit c = true := by
    intro c hc
    obtain ⟨hlow, hhigh⟩ := printable_toDigits hc
    rw [JsonText.isDigit, Bool.and_eq_true, decide_eq_true_eq, decide_eq_true_eq]
    exact ⟨hlow, hhigh⟩
  have hnumeral : isNumeral N (Nat.toDigits 10 n.natAbs) := by
    refine ⟨Nat.toDigits_ne_nil, fun c hc => ?_⟩
    have hascii : isAscii c = true := by
      have hhigh : c.val.toNat ≤ 57 := (printable_toDigits hc).2
      rw [isAscii, decide_eq_true_eq, UInt32.lt_iff_toNat_lt]
      have hbound : (128 : UInt32).toNat = 128 := rfl
      omega
    rw [N.isDigit_ascii c hascii]
    exact hdigit c hc
  have hvalue := JsonText.natOf_toDigits n.natAbs
  rw [JsonText.natOf, ← List.foldl_map] at hvalue
  have hlength : ((Nat.toDigits 10 n.natAbs).map fun c => c.toNat - 48).length ≤
      JsonText.maxDigits := by
    rw [List.length_map]
    exact hn
  rw [toList_toString h, coerced, if_pos hnumeral, intOf, mapM_value hdigit]
  dsimp only
  rw [require_of hlength, hvalue, ok_bind, Int.natAbs_of_nonneg h]
  rfl

theorem trim_toString {n : Int} (h : 0 ≤ n) :
    Platform.trim isTabOrSpace (' ' :: (toString n).toList) = (toString n).toList := by
  refine trim_of_kept fun c hc => ?_
  rw [toList_toString h] at hc
  obtain ⟨hlow, hhigh⟩ := printable_toDigits hc
  rw [Bool.eq_false_iff]
  intro hspace
  simp only [isTabOrSpace, Bool.or_eq_true, decide_eq_true_eq] at hspace
  rcases hspace with rfl | rfl
  · exact absurd hlow (by decide)
  · exact absurd hlow (by decide)

theorem readEntries_append {first second : List Entry} {draft : PolicyDraft} :
    readEntries P N D featureId (first ++ second) draft =
      (readEntries P N D featureId first draft >>= readEntries P N D featureId second) := by
  induction first generalizing draft with
  | nil => rfl
  | cons entry first ih =>
      rw [List.cons_append, readEntries, readEntries]
      cases readEntry P N D featureId entry.isNested entry.key
        (Platform.trim isTabOrSpace entry.tail) draft with
      | error failure => rfl
      | ok read => exact ih

/-- What stands at the top of a policy. -/
def topFields (policy : FeatureExecutionPolicy) : Fields := Fields.ofPairs
  [("profile", .str policy.profile), ("parent_sessions", .int policy.parentSessions),
   ("child_sessions", .int policy.childSessions)]

theorem readEntries_topLevel {key text : String} {found : Json} {draft : PolicyDraft}
    (hkey : key ∈ ["profile", "parent_sessions", "child_sessions"])
    (htext : Platform.trim isTabOrSpace (' ' :: text.toList) = text.toList)
    (hvalue : topLevelValue P N key text.toList = .ok found)
    (hnew : key ∉ draft.policy.keys) (rest : List Entry) :
    readEntries P N D featureId (.item false key text :: rest) draft =
      readEntries P N D featureId rest
        { draft with policy := draft.policy.set key found, nested := none } := by
  have hescalation : ¬(key = "escalation" ∧ text.toList = []) := by
    rintro ⟨rfl, -⟩
    revert hkey
    decide
  have hdelegation : ¬(key = "child_delegation" ∧ text.toList = []) := by
    rintro ⟨rfl, -⟩
    revert hkey
    decide
  have hread : readTopLevel P N featureId key text.toList draft =
      .ok { draft with policy := draft.policy.set key found, nested := none } := by
    unfold readTopLevel
    rw [if_neg hescalation, if_neg hdelegation, if_pos hkey, require_of hnew, hvalue]
    rfl
  rw [readEntries, Entry.item, htext, readEntry, if_neg Bool.false_ne_true, hread]
  rfl

theorem readEntries_nested {key text : String} {found : Json} {draft : PolicyDraft}
    {child : Fields} (hnested : draft.nested = some .childDelegation)
    (hchild : draft.childDelegation = some child) (hkey : key ∈ CHILD_KEYS)
    (htext : Platform.trim isTabOrSpace (' ' :: text.toList) = text.toList)
    (hvalue : childValue P N D key text.toList = .ok found)
    (hnew : key ∉ child.keys) (rest : List Entry) :
    readEntries P N D featureId (.item true key text :: rest) draft =
      readEntries P N D featureId rest
        { draft with childDelegation := some (child.set key found) } := by
  have hread : readNested P N D featureId key text.toList draft =
      .ok { draft with childDelegation := some (child.set key found) } := by
    obtain ⟨policy, escalation, delegation, nested⟩ := draft
    cases hnested
    cases hchild
    unfold readNested
    dsimp only
    rw [readChild, require_of ⟨hkey, hnew⟩, hvalue]
    rfl
  rw [readEntries, Entry.item, htext, readEntry, if_pos rfl, hread]
  rfl

theorem readEntries_top (hprofile : Platform.strip policy.profile = policy.profile)
    (hparent : 0 ≤ policy.parentSessions) (hparent' : Convertible policy.parentSessions)
    (hchild : 0 ≤ policy.childSessions) (hchild' : Convertible policy.childSessions) :
    readEntries P N D featureId [.item false "profile" policy.profile,
      .item false "parent_sessions" (toString policy.parentSessions),
      .item false "child_sessions" (toString policy.childSessions)] .empty =
        .ok ⟨topFields policy, none, none, none⟩ := by
  have hname : topLevelValue P N "profile" policy.profile.toList = .ok (.str policy.profile) := by
    rw [topLevelValue, if_pos rfl, String.ofList_toList]
  have hp : topLevelValue P N "parent_sessions" (toString policy.parentSessions).toList =
      .ok (.int policy.parentSessions) := by
    rw [topLevelValue, if_neg (by decide), coerced_toString hparent hparent']
  have hc : topLevelValue P N "child_sessions" (toString policy.childSessions).toList =
      .ok (.int policy.childSessions) := by
    rw [topLevelValue, if_neg (by decide), coerced_toString hchild hchild']
  rw [readEntries_topLevel (by decide) (trim_of_stripped hprofile) hname (by decide),
    readEntries_topLevel (by decide) (trim_toString hparent) hp,
    readEntries_topLevel (by decide) (trim_toString hchild) hc]
  · simp only [topFields, Fields.ofPairs, Fields.update, List.foldl_cons, List.foldl_nil]
    rfl
  · simp only [Fields.mem_keys_set]
    decide
  · simp only [Fields.mem_keys_set]
    decide

theorem readEntries_escalating {key text : String} {draft : PolicyDraft} {escalation : Fields}
    (hnested : draft.nested = some .escalation) (hescalation : draft.escalation = some escalation)
    (hkey : key ∈ ["trigger", "profile"])
    (htext : Platform.trim isTabOrSpace (' ' :: text.toList) = text.toList)
    (hnew : key ∉ escalation.keys) (rest : List Entry) :
    readEntries P N D featureId (.item true key text :: rest) draft =
      readEntries P N D featureId rest
        { draft with escalation := some (escalation.set key (.str text)) } := by
  have hread : readNested P N D featureId key text.toList draft =
      .ok { draft with escalation := some (escalation.set key (.str text)) } := by
    obtain ⟨policy, found, delegation, nested⟩ := draft
    cases hnested
    cases hescalation
    unfold readNested
    dsimp only
    rw [readEscalation, require_of hkey, require_of hnew, String.ofList_toList]
    rfl
  rw [readEntries, Entry.item, htext, readEntry, if_pos rfl, hread]
  rfl

/-- The escalation of a policy, as it is read into a draft. -/
def escalationRead (policy : FeatureExecutionPolicy) : Option Fields :=
  match policy.escalationTrigger, policy.escalationProfile with
  | some trigger, some profile => some (escalationFields trigger profile)
  | _, _ => none

theorem readEntries_escalation {fields : Fields}
    (htrigger : ∀ trigger ∈ policy.escalationTrigger, Platform.strip trigger = trigger)
    (hprofile : ∀ profile ∈ policy.escalationProfile, Platform.strip profile = profile) :
    ∃ nested, readEntries P N D featureId (escalationEntries policy) ⟨fields, none, none, none⟩ =
      .ok ⟨fields, escalationRead policy, none, nested⟩ := by
  unfold escalationEntries escalationRead
  split
  · rename_i trigger profile htrigger' hprofile'
    refine ⟨some .escalation, ?_⟩
    have hopen : ∀ rest, readEntries P N D featureId (.opening "escalation" :: rest)
        ⟨fields, none, none, none⟩ =
          readEntries P N D featureId rest ⟨fields, some [], none, some .escalation⟩ :=
      fun _ => rfl
    rw [hopen, readEntries_escalating rfl rfl (by decide)
      (trim_of_stripped (htrigger trigger htrigger')) (by decide),
      readEntries_escalating rfl rfl (by decide)
        (trim_of_stripped (hprofile profile hprofile'))]
    · simp only [escalationFields, Fields.ofPairs, Fields.update, List.foldl_cons, List.foldl_nil]
      rfl
    · rw [Fields.mem_keys_set]
      decide
  · exact ⟨none, rfl⟩

/-- The texts of a delegation that is read are stripped. -/
theorem ChildDelegation.ReadFrom.stripped {child : ChildDelegation} {fields : Fields}
    (h : child.ReadFrom fields) : ∀ text ∈ child.texts, Platform.strip text = text := by
  intro text htext
  simp only [ChildDelegation.texts, List.mem_cons, List.not_mem_nil, or_false] at htext
  rcases htext with rfl | rfl | rfl | rfl
  · exact h.role.strip_eq
  · exact h.costSavingJustification.strip_eq
  · exact h.taskBoundary.strip_eq
  · exact h.expectedOutputContract.strip_eq

theorem strip_of_mem_profiles {name : String} (h : name ∈ PROFILE_NAMES) :
    Platform.strip name = name := by
  revert name
  decide

/-- An item of a delegation, with the value it is read as. -/
structure ReadAs (P : Platform) (N : Numerals) (D : JsonText.Decoding) (key text : String)
    (found : Json) : Prop where
  known : key ∈ CHILD_KEYS
  trimmed : Platform.trim isTabOrSpace (' ' :: text.toList) = text.toList
  value : childValue P N D key text.toList = .ok found

theorem readEntries_items {items : List (String × String × Json)} {fields child : Fields}
    {escalation : Option Fields}
    (h : ∀ item ∈ items, ReadAs P N D item.1 item.2.1 item.2.2)
    (hnodup : (items.map Prod.fst).Nodup) (hnew : ∀ key ∈ items.map Prod.fst, key ∉ child.keys) :
    readEntries P N D featureId (items.map fun item => .item true item.1 item.2.1)
      ⟨fields, escalation, some child, some .childDelegation⟩ =
        .ok ⟨fields, escalation, some (child.update (items.map fun item => (item.1, item.2.2))),
          some .childDelegation⟩ := by
  induction items generalizing child with
  | nil => rfl
  | cons item items ih =>
      rw [List.forall_mem_cons] at h
      rw [List.map_cons, List.nodup_cons] at hnodup
      rw [List.map_cons, List.forall_mem_cons] at hnew
      have hrest : ∀ key ∈ items.map Prod.fst, key ∉ (child.set item.1 item.2.2).keys := by
        intro key hkey hmem
        rcases Fields.mem_keys_set.mp hmem with rfl | hmem
        · exact hnodup.1 hkey
        · exact hnew.2 key hkey hmem
      rw [List.map_cons, readEntries_nested rfl rfl h.1.known h.1.trimmed h.1.value hnew.1,
        ih h.2 hnodup.2 hrest]
      rfl

section Items

variable {child : ChildDelegation} {source : Fields} {key : String}

theorem ChildDelegation.ReadFrom.readAs (h : child.ReadFrom source) {text : String}
    (htext : text ∈ child.texts) (hkey : key ∈ ["role", "cost_saving_justification",
      "task_boundary", "expected_output_contract"]) : ReadAs P N D key text (.str text) := by
  have hkeys : key ∈ CHILD_KEYS ∧
      key ∉ ["expected_input_context_bytes", "parent_context_bytes"] ∧
        key ≠ "read_only" ∧ key ∉ ["owned_paths", "parent_owned_paths"] := by
    revert key
    decide
  refine ⟨hkeys.1, trim_of_stripped (h.stripped text htext), ?_⟩
  rw [childValue, if_neg hkeys.2.1, if_neg hkeys.2.2.1, if_neg hkeys.2.2.2, String.ofList_toList]

theorem readAs_profile {name : String} (h : name ∈ PROFILE_NAMES) :
    ReadAs P N D "profile" name (.str name) := by
  refine ⟨by decide, trim_of_stripped (strip_of_mem_profiles h), ?_⟩
  rw [childValue, if_neg (by decide), if_neg (by decide), if_neg (by decide), String.ofList_toList]

theorem readAs_bytes (hkey : key ∈ ["expected_input_context_bytes", "parent_context_bytes"])
    {n : Int} (h : 1 ≤ n) (hn : Convertible n) : ReadAs P N D key (toString n) (.int n) := by
  have hpositive : 0 ≤ n := le_trans (by decide) h
  have hkeys : key ∈ CHILD_KEYS := by
    revert key
    decide
  refine ⟨hkeys, trim_toString hpositive, ?_⟩
  rw [childValue, if_pos hkey, coerced_toString hpositive hn]

theorem readAs_flag (flag : Bool) :
    ReadAs P N D "read_only" (if flag then "true" else "false") (.bool flag) := by
  cases flag
  · exact ⟨by decide, by decide, rfl⟩
  · exact ⟨by decide, by decide, rfl⟩

theorem readAs_paths (hkey : key ∈ ["owned_paths", "parent_owned_paths"]) (paths : List String) :
    ReadAs P N D key (Platform.dumpsAscii (textItems paths)) (textItems paths) := by
  have hkeys : key ∈ CHILD_KEYS ∧
      key ∉ ["expected_input_context_bytes", "parent_context_bytes"] ∧ key ≠ "read_only" := by
    revert key
    decide
  refine ⟨hkeys.1, trim_dumpsAscii paths, ?_⟩
  rw [childValue, if_neg hkeys.2.1, if_neg hkeys.2.2, if_pos hkey, pathsValue, textItems,
    Json.loads_dumpsAscii_texts]

/-- The items of a delegation, with what each is read as. -/
def childItems (child : ChildDelegation) : List (String × String × Json) :=
  [("role", child.role, .str child.role), ("profile", child.profile, .str child.profile),
   ("cost_saving_justification", child.costSavingJustification,
    .str child.costSavingJustification),
   ("task_boundary", child.taskBoundary, .str child.taskBoundary),
   ("expected_input_context_bytes", toString child.expectedInputContextBytes,
    .int child.expectedInputContextBytes),
   ("parent_context_bytes", toString child.parentContextBytes, .int child.parentContextBytes),
   ("expected_output_contract", child.expectedOutputContract, .str child.expectedOutputContract),
   ("read_only", if child.readOnly then "true" else "false", .bool child.readOnly),
   ("owned_paths", Platform.dumpsAscii (textItems child.ownedPaths), textItems child.ownedPaths),
   ("parent_owned_paths", Platform.dumpsAscii (textItems child.parentOwnedPaths),
    textItems child.parentOwnedPaths)]

theorem readAs_childItems (hread : child.ReadFrom source) (hvalid : child.Valid P)
    (hinput : Convertible child.expectedInputContextBytes)
    (hparent : Convertible child.parentContextBytes) :
    ∀ item ∈ childItems child, ReadAs P N D item.1 item.2.1 item.2.2 := by
  simp only [childItems, List.forall_mem_cons]
  exact ⟨hread.readAs (by simp [ChildDelegation.texts]) (by decide), readAs_profile hvalid.profile,
    hread.readAs (by simp [ChildDelegation.texts]) (by decide),
    hread.readAs (by simp [ChildDelegation.texts]) (by decide),
    readAs_bytes (by decide) hvalid.expectedInputContextBytes hinput,
    readAs_bytes (by decide) hvalid.parentContextBytes hparent,
    hread.readAs (by simp [ChildDelegation.texts]) (by decide),
    readAs_flag _, readAs_paths (by decide) _, readAs_paths (by decide) _,
    fun _ hmem => nomatch hmem⟩

theorem readEntries_delegation {fields : Fields} {escalation : Option Fields}
    {nested : Option Nested} (hread : child.ReadFrom source) (hvalid : child.Valid P)
    (hinput : Convertible child.expectedInputContextBytes)
    (hparent : Convertible child.parentContextBytes) :
    readEntries P N D featureId (delegationEntries child) ⟨fields, escalation, none, nested⟩ =
      .ok ⟨fields, escalation, some child.fields, some .childDelegation⟩ := by
  have hopen : ∀ rest, readEntries P N D featureId (.opening "child_delegation" :: rest)
      ⟨fields, escalation, none, nested⟩ =
        readEntries P N D featureId rest
          ⟨fields, escalation, some [], some .childDelegation⟩ := fun _ => rfl
  have hnodup : ((childItems child).map Prod.fst).Nodup := (by decide : CHILD_KEYS.Nodup)
  have hitems : readEntries P N D featureId
      ((childItems child).map fun item => .item true item.1 item.2.1)
        ⟨fields, escalation, some [], some .childDelegation⟩ = _ :=
    readEntries_items (readAs_childItems hread hvalid hinput hparent) hnodup
      fun _ _ hmem => nomatch hmem
  rw [delegationEntries, hopen]
  exact hitems

end Items

theorem FeatureExecutionPolicy.Valid.convertible_childSessions (h : policy.Valid P) :
    Convertible policy.childSessions := by
  obtain ⟨hlow, hhigh⟩ := h.childSessions
  have hcases : policy.childSessions = 0 ∨ policy.childSessions = 1 := by omega
  rcases hcases with hzero | hone
  · rw [hzero]
    decide
  · rw [hone]
    decide

/-- An accepted policy is read back from its entries. -/
theorem readEntries_policy (haccepted : Accepts P value policy) (h : policy.Writable) :
    ∃ nested, readEntries P N D featureId (markdownEntries policy) .empty =
      .ok ⟨topFields policy, escalationRead policy, policy.childDelegation.map (·.fields),
        nested⟩ := by
  obtain ⟨fields, -, hread, hvalid⟩ := haccepted
  have htrigger : ∀ trigger ∈ policy.escalationTrigger, Platform.strip trigger = trigger := by
    intro trigger htrigger
    obtain ⟨found, -, htext⟩ := hread.trigger htrigger
    exact htext.strip_eq
  have hprofile : ∀ profile ∈ policy.escalationProfile, Platform.strip profile = profile :=
    fun profile hprofile => strip_of_mem_profiles (hvalid.escalated profile hprofile).1
  obtain ⟨nested, hescalation⟩ : ∃ nested, readEntries P N D featureId (escalationEntries policy)
      ⟨topFields policy, none, none, none⟩ = _ := readEntries_escalation htrigger hprofile
  rw [markdownEntries, readEntries_append, readEntries_append,
    readEntries_top (strip_of_mem_profiles hvalid.profile)
      (le_trans (by decide) hvalid.parentSessions) h.parentSessions hvalid.childSessions.1
      hvalid.convertible_childSessions, ok_bind, hescalation, ok_bind]
  cases hdelegation : policy.childDelegation with
  | none => exact ⟨nested, rfl⟩
  | some child =>
      have hchild := hread.childDelegation
      rw [hdelegation] at hchild
      obtain ⟨found, -, hfound⟩ := hchild
      exact ⟨some .childDelegation, readEntries_delegation hfound
        (hvalid.childDelegation child hdelegation) (h.expectedInputContextBytes child hdelegation)
        (h.parentContextBytes child hdelegation)⟩

theorem toDict_read (policy : FeatureExecutionPolicy) (nested : Option Nested) :
    PolicyDraft.toDict ⟨topFields policy, escalationRead policy,
      policy.childDelegation.map (·.fields), nested⟩ = policy.toDict := by
  obtain ⟨profile, parent, child, trigger, escalated, delegation⟩ := policy
  rcases trigger with _ | trigger <;> rcases escalated with _ | escalated <;>
    rcases delegation with _ | delegation <;> rfl

/-! ### The entries are legible -/

theorem plain_of_range {text : String} (h : ∀ c ∈ text.toList, 32 ≤ c.toNat ∧ c.toNat < 127) :
    PlainText text := by
  intro c hc
  obtain ⟨hlow, hhigh⟩ := h c hc
  rw [isLineBoundary, decide_eq_false_iff_not]
  simp only [List.mem_cons, List.not_mem_nil, or_false]
  omega

theorem plain_toString {n : Int} (h : 0 ≤ n) : PlainText (toString n) := by
  refine plain_of_range fun c hc => ?_
  rw [toList_toString h] at hc
  obtain ⟨hlow, hhigh⟩ := printable_toDigits hc
  omega

theorem plain_dumpsAscii (paths : List String) :
    PlainText (Platform.dumpsAscii (textItems paths)) :=
  plain_of_range (Json.printable_dumpsAscii_texts paths)

theorem plain_of_mem_profiles {name : String} (h : name ∈ PROFILE_NAMES) : PlainText name := by
  have hall : ∀ name ∈ PROFILE_NAMES, (name.toList.all fun c => !isLineBoundary c) = true := by
    decide
  exact not_isLineBoundary_of_all (hall name h)

theorem legible_delegationEntries {child : ChildDelegation} (hvalid : child.Valid P)
    (htexts : ∀ text ∈ child.texts, PlainText text) :
    ∀ entry ∈ delegationEntries child, entry.Legible := by
  have hflag : PlainText (if child.readOnly then "true" else "false") := by
    cases child.readOnly
    · exact not_isLineBoundary_of_all (by decide)
    · exact not_isLineBoundary_of_all (by decide)
  have hbytes : ∀ {n : Int}, 1 ≤ n → PlainText (toString n) :=
    fun hn => plain_toString (le_trans (by decide) hn)
  simp only [ChildDelegation.texts, List.forall_mem_cons] at htexts
  obtain ⟨hrole, hjustification, hboundary, hcontract, -⟩ := htexts
  have hkey : ∀ {key}, key ∈ "trigger" :: (POLICY_KEYS ++ CHILD_KEYS) → Entry.KeyLegible key :=
    keyLegible_of_mem
  simp only [delegationEntries, List.forall_mem_cons]
  exact ⟨legible_opening (hkey (by decide)), legible_item (hkey (by decide)) hrole,
    legible_item (hkey (by decide)) (plain_of_mem_profiles hvalid.profile),
    legible_item (hkey (by decide)) hjustification, legible_item (hkey (by decide)) hboundary,
    legible_item (hkey (by decide)) (hbytes hvalid.expectedInputContextBytes),
    legible_item (hkey (by decide)) (hbytes hvalid.parentContextBytes),
    legible_item (hkey (by decide)) hcontract, legible_item (hkey (by decide)) hflag,
    legible_item (hkey (by decide)) (plain_dumpsAscii _),
    legible_item (hkey (by decide)) (plain_dumpsAscii _), List.forall_mem_nil _⟩

theorem legible_markdownEntries (hvalid : policy.Valid P) (h : policy.Writable) :
    ∀ entry ∈ markdownEntries policy, entry.Legible := by
  have hkey : ∀ {key}, key ∈ "trigger" :: (POLICY_KEYS ++ CHILD_KEYS) → Entry.KeyLegible key :=
    keyLegible_of_mem
  have hescalation : ∀ entry ∈ escalationEntries policy, entry.Legible := by
    unfold escalationEntries
    split
    · rename_i trigger profile htrigger hprofile
      simp only [List.forall_mem_cons]
      exact ⟨legible_opening (hkey (by decide)),
        legible_item (hkey (by decide)) (h.trigger trigger htrigger),
        legible_item (hkey (by decide))
          (plain_of_mem_profiles (hvalid.escalated profile hprofile).1),
        fun _ hmem => nomatch hmem⟩
    · exact fun _ hmem => nomatch hmem
  have hdelegation : ∀ entry ∈ policy.childDelegation.elim [] delegationEntries,
      entry.Legible := by
    cases hchild : policy.childDelegation with
    | none => exact fun _ hmem => nomatch hmem
    | some child =>
        exact legible_delegationEntries (hvalid.childDelegation child hchild)
          (h.texts child hchild)
  simp only [markdownEntries, List.forall_mem_append, List.forall_mem_cons]
  exact ⟨⟨⟨legible_item (hkey (by decide)) (plain_of_mem_profiles hvalid.profile),
    legible_item (hkey (by decide)) (plain_toString (le_trans (by decide) hvalid.parentSessions)),
    legible_item (hkey (by decide)) (plain_toString hvalid.childSessions.1),
    fun _ hmem => nomatch hmem⟩, hescalation⟩, hdelegation⟩

/-! ### The round trip -/

/-- The section written for an accepted policy that is writable. -/
theorem renderMarkdownExecutionPolicy_eq
    (h : validateFeatureExecutionPolicy P value "$.execution_policy" .queueError = .ok policy)
    (hwritable : policy.Writable) :
    renderMarkdownExecutionPolicy P value = .ok (sectionText (markdownEntries policy)) := by
  obtain ⟨_, -, -, hvalid⟩ := validateFeatureExecutionPolicy_eq_ok.mp h
  rw [renderMarkdownExecutionPolicy, h, ok_bind,
    policyLines_eq hwritable hvalid.convertible_childSessions]
  rfl

/-- Only a policy with integers that `str` converts is written. -/
theorem convertible_of_render {text : String}
    (h : validateFeatureExecutionPolicy P value "$.execution_policy" .queueError = .ok policy)
    (hrender : renderMarkdownExecutionPolicy P value = .ok text) :
    Convertible policy.parentSessions ∧ ∀ child ∈ policy.childDelegation,
      Convertible child.expectedInputContextBytes ∧ Convertible child.parentContextBytes := by
  rw [renderMarkdownExecutionPolicy, h, ok_bind] at hrender
  obtain ⟨lines, hlines, -⟩ := bind_eq_ok.mp hrender
  simp only [policyLines, bind_eq_ok, intText_eq_ok] at hlines
  obtain ⟨_, ⟨hparent, -⟩, _, -, delegation, hdelegation, -⟩ := hlines
  refine ⟨hparent, fun child hchild => ?_⟩
  rw [Option.mem_def.mp hchild] at hdelegation
  simp only [optionalLines, delegationLines, bind_eq_ok, intText_eq_ok] at hdelegation
  obtain ⟨_, ⟨hinput, -⟩, _, ⟨hbytes, -⟩, -⟩ := hdelegation
  exact ⟨hinput, hbytes⟩

/-- The value holds no text that has a line boundary once it is stripped, apart from its path
    lists, and no integer too long for `str`. -/
structure Writes (fields : Fields) : Prop where
  parentSessions : ∀ n, fields.get "parent_sessions" = .int n → Convertible n
  trigger : ∀ (escalation : Fields) item, fields.get "escalation" = .obj escalation →
    escalation.get "trigger" = .str item → PlainText (Platform.strip item)
  texts : ∀ child : Fields, fields.get "child_delegation" = .obj child →
    ∀ key ∈ ["role", "cost_saving_justification", "task_boundary", "expected_output_contract"],
      ∀ item, child.get key = .str item → PlainText (Platform.strip item)
  bytes : ∀ child : Fields, fields.get "child_delegation" = .obj child →
    ∀ key ∈ ["expected_input_context_bytes", "parent_context_bytes"],
      ∀ n, child.get key = .int n → Convertible n

theorem TextReads.plain_iff {fields : Fields} {key text : String} (h : TextReads fields key text) :
    PlainText text ↔ ∀ item, fields.get key = .str item → PlainText (Platform.strip item) := by
  obtain ⟨found, hfound, rfl⟩ := h
  constructor
  · intro hplain item hitem
    cases hfound.symm.trans hitem
    exact hplain
  · intro hplain
    exact hplain found hfound

theorem ChildDelegation.ReadFrom.texts_plain_iff {child : ChildDelegation} {fields : Fields}
    (h : child.ReadFrom fields) : (∀ text ∈ child.texts, PlainText text) ↔
      ∀ key ∈ ["role", "cost_saving_justification", "task_boundary", "expected_output_contract"],
        ∀ item, fields.get key = .str item → PlainText (Platform.strip item) := by
  simp only [ChildDelegation.texts, List.forall_mem_cons]
  rw [h.role.plain_iff, h.costSavingJustification.plain_iff, h.taskBoundary.plain_iff,
    h.expectedOutputContract.plain_iff]
  simp

theorem writes_iff {fields : Fields} (h : policy.ReadFrom fields) :
    Writes fields ↔ policy.Writable := by
  have hdelegation := h.childDelegation
  constructor
  · intro hwrites
    refine ⟨hwrites.parentSessions _ h.parentSessions, fun trigger htrigger => ?_, ?_, ?_, ?_⟩
    · obtain ⟨escalation, hescalation, item, hitem, rfl⟩ := h.trigger htrigger
      exact hwrites.trigger escalation item hescalation hitem
    all_goals
      intro child hchild
      rw [Option.mem_def.mp hchild] at hdelegation
      obtain ⟨found, hfound, hread⟩ := hdelegation
    · exact hread.texts_plain_iff.mpr (hwrites.texts found hfound)
    · exact hwrites.bytes found hfound _ (by decide) _ hread.expectedInputContextBytes
    · exact hwrites.bytes found hfound _ (by decide) _ hread.parentContextBytes
  · intro hwritable
    have hchild : ∀ child : Fields, fields.get "child_delegation" = .obj child →
        ∃ delegation, policy.childDelegation = some delegation ∧ delegation.ReadFrom child := by
      intro child hchild
      cases hpolicy : policy.childDelegation with
      | none =>
          rw [hpolicy] at hdelegation
          cases hdelegation.symm.trans hchild
      | some delegation =>
          rw [hpolicy] at hdelegation
          obtain ⟨found, hfound, hread⟩ := hdelegation
          cases hfound.symm.trans hchild
          exact ⟨delegation, rfl, hread⟩
    refine ⟨fun n hn => ?_, fun escalation item hescalation hitem => ?_,
      fun child hget => ?_, fun child hget key hkey n hn => ?_⟩
    · cases h.parentSessions.symm.trans hn
      exact hwritable.parentSessions
    · cases htrigger : policy.escalationTrigger with
      | none =>
          have hnone := h.escalation
          rw [htrigger] at hnone
          cases hprofile : policy.escalationProfile with
          | none =>
              rw [hprofile] at hnone
              cases hnone.symm.trans hescalation
          | some profile =>
              rw [hprofile] at hnone
              exact hnone.elim
      | some trigger =>
          obtain ⟨found, hfound, htext⟩ := h.trigger htrigger
          cases hfound.symm.trans hescalation
          exact htext.plain_iff.mp (hwritable.trigger trigger htrigger) item hitem
    · obtain ⟨delegation, hpolicy, hread⟩ := hchild child hget
      exact hread.texts_plain_iff.mp (hwritable.texts delegation hpolicy)
    · obtain ⟨delegation, hpolicy, hread⟩ := hchild child hget
      simp only [List.mem_cons, List.not_mem_nil, or_false] at hkey
      rcases hkey with rfl | rfl
      · cases hread.expectedInputContextBytes.symm.trans hn
        exact hwritable.expectedInputContextBytes delegation hpolicy
      · cases hread.parentContextBytes.symm.trans hn
        exact hwritable.parentContextBytes delegation hpolicy

/-- A policy is read back from the section written for it, exactly when none of its free texts has
    a line boundary and its integers are not too long to write. -/
theorem policy_round_trips_iff {fields : Fields}
    (h : validateFeatureExecutionPolicy P (.obj fields) "$.execution_policy" .queueError =
      .ok policy) (featureId : String) :
    (∃ text read, renderMarkdownExecutionPolicy P (.obj fields) = .ok text ∧
      markdownExecutionPolicy P N D featureId text true = .ok (some read) ∧
      validateFeatureExecutionPolicy P (.obj read) "$.execution_policy" .queueError =
        .ok policy) ↔ Writes fields := by
  have haccepted := validateFeatureExecutionPolicy_eq_ok.mp h
  obtain ⟨_, hfound, hread, hvalid⟩ := validateFeatureExecutionPolicy_eq_ok.mp h
  cases hfound
  rw [writes_iff hread]
  constructor
  · rintro ⟨text, read, hrender, hmarkdown, hvalidated⟩
    obtain ⟨hparent, hbytes⟩ := convertible_of_render h hrender
    obtain ⟨htrigger, htexts⟩ :=
      plain_of_read hmarkdown (validateFeatureExecutionPolicy_eq_ok.mp hvalidated)
    exact ⟨hparent, htrigger, htexts, fun child hchild => (hbytes child hchild).1,
      fun child hchild => (hbytes child hchild).2⟩
  · intro hwritable
    obtain ⟨nested, hentries⟩ : ∃ nested, readEntries P N D featureId (markdownEntries policy)
        .empty = _ := readEntries_policy haccepted hwritable
    have hdict : Accepts P (.obj (PolicyDraft.toDict ⟨topFields policy, escalationRead policy,
        policy.childDelegation.map (·.fields), nested⟩)) policy := by
      rw [toDict_read]
      exact haccepted.toDict
    exact ⟨_, _, renderMarkdownExecutionPolicy_eq h hwritable,
      markdownExecutionPolicy_sectionText (legible_markdownEntries hvalid hwritable) hentries hdict
        true, validateFeatureExecutionPolicy_eq_ok.mpr hdict⟩

end RoundTrip

/-! ### A policy that is read back, and one that is not -/

def Numerals.reference : Numerals where
  isDigit := JsonText.isDigit
  value c := if JsonText.isDigit c then some (c.toNat - 48) else none
  isDigit_ascii _ _ := rfl
  value_ascii _ h := if_pos h

def sampleDecoding : JsonText.Decoding := ⟨fun _ => '?', String.ofList⟩

theorem sample_round_trips : ∃ text read,
    renderMarkdownExecutionPolicy Platform.reference (.obj samplePolicy.toDict) = .ok text ∧
      markdownExecutionPolicy Platform.reference .reference sampleDecoding "fixtures" text true =
        .ok (some read) ∧
      validateFeatureExecutionPolicy Platform.reference (.obj read) "$.execution_policy"
        .queueError = .ok samplePolicy := by
  obtain ⟨_, hfields, hread, -⟩ := validateFeatureExecutionPolicy_eq_ok.mp sample_accepted
  cases hfields
  refine (policy_round_trips_iff sample_accepted "fixtures").mpr ((writes_iff hread).mpr ?_)
  refine ⟨by decide, ?_, ?_, ?_, ?_⟩
  · rintro _ ⟨⟩
    exact not_isLineBoundary_of_all (by decide)
  all_goals rintro _ ⟨⟩
  · intro text htext
    simp only [ChildDelegation.texts, List.mem_cons, List.not_mem_nil, or_false] at htext
    rcases htext with rfl | rfl | rfl | rfl <;> exact not_isLineBoundary_of_all (by decide)
  · decide
  · decide

/-- A trigger of two lines. -/
def brokenPolicy : FeatureExecutionPolicy :=
  { samplePolicy with escalationTrigger := some "review found drift\nin the fixtures" }

/-- It is accepted, and not read back from its own section. -/
theorem broken_not_read : ¬∃ text read,
    renderMarkdownExecutionPolicy Platform.reference (.obj brokenPolicy.toDict) = .ok text ∧
      markdownExecutionPolicy Platform.reference .reference sampleDecoding "fixtures" text true =
        .ok (some read) ∧
      validateFeatureExecutionPolicy Platform.reference (.obj read) "$.execution_policy"
        .queueError = .ok brokenPolicy := by
  rintro ⟨text, read, -, hmarkdown, hvalidated⟩
  have hplain := (plain_of_read hmarkdown
    (validateFeatureExecutionPolicy_eq_ok.mp hvalidated)).1 _ rfl '\n' (by decide)
  revert hplain
  decide

end ExecutionPolicy

end Conveyor
