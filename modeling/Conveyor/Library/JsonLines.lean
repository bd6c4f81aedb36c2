import Conveyor.Library.Checked
import Conveyor.Library.JsonAscii
import Conveyor.Library.JsonCuts
import Conveyor.Library.TextLines

/-!
# A log of JSON objects, one to a line

A writer appends the text of an object and a line feed with one write, and a write that is cut
leaves the first characters of it. `parseLines_textOf` is what a reader makes of the file: the
objects of the whole lines, unless something stands behind a cut or the last line is cut short.
-/

namespace Library

namespace JsonText

open Json Platform

variable (D : Decoding)

/-! ### The text of a value with blanks -/

/-- What of the text stands in ASCII. -/
def ascii (chars : List Char) : List Char := chars.flatMap asciiChar

theorem ascii_append (first second : List Char) :
    ascii (first ++ second) = ascii first ++ ascii second := List.flatMap_append

theorem ascii_of_lt {chars : List Char} (h : ∀ c ∈ chars, c.toNat < 127) : ascii chars = chars :=
  flatMap_asciiChar h

theorem ascii_cons_of_lt {c : Char} (h : c.toNat < 127) (rest : List Char) :
    ascii (c :: rest) = c :: ascii rest := by
  rw [ascii, List.flatMap_cons, asciiChar_of_lt h]
  rfl

theorem isScalarChar_bounds {c : Char} (h : isScalarChar c = true) :
    32 ≤ c.toNat ∧ c.toNat < 127 := by
  have hunfold : c.isAlphanum = ((decide (65 ≤ c.val ∧ c.val ≤ 90) ||
    decide (97 ≤ c.val) && decide (c.val ≤ 122)) ||
      decide (48 ≤ c.val) && decide (c.val ≤ 57)) := rfl
  have hval : c.toNat = c.val.toNat := rfl
  simp only [isScalarChar, hunfold, Bool.or_eq_true, Bool.and_eq_true, decide_eq_true_eq,
    UInt32.le_iff_toNat_le] at h
  rw [hval]
  rcases h with (((((⟨hlow, hhigh⟩ | ⟨hlow, hhigh⟩) | ⟨hlow, hhigh⟩) | rfl) | rfl) | rfl)
  · exact ⟨le_trans (by decide) hlow, Nat.lt_of_le_of_lt hhigh (by decide)⟩
  · exact ⟨le_trans (by decide) hlow, Nat.lt_of_le_of_lt hhigh (by decide)⟩
  · exact ⟨le_trans (by decide) hlow, Nat.lt_of_le_of_lt hhigh (by decide)⟩
  all_goals decide

theorem escapeChar_of_isScalarChar {c : Char} (h : isScalarChar c = true) : escapeChar c = [c] := by
  unfold escapeChar
  split
  · cases h
  · cases h
  · cases h
  · cases h
  · cases h
  · have hval : ∀ n : UInt32, n.toNat ≤ 32 → ¬c.val < n := fun n hn hlt =>
      absurd ((UInt32.lt_iff_toNat_lt.mp hlt).trans_le hn)
        (Nat.not_lt.mpr (isScalarChar_bounds h).1)
    have h8 : c.val ≠ 8 := fun heq => hval 9 (by decide) (by rw [heq]; decide)
    have h12 : c.val ≠ 12 := fun heq => hval 13 (by decide) (by rw [heq]; decide)
    rw [if_neg h8, if_neg h12, if_neg (hval 32 (by decide))]

theorem le_quoted {s : String} {c : Char} (h : c ∈ quoted s) : 32 ≤ c.toNat := by
  rw [quoted, List.mem_cons, List.mem_append, List.mem_flatMap, List.mem_singleton] at h
  rcases h with rfl | ⟨d, -, hd⟩ | rfl
  · decide
  · exact le_escapeChar hd
  · decide

theorem IsLexeme.ascii {lexeme : List Char} (h : IsLexeme lexeme) : ascii lexeme = lexeme :=
  ascii_of_lt fun c hc => (isScalarChar_bounds (h.2 c hc).1).2

theorem scanFrom_blank (rest : List Char) :
    scanFrom D .between (' ' :: rest) = scanFrom D .between rest := rfl

/-- A mark that one blank follows. -/
theorem scanFrom_spacedMark {c : Char} (h : isMark c = true) (rest : List Char) :
    scanFrom D .between (c :: ' ' :: rest) = .mark c :: scanFrom D .between rest := by
  rw [scanFrom_mark D h, scanFrom_blank]

theorem ascii_mark {c : Char} (h : isMark c = true) (rest : List Char) :
    ascii (c :: rest) = c :: ascii rest := by
  refine ascii_cons_of_lt ?_ rest
  simp only [isMark, decide_eq_true_eq, List.mem_cons, List.not_mem_nil, or_false] at h
  rcases h with rfl | rfl | rfl | rfl | rfl | rfl <;> decide

theorem ascii_spacedMark {c : Char} (h : isMark c = true) (rest : List Char) :
    ascii (c :: ' ' :: rest) = c :: ' ' :: ascii rest := by
  rw [ascii_mark h, ascii_cons_of_lt (by decide)]

mutual

theorem scanFrom_spacedChars : ∀ (value : Json) {rest : List Char}, RoundTrips value → Ends rest →
    scanFrom D .between (ascii (spacedChars value) ++ rest) =
      tokensOf value ++ scanFrom D .between rest
  | .null, _, _, hrest => scanFrom_lexeme D (by decide) hrest
  | .bool true, _, _, hrest => scanFrom_lexeme D (by decide) hrest
  | .bool false, _, _, hrest => scanFrom_lexeme D (by decide) hrest
  | .int n, rest, _, hrest => by
      have hlexeme : IsLexeme (spacedChars (.int n)) := isLexeme_int n
      rw [hlexeme.ascii]
      exact scanFrom_lexeme D hlexeme hrest
  | .float _, _, h, _ => by rw [RoundTrips] at h; exact h.elim
  | .str s, rest, _, _ => scanFrom_quotedAscii D s rest
  | .arr items, rest, h, hrest => by
      rw [RoundTrips] at h
      rw [spacedChars, tokensOf, ascii_mark (by decide), List.cons_append,
        scanFrom_mark D (by decide), scanFrom_spacedItems items h hrest, List.cons_append]
  | .obj fields, rest, h, hrest => by
      rw [RoundTrips] at h
      rw [spacedChars, tokensOf, ascii_mark (by decide), List.cons_append,
        scanFrom_mark D (by decide), scanFrom_spacedFields fields h.2 hrest, List.cons_append]

theorem scanFrom_spacedItems : ∀ (items : List Json) {rest : List Char}, RoundTripsItems items →
    Ends rest → scanFrom D .between (ascii (spacedItems items) ++ rest) =
      tokensOfItems items ++ scanFrom D .between rest
  | [], rest, _, _ => by
      rw [spacedItems, tokensOfItems, ascii_mark (by decide), List.cons_append,
        scanFrom_mark D (by decide)]
      rfl
  | [value], rest, h, _ => by
      rw [RoundTripsItems] at h
      rw [spacedItems, tokensOfItems, ascii_append, ascii_mark (by decide), List.append_assoc,
        List.cons_append, scanFrom_spacedChars value h.1 (ends_mark (by decide) _),
        scanFrom_mark D (by decide), List.append_assoc]
      rfl
  | value :: next :: more, rest, h, hrest => by
      rw [RoundTripsItems] at h
      rw [spacedItems, tokensOfItems, ascii_append, ascii_spacedMark (by decide),
        List.append_assoc, List.cons_append, List.cons_append,
        scanFrom_spacedChars value h.1 (ends_mark (by decide) _),
        scanFrom_spacedMark D (by decide), scanFrom_spacedItems (next :: more) h.2 hrest,
        List.append_assoc, List.cons_append]
      · exact List.cons_ne_nil _ _
      · exact List.cons_ne_nil _ _

theorem scanFrom_spacedFields : ∀ (fields : List (String × Json)) {rest : List Char},
    RoundTripsFields fields → Ends rest →
    scanFrom D .between (ascii (spacedFields fields) ++ rest) =
      tokensOfFields fields ++ scanFrom D .between rest
  | [], rest, _, _ => by
      rw [spacedFields, tokensOfFields, ascii_mark (by decide), List.cons_append,
        scanFrom_mark D (by decide)]
      rfl
  | [(key, value)], rest, h, _ => by
      rw [RoundTripsFields] at h
      rw [spacedFields, tokensOfFields, List.append_assoc, ascii_append, List.cons_append,
        List.cons_append, ascii_spacedMark (by decide), ascii_append, ascii_mark (by decide),
        List.append_assoc, List.cons_append, List.cons_append, List.append_assoc, List.cons_append,
        ascii, scanFrom_quotedAscii, scanFrom_spacedMark D (by decide),
        scanFrom_spacedChars value h.1 (ends_mark (by decide) _), scanFrom_mark D (by decide)]
      simp [ascii]
  | (key, value) :: next :: more, rest, h, hrest => by
      rw [RoundTripsFields] at h
      rw [spacedFields, tokensOfFields, List.append_assoc, ascii_append, List.cons_append,
        List.cons_append, ascii_spacedMark (by decide), ascii_append, ascii_spacedMark (by decide),
        List.append_assoc, List.cons_append, List.cons_append, List.append_assoc, List.cons_append,
        List.cons_append, ascii, scanFrom_quotedAscii, scanFrom_spacedMark D (by decide),
        scanFrom_spacedChars value h.1 (ends_mark (by decide) _),
        scanFrom_spacedMark D (by decide), scanFrom_spacedFields (next :: more) h.2 hrest]
      · simp
      · exact List.cons_ne_nil _ _
      · exact List.cons_ne_nil _ _

end

theorem le_of_all {chars : List Char} (h : chars.all (32 ≤ ·.toNat) = true) :
    ∀ c ∈ chars, 32 ≤ c.toNat :=
  fun c hc => of_decide_eq_true (List.all_eq_true.mp h c hc)

mutual

theorem le_spacedChars : ∀ (value : Json), RoundTrips value → ∀ c ∈ spacedChars value, 32 ≤ c.toNat
  | .null, _ => le_of_all (by decide)
  | .bool true, _ => le_of_all (by decide)
  | .bool false, _ => le_of_all (by decide)
  | .int n, _ => fun c hc => (isScalarChar_bounds ((isLexeme_int n).2 c hc).1).1
  | .float _, h => by rw [RoundTrips] at h; exact h.elim
  | .str s, _ => fun c hc => le_quoted hc
  | .arr items, h => by
      rw [RoundTrips] at h
      rw [spacedChars, List.forall_mem_cons]
      exact ⟨by decide, le_spacedItems items h⟩
  | .obj fields, h => by
      rw [RoundTrips] at h
      rw [spacedChars, List.forall_mem_cons]
      exact ⟨by decide, le_spacedFields fields h.2⟩

theorem le_spacedItems : ∀ (items : List Json), RoundTripsItems items →
    ∀ c ∈ spacedItems items, 32 ≤ c.toNat
  | [], _ => by rw [spacedItems]; exact le_of_all (by decide)
  | [value], h => by
      rw [RoundTripsItems] at h
      rw [spacedItems, List.forall_mem_append]
      exact ⟨le_spacedChars value h.1, le_of_all (by decide)⟩
  | value :: next :: more, h => by
      rw [RoundTripsItems] at h
      rw [spacedItems, List.forall_mem_append, List.forall_mem_cons, List.forall_mem_cons]
      · exact ⟨le_spacedChars value h.1, by decide, by decide, le_spacedItems (next :: more) h.2⟩
      · exact List.cons_ne_nil _ _

theorem le_spacedFields : ∀ (fields : List (String × Json)), RoundTripsFields fields →
    ∀ c ∈ spacedFields fields, 32 ≤ c.toNat
  | [], _ => by rw [spacedFields]; exact le_of_all (by decide)
  | [(key, value)], h => by
      rw [RoundTripsFields] at h
      rw [spacedFields, List.append_assoc, List.forall_mem_append, List.cons_append,
        List.cons_append, List.forall_mem_cons, List.forall_mem_cons, List.forall_mem_append]
      exact ⟨fun c hc => le_quoted hc, by decide, by decide, le_spacedChars value h.1,
        le_of_all (by decide)⟩
  | (key, value) :: next :: more, h => by
      rw [RoundTripsFields] at h
      rw [spacedFields, List.append_assoc, List.forall_mem_append, List.cons_append,
        List.cons_append, List.forall_mem_cons, List.forall_mem_cons, List.forall_mem_append,
        List.forall_mem_cons, List.forall_mem_cons]
      · exact ⟨fun c hc => le_quoted hc, by decide, by decide, le_spacedChars value h.1, by decide,
          by decide, le_spacedFields (next :: more) h.2⟩
      · exact List.cons_ne_nil _ _

end

/-! ### The line of an object -/

/-- `json.dumps(event, sort_keys=True)`. -/
def lineOf (event : Fields) : List Char := ascii (spacedChars (.obj event))

/-- The keys are in order, the values read back, and the first key begins with the letter. -/
structure Writable (letter : Char) (event : Fields) : Prop where
  ordered : event.Ordered
  values : RoundTripsFields event
  first : ∃ key value rest, event = (key, value) :: rest ∧ key.toList.head? = some letter

/-- A letter of a key that no number or constant begins with. -/
structure KeyLetter (letter : Char) : Prop where
  scalar : isScalarChar letter = true
  foreign : isLexemeChar letter = false

variable {letter : Char} {event : Fields}

theorem Writable.roundTrips (h : Writable letter event) : RoundTrips (.obj event) := by
  rw [RoundTrips]
  exact ⟨h.ordered, h.values⟩

theorem scanFrom_lineOf (h : Writable letter event) :
    scanFrom D .between (lineOf event) = tokensOf (.obj event) := by
  have hscan := scanFrom_spacedChars D (.obj event) h.roundTrips ends_nil
  rwa [List.append_nil, scanFrom, scanEnd, List.append_nil] at hscan

theorem parse_lineOf (h : Writable letter event) :
    (tokensOf (.obj event)).foldlM (parseToken D) ⟨[], .value⟩ =
      .ok ⟨[], .separator (.obj event)⟩ := by
  have hparse := parse_tokensOf D (.obj event) h.roundTrips [] []
  rwa [List.append_nil] at hparse

/-- A whole line reads back. -/
theorem loads_lineOf (h : Writable letter event) : Json.loads D (lineOf event) = .ok (.obj event) := by
  rw [Json.loads, scanFrom_lineOf D h, parse_lineOf D h]
  rfl

theorem isLineBoundary_of_printable {c : Char} (h : 32 ≤ c.toNat ∧ c.toNat < 127) :
    isLineBoundary c = false := by
  rw [isLineBoundary, decide_eq_false_iff_not]
  simp only [List.mem_cons, List.not_mem_nil, or_false]
  omega

theorem lineOf_plain (h : Writable letter event) : ∀ c ∈ lineOf event, isLineBoundary c = false :=
  fun c hc => isLineBoundary_of_printable
    (printable_flatMap (le_spacedChars (.obj event) h.roundTrips) c hc)

/-- How a line begins. -/
theorem lineOf_eq (hletter : KeyLetter letter) (h : Writable letter event) :
    ∃ rest, lineOf event = '\x7b' :: '"' :: letter :: rest := by
  obtain ⟨key, value, more, rfl, hkey⟩ := h.first
  have hfields : ∃ rest, spacedFields ((key, value) :: more) = quoted key ++ rest := by
    cases more with
    | nil => exact ⟨_, by rw [spacedFields, List.append_assoc]⟩
    | cons next more =>
        refine ⟨':' :: ' ' :: spacedChars value ++ ',' :: ' ' :: spacedFields (next :: more), ?_⟩
        rw [spacedFields, List.append_assoc]
        exact List.cons_ne_nil _ _
  obtain ⟨rest, hrest⟩ := hfields
  cases hchars : key.toList with
  | nil => rw [hchars] at hkey; cases hkey
  | cons c chars =>
      rw [hchars] at hkey
      cases hkey
      refine ⟨ascii (chars.flatMap escapeChar ++ '"' :: rest), ?_⟩
      rw [lineOf, spacedChars, hrest, quoted, hchars, List.flatMap_cons,
        escapeChar_of_isScalarChar hletter.scalar, ascii_mark (by decide), List.cons_append,
        ascii_cons_of_lt (by decide), List.append_assoc, List.append_assoc, List.singleton_append,
        ascii_cons_of_lt (isScalarChar_bounds hletter.scalar).2]
      rfl

/-! ### Where a reader stands behind a cut -/

/-- The tokens that the text completes, and where the scanner stands behind it. -/
def scanTo (D : Decoding) : Scan → List Char → List Token × Scan
  | scan, [] => ([], scan)
  | scan, c :: rest =>
      let (tokens, next) := scanChar D scan c
      let (more, last) := scanTo D next rest
      (tokens ++ more, last)

theorem scanFrom_append (scan : Scan) (text rest : List Char) :
    scanFrom D scan (text ++ rest) =
      (scanTo D scan text).1 ++ scanFrom D (scanTo D scan text).2 rest := by
  induction text generalizing scan with
  | nil => rfl
  | cons c text ih =>
      rw [List.cons_append, scanFrom, scanTo]
      simp only [ih, List.append_assoc]

/-- The machine is inside of an array or an object. -/
def Inside (parse : Parse) : Prop :=
  parse.stack ≠ [] ∨ match parse.expected with
    | .key _ | .keyOrEnd | .colon _ _ => True
    | _ => False

/-- The machine has taken a value, and nothing else. -/
def Done (parse : Parse) : Prop := ∃ value, parse = ⟨[], .separator value⟩

theorem Inside.not_done {parse : Parse} (h : Inside parse) : ¬Done parse := by
  rintro ⟨value, rfl⟩
  rcases h with hstack | hfalse
  · exact hstack rfl
  · exact hfalse

theorem inside_of_stack {stack : List Frame} {expected : Expected} (h : stack ≠ []) :
    Inside ⟨stack, expected⟩ := Or.inl h

theorem inside_or_done (stack : List Frame) (value : Json) :
    Inside ⟨stack, .separator value⟩ ∨ Done ⟨stack, .separator value⟩ := by
  cases stack with
  | nil => exact Or.inr ⟨value, rfl⟩
  | cons frame stack => exact Or.inl (inside_of_stack (List.cons_ne_nil _ _))

theorem parseToken_done {parse : Parse} (h : Done parse) (token : Token) :
    parseToken D parse token = .error .malformed := by
  obtain ⟨value, rfl⟩ := h
  simp only [parseToken]
  unfold closed
  split <;> rfl

/-- One step from the inside: the machine stays there, or the value is complete. -/
theorem Inside.step {parse after : Parse} {token : Token} (h : Inside parse)
    (hstep : parseToken D parse token = .ok after) : Inside after ∨ Done after := by
  obtain ⟨stack, expected⟩ := parse
  have hopened : stack ≠ [] → opened D stack token = .ok after → Inside after := by
    intro hstack hopened
    unfold opened at hopened
    split at hopened
    · cases hopened; exact inside_of_stack hstack
    · obtain ⟨value, -, hok⟩ := bind_eq_ok.mp hopened
      cases hok
      exact inside_of_stack hstack
    · cases hopened; exact inside_of_stack (List.cons_ne_nil _ _)
    · cases hopened; exact inside_of_stack hstack
    · cases hopened
  cases expected with
  | value => exact Or.inl (hopened (h.resolve_right id) hstep)
  | valueOrEnd =>
      have hstack : stack ≠ [] := h.resolve_right id
      simp only [parseToken] at hstep
      split at hstep
      · cases hstep; exact inside_or_done _ _
      · exact Or.inl (hopened hstack hstep)
  | keyOrEnd =>
      simp only [parseToken] at hstep
      split at hstep
      · cases hstep; exact inside_or_done _ _
      · cases hstep; exact Or.inl (Or.inr trivial)
      · cases hstep
  | key read =>
      simp only [parseToken] at hstep
      split at hstep
      · cases hstep; exact Or.inl (Or.inr trivial)
      · cases hstep
  | colon read key =>
      simp only [parseToken] at hstep
      split at hstep
      · cases hstep; exact Or.inl (inside_of_stack (List.cons_ne_nil _ _))
      · cases hstep
  | separator last =>
      simp only [parseToken] at hstep
      unfold closed at hstep
      split at hstep
      · split at hstep
        · cases hstep; exact Or.inl (inside_of_stack (List.cons_ne_nil _ _))
        · cases hstep; exact Or.inl (Or.inr trivial)
        · cases hstep
      · split at hstep
        · cases hstep; exact inside_or_done _ _
        · cases hstep
      · split at hstep
        · cases hstep; exact inside_or_done _ _
        · cases hstep
      · cases hstep

/-- What the machine does with some frames open it does with more of them below. -/
theorem parseToken_frame {stack after base : List Frame} {expected next : Expected} {token : Token}
    (h : parseToken D ⟨stack, expected⟩ token = .ok ⟨after, next⟩) :
    parseToken D ⟨stack ++ base, expected⟩ token = .ok ⟨after ++ base, next⟩ := by
  have hopened : opened D stack token = .ok ⟨after, next⟩ →
      opened D (stack ++ base) token = .ok ⟨after ++ base, next⟩ := by
    intro hopened
    unfold opened at hopened ⊢
    split at hopened
    · cases hopened; rfl
    · obtain ⟨value, hvalue, hok⟩ := bind_eq_ok.mp hopened
      cases hok
      simp only [hvalue]
      rfl
    · cases hopened; rfl
    · cases hopened; rfl
    · cases hopened
  cases expected with
  | value => exact hopened h
  | valueOrEnd =>
      by_cases htoken : token = .mark ']'
      · subst htoken
        cases stack with
        | nil => cases h
        | cons frame stack =>
            cases frame with
            | items read =>
                cases h
                rfl
            | fields read key => cases h
      · rw [parseToken_valueOrEnd D htoken] at h ⊢
        exact hopened h
  | keyOrEnd =>
      simp only [parseToken] at h ⊢
      split at h
      · cases h; rfl
      · cases h; rfl
      · cases h
  | key read =>
      simp only [parseToken] at h ⊢
      split at h
      · cases h; rfl
      · cases h
  | colon read key =>
      simp only [parseToken] at h ⊢
      split at h
      · cases h; rfl
      · cases h
  | separator last =>
      simp only [parseToken] at h ⊢
      unfold closed at h ⊢
      split at h
      · split at h
        · cases h; rfl
        · cases h; rfl
        · cases h
      · split at h
        · cases h; rfl
        · cases h
      · split at h
        · cases h; rfl
        · cases h
      · cases h

theorem foldlM_frame {tokens : List Token} {stack after base : List Frame}
    {expected next : Expected}
    (h : tokens.foldlM (parseToken D) ⟨stack, expected⟩ = .ok ⟨after, next⟩) :
    tokens.foldlM (parseToken D) ⟨stack ++ base, expected⟩ = .ok ⟨after ++ base, next⟩ := by
  induction tokens generalizing stack expected with
  | nil =>
      cases h
      rfl
  | cons token tokens ih =>
      rw [List.foldlM_cons] at h ⊢
      obtain ⟨⟨mid, wanted⟩, hstep, hrest⟩ := bind_eq_ok.mp h
      rw [parseToken_frame D hstep]
      exact ih hrest

theorem foldlM_inside {tokens : List Token} {parse after : Parse} (h : Inside parse)
    (hfold : tokens.foldlM (parseToken D) parse = .ok after) : Inside after ∨ Done after := by
  induction tokens generalizing parse with
  | nil =>
      cases hfold
      exact Or.inl h
  | cons token tokens ih =>
      rw [List.foldlM_cons] at hfold
      obtain ⟨mid, hstep, hrest⟩ := bind_eq_ok.mp hfold
      rcases h.step D hstep with hinside | hdone
      · exact ih hinside hrest
      · cases tokens with
        | nil =>
            cases hrest
            exact Or.inr hdone
        | cons next tokens =>
            rw [List.foldlM_cons, parseToken_done D hdone] at hrest
            cases hrest

/-! ### Behind a cut -/

/-- The reader does not end with a value. -/
def Refuses (scan : Scan) (parse : Parse) (text : List Char) : Prop :=
  ∀ value, (scanFrom D scan text).foldlM (parseToken D) parse ≠ .ok ⟨[], .separator value⟩

theorem refuses_of_ok {scan : Scan} {parse after : Parse} {text rest : List Char}
    (h : (scanTo D scan text).1.foldlM (parseToken D) parse = .ok after)
    (hrest : Refuses D (scanTo D scan text).2 after rest) :
    Refuses D scan parse (text ++ rest) := by
  intro value hok
  rw [scanFrom_append, List.foldlM_append, h] at hok
  exact hrest value hok

theorem parse_scalar {parse after : Parse} {lexeme : List Char}
    (h : parseToken D parse (.scalar lexeme) = .ok after) :
    (∃ value, scalarOf D lexeme = .ok value ∧ after = ⟨parse.stack, .separator value⟩) ∧
      (Inside parse → Inside after) := by
  obtain ⟨stack, expected⟩ := parse
  have hopened : opened D stack (.scalar lexeme) = .ok after →
      ∃ value, scalarOf D lexeme = .ok value ∧ after = ⟨stack, .separator value⟩ := by
    intro hopened
    obtain ⟨value, hvalue, hok⟩ := bind_eq_ok.mp hopened
    cases hok
    exact ⟨value, hvalue, rfl⟩
  cases expected with
  | value =>
      obtain ⟨value, hvalue, rfl⟩ := hopened h
      exact ⟨⟨value, hvalue, rfl⟩, fun hinside => Or.inl (hinside.resolve_right id)⟩
  | valueOrEnd =>
      obtain ⟨value, hvalue, rfl⟩ := hopened h
      exact ⟨⟨value, hvalue, rfl⟩, fun hinside => Or.inl (hinside.resolve_right id)⟩
  | _ => cases h

theorem parse_text {parse after : Parse} {chars : List Char} (hinside : Inside parse)
    (h : parseToken D parse (.text chars) = .ok after) : Inside after := by
  obtain ⟨stack, expected⟩ := parse
  cases expected with
  | value =>
      cases h
      exact Or.inl (hinside.resolve_right id)
  | valueOrEnd =>
      cases h
      exact Or.inl (hinside.resolve_right id)
  | keyOrEnd =>
      cases h
      exact Or.inr trivial
  | key read =>
      cases h
      exact Or.inr trivial
  | _ => cases h

theorem refuses_of_step {scan : Scan} {parse : Parse} {token : Token} {tokens : List Token}
    {text : List Char} (htokens : scanFrom D scan text = token :: tokens)
    (h : ∀ after, parseToken D parse token ≠ .ok after) : Refuses D scan parse text := by
  intro value hok
  rw [htokens, List.foldlM_cons] at hok
  obtain ⟨after, hstep, -⟩ := bind_eq_ok.mp hok
  exact h after hstep

theorem Inside.refuses_end {parse : Parse} (h : Inside parse) (scan : Scan) :
    Refuses D scan parse [] := by
  intro value hok
  cases scan with
  | between =>
      cases hok
      exact h.not_done ⟨value, rfl⟩
  | failed =>
      cases hok
      exact h.not_done ⟨value, rfl⟩
  | scalar read =>
      obtain ⟨after, hstep, hok⟩ := bind_eq_ok.mp hok
      cases hok
      exact ((parse_scalar D hstep).2 h).not_done ⟨value, rfl⟩
  | _ =>
      obtain ⟨after, hstep, -⟩ := bind_eq_ok.mp hok
      exact (readable_of_accepted D hstep).1 rfl

/-- A scalar with the letter in it is none. -/
theorem refuses_letter (hletter : KeyLetter letter) {read : List Char} (hread : letter ∈ read)
    (parse : Parse) (text : List Char) : Refuses D (.scalar read) parse text := by
  have hscalar : ∀ {read : List Char}, letter ∈ read →
      ∀ after, parseToken D parse (.scalar read.reverse) ≠ .ok after := by
    intro read hread after hstep
    obtain ⟨⟨value, hvalue, -⟩, -⟩ := parse_scalar D hstep
    have hchar := scalarOf_chars D hvalue letter (List.mem_reverse.mpr hread)
    rw [hletter.foreign] at hchar
    cases hchar
  induction text generalizing read with
  | nil => exact refuses_of_step D rfl (hscalar hread)
  | cons c text ih =>
      by_cases hc : isScalarChar c = true
      · have hmore : letter ∈ c :: read := List.mem_cons_of_mem _ hread
        have hscan : scanFrom D (.scalar read) (c :: text) = scanFrom D (.scalar (c :: read)) text := by
          rw [scanFrom, scanChar, if_pos hc]
          rfl
        intro value hok
        rw [hscan] at hok
        exact ih hmore value hok
      · have hscan : scanFrom D (.scalar read) (c :: text) =
            .scalar read.reverse :: ((start c).1 ++ scanFrom D (start c).2 text) := by
          rw [scanFrom, scanChar, if_neg hc]
          rfl
        exact refuses_of_step D hscan (hscalar hread)

/-! ### A beginning of a line -/

theorem spacedFields_ends (fields : List (String × Json)) :
    ∃ body, spacedFields fields = body ++ ['\x7d'] := by
  induction fields with
  | nil => exact ⟨[], by rw [spacedFields]; rfl⟩
  | cons field rest ih =>
      obtain ⟨key, value⟩ := field
      cases rest with
      | nil => exact ⟨quoted key ++ ':' :: ' ' :: spacedChars value, by rw [spacedFields]⟩
      | cons next rest =>
          obtain ⟨body, hbody⟩ := ih
          refine ⟨quoted key ++ ':' :: ' ' :: spacedChars value ++ ',' :: ' ' :: body, ?_⟩
          rw [spacedFields, hbody]
          · simp
          · exact List.cons_ne_nil _ _

theorem lineOf_ends (event : Fields) : ∃ body, lineOf event = body ++ ['\x7d'] := by
  obtain ⟨body, hbody⟩ := spacedFields_ends event
  refine ⟨ascii ('\x7b' :: body), ?_⟩
  rw [lineOf, spacedChars, hbody, ← List.cons_append, ascii_append]
  rfl

theorem lineOf_begins (event : Fields) : ∃ rest, lineOf event = '\x7b' :: rest := by
  rw [lineOf, spacedChars, ascii_mark (by decide)]
  exact ⟨_, rfl⟩

theorem not_failed_of_valid {scan : Scan} {text : List Char} (hscan : scan ≠ .failed)
    (h : Token.invalid ∉ (scanTo D scan text).1) : (scanTo D scan text).2 ≠ .failed := by
  induction text generalizing scan with
  | nil => exact hscan
  | cons c text ih =>
      rw [scanTo] at h ⊢
      rw [List.mem_append, not_or] at h
      exact ih (fun hfailed => h.1 (invalid_of_failed D hscan hfailed)) h.2

/-- A closing brace is a token, or it stands in a string that is not closed. -/
theorem scanFrom_brace_ne_nil {scan : Scan} {text : List Char} (hscan : scan ≠ .failed) :
    scanFrom D scan (text ++ ['\x7d']) ≠ [] := by
  induction text generalizing scan with
  | nil => cases scan <;> first | exact absurd rfl hscan | exact List.cons_ne_nil _ _
  | cons c text ih =>
      rw [List.cons_append, scanFrom]
      intro hnil
      obtain ⟨htokens, hrest⟩ : (scanChar D scan c).1 = [] ∧
          scanFrom D (scanChar D scan c).2 (text ++ ['\x7d']) = [] := List.append_eq_nil_iff.mp hnil
      refine ih (fun hfailed => ?_) hrest
      have hinvalid := invalid_of_failed D hscan hfailed
      rw [htokens] at hinvalid
      cases hinvalid

/-- Behind a beginning of a line that is not all of it, the machine is inside of the object. -/
theorem parse_beginning (h : Writable letter event) {text rest : List Char}
    (hline : lineOf event = text ++ rest) (htext : text ≠ []) (hrest : rest ≠ []) :
    ∃ after, (scanTo D .between text).1.foldlM (parseToken D) ⟨[], .value⟩ = .ok after ∧
      Inside after := by
  have hparse := parse_lineOf D h
  rw [← scanFrom_lineOf D h, hline, scanFrom_append, List.foldlM_append] at hparse
  obtain ⟨after, hafter, hlater⟩ := bind_eq_ok.mp hparse
  refine ⟨after, hafter, ?_⟩
  have hfirst : ∃ tokens, (scanTo D .between text).1 = .mark '\x7b' :: tokens := by
    obtain ⟨behind, hbehind⟩ := lineOf_begins event
    cases text with
    | nil => exact absurd rfl htext
    | cons c text =>
        rw [hbehind, List.cons_append] at hline
        cases hline
        exact ⟨_, rfl⟩
  obtain ⟨tokens, htokens⟩ := hfirst
  have hinside : Inside after ∨ Done after := by
    rw [htokens, List.foldlM_cons] at hafter
    obtain ⟨opened, hopened, hfold⟩ := bind_eq_ok.mp hafter
    cases hopened
    exact foldlM_inside D (Or.inr trivial) hfold
  refine hinside.resolve_right fun hdone => ?_
  -- the rest ends with a brace, so it has a token, and a complete value takes none
  have hvalid : Token.invalid ∉ (scanTo D .between text).1 := fun hmem => by
    obtain ⟨_, _, hstep⟩ := accepted_of_foldlM D hafter _ hmem
    exact (readable_of_accepted D hstep).1 rfl
  have hscan := not_failed_of_valid D (fun heq => by cases heq) hvalid
  obtain ⟨before, hbefore⟩ : ∃ before, rest = before ++ ['\x7d'] := by
    obtain ⟨body, hbody⟩ := lineOf_ends event
    obtain ⟨before, c, rfl⟩ : ∃ before c, rest = before ++ [c] :=
      ⟨rest.dropLast, rest.getLast hrest, (List.dropLast_append_getLast hrest).symm⟩
    rw [hbody, ← List.append_assoc] at hline
    exact ⟨before, by rw [(List.append_inj' hline rfl).2]⟩
  cases hmore : scanFrom D (scanTo D .between text).2 rest with
  | nil =>
      rw [hbefore] at hmore
      exact scanFrom_brace_ne_nil D hscan hmore
  | cons token later =>
      rw [hmore, List.foldlM_cons, parseToken_done D hdone] at hlater
      cases hlater

/-! ### Pieces of lines, one behind the other -/

/-- What a write left of a line, when it wrote anything. -/
def Beginning (letter : Char) (text : List Char) : Prop :=
  text ≠ [] ∧ ∃ event rest, Writable letter event ∧ lineOf event = text ++ rest

theorem Beginning.plain {text : List Char} (h : Beginning letter text) :
    ∀ c ∈ text, isLineBoundary c = false := by
  obtain ⟨-, event, rest, hevent, hline⟩ := h
  exact fun c hc => lineOf_plain hevent c (hline ▸ List.mem_append_left rest hc)

theorem ends_flatten {pieces : List (List Char)} (h : ∀ piece ∈ pieces, Beginning letter piece) :
    Ends pieces.flatten := by
  cases pieces with
  | nil => exact ends_nil
  | cons piece pieces =>
      obtain ⟨hne, event, rest, -, hline⟩ := h piece List.mem_cons_self
      obtain ⟨behind, hbehind⟩ := lineOf_begins event
      cases piece with
      | nil => exact absurd rfl hne
      | cons c piece =>
          rw [hbehind, List.cons_append] at hline
          cases hline
          exact ends_mark (by decide) _

theorem start_scalar {c : Char} (h : isScalarChar c = true) : start c = ([], .scalar [c]) := by
  have hblank : isBlank c = false := by
    by_contra hblank
    simp only [isBlank, Bool.not_eq_false, Bool.or_eq_true, decide_eq_true_eq] at hblank
    rcases hblank with ((rfl | rfl) | rfl) | rfl <;> cases h
  have hquote : c ≠ '"' := by
    rintro rfl
    cases h
  have hmark : isMark c = false := by
    by_contra hmark
    rw [Bool.not_eq_false] at hmark
    rw [(isMark_cases hmark).2.2] at h
    cases h
  rw [start, hblank, if_neg Bool.false_ne_true, if_neg hquote, hmark, if_neg Bool.false_ne_true,
    if_pos h]

theorem scanFrom_failed (text : List Char) : scanFrom D .failed text = [] := by
  induction text with
  | nil => rfl
  | cons c text ih => exact ih

/-- Where the machine is inside of an object, no beginnings of lines complete it. -/
theorem Inside.refuses (hletter : KeyLetter letter) {pieces : List (List Char)}
    (hpieces : ∀ piece ∈ pieces, Beginning letter piece) {scan : Scan} {parse : Parse}
    (hinside : Inside parse) : Refuses D scan parse pieces.flatten := by
  induction pieces generalizing scan parse with
  | nil => exact hinside.refuses_end D scan
  | cons piece pieces ih =>
      rw [List.forall_mem_cons] at hpieces
      obtain ⟨⟨hne, event, rest, hevent, hline⟩, hlater⟩ := hpieces
      obtain ⟨behind, hbehind⟩ := lineOf_eq hletter hevent
      have hends := ends_flatten hlater
      rw [List.flatten_cons]
      obtain ⟨tail, rfl⟩ : ∃ tail, piece = '\x7b' :: tail := by
        cases piece with
        | nil => exact absurd rfl hne
        | cons c tail =>
            rw [hbehind, List.cons_append] at hline
            obtain ⟨rfl, -⟩ := List.cons.inj hline
            exact ⟨tail, rfl⟩
      cases scan with
      | between =>
          obtain ⟨stack, expected⟩ := parse
          have hstart : scanFrom D .between ('\x7b' :: tail ++ pieces.flatten) =
              .mark '\x7b' :: scanFrom D .between (tail ++ pieces.flatten) :=
            scanFrom_mark D (by decide) _
          have hvalue : stack ≠ [] →
              Refuses D .between ⟨stack, .value⟩ ('\x7b' :: tail ++ pieces.flatten) := by
            intro hstack
            by_cases hrest : rest = []
            · -- a whole line is one more value of the array or object that is open
              intro value hok
              rw [hrest, List.append_nil] at hline
              have hscan := scanFrom_spacedChars D (.obj event) hevent.roundTrips hends
              rw [← lineOf, hline] at hscan
              rw [hscan, parse_tokensOf D (.obj event) hevent.roundTrips] at hok
              exact ih hlater (Or.inl hstack) value hok
            · obtain ⟨⟨tokens, next⟩, hafter, -⟩ :=
                parse_beginning D hevent hline (List.cons_ne_nil _ _) hrest
              have hframe := @foldlM_frame D _ _ _ stack _ _ hafter
              exact refuses_of_ok D hframe
                (ih hlater (Or.inl (List.append_ne_nil_of_right_ne_nil _ hstack)))
          cases expected with
          | value => exact hvalue (hinside.resolve_right id)
          | valueOrEnd =>
              intro value hok
              refine hvalue (hinside.resolve_right id) value ?_
              rw [hstart, List.foldlM_cons] at hok ⊢
              exact hok
          | _ => exact refuses_of_step D hstart fun after hstep => by cases hstep
      | scalar read =>
          intro value hok
          obtain ⟨after, hstep, hok⟩ := bind_eq_ok.mp hok
          obtain ⟨⟨last, -, rfl⟩, -⟩ := parse_scalar D hstep
          cases hok
      | text units =>
          rw [hbehind, List.cons_append] at hline
          have htail := (List.cons.inj hline).2
          cases tail with
          | nil =>
              have hscan : scanTo D (.text units) ['\x7b'] =
                  ([], .text ('\x7b'.toNat :: units)) := rfl
              have hfold : (scanTo D (.text units) ['\x7b']).1.foldlM (parseToken D) parse =
                  .ok parse := by
                rw [hscan]
                rfl
              exact refuses_of_ok D hfold (ih hlater hinside)
          | cons c tail =>
              obtain ⟨rfl, hmore⟩ := List.cons.inj htail
              intro value hok
              obtain ⟨after, hstep, hok⟩ := bind_eq_ok.mp hok
              have hafter := parse_text D hinside hstep
              cases tail with
              | nil => exact ih hlater hafter value hok
              | cons d tail =>
                  obtain ⟨rfl, -⟩ := List.cons.inj hmore
                  have hread : letter ∈ [letter] := List.mem_cons_self
                  refine refuses_letter D hletter hread after (tail ++ pieces.flatten) value ?_
                  have hscan : scanFrom D .between (letter :: (tail ++ pieces.flatten)) =
                      scanFrom D (.scalar [letter]) (tail ++ pieces.flatten) := by
                    rw [scanFrom, scanChar, start_scalar hletter.scalar]
                    rfl
                  rw [← hscan]
                  exact hok
      | escape units => exact refuses_of_step D rfl fun after hstep =>
          (readable_of_accepted D hstep).1 rfl
      | hex units value missing => exact refuses_of_step D rfl fun after hstep =>
          (readable_of_accepted D hstep).1 rfl
      | failed =>
          intro value hok
          rw [scanFrom_failed] at hok
          cases hok
          exact hinside.not_done ⟨value, rfl⟩

theorem loads_ne_ok {text : List Char} (h : Refuses D .between ⟨[], .value⟩ text) (value : Json) :
    Json.loads D text ≠ .ok value := fun hok => h value (loads_eq_ok D hok)

/-- What stands behind a beginning of a line takes its value away. -/
theorem loads_beginning (hletter : KeyLetter letter) (hevent : Writable letter event)
    {text rest : List Char} (hline : lineOf event = text ++ rest) (htext : text ≠ [])
    {pieces : List (List Char)} (hpieces : ∀ piece ∈ pieces, Beginning letter piece)
    (hcut : rest ≠ [] ∨ pieces ≠ []) (value : Json) :
    Json.loads D (text ++ pieces.flatten) ≠ .ok value := by
  refine loads_ne_ok D ?_ value
  by_cases hrest : rest = []
  · have hends := ends_flatten hpieces
    have hscan := scanFrom_spacedChars D (.obj event) hevent.roundTrips hends
    rw [← lineOf, hline, hrest, List.append_nil] at hscan
    obtain ⟨piece, pieces, rfl⟩ := List.exists_cons_of_ne_nil (hcut.resolve_left (fun h => h hrest))
    intro value hok
    rw [hscan, parse_tokensOf D (.obj event) hevent.roundTrips] at hok
    obtain ⟨hne, other, behind, hother, hbegins⟩ := hpieces piece List.mem_cons_self
    obtain ⟨more, hmore⟩ := lineOf_begins other
    cases piece with
    | nil => exact hne rfl
    | cons c piece =>
        rw [hmore, List.cons_append] at hbegins
        obtain ⟨rfl, -⟩ := List.cons.inj hbegins
        rw [List.flatten_cons, List.cons_append, scanFrom_mark D (by decide)] at hok
        cases hok
  · obtain ⟨after, hafter, hinside⟩ := parse_beginning D hevent hline htext hrest
    exact refuses_of_ok D hafter (hinside.refuses D hletter hpieces)

end JsonText

open JsonText

/-! ### The file -/

namespace JsonLog

/-- What a write left in the file: a line, or the first characters of one. -/
inductive Piece where
  | line (event : Fields)
  | cut (event : Fields) (taken : Nat)

namespace Piece

def event : Piece → Fields
  | .line event | .cut event _ => event

def text : Piece → List Char
  | .line event => lineOf event ++ ['\n']
  | .cut event taken => (lineOf event).take taken

end Piece

def textOf (pieces : List Piece) : List Char := pieces.flatMap Piece.text

/-- `json.loads` of each line, up to the first that is no object: what was read, and whether a
    line was malformed. -/
def parseLines (D : Decoding) : List (List Char) → Except Refusal (List Fields × Bool)
  | [] => .ok ([], false)
  | line :: rest =>
      match Json.loads D line with
      | .error .malformed => .ok ([], true)
      | .error .tooManyDigits => .error .tooManyDigits
      | .ok (.obj fields) => do
          let (more, malformed) ← parseLines D rest
          return (fields :: more, malformed)
      | .ok _ => .ok ([], true)

/-- The objects of lines of which none is malformed. -/
def objectsOf (D : Decoding) (lines : List (List Char)) : Option (List Fields) :=
  (parseLines D lines).toOption.bind fun read => if read.2 then none else some read.1

/-- The objects of a file without a malformed line. -/
def readLines (D : Decoding) (text : List Char) : Option (List Fields) :=
  objectsOf D (splitlines (universalNewlines text))

/-- What the pieces read: the lines, and a last one without its line feed. -/
def readPieces : List Piece → Option (List Fields)
  | [] => some []
  | .line event :: rest => (readPieces rest).map (event :: ·)
  | .cut event taken :: rest =>
      if taken = 0 then readPieces rest
      else if (lineOf event).length ≤ taken ∧ textOf rest = [] then some [event]
      else none

section

variable (D : Decoding) {letter : Char} {pieces : List Piece}

theorem textOf_cons (piece : Piece) (rest : List Piece) :
    textOf (piece :: rest) = piece.text ++ textOf rest := List.flatMap_cons

theorem textOf_append (first second : List Piece) :
    textOf (first ++ second) = textOf first ++ textOf second := List.flatMap_append

theorem plain_text (h : ∀ piece ∈ pieces, Writable letter piece.event) :
    ∀ c ∈ textOf pieces, c ≠ '\r' := by
  intro c hc
  obtain ⟨piece, hpiece, hc⟩ := List.mem_flatMap.mp hc
  have hplain := lineOf_plain (h piece hpiece)
  cases piece with
  | line event =>
      rcases List.mem_append.mp hc with hc | hc
      · rintro rfl
        cases hplain _ hc
      · rw [List.mem_singleton.mp hc]
        decide
  | cut event taken =>
      rintro rfl
      cases hplain _ (List.mem_of_mem_take hc)

theorem universalNewlines_eq_self {text : List Char} (h : ∀ c ∈ text, c ≠ '\r') :
    universalNewlines text = text := by
  fun_induction universalNewlines text with
  | case1 => rfl
  | case2 rest => exact absurd rfl (h '\r' List.mem_cons_self)
  | case3 rest => exact absurd rfl (h '\r' List.mem_cons_self)
  | case4 c rest _ _ ih => rw [ih (List.forall_mem_cons.mp h).2]

/-- The pieces up to the next line feed, and what stands behind it. -/
theorem exists_line (h : ∀ piece ∈ pieces, Writable letter piece.event) :
    ∃ begins : List (List Char), (∀ text ∈ begins, Beginning letter text) ∧
      (textOf pieces = begins.flatten ∨
        ∃ behind, textOf pieces = begins.flatten ++ '\n' :: behind ∧ begins ≠ []) := by
  induction pieces with
  | nil => exact ⟨[], List.forall_mem_nil _, Or.inl rfl⟩
  | cons piece rest ih =>
      rw [List.forall_mem_cons] at h
      rw [textOf_cons]
      cases piece with
      | line event =>
          have hline : Beginning letter (lineOf event) := by
            obtain ⟨more, hmore⟩ := lineOf_begins event
            refine ⟨?_, event, [], h.1, (List.append_nil _).symm⟩
            rw [hmore]
            exact List.cons_ne_nil _ _
          refine ⟨[lineOf event], List.forall_mem_singleton.mpr hline, Or.inr ⟨textOf rest, ?_,
            List.cons_ne_nil _ _⟩⟩
          rw [Piece.text, List.flatten_cons, List.flatten_nil, List.append_nil, List.append_assoc,
            List.singleton_append]
      | cut event taken =>
          obtain ⟨begins, hbegins, hends⟩ := ih h.2
          by_cases htaken : taken = 0
          · subst htaken
            exact ⟨begins, hbegins, by simpa [Piece.text] using hends⟩
          · have hfirst : Beginning letter ((lineOf event).take taken) := by
              obtain ⟨more, hmore⟩ := lineOf_begins event
              refine ⟨?_, event, (lineOf event).drop taken, h.1, (List.take_append_drop _ _).symm⟩
              obtain ⟨n, rfl⟩ := Nat.exists_eq_succ_of_ne_zero htaken
              rw [hmore]
              exact List.cons_ne_nil _ _
            refine ⟨(lineOf event).take taken :: begins, List.forall_mem_cons.mpr ⟨hfirst, hbegins⟩,
              ?_⟩
            rcases hends with hends | ⟨behind, hends, -⟩
            · exact Or.inl (by rw [Piece.text, hends, List.flatten_cons])
            · refine Or.inr ⟨behind, ?_, List.cons_ne_nil _ _⟩
              rw [Piece.text, hends, List.flatten_cons, List.append_assoc]

theorem objectsOf_cons {line : List Char} {fields : Fields} {rest : List (List Char)}
    (h : Json.loads D line = .ok (.obj fields)) :
    objectsOf D (line :: rest) = (objectsOf D rest).map (fields :: ·) := by
  rw [objectsOf, objectsOf, parseLines, h]
  dsimp only
  cases parseLines D rest with
  | error refusal => rfl
  | ok read =>
      obtain ⟨more, malformed⟩ := read
      cases malformed <;> rfl

theorem objectsOf_refused {line : List Char} {rest : List (List Char)}
    (h : ∀ value, Json.loads D line ≠ .ok value) : objectsOf D (line :: rest) = none := by
  rw [objectsOf, parseLines]
  cases hloads : Json.loads D line with
  | error refusal => cases refusal <;> rfl
  | ok value => exact absurd hloads (h value)

/-- What a reader makes of the file. -/
theorem readLines_textOf (hletter : KeyLetter letter)
    (h : ∀ piece ∈ pieces, Writable letter piece.event) :
    readLines D (textOf pieces) = readPieces pieces := by
  rw [readLines, universalNewlines_eq_self (plain_text h)]
  induction pieces with
  | nil => rfl
  | cons piece rest ih =>
      rw [List.forall_mem_cons] at h
      obtain ⟨hevent, hrest⟩ := h
      rw [textOf_cons]
      cases piece with
      | line event =>
          change Writable letter event at hevent
          rw [Piece.text, List.append_assoc, List.singleton_append,
            splitlines_plain (lineOf_plain hevent), objectsOf_cons D (loads_lineOf D hevent),
            ih hrest, readPieces]
      | cut event taken =>
          rw [readPieces, Piece.text]
          split
          · rename_i htaken
            rw [htaken, List.take_zero, List.nil_append, ih hrest]
          · rename_i htaken
            change Writable letter event at hevent
            obtain ⟨begins, hbegins, hends⟩ := exists_line hrest
            have hline : lineOf event = (lineOf event).take taken ++ (lineOf event).drop taken :=
              (List.take_append_drop _ _).symm
            have hfirst : Beginning letter ((lineOf event).take taken) := by
              refine ⟨?_, event, _, hevent, hline⟩
              obtain ⟨more, hmore⟩ := lineOf_begins event
              obtain ⟨n, rfl⟩ := Nat.exists_eq_succ_of_ne_zero htaken
              rw [hmore]
              exact List.cons_ne_nil _ _
            have hplain : ∀ c ∈ (lineOf event).take taken ++ begins.flatten,
                isLineBoundary c = false := by
              intro c hc
              rcases List.mem_append.mp hc with hc | hc
              · exact hfirst.plain c hc
              · obtain ⟨text, htext, hc⟩ := List.mem_flatten.mp hc
                exact (hbegins text htext).plain c hc
            by_cases hbegun : begins = []
            · -- nothing stands behind the cut
              have hnothing : textOf rest = [] := by
                rcases hends with hends | ⟨-, -, hsome⟩
                · rw [hends, hbegun, List.flatten_nil]
                · exact absurd hbegun hsome
              rw [hnothing, List.append_nil, splitlines_single hfirst.plain hfirst.1]
              split
              · rename_i hwhole
                rw [List.take_of_length_le hwhole.1, objectsOf_cons D (loads_lineOf D hevent)]
                rfl
              · rename_i hwhole
                refine objectsOf_refused D fun value => ?_
                have hdrop : (lineOf event).drop taken ≠ [] := fun hnil =>
                  hwhole ⟨List.drop_eq_nil_iff.mp hnil, rfl⟩
                have hloads := loads_beginning D hletter hevent hline hfirst.1
                  (List.forall_mem_nil (Beginning letter)) (Or.inl hdrop) value
                rwa [List.flatten_nil, List.append_nil] at hloads
            · have hloads := fun value => loads_beginning D hletter hevent hline hfirst.1 hbegins
                (Or.inr hbegun) value
              have hsomething : textOf rest ≠ [] := by
                obtain ⟨text, begins, rfl⟩ := List.exists_cons_of_ne_nil hbegun
                have hflat : (text :: begins).flatten ≠ [] :=
                  List.append_ne_nil_of_left_ne_nil (hbegins text List.mem_cons_self).1 _
                rcases hends with hends | ⟨behind, hends, -⟩
                · rwa [hends]
                · rw [hends]
                  exact List.append_ne_nil_of_left_ne_nil hflat _
              rw [if_neg fun hwhole => hsomething hwhole.2]
              rcases hends with hends | ⟨behind, hends, -⟩
              · rw [hends, splitlines_single hplain (List.append_ne_nil_of_left_ne_nil hfirst.1 _)]
                exact objectsOf_refused D hloads
              · rw [hends, ← List.append_assoc, splitlines_plain hplain]
                exact objectsOf_refused D hloads

end

/-! ### What is written behind -/

/-- The last line stands without its line feed, or a piece is cut inside of its line or stands
    behind such a line. -/
inductive Condition where
  | whole
  | unended
  | broken
deriving DecidableEq

def Condition.behind (condition : Condition) : Piece → Condition
  | .line _ => if condition = .whole then .whole else .broken
  | .cut event taken =>
      if taken = 0 then condition
      else if condition = .whole ∧ (lineOf event).length ≤ taken then .unended
      else .broken

/-- The objects of a piece where nothing is behind it. -/
def Piece.objects : Piece → List Fields
  | .line event => [event]
  | .cut event taken => if (lineOf event).length ≤ taken then [event] else []

/-- What a reader makes of the pieces and of all that is written behind them. -/
def Reads (pieces : List Piece) (objects : List Fields) : Condition → Prop
  | .whole => ∀ more, readPieces (pieces ++ more) = (readPieces more).map (objects ++ ·)
  | .unended => ∀ more, readPieces (pieces ++ more) =
      if textOf more = [] then some objects else none
  | .broken => ∀ more, readPieces (pieces ++ more) = none

section

variable {pieces : List Piece} {objects : List Fields} {condition : Condition}

theorem lineOf_ne_nil (event : Fields) : lineOf event ≠ [] := by
  obtain ⟨rest, hrest⟩ := lineOf_begins event
  rw [hrest]
  exact List.cons_ne_nil _ _

theorem text_eq_nil {piece : Piece} : piece.text = [] ↔ ∃ event, piece = .cut event 0 := by
  cases piece with
  | line event => simp [Piece.text]
  | cut event taken =>
      rw [Piece.text, List.take_eq_nil_iff]
      constructor
      · rintro (rfl | hnil)
        · exact ⟨event, rfl⟩
        · exact absurd hnil (lineOf_ne_nil event)
      · rintro ⟨other, hcut⟩
        cases hcut
        exact Or.inl rfl

theorem Reads.read (h : Reads pieces objects condition) :
    readPieces pieces = if condition = .broken then none else some objects := by
  cases condition with
  | whole => simpa [readPieces] using h []
  | unended => simpa [textOf] using h []
  | broken => simpa using h []

/-- Each object that is read is the event of a piece. -/
theorem exists_piece (h : readPieces pieces = some objects) :
    ∀ event ∈ objects, ∃ piece ∈ pieces, piece.event = event := by
  induction pieces generalizing objects with
  | nil =>
      cases h
      exact List.forall_mem_nil _
  | cons piece rest ih =>
      intro event hevent
      cases piece with
      | line first =>
          rw [readPieces, Option.map_eq_some_iff] at h
          obtain ⟨more, hmore, rfl⟩ := h
          rcases List.mem_cons.mp hevent with rfl | hevent
          · exact ⟨.line event, List.mem_cons_self, rfl⟩
          · obtain ⟨piece, hpiece, heq⟩ := ih hmore event hevent
            exact ⟨piece, List.mem_cons_of_mem _ hpiece, heq⟩
      | cut first taken =>
          rw [readPieces] at h
          split at h
          · obtain ⟨piece, hpiece, heq⟩ := ih h event hevent
            exact ⟨piece, List.mem_cons_of_mem _ hpiece, heq⟩
          · split at h
            · cases h
              rw [List.mem_singleton.mp hevent]
              exact ⟨.cut first taken, List.mem_cons_self, rfl⟩
            · cases h

theorem reads_nil : Reads [] [] .whole := by
  intro more
  simp

theorem reads_lines (objects : List Fields) : Reads (objects.map .line) objects .whole := by
  induction objects with
  | nil => exact reads_nil
  | cons event rest ih =>
      intro more
      have hrest : readPieces (rest.map .line ++ more) = (readPieces more).map (rest ++ ·) := ih more
      rw [List.map_cons, List.cons_append, readPieces, hrest, Option.map_map]
      rfl

/-- One more piece. -/
theorem Reads.snoc (h : Reads pieces objects condition) (piece : Piece) :
    Reads (pieces ++ [piece]) (objects ++ piece.objects) (condition.behind piece) := by
  have hsplit : ∀ more, pieces ++ [piece] ++ more = pieces ++ piece :: more := by
    intro more
    rw [List.append_assoc, List.singleton_append]
  cases condition with
  | broken =>
      have hbroken : Condition.behind .broken piece = .broken := by
        cases piece <;> simp [Condition.behind]
      rw [hbroken]
      intro more
      rw [hsplit]
      exact h _
  | unended =>
      by_cases htext : piece.text = []
      · obtain ⟨event, rfl⟩ := text_eq_nil.mp htext
        have hnone : (Piece.cut event 0).objects = [] := by
          rw [Piece.objects, if_neg]
          intro hle
          exact lineOf_ne_nil event (List.length_eq_zero_iff.mp (Nat.le_zero.mp hle))
        have hsame : Condition.behind .unended (.cut event 0) = .unended := rfl
        rw [hnone, List.append_nil, hsame]
        intro more
        rw [hsplit, h, textOf_cons, htext, List.nil_append]
      · have hbroken : Condition.behind .unended piece = .broken := by
          cases piece with
          | line event => rfl
          | cut event taken =>
              have htaken : taken ≠ 0 := by
                rintro rfl
                exact htext rfl
              simp [Condition.behind, htaken]
        rw [hbroken]
        intro more
        rw [hsplit, h, if_neg]
        rw [textOf_cons]
        exact List.append_ne_nil_of_left_ne_nil htext _
  | whole =>
      have hwhole : ∀ more, readPieces (pieces ++ more) = (readPieces more).map (objects ++ ·) := h
      cases piece with
      | line event =>
          have hsame : Condition.behind .whole (.line event) = .whole := rfl
          rw [hsame]
          intro more
          rw [hsplit, hwhole, readPieces, Option.map_map]
          congr 1
          funext rest
          simp [Piece.objects]
      | cut event taken =>
          have hlength : 0 < (lineOf event).length :=
            List.length_pos_iff.mpr (lineOf_ne_nil event)
          rw [Condition.behind, Piece.objects]
          by_cases htaken : taken = 0
          · subst htaken
            rw [if_pos rfl, if_neg (by omega), List.append_nil]
            intro more
            rw [hsplit, hwhole, readPieces, if_pos rfl]
          · rw [if_neg htaken]
            by_cases hend : (lineOf event).length ≤ taken
            · rw [if_pos hend, if_pos ⟨rfl, hend⟩]
              intro more
              rw [hsplit, hwhole, readPieces, if_neg htaken]
              by_cases hmore : textOf more = []
              · rw [if_pos ⟨hend, hmore⟩, if_pos hmore]
                rfl
              · rw [if_neg fun hboth => hmore hboth.2, if_neg hmore]
                rfl
            · rw [if_neg hend, if_neg fun hboth => hend hboth.2]
              intro more
              rw [hsplit, hwhole, readPieces, if_neg htaken, if_neg fun hboth => hend hboth.1]
              rfl

end

end JsonLog

end Library
