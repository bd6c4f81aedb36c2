import Conveyor.Library.JsonRoundTrip
import Conveyor.Library.TextLines

/-!
# A document that is cut inside a string

A text that is cut at characters that only a string holds falls into a piece that ends inside a
string and pieces that begin inside one. The first is no document. What the scanner makes of the
others has strings and the rest exchanged: their strings are what stood between the strings of the
text, marks and scalars. So a piece that is a document has no key with a letter that no scalar has
(`get?_of_piece`).
-/

namespace Library

namespace JsonText

variable (D : Decoding)

/-! ### The characters of a scalar -/

/-- The characters of numbers and of the named constants. -/
def isLexemeChar (c : Char) : Bool := decide (c ∈ "+-.0123456789EINaefilnrstuy".toList)

theorem isLexemeChar_of_isDigit {c : Char} (h : isDigit c = true) : isLexemeChar c = true := by
  rw [isDigit, Bool.and_eq_true, decide_eq_true_eq, decide_eq_true_eq] at h
  obtain ⟨n, hn, rfl⟩ : ∃ n, n = c.toNat ∧ c = Char.ofNat n := ⟨c.toNat, rfl, by simp⟩
  have hlow : 48 ≤ n := hn ▸ h.1
  have hhigh : n ≤ 57 := hn ▸ h.2
  clear h hn
  interval_cases n <;> decide

/-- The text was taken apart in order, and what was taken has the characters of a lexeme. -/
def Takes (text : List Char) (taken : List Char × List Char) : Prop :=
  text = taken.1 ++ taken.2 ∧ ∀ c ∈ taken.1, isLexemeChar c = true

theorem takes_digits (text : List Char) :
    Takes text (text.takeWhile isDigit, text.dropWhile isDigit) :=
  ⟨List.takeWhile_append_dropWhile.symm, fun _ hc =>
    isLexemeChar_of_isDigit (List.mem_takeWhile_imp hc)⟩

theorem takes_none (text : List Char) : Takes text ([], text) :=
  ⟨rfl, fun _ hc => nomatch hc⟩

theorem takes_integral (text : List Char) : Takes text (integral text) := by
  unfold integral
  split
  · exact ⟨rfl, by simp [isLexemeChar]⟩
  · exact takes_digits _

theorem takes_fraction (text : List Char) : Takes text (fraction text) := by
  unfold fraction
  split
  · rename_i rest
    split
    · exact takes_none _
    · obtain ⟨heq, hchars⟩ := takes_digits rest
      refine ⟨congrArg ('.' :: ·) heq, List.forall_mem_cons.mpr ⟨by decide, hchars⟩⟩
  · exact takes_none _

theorem takes_exponentSign (text : List Char) : Takes text (exponentSign text) := by
  unfold exponentSign
  split
  · exact ⟨rfl, by simp [isLexemeChar]⟩
  · exact ⟨rfl, by simp [isLexemeChar]⟩
  · exact takes_none _

theorem takes_exponent (text : List Char) : Takes text (exponent text) := by
  unfold exponent
  split
  · exact takes_none _
  · rename_i c rest
    split
    · rename_i hc
      have hmark : isLexemeChar c = true := by
        rcases hc with rfl | rfl <;> decide
      dsimp only
      split
      · exact takes_none _
      · obtain ⟨hsign, hsignChars⟩ := takes_exponentSign rest
        obtain ⟨hdigits, hdigitChars⟩ := takes_digits (exponentSign rest).2
        refine ⟨?_, ?_⟩
        · rw [List.cons_append, List.append_assoc, ← hdigits, ← hsign]
        · exact List.forall_mem_cons.mpr
            ⟨hmark, List.forall_mem_append.mpr ⟨hsignChars, hdigitChars⟩⟩
    · exact takes_none _

/-- A number that is read has nothing behind its parts. -/
theorem number_chars {negative : Bool} {digits rest : List Char} {value : Json}
    (h : number D negative digits rest = .ok value) : ∀ c ∈ rest, isLexemeChar c = true := by
  obtain ⟨hfraction, hfractionChars⟩ := takes_fraction rest
  obtain ⟨hexponent, hexponentChars⟩ := takes_exponent (fraction rest).2
  have hend : (exponent (fraction rest).2).2 = [] := by
    by_contra hne
    simp only [number, if_pos hne] at h
    split_ifs at h
  rw [hfraction, hexponent, hend, List.append_nil]
  exact List.forall_mem_append.mpr ⟨hfractionChars, hexponentChars⟩

theorem integral_number_chars {negative : Bool} {text : List Char} {value : Json}
    (h : number D negative (integral text).1 (integral text).2 = .ok value) :
    ∀ c ∈ text, isLexemeChar c = true := by
  obtain ⟨heq, hchars⟩ := takes_integral text
  rw [heq]
  exact List.forall_mem_append.mpr ⟨hchars, number_chars D h⟩

theorem scalarOf_chars {lexeme : List Char} {value : Json} (h : scalarOf D lexeme = .ok value) :
    ∀ c ∈ lexeme, isLexemeChar c = true := by
  unfold scalarOf at h
  split at h
  · rename_i heq
    subst heq
    exact List.all_eq_true.mp (by decide)
  split at h
  · rename_i heq
    subst heq
    exact List.all_eq_true.mp (by decide)
  split at h
  · rename_i heq
    subst heq
    exact List.all_eq_true.mp (by decide)
  split at h
  · rename_i hmem
    simp only [List.mem_cons, List.not_mem_nil, or_false] at hmem
    rcases hmem with rfl | rfl | rfl <;> exact List.all_eq_true.mp (by decide)
  split at h
  · exact List.forall_mem_cons.mpr ⟨by decide, integral_number_chars D h⟩
  · exact integral_number_chars D h

/-! ### What the scanner accepts -/

/-- The scanner refuses no character, and no scalar that it finds has the letter. -/
def Scans (letter : Char) (scan : Scan) (text : List Char) : Prop :=
  ∀ token ∈ scanFrom D scan text, token ≠ .invalid ∧
    ∀ lexeme, token = .scalar lexeme → letter ∉ lexeme

theorem scans_cons {letter c : Char} {scan : Scan} {rest : List Char} :
    Scans D letter scan (c :: rest) ↔
      (∀ token ∈ (scanChar D scan c).1, token ≠ .invalid ∧
        ∀ lexeme, token = .scalar lexeme → letter ∉ lexeme) ∧
      Scans D letter (scanChar D scan c).2 rest := by
  rw [Scans, scanFrom]
  exact List.forall_mem_append

/-- What was read of a scalar does not have the letter. -/
theorem not_mem_read {letter : Char} {read text : List Char}
    (h : Scans D letter (.scalar read) text) : letter ∉ read := by
  induction text generalizing read with
  | nil =>
      have hlexeme := (h _ List.mem_cons_self).2 _ rfl
      exact fun hmem => hlexeme (List.mem_reverse.mpr hmem)
  | cons c rest ih =>
      rw [scans_cons, scanChar] at h
      split at h
      · exact fun hmem => ih h.2 (List.mem_cons_of_mem _ hmem)
      · have hlexeme := (h.1 _ List.mem_cons_self).2 _ rfl
        exact fun hmem => hlexeme (List.mem_reverse.mpr hmem)

/-- A character that only a string holds. -/
structure OnlyInside (c : Char) : Prop where
  notBlank : isBlank c = false
  notQuote : c ≠ '"'
  notMark : isMark c = false
  notScalar : isScalarChar c = false
  unescape : unescape? c = none
  hex : hexValue? c = none
  notUnicode : c ≠ 'u'

theorem OnlyInside.start {c : Char} (h : OnlyInside c) : start c = ([.invalid], .failed) := by
  simp [JsonText.start, h.notBlank, h.notQuote, h.notMark, h.notScalar]

theorem onlyInside_of_isLineBoundary {c : Char} (h : isLineBoundary c = true) (hfeed : c ≠ '\n')
    (hreturn : c ≠ '\r') : OnlyInside c := by
  obtain ⟨n, hn, rfl⟩ : ∃ n, n = c.toNat ∧ c = Char.ofNat n := ⟨c.toNat, rfl, by simp⟩
  rw [isLineBoundary, decide_eq_true_eq, ← hn] at h
  clear hn
  simp only [List.mem_cons, List.not_mem_nil, or_false] at h
  rcases h with rfl | rfl | rfl | rfl | rfl | rfl | rfl | rfl | rfl | rfl
  · exact absurd rfl hfeed
  · constructor <;> decide
  · constructor <;> decide
  · exact absurd rfl hreturn
  all_goals constructor <;> decide

/-- The scanner fails where it refuses a character. -/
theorem invalid_of_failed {scan : Scan} {c : Char} (hscan : scan ≠ .failed)
    (h : (scanChar D scan c).2 = .failed) : Token.invalid ∈ (scanChar D scan c).1 := by
  have hstart : (start c).2 = .failed → Token.invalid ∈ (start c).1 := by
    intro hfailed
    unfold start at hfailed ⊢
    split_ifs at hfailed ⊢
    exact List.mem_cons_self
  cases scan with
  | between => exact hstart h
  | scalar read =>
      rw [scanChar] at h ⊢
      split_ifs at h ⊢
      exact List.mem_cons_of_mem _ (hstart h)
  | text units =>
      rw [scanChar] at h ⊢
      split_ifs at h ⊢
      exact List.mem_cons_self
  | escape units =>
      rw [scanChar] at h ⊢
      split at h
      · cases h
      · split_ifs at h ⊢
        exact List.mem_cons_self
  | hex units value missing =>
      rw [scanChar] at h ⊢
      split at h
      · exact List.mem_cons_self
      · split at h <;> cases h
  | failed => exact absurd rfl hscan

/-- Before a character that only a string holds, the scanner is inside a string; a text that ends
    there is no document. -/
theorem scans_cut {letter c : Char} {scan : Scan} {before after : List Char} (hc : OnlyInside c)
    (hscan : scan ≠ .failed) (h : Scans D letter scan (before ++ c :: after)) :
    (∃ units, Scans D letter (.text units) after) ∧ Token.invalid ∈ scanFrom D scan before := by
  induction before generalizing scan with
  | nil =>
      rw [List.nil_append, scans_cons] at h
      have hstart : ¬∀ token ∈ (start c).1, token ≠ Token.invalid ∧
          ∀ lexeme, token = .scalar lexeme → letter ∉ lexeme := by
        rw [hc.start]
        exact fun hall => (hall _ List.mem_cons_self).1 rfl
      cases scan with
      | between => exact absurd h.1 hstart
      | scalar read =>
          rw [scanChar, hc.notScalar, if_neg Bool.false_ne_true] at h
          exact absurd (List.forall_mem_cons.mp h.1).2 hstart
      | text units =>
          rw [scanChar] at h
          split_ifs at h with hquote hslash hcontrol
          · exact absurd hquote hc.notQuote
          · rw [hslash] at hc
            exact absurd hc.unescape (by decide)
          · exact absurd rfl (h.1 _ List.mem_cons_self).1
          · exact ⟨⟨_, h.2⟩, List.mem_cons_self⟩
      | escape units =>
          rw [scanChar, hc.unescape] at h
          simp only [if_neg hc.notUnicode] at h
          exact absurd rfl (h.1 _ List.mem_cons_self).1
      | hex units value missing =>
          rw [scanChar, hc.hex] at h
          exact absurd rfl (h.1 _ List.mem_cons_self).1
      | failed => exact absurd rfl hscan
  | cons d before ih =>
      rw [List.cons_append, scans_cons] at h
      have hnext : (scanChar D scan d).2 ≠ .failed := fun hfailed =>
        (h.1 _ (invalid_of_failed D hscan hfailed)).1 rfl
      obtain ⟨hinside, hinvalid⟩ := ih hnext h.2
      exact ⟨hinside, List.mem_append_right _ hinvalid⟩

/-! ### Behind a cut -/

/-- Where the scanner of a text stands, and where the one of a piece of it stands that begins
    inside a string: what is a string for the one is none for the other. -/
inductive Swapped (letter : Char) : Scan → Scan → Prop
  | between (units : List Nat) : Swapped letter (.text units) .between
  | scalar (units : List Nat) (read : List Char) : Swapped letter (.text units) (.scalar read)
  | apart (seen : List Char) (h : letter ∉ seen) :
      Swapped letter .between (.text (seen.map Char.toNat))
  | lexeme (read seen : List Char) (h : letter ∉ seen) :
      Swapped letter (.scalar read) (.text (seen.map Char.toNat))

/-- What a token of a piece is: a string has no letter that the text has in strings only. -/
def Plain (letter : Char) (tokens : List Token) : Prop :=
  ∀ chars, Token.text chars ∈ tokens → letter ∉ chars

theorem plain_nil (letter : Char) : Plain letter [] := fun _ h => nomatch h

/-- Behind the opening of a string for the text, the piece goes on outside of strings. -/
theorem swapped_start {letter c : Char} (units : List Nat) (hquote : c ≠ '"') :
    Token.invalid ∈ (start c).1 ∨
      Swapped letter (.text units) (start c).2 ∧ Plain letter (start c).1 := by
  unfold start
  split_ifs
  · exact Or.inr ⟨.between units, plain_nil letter⟩
  · refine Or.inr ⟨.between units, fun chars hmem => ?_⟩
    cases List.mem_singleton.mp hmem
  · exact Or.inr ⟨.scalar units [c], plain_nil letter⟩
  · exact Or.inl List.mem_cons_self

/-- A character outside of strings for the text is one of a string for the piece. -/
theorem swapped_inside {letter c : Char} {seen : List Char} (hseen : letter ∉ seen)
    (hquote : c ≠ '"') (hslash : c ≠ '\\') (hletter : letter ≠ c) {scan : Scan}
    (hscan : scan = .between ∨ ∃ read, scan = .scalar read) :
    Token.invalid ∈ (scanChar D (.text (seen.map Char.toNat)) c).1 ∨
      Swapped letter scan (scanChar D (.text (seen.map Char.toNat)) c).2 ∧
        Plain letter (scanChar D (.text (seen.map Char.toNat)) c).1 := by
  have hmore : letter ∉ c :: seen := by
    rw [List.mem_cons, not_or]
    exact ⟨hletter, hseen⟩
  rw [scanChar, if_neg hquote, if_neg hslash]
  split_ifs
  · exact Or.inl List.mem_cons_self
  · rcases hscan with rfl | ⟨read, rfl⟩
    · exact Or.inr ⟨.apart (c :: seen) hmore, plain_nil letter⟩
    · exact Or.inr ⟨.lexeme read (c :: seen) hmore, plain_nil letter⟩

/-- The closing quote of a string of the piece opens one of the text. -/
theorem swapped_closing {letter : Char} {seen : List Char} (hseen : letter ∉ seen) :
    Swapped letter (.text []) (scanChar D (.text (seen.map Char.toNat)) '"').2 ∧
      Plain letter (scanChar D (.text (seen.map Char.toNat)) '"').1 := by
  refine ⟨.between [], fun chars hmem => ?_⟩
  have heq : chars = seen.reverse := by
    rw [scanChar, if_pos rfl, ← List.map_reverse, joinUnits_toNat] at hmem
    cases List.mem_singleton.mp hmem
    rfl
  rw [heq, List.mem_reverse]
  exact hseen

/-- The text goes on in a string, or closes it. -/
theorem swapped_text {letter c : Char} {units : List Nat}
    (h : ∀ token ∈ (scanChar D (.text units) c).1, token ≠ Token.invalid) :
    Token.invalid ∈ (start c).1 ∨
      Swapped letter (scanChar D (.text units) c).2 (start c).2 ∧ Plain letter (start c).1 := by
  by_cases hquote : c = '"'
  · subst hquote
    exact Or.inr ⟨.apart [] List.not_mem_nil, plain_nil letter⟩
  by_cases hslash : c = '\\'
  · subst hslash
    exact Or.inl List.mem_cons_self
  rw [scanChar, if_neg hquote, if_neg hslash] at h ⊢
  split_ifs at h ⊢
  · exact absurd rfl (h _ List.mem_cons_self)
  · exact swapped_start _ hquote

/-- The text goes on outside of strings, or opens one. -/
theorem swapped_opening {letter c : Char} {seen rest : List Char} (hseen : letter ∉ seen)
    (hmark : isMark letter = false) (hblank : isBlank letter = false)
    (h : ∀ token ∈ (start c).1, token ≠ Token.invalid) (hlater : Scans D letter (start c).2 rest) :
    Token.invalid ∈ (scanChar D (.text (seen.map Char.toNat)) c).1 ∨
      Swapped letter (start c).2 (scanChar D (.text (seen.map Char.toNat)) c).2 ∧
        Plain letter (scanChar D (.text (seen.map Char.toNat)) c).1 := by
  by_cases hquote : c = '"'
  · subst hquote
    exact Or.inr (swapped_closing D hseen)
  by_cases hslash : c = '\\'
  · subst hslash
    exact absurd rfl (h _ List.mem_cons_self)
  unfold start at h hlater ⊢
  split_ifs at h hlater ⊢ with hblanks hmarks hscalar
  · have hletter : letter ≠ c := fun heq => by simp [← heq, hblank] at hblanks
    exact swapped_inside D hseen hquote hslash hletter (Or.inl rfl)
  · have hletter : letter ≠ c := fun heq => by simp [← heq, hmark] at hmarks
    exact swapped_inside D hseen hquote hslash hletter (Or.inl rfl)
  · have hletter : letter ≠ c := fun heq => not_mem_read D hlater (heq ▸ List.mem_cons_self)
    exact swapped_inside D hseen hquote hslash hletter (Or.inr ⟨_, rfl⟩)
  · exact absurd rfl (h _ List.mem_cons_self)

theorem scalarChar_ne {c : Char} (h : isScalarChar c = true) : c ≠ '"' ∧ c ≠ '\\' := by
  constructor <;>
    (rintro rfl
     revert h
     decide)

theorem swapped_step {letter c : Char} {scan piece : Scan} {rest : List Char}
    (hmark : isMark letter = false) (hblank : isBlank letter = false)
    (hswap : Swapped letter scan piece) (h : Scans D letter scan (c :: rest)) :
    Token.invalid ∈ (scanChar D piece c).1 ∨
      Swapped letter (scanChar D scan c).2 (scanChar D piece c).2 ∧
        Plain letter (scanChar D piece c).1 := by
  rw [scans_cons] at h
  obtain ⟨htokens, hlater⟩ := h
  have hvalid : ∀ token ∈ (scanChar D scan c).1, token ≠ Token.invalid :=
    fun token hmem => (htokens token hmem).1
  cases hswap with
  | between units => exact swapped_text D hvalid
  | scalar units read =>
      by_cases hscalar : isScalarChar c = true
      · obtain ⟨hquote, hslash⟩ := scalarChar_ne hscalar
        rw [scanChar, if_neg hquote, if_neg hslash] at hvalid ⊢
        rw [scanChar, if_pos hscalar]
        split_ifs at hvalid ⊢
        · exact absurd rfl (hvalid _ List.mem_cons_self)
        · exact Or.inr ⟨.scalar _ _, plain_nil letter⟩
      · have hpiece : scanChar D (.scalar read) c =
            (.scalar read.reverse :: (start c).1, (start c).2) := by
          rw [scanChar, if_neg hscalar]
        rw [hpiece]
        rcases swapped_text D hvalid with hinvalid | ⟨hnext, hplain⟩
        · exact Or.inl (List.mem_cons_of_mem _ hinvalid)
        · refine Or.inr ⟨hnext, fun chars hmem => ?_⟩
          rcases List.mem_cons.mp hmem with heq | hmem
          · cases heq
          · exact hplain chars hmem
  | apart seen hseen => exact swapped_opening D hseen hmark hblank hvalid hlater
  | lexeme read seen hseen =>
      rw [scanChar] at hvalid hlater ⊢
      split_ifs at hvalid hlater ⊢ with hscalar
      · obtain ⟨hquote, hslash⟩ := scalarChar_ne hscalar
        have hletter : letter ≠ c := fun heq => not_mem_read D hlater (heq ▸ List.mem_cons_self)
        exact swapped_inside D hseen hquote hslash hletter (Or.inr ⟨_, rfl⟩)
      · exact swapped_opening D hseen hmark hblank (List.forall_mem_cons.mp hvalid).2 hlater

/-- A piece that begins inside a string is refused, or its strings do not have the letter. -/
theorem plain_of_swapped {letter : Char} {scan swapped : Scan} {piece rest : List Char}
    (hmark : isMark letter = false) (hblank : isBlank letter = false)
    (hswap : Swapped letter scan swapped) (h : Scans D letter scan (piece ++ rest)) :
    Token.invalid ∈ scanFrom D swapped piece ∨ Plain letter (scanFrom D swapped piece) := by
  induction piece generalizing scan swapped with
  | nil =>
      refine Or.inr fun chars hmem => ?_
      cases swapped <;> simp [scanFrom, scanEnd] at hmem
  | cons c piece ih =>
      rw [List.cons_append] at h
      rcases swapped_step D hmark hblank hswap h with hinvalid | ⟨hnext, hplain⟩
      · exact Or.inl (List.mem_append_left _ hinvalid)
      · rcases ih hnext ((scans_cons D).mp h).2 with hinvalid | hlater
        · exact Or.inl (List.mem_append_right _ hinvalid)
        · refine Or.inr fun chars hmem => ?_
          rcases List.mem_append.mp hmem with hmem | hmem
          · exact hplain chars hmem
          · exact hlater chars hmem

/-! ### What the machine takes -/

theorem accepted_of_foldlM {tokens : List Token} {parse final : Parse}
    (h : tokens.foldlM (parseToken D) parse = .ok final) :
    ∀ token ∈ tokens, ∃ before after, parseToken D before token = .ok after := by
  induction tokens generalizing parse with
  | nil => exact fun _ hmem => nomatch hmem
  | cons token tokens ih =>
      rw [List.foldlM_cons] at h
      cases hnext : parseToken D parse token with
      | error refusal => rw [hnext] at h; cases h
      | ok next =>
          rw [hnext] at h
          exact List.forall_mem_cons.mpr ⟨⟨parse, next, hnext⟩, ih h⟩

theorem closed_eq_ok {stack : List Frame} {last : Json} {token : Token} {after : Parse}
    (h : closed stack last token = .ok after) : ∃ c, token = .mark c := by
  unfold closed at h
  split at h <;> first | exact ⟨_, rfl⟩ | cases h

/-- A valid token, and a scalar that has a value. -/
def Readable (token : Token) : Prop :=
  token ≠ .invalid ∧ ∀ lexeme, token = .scalar lexeme → ∃ value, scalarOf D lexeme = .ok value

theorem readable_mark (c : Char) : Readable D (.mark c) := ⟨nofun, nofun⟩

theorem readable_text (chars : List Char) : Readable D (.text chars) := ⟨nofun, nofun⟩

theorem readable_of_opened {stack : List Frame} {token : Token} {after : Parse}
    (h : opened D stack token = .ok after) : Readable D token := by
  cases token with
  | mark c => exact readable_mark D c
  | text chars => exact readable_text D chars
  | invalid => cases h
  | scalar lexeme =>
      cases hvalue : scalarOf D lexeme with
      | error refusal => rw [opened, hvalue] at h; cases h
      | ok value =>
          refine ⟨nofun, fun other heq => ⟨value, ?_⟩⟩
          cases heq
          exact hvalue

theorem readable_of_accepted {before after : Parse} {token : Token}
    (h : parseToken D before token = .ok after) : Readable D token := by
  unfold parseToken at h
  split at h
  · exact readable_of_opened D h
  · split at h
    · exact readable_mark D _
    · exact readable_of_opened D h
  · split at h
    · exact readable_mark D _
    · exact readable_text D _
    · cases h
  · split at h
    · exact readable_text D _
    · cases h
  · split at h
    · exact readable_mark D _
    · cases h
  · obtain ⟨c, rfl⟩ := closed_eq_ok h
    exact readable_mark D c

theorem loads_eq_ok {text : List Char} {value : Json} (h : Json.loads D text = .ok value) :
    (scanFrom D .between text).foldlM (parseToken D) ⟨[], .value⟩ =
      .ok ⟨[], .separator value⟩ := by
  rw [Json.loads] at h
  cases hparse : (scanFrom D .between text).foldlM (parseToken D) ⟨[], .value⟩ with
  | error refusal => rw [hparse] at h; cases h
  | ok parse =>
      rw [hparse] at h
      obtain ⟨stack, expected⟩ := parse
      cases stack with
      | cons frame stack => cases h
      | nil => cases expected <;> cases h; rfl

/-- The scanner takes a document, and no scalar of it has a letter that lexemes do not have. -/
theorem scans_of_loads {text : List Char} {value : Json} {letter : Char}
    (h : Json.loads D text = .ok value) (hletter : isLexemeChar letter = false) :
    Scans D letter .between text := by
  intro token hmem
  obtain ⟨before, after, haccepted⟩ := accepted_of_foldlM D (loads_eq_ok D h) token hmem
  obtain ⟨hvalid, hscalar⟩ := readable_of_accepted D haccepted
  refine ⟨hvalid, fun lexeme heq hin => ?_⟩
  obtain ⟨scalar, hok⟩ := hscalar lexeme heq
  have hchar := scalarOf_chars D hok letter hin
  rw [hletter] at hchar
  cases hchar

/-! ### The keys of a document -/

section Keys

variable (P : String → Prop)

def Frame.KeysIn : Frame → Prop
  | .items _ => True
  | .fields read key => (∀ name ∈ read.keys, P name) ∧ P key

def Expected.KeysIn : Expected → Prop
  | .key read => ∀ name ∈ read.keys, P name
  | .colon read next => (∀ name ∈ read.keys, P name) ∧ P next
  | .separator (.obj fields) => ∀ name ∈ Fields.keys fields, P name
  | _ => True

/-- The keys of every object that is open, and of the one that was just closed. -/
structure Parse.KeysIn (parse : Parse) : Prop where
  stack : ∀ frame ∈ parse.stack, frame.KeysIn P
  expected : parse.expected.KeysIn P

variable {P}

theorem scalarOf_not_obj {lexeme : List Char} {fields : Fields} :
    scalarOf D lexeme ≠ .ok (.obj fields) := by
  have hnumber : ∀ negative digits rest, number D negative digits rest ≠ .ok (.obj fields) := by
    intro negative digits rest h
    simp only [number] at h
    split_ifs at h <;> cases h
  intro h
  unfold scalarOf at h
  split_ifs at h
  all_goals first
    | cases h
    | (split at h <;> exact hnumber _ _ _ h)

theorem opened_keysIn {stack : List Frame} {token : Token} {after : Parse}
    (h : opened D stack token = .ok after) (hstack : ∀ frame ∈ stack, frame.KeysIn P) :
    after.KeysIn P := by
  unfold opened at h
  split at h
  · cases h
    exact ⟨hstack, trivial⟩
  · rename_i lexeme
    cases hvalue : scalarOf D lexeme with
    | error refusal => rw [hvalue] at h; cases h
    | ok value =>
        rw [hvalue] at h
        cases h
        refine ⟨hstack, ?_⟩
        cases value with
        | obj fields => exact absurd hvalue (scalarOf_not_obj D)
        | _ => trivial
  · cases h
    exact ⟨List.forall_mem_cons.mpr ⟨trivial, hstack⟩, trivial⟩
  · cases h
    exact ⟨hstack, trivial⟩
  · cases h

theorem set_keysIn {read : Fields} {key : String} {last : Json}
    (hread : ∀ name ∈ read.keys, P name) (hkey : P key) : ∀ name ∈ (read.set key last).keys, P name := by
  intro name hname
  rcases Fields.mem_keys_set.mp hname with rfl | hname
  · exact hkey
  · exact hread name hname

theorem closed_keysIn {stack : List Frame} {last : Json} {token : Token} {after : Parse}
    (h : closed stack last token = .ok after) (hstack : ∀ frame ∈ stack, frame.KeysIn P) :
    after.KeysIn P := by
  unfold closed at h
  split at h
  · split at h
    · cases h
      exact ⟨List.forall_mem_cons.mpr ⟨trivial, (List.forall_mem_cons.mp hstack).2⟩, trivial⟩
    · cases h
      obtain ⟨⟨hread, hkey⟩, houter⟩ := List.forall_mem_cons.mp hstack
      exact ⟨houter, set_keysIn hread hkey⟩
    · cases h
  · split at h
    · cases h
      exact ⟨(List.forall_mem_cons.mp hstack).2, trivial⟩
    · cases h
  · split at h
    · cases h
      obtain ⟨⟨hread, hkey⟩, houter⟩ := List.forall_mem_cons.mp hstack
      exact ⟨houter, set_keysIn hread hkey⟩
    · cases h
  · cases h

theorem parseToken_keysIn {before after : Parse} {token : Token}
    (h : parseToken D before token = .ok after) (hbefore : before.KeysIn P)
    (htext : ∀ chars, token = .text chars → P (String.ofList chars)) : after.KeysIn P := by
  obtain ⟨stack, expected⟩ := before
  obtain ⟨hstack, hexpected⟩ := hbefore
  cases expected with
  | value => exact opened_keysIn D h hstack
  | valueOrEnd =>
      simp only [parseToken] at h
      split at h
      · cases h
        exact ⟨(List.forall_mem_cons.mp hstack).2, trivial⟩
      · exact opened_keysIn D h hstack
  | keyOrEnd =>
      simp only [parseToken] at h
      split at h
      · cases h
        exact ⟨hstack, fun name hname => absurd hname List.not_mem_nil⟩
      · cases h
        exact ⟨hstack, (fun name hname => absurd hname List.not_mem_nil), htext _ rfl⟩
      · cases h
  | key read =>
      simp only [parseToken] at h
      split at h
      · cases h
        exact ⟨hstack, hexpected, htext _ rfl⟩
      · cases h
  | colon read key =>
      simp only [parseToken] at h
      split at h
      · cases h
        exact ⟨List.forall_mem_cons.mpr ⟨hexpected, hstack⟩, trivial⟩
      · cases h
  | separator last => exact closed_keysIn h hstack

theorem foldlM_keysIn {tokens : List Token} {parse final : Parse}
    (h : tokens.foldlM (parseToken D) parse = .ok final) (hparse : parse.KeysIn P)
    (htexts : ∀ chars, Token.text chars ∈ tokens → P (String.ofList chars)) : final.KeysIn P := by
  induction tokens generalizing parse with
  | nil =>
      cases h
      exact hparse
  | cons token tokens ih =>
      rw [List.foldlM_cons] at h
      cases hnext : parseToken D parse token with
      | error refusal => rw [hnext] at h; cases h
      | ok next =>
          rw [hnext] at h
          refine ih h (parseToken_keysIn D hnext hparse fun chars heq => ?_) fun chars hmem => ?_
          · exact htexts chars (heq ▸ List.mem_cons_self)
          · exact htexts chars (List.mem_cons_of_mem _ hmem)

/-- The keys of an object are strings of its text. -/
theorem keys_of_loads {text : List Char} {fields : Fields}
    (h : Json.loads D text = .ok (.obj fields))
    (htexts : ∀ chars, Token.text chars ∈ scanFrom D .between text → P (String.ofList chars)) :
    ∀ name ∈ fields.keys, P name :=
  (foldlM_keysIn D (loads_eq_ok D h) ⟨(fun _ hmem => nomatch hmem), trivial⟩ htexts).expected

end Keys

/-! ### The pieces of a document -/

/-- No key of the piece, if it is a document, has the letter. -/
def LacksLetter (letter : Char) (piece : List Char) : Prop :=
  ∀ fields : Fields, Json.loads D piece = .ok (.obj fields) →
    ∀ key ∈ fields.keys, letter ∉ key.toList

theorem lacksLetter_of_invalid {letter : Char} {piece : List Char}
    (h : Token.invalid ∈ scanFrom D .between piece) : LacksLetter D letter piece := by
  intro fields hloads
  obtain ⟨before, after, haccepted⟩ := accepted_of_foldlM D (loads_eq_ok D hloads) _ h
  exact absurd rfl (readable_of_accepted D haccepted).1

variable {letter : Char} (hmark : isMark letter = false) (hblank : isBlank letter = false)

include hmark hblank

theorem lacksLetter_of_inside {units : List Nat} {piece rest : List Char}
    (h : Scans D letter (.text units) (piece ++ rest)) : LacksLetter D letter piece := by
  rcases plain_of_swapped D hmark hblank (.between units) h with hinvalid | hplain
  · exact lacksLetter_of_invalid D hinvalid
  · intro fields hloads
    refine keys_of_loads D hloads fun chars hmem => ?_
    rw [String.toList_ofList]
    exact hplain chars hmem

theorem lacksLetter_of_pieces {units : List Nat} {text : List Char} (hfeed : '\n' ∉ text)
    (hreturn : '\r' ∉ text) (h : Scans D letter (.text units) text) :
    ∀ piece ∈ splitlines (text ++ ['\n']), LacksLetter D letter piece := by
  induction hlength : text.length using Nat.strong_induction_on generalizing text units with
  | _ length ih =>
      intro piece hpiece
      rcases cut_cases text with hplain | ⟨before, c, after, rfl, hplain, hc⟩
      · rw [splitlines_plain hplain, List.mem_cons] at hpiece
        rcases hpiece with rfl | hpiece
        · have hscans : Scans D letter (.text units) (piece ++ []) := by
            rwa [List.append_nil]
          exact lacksLetter_of_inside D hmark hblank hscans
        · cases hpiece
      · rw [List.mem_append, List.mem_cons, not_or, not_or] at hfeed hreturn
        have honly := onlyInside_of_isLineBoundary hc (Ne.symm hfeed.2.1) (Ne.symm hreturn.2.1)
        obtain ⟨⟨next, hafter⟩, -⟩ := scans_cut D honly (fun heq => Scan.noConfusion heq) h
        rw [List.append_assoc, List.cons_append,
          splitlines_cut hplain hc (Ne.symm hreturn.2.1), List.mem_cons] at hpiece
        rcases hpiece with rfl | hpiece
        · exact lacksLetter_of_inside D hmark hblank h
        · refine ih after.length ?_ hfeed.2.2 hreturn.2.2 hafter rfl piece hpiece
          rw [← hlength, List.length_append, List.length_cons]
          omega

/-- A document with a line boundary inside falls into pieces that have no key with a letter that
    neither the marks nor the scalars of a document have. -/
theorem lacksLetter_of_broken {text : List Char} {value : Json}
    (hletter : isLexemeChar letter = false) (hfeed : '\n' ∉ text) (hreturn : '\r' ∉ text)
    (h : Json.loads D text = .ok value) (hbroken : ∃ c ∈ text, isLineBoundary c = true) :
    ∀ piece ∈ splitlines (text ++ ['\n']), LacksLetter D letter piece := by
  have hscans := scans_of_loads D h hletter
  obtain ⟨before, c, after, rfl, hplain, hc⟩ : ∃ before c after, text = before ++ c :: after ∧
      (∀ d ∈ before, isLineBoundary d = false) ∧ isLineBoundary c = true := by
    rcases cut_cases text with hplain | hcut
    · obtain ⟨c, hmem, hc⟩ := hbroken
      rw [hplain c hmem] at hc
      cases hc
    · exact hcut
  rw [List.mem_append, List.mem_cons, not_or, not_or] at hfeed hreturn
  have honly := onlyInside_of_isLineBoundary hc (Ne.symm hfeed.2.1) (Ne.symm hreturn.2.1)
  obtain ⟨⟨units, hafter⟩, hinvalid⟩ := scans_cut D honly (fun heq => Scan.noConfusion heq) hscans
  intro piece hpiece
  rw [List.append_assoc, List.cons_append,
    splitlines_cut hplain hc (Ne.symm hreturn.2.1), List.mem_cons] at hpiece
  rcases hpiece with rfl | hpiece
  · exact lacksLetter_of_invalid D hinvalid
  · exact lacksLetter_of_pieces D hmark hblank hfeed.2.2 hreturn.2.2 hafter piece hpiece

end JsonText

end Library
