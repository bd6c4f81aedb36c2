import Conveyor.Library.Regex
import Conveyor.Library.Url

/-
  Conveyor/Redaction.lean
  =======================
  Redaction before persistence (`redaction.py`): the URL pass, the six patterns
  applied after it in their order, and the walk over a JSON document.

  Everything the controller writes goes through `redactValue`: the ledger applies
  it to each payload, and `atomic_write_json` applies it again to each document it
  writes. What the other modules need to know is which texts and documents it
  leaves alone: `redactText_eq_self_of_hex` says so for the fingerprints.
-/

namespace Conveyor

open Library

def REDACTED : String := "[REDACTED]"

def SENSITIVE_QUERY_KEYS : List String :=
  ["access_token", "api_key", "apikey", "auth", "authorization", "cookie", "key", "secret",
   "signature", "sig", "token"]

namespace Redaction

/-! ### The patterns -/

/-- Case folding of `re.IGNORECASE` for the letters of a pattern: ASCII, and the
    four characters whose simple case mapping is an ASCII letter. -/
def fold (c : Char) : Char :=
  if c.toNat = 0x130 ∨ c.toNat = 0x131 then 'i'
  else if c.toNat = 0x17f then 's'
  else if c.toNat = 0x212a then 'k'
  else c.toLower

def notNewline (c : Char) : Bool := c ≠ '\n'

/-- `[^\s,;]`. -/
def isTokenChar (c : Char) : Bool := !(Platform.isSpace c || c = ',' || c = ';')

def isSeparator (c : Char) : Bool := c = '_' || c = '-'

/-- `[A-Za-z0-9_-]` under `re.IGNORECASE`. -/
def isKeyChar (c : Char) : Bool := (isAscii (fold c) && (fold c).isAlphanum) || isSeparator c

def isUpperOrSpace (c : Char) : Bool := (decide ('A' ≤ c) && decide (c ≤ 'Z')) || c = ' '

@[irreducible] def word (s : String) : Regex := Regex.textWith fold s

def spaces : Regex := .many (.chr Platform.isSpace)

def separator : Regex := .opt (.chr isSeparator)

def challengeWord : Regex :=
  .oneOf [.cat [word "www", separator, word "authenticate"], word "authrequirederror",
    .cat [word "authrequired", .text "("]]

/-- The lines that carry an authentication challenge. -/
def challengePattern : Regex :=
  .cat [.lineStart, .many (.chr notNewline), challengeWord, .many (.chr notNewline), .lineEnd]

def authorizationPattern : Regex :=
  .cat [.group (.cat [word "authorization", spaces, .text ":", spaces,
      .oneOf [word "bearer", word "basic"], .many1 (.chr Platform.isSpace)]),
    .many1 (.chr isTokenChar)]

def assignmentKey : Regex :=
  .oneOf [.cat [word "api", separator, word "key"],
    .cat [word "access", separator, word "token"],
    .cat [word "refresh", separator, word "token"],
    .cat [word "client", separator, word "secret"],
    word "password", word "passwd", word "cookie", word "set-cookie"]

def assignmentPattern : Regex :=
  .cat [.group (.cat [assignmentKey, spaces, .chr (fun c => c = '=' || c = ':'), spaces]),
    .many1 (.chr isTokenChar)]

def privateKeyPattern : Regex :=
  .cat [.text "-----BEGIN ", .many (.chr isUpperOrSpace), .text "PRIVATE KEY-----",
    .star (.chr fun _ => true) false,
    .text "-----END ", .many (.chr isUpperOrSpace), .text "PRIVATE KEY-----"]

def tokenPrefix : Regex :=
  .oneOf [word "ghp", word "github_pat", word "sk",
    .cat [word "xox", .chr fun c => fold c ∈ "baprs".toList]]

def tokenPattern (P : Platform) : Regex :=
  .cat [.wordBoundary P.isWord, tokenPrefix,
    .chr isSeparator, .atLeast 12 (.chr isKeyChar), .wordBoundary P.isWord]

def cloudPathPattern : Regex :=
  .cat [.text "/Users/", .many1 (.chr fun c => c ≠ '/'), .text "/Library/CloudStorage/",
    .many1 (.chr fun c => !(Platform.isSpace c || c = '"' || c = '\''))]

def constantly (s : String) (_matched _captured : List Char) : List Char := s.toList

def keepGroup (_matched captured : List Char) : List Char := captured ++ REDACTED.toList

/-- `PATTERNS`: each pattern with its replacement, in the order they are applied. -/
def PATTERNS (P : Platform) : List (Regex × (List Char → List Char → List Char)) :=
  [(challengePattern, constantly "[REDACTED_AUTH_CHALLENGE]"),
   (authorizationPattern, keepGroup),
   (assignmentPattern, keepGroup),
   (privateKeyPattern, constantly "[REDACTED_PRIVATE_KEY]"),
   (tokenPattern P, constantly REDACTED),
   (cloudPathPattern, constantly "[REDACTED_USER_DATA_PATH]")]

/-! ### URLs -/

/-- `https?://[^\s"'<>]+`. -/
def urlPattern : Regex :=
  .cat [.text "http", .opt (.text "s"), .text "://",
    .many1 (.chr fun c =>
      !(Platform.isSpace c || c = '"' || c = '\'' || c = '<' || c = '>'))]

def isSensitiveQueryKey (P : Platform) (key : List Char) : Bool :=
  decide (String.ofList (P.lower key) ∈ SENSITIVE_QUERY_KEYS)

/-- `_redact_urls.replace`: user information and sensitive query values go, and a
    URL the library refuses goes as a whole. -/
def replaceUrl (P : Platform) (raw : List Char) : List Char :=
  match Url.urlsplit P raw with
  | none => "[REDACTED_URL]".toList
  | some parsed =>
      match Url.port parsed.netloc with
      | none => "[REDACTED_URL]".toList
      | some port =>
          let portText := if port = 0 then [] else ':' :: (toString port).toList
          let pairs := (Url.parseQsl parsed.query).map fun (key, value) =>
            (key, if isSensitiveQueryKey P key then REDACTED.toList else value)
          Url.urlunsplit ⟨parsed.scheme, Url.hostname P parsed.netloc ++ portText, parsed.path,
            Url.urlencode pairs, parsed.fragment⟩

def redactUrls (P : Platform) (text : List Char) : List Char :=
  urlPattern.sub (fun raw _ => replaceUrl P raw) text

def redactChars (P : Platform) (text : List Char) : List Char :=
  (PATTERNS P).foldl (fun value rule => rule.1.sub rule.2 value) (redactUrls P text)

theorem replaceUrl_ne_nil (P : Platform) (raw : List Char) : replaceUrl P raw ≠ [] := by
  have hrefused : "[REDACTED_URL]".toList ≠ [] := by decide
  unfold replaceUrl
  split
  · exact hrefused
  · split
    · exact hrefused
    · simp [Url.urlunsplit]

theorem redactChars_ne_nil (P : Platform) {text : List Char} (h : text ≠ []) : redactChars P text ≠ [] := by
  have hconstant (s : String) (hs : s.toList ≠ []) (matched captured : List Char) :
      constantly s matched captured ≠ [] := hs
  have hkept (matched captured : List Char) : keepGroup matched captured ≠ [] :=
    List.append_ne_nil_of_right_ne_nil _ (by decide)
  simp only [redactChars, PATTERNS, List.foldl_cons, List.foldl_nil]
  refine Regex.sub_ne_nil (hconstant _ (by decide)) (Regex.sub_ne_nil (hconstant _ (by decide))
    (Regex.sub_ne_nil (hconstant _ (by decide)) (Regex.sub_ne_nil hkept (Regex.sub_ne_nil hkept
      (Regex.sub_ne_nil (hconstant _ (by decide)) (Regex.sub_ne_nil ?_ h))))))
  exact fun raw _ => replaceUrl_ne_nil P raw
end Redaction

def redactText (P : Platform) (text : String) : String :=
  String.ofList (Redaction.redactChars P text.toList)

theorem redactText_ne_empty (P : Platform) {text : String} (h : text ≠ "") :
    redactText P text ≠ "" := by
  intro hempty
  have hchars : text.toList ≠ [] := fun heq => h (String.toList_injective heq)
  exact Redaction.redactChars_ne_nil P hchars (by simpa [redactText] using hempty)

/-! ### Documents -/

/-- `any(word in text for word in words)` for one word: `word in text`. -/
def containsText (word : List Char) : List Char → Bool
  | [] => word.isEmpty
  | c :: cs => word.isPrefixOf (c :: cs) || containsText word cs

/-- The keys whose value is replaced as a whole. -/
def isSensitiveKey (P : Platform) (key : String) : Bool :=
  decide (P.lowerText key ∈ SENSITIVE_QUERY_KEYS) ||
    ["password", "private_key", "credential"].any fun word =>
      containsText word.toList (P.lowerText key).toList

mutual

def redactValue (P : Platform) : Json → Json
  | .str s => .str (redactText P s)
  | .arr items => .arr (redactItems P items)
  | .obj fields => .obj (redactFields P fields)
  | .null => .null
  | .bool b => .bool b
  | .int n => .int n
  | .float lexeme => .float lexeme

def redactItems (P : Platform) : List Json → List Json
  | [] => []
  | value :: rest => redactValue P value :: redactItems P rest

def redactFields (P : Platform) : List (String × Json) → List (String × Json)
  | [] => []
  | (key, value) :: rest =>
      (key, if isSensitiveKey P key then .str REDACTED else redactValue P value) ::
        redactFields P rest

end

/-- What is read back from a file that `atomic_write_json` wrote: the document is
    redacted once more on its way to the file. -/
def atomicWriteJson (P : Platform) (value : Json) : Json := redactValue P value

variable (P : Platform)

@[simp] theorem keys_redactFields (fields : Fields) :
    Fields.keys (redactFields P fields) = Fields.keys fields := by
  induction fields with
  | nil => simp [redactFields]
  | cons head rest ih =>
      obtain ⟨key, value⟩ := head
      simpa [redactFields, Fields.keys] using ih

theorem get?_redactFields (fields : Fields) (key : String) :
    Fields.get? (redactFields P fields) key =
      (Fields.get? fields key).map fun value =>
        if isSensitiveKey P key then .str REDACTED else redactValue P value := by
  induction fields with
  | nil => simp [redactFields]
  | cons head rest ih =>
      obtain ⟨k, value⟩ := head
      simp only [redactFields, Fields.get?_cons, ih]
      by_cases h : key = k
      · subst h; simp
      · simp [h]

theorem get?_redactFields_of_not_sensitive {key : String} (h : isSensitiveKey P key = false)
    (fields : Fields) :
    Fields.get? (redactFields P fields) key =
      (Fields.get? fields key).map (redactValue P) := by
  simp [get?_redactFields, h]

theorem get_redactFields {key : String} (h : isSensitiveKey P key = false) (fields : Fields) :
    Fields.get (redactFields P fields) key = redactValue P (Fields.get fields key) := by
  rw [Fields.get, Fields.get, get?_redactFields_of_not_sensitive P h]
  cases Fields.get? fields key <;> simp [redactValue]

/-- What redaction makes of one entry of an object. -/
def redactEntry (entry : String × Json) : String × Json :=
  (entry.1, if isSensitiveKey P entry.1 then .str REDACTED else redactValue P entry.2)

theorem redactFields_eq_map (fields : Fields) :
    redactFields P fields = fields.map (redactEntry P) := by
  induction fields with
  | nil => simp [redactFields]
  | cons head rest ih =>
      obtain ⟨key, value⟩ := head
      rw [redactFields, ih, List.map_cons, redactEntry]

/-- Redaction leaves an object alone when it leaves each of its entries alone. -/
theorem redactFields_eq_self {fields : Fields} :
    redactFields P fields = fields ↔ ∀ entry ∈ fields, redactEntry P entry = entry := by
  rw [redactFields_eq_map]
  simpa using List.map_inj_left (l := fields) (f := redactEntry P) (g := id)

theorem redactFields_erase (fields : Fields) (key : String) :
    redactFields P (Fields.erase fields key) = Fields.erase (redactFields P fields) key := by
  rw [redactFields_eq_map, redactFields_eq_map, Fields.erase, Fields.erase, List.filter_map]
  rfl

/-! ### Texts redaction leaves alone

Every pattern asks for one of four letters or four marks, so a text without them is left alone:
a lowercase hexadecimal text, and the names of the checkpoints. -/

namespace Redaction

/-- The class has none of the characters that the patterns ask for. -/
structure Harmless (inside : Char → Bool) : Prop where
  letters : ∀ d ∈ ['h', 's', 'u', 'x'], ∀ c, fold c = d → inside c = false
  marks : ∀ c ∈ [':', '=', '-', '/'], inside c = false

section Leaves

variable {inside : Char → Bool}

theorem leaves_word (h : Harmless inside) {s : String} {d : Char} (hd : d ∈ ['h', 's', 'u', 'x'])
    (hs : d ∈ s.toList) : (word s).Leaves inside := by
  rw [word]
  exact Regex.leaves_textWith hs (h.letters d hd)

theorem leaves_text {s : String} {d : Char} (hs : d ∈ s.toList) (h : inside d = false) :
    (Regex.text s).Leaves inside :=
  Regex.leaves_textWith hs fun x hx => by simpa [← hx] using h

theorem urlPattern_leaves (h : Harmless inside) : urlPattern.Leaves inside :=
  Regex.leaves_head (leaves_text (d := 'h') (by decide) (h.letters 'h' (by decide) 'h' (by decide)))

theorem challengeWord_leaves (h : Harmless inside) : challengeWord.Leaves inside := by
  refine Regex.leaves_oneOf fun r hr => ?_
  simp only [List.mem_cons, List.not_mem_nil, or_false] at hr
  rcases hr with hr | hr | hr <;> rw [hr]
  · exact Regex.leaves_tail (Regex.leaves_tail (Regex.leaves_head
      (leaves_word h (d := 'u') (by decide) (by decide))))
  · exact leaves_word h (d := 'u') (by decide) (by decide)
  · exact Regex.leaves_head (leaves_word h (d := 'u') (by decide) (by decide))

theorem assignment_leaves (h : Harmless inside) :
    (Regex.chr fun c => c = '=' || c = ':').Leaves inside := by
  intro c hc
  apply h.marks
  simp only [Bool.or_eq_true, decide_eq_true_eq] at hc
  rcases hc with rfl | rfl <;> decide

theorem tokenPrefix_leaves (h : Harmless inside) : tokenPrefix.Leaves inside := by
  refine Regex.leaves_oneOf fun r hr => ?_
  simp only [List.mem_cons, List.not_mem_nil, or_false] at hr
  rcases hr with hr | hr | hr | hr <;> rw [hr]
  · exact leaves_word h (d := 'h') (by decide) (by decide)
  · exact leaves_word h (d := 'h') (by decide) (by decide)
  · exact leaves_word h (d := 's') (by decide) (by decide)
  · exact Regex.leaves_head (leaves_word h (d := 'x') (by decide) (by decide))

theorem PATTERNS_leave (h : Harmless inside) {rule : Regex × (List Char → List Char → List Char)}
    (hrule : rule ∈ PATTERNS P) : rule.1.Leaves inside := by
  simp only [PATTERNS, List.mem_cons, List.not_mem_nil, or_false] at hrule
  rcases hrule with rfl | rfl | rfl | rfl | rfl | rfl
  · exact Regex.leaves_tail (Regex.leaves_tail (Regex.leaves_head (challengeWord_leaves h)))
  · exact Regex.leaves_head (Regex.leaves_group (Regex.leaves_head
      (leaves_word h (d := 'u') (by decide) (by decide))))
  · exact Regex.leaves_head (Regex.leaves_group (Regex.leaves_tail (Regex.leaves_tail
      (Regex.leaves_head (assignment_leaves h)))))
  · exact Regex.leaves_head (leaves_text (d := '-') (by decide) (h.marks '-' (by decide)))
  · exact Regex.leaves_tail (Regex.leaves_head (tokenPrefix_leaves h))
  · exact Regex.leaves_head (leaves_text (d := '/') (by decide) (h.marks '/' (by decide)))

theorem redactChars_eq_self (hinside : Harmless inside) {text : List Char}
    (h : ∀ c ∈ text, inside c = true) : redactChars P text = text := by
  have hurls : redactUrls P text = text := Regex.sub_eq_self (urlPattern_leaves hinside) _ h
  rw [redactChars, hurls]
  have hrules : ∀ rule ∈ PATTERNS P, rule.1.Leaves inside := fun _ => PATTERNS_leave P hinside
  generalize PATTERNS P = rules at hrules
  induction rules with
  | nil => rfl
  | cons rule rest ih =>
      rw [List.foldl_cons, Regex.sub_eq_self (hrules rule List.mem_cons_self) _ h]
      exact ih fun other hother => hrules other (List.mem_cons_of_mem _ hother)

end Leaves

theorem fold_of_isHexLower {c : Char} (h : Platform.isHexLower c = true) : fold c = c := by
  have hbound : (48 ≤ c.toNat ∧ c.toNat ≤ 57) ∨ (97 ≤ c.toNat ∧ c.toNat ≤ 102) := by
    simp only [Platform.isHexLower, Bool.or_eq_true, Bool.and_eq_true, decide_eq_true_eq] at h
    exact h
  obtain ⟨n, hn, hc⟩ : ∃ n, n = c.toNat ∧ c = Char.ofNat n := ⟨c.toNat, rfl, by simp⟩
  rw [← hn] at hbound
  rw [hc]
  rcases hbound with ⟨hlow, hhigh⟩ | ⟨hlow, hhigh⟩ <;> interval_cases n <;> decide

/-- The letters and marks are in no class of characters that fold to themselves. -/
theorem harmless_of_fold {inside : Char → Bool} (hfold : ∀ c, inside c = true → fold c = c)
    (h : (['h', 's', 'u', 'x', ':', '=', '-', '/'].all fun c => !inside c) = true) :
    Harmless inside := by
  have houtside : ∀ c ∈ ['h', 's', 'u', 'x', ':', '=', '-', '/'], inside c = false := by
    intro c hc
    simpa using List.all_eq_true.mp h c hc
  constructor
  · intro d hd c hc
    rw [← Bool.not_eq_true]
    intro hin
    rw [hfold c hin] at hc
    rw [hc, houtside d (List.mem_append_left [':', '=', '-', '/'] hd)] at hin
    cases hin
  · intro c hc
    exact houtside c (List.mem_append_right ['h', 's', 'u', 'x'] hc)

theorem harmless_isHexLower : Harmless Platform.isHexLower :=
  harmless_of_fold (fun _ => fold_of_isHexLower) (by decide)

/-- The characters of the names of checkpoints. -/
def isNameChar (c : Char) : Bool := decide (c ∈ "abcdefgiklmnopqrtvwyz_".toList)

theorem harmless_isNameChar : Harmless isNameChar := by
  have hfold : ("abcdefgiklmnopqrtvwyz_".toList.all fun c => decide (fold c = c)) = true := by
    decide
  refine harmless_of_fold (fun c hc => ?_) (by decide)
  rw [isNameChar, decide_eq_true_eq] at hc
  exact of_decide_eq_true (List.all_eq_true.mp hfold c hc)

/-! ### Texts without a word of the patterns

A text may have the letters of the patterns and still no place for a match: each pattern asks
for one of four marks, or for one of two words. -/

/-- The text has no mark of the patterns, and neither of their words. -/
def IsWordless (text : List Char) : Prop :=
  (∀ c ∈ [':', '=', '-', '/'], c ∉ text) ∧ challengeWord.search none text = false ∧
    tokenPrefix.search none text = false

instance (text : List Char) : Decidable (IsWordless text) :=
  have : Decidable (∀ c ∈ [':', '=', '-', '/'], c ∉ text) := List.decidableBAll _ _
  inferInstanceAs (Decidable (_ ∧ _ ∧ _))

section Wordless

variable {text : List Char}

def isUnmarked (c : Char) : Bool := decide (c ∉ [':', '=', '-', '/'])

theorem blocked_of_leaves {r : Regex} (hmarks : ∀ c ∈ [':', '=', '-', '/'], c ∉ text)
    (h : r.Leaves isUnmarked) : r.Blocked text := by
  intro c k hc
  refine Regex.run_leaves r h c k fun x hx => decide_eq_true fun hmark => ?_
  exact hmarks x hmark (hc.subset hx)

theorem plain_word (s : String) : (word s).Plain := by
  rw [word]
  exact Regex.plain_textWith

theorem plain_challengeWord : challengeWord.Plain := by
  refine Regex.plain_oneOf fun r hr => ?_
  simp only [List.mem_cons, List.not_mem_nil, or_false] at hr
  rcases hr with rfl | rfl | rfl
  · exact ⟨plain_word _, ⟨trivial, trivial⟩, plain_word _, trivial⟩
  · exact plain_word _
  · exact ⟨plain_word _, Regex.plain_textWith, trivial⟩

theorem plain_tokenPrefix : tokenPrefix.Plain := by
  refine Regex.plain_oneOf fun r hr => ?_
  simp only [List.mem_cons, List.not_mem_nil, or_false] at hr
  rcases hr with rfl | rfl | rfl | rfl
  · exact plain_word _
  · exact plain_word _
  · exact plain_word _
  · exact ⟨plain_word _, trivial, trivial⟩

theorem IsWordless.blocked (h : IsWordless text)
    {rule : Regex × (List Char → List Char → List Char)} (hrule : rule ∈ PATTERNS P) :
    rule.1.Blocked text := by
  obtain ⟨hmarks, hchallenge, htoken⟩ := h
  simp only [PATTERNS, List.mem_cons, List.not_mem_nil, or_false] at hrule
  rcases hrule with rfl | rfl | rfl | rfl | rfl | rfl
  · exact Regex.blocked_tail (Regex.blocked_tail (Regex.blocked_head
      (Regex.blocked_of_search plain_challengeWord hchallenge)))
  · refine blocked_of_leaves hmarks (Regex.leaves_head (Regex.leaves_group ?_))
    exact Regex.leaves_tail (Regex.leaves_tail (Regex.leaves_head
      (leaves_text (d := ':') (by decide) (by decide))))
  · refine blocked_of_leaves hmarks (Regex.leaves_head (Regex.leaves_group ?_))
    refine Regex.leaves_tail (Regex.leaves_tail (Regex.leaves_head fun c hc => ?_))
    simp only [Bool.or_eq_true, decide_eq_true_eq] at hc
    rcases hc with rfl | rfl <;> decide
  · exact blocked_of_leaves hmarks (Regex.leaves_head
      (leaves_text (d := '-') (by decide) (by decide)))
  · exact Regex.blocked_tail (Regex.blocked_head
      (Regex.blocked_of_search plain_tokenPrefix htoken))
  · exact blocked_of_leaves hmarks (Regex.leaves_head
      (leaves_text (d := '/') (by decide) (by decide)))

theorem redactChars_eq_self_of_wordless (h : IsWordless text) : redactChars P text = text := by
  have hurl : urlPattern.Blocked text := blocked_of_leaves h.1
    (Regex.leaves_tail (Regex.leaves_tail (Regex.leaves_head
      (leaves_text (d := ':') (by decide) (by decide)))))
  have hurls : redactUrls P text = text := Regex.sub_eq_self_of_blocked _ hurl
  rw [redactChars, hurls]
  have hrules : ∀ rule ∈ PATTERNS P, rule.1.Blocked text := fun _ => h.blocked P
  generalize PATTERNS P = rules at hrules
  induction rules with
  | nil => rfl
  | cons rule rest ih =>
      rw [List.foldl_cons, Regex.sub_eq_self_of_blocked _ (hrules rule List.mem_cons_self)]
      exact ih fun other hother => hrules other (List.mem_cons_of_mem _ hother)

end Wordless

end Redaction

/-- A text without a word of the patterns survives every redaction. -/
theorem redactText_eq_self_of_wordless {text : String}
    (h : Redaction.IsWordless text.toList) : redactText P text = text := by
  rw [redactText, Redaction.redactChars_eq_self_of_wordless P h, String.ofList_toList]

/-- The digests the program records survive every later redaction. -/
theorem redactText_eq_self_of_hex {text : String}
    (h : ∀ c ∈ text.toList, Platform.isHexLower c = true) : redactText P text = text := by
  rw [redactText, Redaction.redactChars_eq_self P Redaction.harmless_isHexLower h,
    String.ofList_toList]

/-- Whether a value is a digest, or a part of one. -/
def isHexValue : Json → Bool
  | .str text => text.toList.all Platform.isHexLower
  | _ => false

theorem redactEntry_eq_self_of_hex {entry : String × Json} (hkey : isSensitiveKey P entry.1 = false)
    (hvalue : isHexValue entry.2 = true) : redactEntry P entry = entry := by
  obtain ⟨key, value⟩ := entry
  cases value with
  | str text =>
      have htext := redactText_eq_self_of_hex P (List.all_eq_true.mp hvalue)
      simp only [redactEntry, hkey, Bool.false_eq_true, if_false, redactValue, htext]
  | _ => exact absurd hvalue Bool.false_ne_true

/-! ### Keys redaction leaves alone -/

/-- The key test on a text whose characters are all ASCII. -/
def isSensitiveAscii (key : String) : Bool :=
  let lower := key.toList.map Char.toLower
  decide (String.ofList lower ∈ SENSITIVE_QUERY_KEYS) ||
    ["password", "private_key", "credential"].any fun word => containsText word.toList lower

/-- A plain key is decided without the case tables of the platform. -/
theorem isSensitiveKey_of_ascii {key : String} (hascii : key.toList.all isAscii = true)
    (h : isSensitiveAscii key = false) : isSensitiveKey P key = false := by
  have hlower : P.lower key.toList = key.toList.map Char.toLower :=
    P.lower_ascii _ (List.all_eq_true.mp hascii)
  simpa only [isSensitiveKey, Platform.lowerText, hlower, String.toList_ofList,
    isSensitiveAscii] using h

end Conveyor
