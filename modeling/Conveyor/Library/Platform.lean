import Conveyor.Library.Json
import Conveyor.Library.Sha256
import Mathlib.Data.List.DropRight
import Mathlib.Tactic.IntervalCases

/-!
# What the interpreter supplies

The standard-library functions a program rests on but whose tables it does not
contain: the SHA-256 digest and the Unicode data behind `str.lower`,
`str.isalnum`, `str.isprintable` and `unicodedata.normalize`. A `Platform` carries the facts every
implementation of them shares, so a development over an arbitrary platform holds
for the real one; `Platform.reference` computes the digest and knows ASCII.
-/

namespace Library

def isAscii (c : Char) : Bool := decide (c.val < 128)

structure Platform where
  sha256 : List UInt8 → List UInt8
  length_sha256 : ∀ bytes, (sha256 bytes).length = 32
  lower : List Char → List Char
  lower_ascii : ∀ text, (∀ c ∈ text, isAscii c = true) → lower text = text.map Char.toLower
  alphanumeric : Char → Bool
  alphanumeric_ascii : ∀ c, isAscii c = true → alphanumeric c = c.isAlphanum
  printable : Char → Bool
  printable_ascii : ∀ c, isAscii c = true → printable c = decide (32 ≤ c.toNat ∧ c.toNat < 127)
  nfkc : List Char → List Char
  nfkc_ascii : ∀ text, (∀ c ∈ text, isAscii c = true) → nfkc text = text

namespace Platform

def reference : Platform where
  sha256 := Sha256.digest
  length_sha256 := Sha256.length_digest
  lower text := text.map Char.toLower
  lower_ascii _ _ := rfl
  alphanumeric := Char.isAlphanum
  alphanumeric_ascii _ _ := rfl
  printable c := decide (32 ≤ c.toNat ∧ c.toNat < 127)
  printable_ascii _ _ := rfl
  nfkc text := text
  nfkc_ascii _ _ := rfl

variable (P : Platform)

/-! ### Digests -/

def hexByte (b : UInt8) : List Char :=
  [Json.hexDigit (b.toNat / 16), Json.hexDigit (b.toNat % 16)]

/-- `hashlib.sha256(data).hexdigest()`. -/
def hexdigest (bytes : List UInt8) : String :=
  String.ofList ((P.sha256 bytes).flatMap hexByte)

/-- `hashlib.sha256(text.encode("utf-8")).hexdigest()`. -/
def textDigest (text : String) : String := P.hexdigest text.toUTF8.toList

/-- The digest of a document's canonical serialization. -/
def fingerprint (value : Json) : String := P.textDigest value.dumps

def isHexLower (c : Char) : Bool :=
  (decide ('0' ≤ c) && decide (c ≤ '9')) || (decide ('a' ≤ c) && decide (c ≤ 'f'))

theorem isHexLower_hexDigit {n : Nat} (h : n < 16) : isHexLower (Json.hexDigit n) = true := by
  interval_cases n <;> decide

theorem length_flatMap_hexByte (bytes : List UInt8) :
    (bytes.flatMap hexByte).length = 2 * bytes.length := by
  induction bytes with
  | nil => rfl
  | cons b bs ih => simp [hexByte, ih]; omega

@[simp] theorem length_hexdigest (bytes : List UInt8) : (P.hexdigest bytes).length = 64 := by
  rw [hexdigest, String.length_ofList, length_flatMap_hexByte, P.length_sha256]

theorem isHexLower_of_mem_hexdigest {bytes : List UInt8} {c : Char}
    (h : c ∈ (P.hexdigest bytes).toList) : isHexLower c = true := by
  simp only [hexdigest, String.toList_ofList, List.mem_flatMap, hexByte, List.mem_cons,
    List.not_mem_nil, or_false] at h
  obtain ⟨b, -, rfl | rfl⟩ := h
  · have hb : b.toNat < 256 := b.toNat_lt
    exact isHexLower_hexDigit (by omega)
  · exact isHexLower_hexDigit (by omega)

@[simp] theorem length_fingerprint (value : Json) : (P.fingerprint value).length = 64 :=
  P.length_hexdigest _

theorem isHexLower_of_mem_fingerprint {value : Json} {c : Char}
    (h : c ∈ (P.fingerprint value).toList) : isHexLower c = true :=
  P.isHexLower_of_mem_hexdigest h

/-! ### Text -/

/-- `text.lower()`. -/
def lowerText (text : String) : String := String.ofList (P.lower text.toList)

/-- `re`'s `\w`. -/
def isWord (c : Char) : Bool := P.alphanumeric c || decide (c = '_')

/-- `re`'s `\s` and `str.isspace`. -/
def isSpace (c : Char) : Bool :=
  let n := c.toNat
  (9 ≤ n && n ≤ 13) || (28 ≤ n && n ≤ 32) || n = 0x85 || n = 0xa0 || n = 0x1680 ||
    (0x2000 ≤ n && n ≤ 0x200a) || n = 0x2028 || n = 0x2029 || n = 0x202f || n = 0x205f ||
    n = 0x3000

/-- `text.strip()` is not empty. -/
def hasText (text : String) : Bool := text.toList.any fun c => !isSpace c

/-- The text without what `drops` at either end. -/
def trim (drops : Char → Bool) (text : List Char) : List Char :=
  ((text.dropWhile drops).reverse.dropWhile drops).reverse

/-- `text.strip()`. -/
def strip (text : String) : String := String.ofList (trim isSpace text.toList)

/-- What is trimmed already has nothing to drop. -/
theorem trim_trim (drops : Char → Bool) (text : List Char) :
    trim drops (trim drops text) = trim drops text := by
  have hshape : ∀ chars, trim drops chars = (chars.dropWhile drops).rdropWhile drops :=
    fun _ => rfl
  rw [hshape text]
  generalize hchars : text.dropWhile drops = chars
  have hfront : (chars.rdropWhile drops).dropWhile drops = chars.rdropWhile drops := by
    rw [List.dropWhile_eq_self_iff]
    intro hpos hdrop
    have hpre : chars.rdropWhile drops <+: chars := List.rdropWhile_prefix drops chars
    have hlen : 0 < chars.length := Nat.lt_of_lt_of_le hpos hpre.length_le
    have hsame : chars.dropWhile drops = chars := by
      rw [← hchars, List.dropWhile_idempotent]
    refine (List.dropWhile_eq_self_iff.mp hsame) hlen ?_
    rw [← hdrop]
    simp [hpre.getElem hpos]
  rw [hshape, hfront, List.rdropWhile_idempotent]

/-- A text with a character to keep is not trimmed away. -/
theorem trim_ne_nil {drops : Char → Bool} {text : List Char} (h : ∃ c ∈ text, drops c = false) :
    trim drops text ≠ [] := by
  have hfront : text.dropWhile drops ≠ [] := by
    intro hnil
    obtain ⟨c, hc, hkeep⟩ := h
    rw [List.dropWhile_eq_nil_iff.mp hnil c hc] at hkeep
    cases hkeep
  obtain ⟨first, rest, hchars⟩ := List.exists_cons_of_ne_nil hfront
  have hfirst : drops first = false := by
    have hhead := List.head_dropWhile_not drops hfront
    simpa [hchars] using hhead
  rw [trim, ne_eq, List.reverse_eq_nil_iff, List.dropWhile_eq_nil_iff]
  intro hall
  have hdrop := hall first (by simp [hchars])
  rw [hfirst] at hdrop
  cases hdrop

theorem strip_ne_empty {text : String} (h : hasText text = true) : strip text ≠ "" := by
  obtain ⟨c, hc, hkeep⟩ := List.any_eq_true.mp h
  intro hempty
  refine trim_ne_nil ⟨c, hc, by simpa using hkeep⟩ ?_
  rw [← String.toList_ofList (l := trim isSpace text.toList)]
  exact congrArg String.toList hempty

@[simp] theorem strip_strip (text : String) : strip (strip text) = strip text := by
  rw [strip, strip, String.toList_ofList, trim_trim]

def hexDigits : Nat → Nat → List Char
  | 0, _ => []
  | width + 1, n => hexDigits width (n / 16) ++ [Json.hexDigit (n % 16)]

/-- A character of a JSON text as `ensure_ascii` writes it: a surrogate pair beyond the basic
    plane. -/
def asciiChar (c : Char) : List Char :=
  let unit := fun n => '\\' :: 'u' :: hexDigits 4 n
  if c.toNat < 127 then [c]
  else if c.toNat < 0x10000 then unit c.toNat
  else unit (0xd800 + (c.toNat - 0x10000) / 0x400) ++ unit (0xdc00 + (c.toNat - 0x10000) % 0x400)

/-- `json.dumps(value, sort_keys=True, separators=(",", ":"))`. -/
def dumpsAscii (value : Json) : String := String.ofList ((value.dumpsChars).flatMap asciiChar)

/-- `json.dumps(value, sort_keys=True)`. -/
def dumpsSpaced (value : Json) : String := String.ofList ((value.spacedChars).flatMap asciiChar)

def reprChar (quote c : Char) : List Char :=
  if c = quote ∨ c = '\\' then ['\\', c]
  else if c = '\n' then ['\\', 'n']
  else if c = '\r' then ['\\', 'r']
  else if c = '\t' then ['\\', 't']
  else if P.printable c then [c]
  else if c.toNat < 0x100 then '\\' :: 'x' :: hexDigits 2 c.toNat
  else if c.toNat < 0x10000 then '\\' :: 'u' :: hexDigits 4 c.toNat
  else '\\' :: 'U' :: hexDigits 8 c.toNat

/-- `repr(text)`: single quotes unless only a single quote occurs in the text. -/
def reprText (text : List Char) : List Char :=
  let quote := if '\'' ∈ text ∧ '"' ∉ text then '"' else '\''
  quote :: (text.flatMap (P.reprChar quote) ++ [quote])

mutual

/-- `repr(value)`. -/
def repr : Json → List Char
  | .null => "None".toList
  | .bool b => (if b then "True" else "False").toList
  | .int n => (toString n).toList
  | .float lexeme => lexeme.toList
  | .str s => P.reprText s.toList
  | .arr items => '[' :: (reprItems items ++ [']'])
  | .obj fields => '\x7b' :: (reprFields fields ++ ['\x7d'])

def reprItems : List Json → List Char
  | [] => []
  | [value] => repr value
  | value :: rest => repr value ++ ", ".toList ++ reprItems rest

def reprFields : List (String × Json) → List Char
  | [] => []
  | [(key, value)] => P.reprText key.toList ++ ": ".toList ++ repr value
  | (key, value) :: rest =>
      P.reprText key.toList ++ ": ".toList ++ repr value ++ ", ".toList ++ reprFields rest

end

/-- `str(value)`. -/
def str : Json → String
  | .str s => s
  | value => String.ofList (P.repr value)

@[simp] theorem str_str (s : String) : P.str (.str s) = s := rfl

end Platform

end Library
