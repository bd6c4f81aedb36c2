import Conveyor.Library.Json

/-!
# Reading JSON text

`json.loads`: a scanner that takes the text one character at a time and gives off
tokens, and a machine that takes the tokens and keeps the open arrays and objects
on a stack. Both are folds over their input, so the decoder needs no fuel.

A `Decoding` supplies what the values here have no form for: the character that stands for a
lone surrogate escape, and the text of a floating-point number. The nesting depth is not bounded.
-/

namespace Library

namespace JsonText

structure Decoding where
  /-- What stands for the surrogate of an escape without a partner. -/
  lone : Nat → Char
  /-- `repr(float(lexeme))`. -/
  floatText : List Char → String

/-- Why a text is no document: `JSONDecodeError`, or the `ValueError` of an integer with more
    digits than the interpreter converts. -/
inductive Refusal where
  | malformed
  | tooManyDigits
deriving DecidableEq, Repr

inductive Token where
  | mark (c : Char)
  | text (chars : List Char)
  | scalar (lexeme : List Char)
  | invalid
deriving DecidableEq, Repr

/-! ### Scanning -/

def isBlank (c : Char) : Bool := c = ' ' || c = '\t' || c = '\n' || c = '\r'

def isMark (c : Char) : Bool := decide (c ∈ ['{', '}', '[', ']', ':', ','])

/-- The characters of a number or of a named constant. -/
def isScalarChar (c : Char) : Bool := c.isAlphanum || c = '-' || c = '+' || c = '.'

def isHigh (unit : Nat) : Bool := decide (0xd800 ≤ unit) && decide (unit < 0xdc00)

def isLow (unit : Nat) : Bool := decide (0xdc00 ≤ unit) && decide (unit < 0xe000)

/-- The character of a code unit; a surrogate that has no partner is none. -/
def charOf (D : Decoding) (unit : Nat) : Char :=
  if isHigh unit || isLow unit then D.lone unit else Char.ofNat unit

/-- A high and a low surrogate, one after the other, are one character. -/
def joinUnits (D : Decoding) : List Nat → List Char
  | [] => []
  | [unit] => [charOf D unit]
  | high :: low :: rest =>
      if isHigh high && isLow low then
        Char.ofNat (0x10000 + (high - 0xd800) * 0x400 + (low - 0xdc00)) :: joinUnits D rest
      else charOf D high :: joinUnits D (low :: rest)

def hexValue? (c : Char) : Option Nat :=
  if '0' ≤ c ∧ c ≤ '9' then some (c.toNat - 48)
  else if 'a' ≤ c ∧ c ≤ 'f' then some (c.toNat - 87)
  else if 'A' ≤ c ∧ c ≤ 'F' then some (c.toNat - 55)
  else none

/-- The character after a backslash, `u` apart. -/
def unescape? : Char → Option Nat
  | '"' => some 0x22
  | '\\' => some 0x5c
  | '/' => some 0x2f
  | 'b' => some 0x08
  | 'f' => some 0x0c
  | 'n' => some 0x0a
  | 'r' => some 0x0d
  | 't' => some 0x09
  | _ => none

/-- Where the scanner is; what it has read of a token is kept last character first. -/
inductive Scan where
  | between
  | scalar (read : List Char)
  | text (units : List Nat)
  | escape (units : List Nat)
  | hex (units : List Nat) (value missing : Nat)
  | failed
deriving Repr

/-- A character outside every token. -/
def start (c : Char) : List Token × Scan :=
  if isBlank c then ([], .between)
  else if c = '"' then ([], .text [])
  else if isMark c then ([.mark c], .between)
  else if isScalarChar c then ([], .scalar [c])
  else ([.invalid], .failed)

def scanChar (D : Decoding) : Scan → Char → List Token × Scan
  | .between, c => start c
  | .scalar read, c =>
      if isScalarChar c then ([], .scalar (c :: read))
      else
        let (tokens, scan) := start c
        (.scalar read.reverse :: tokens, scan)
  | .text units, c =>
      if c = '"' then ([.text (joinUnits D units.reverse)], .between)
      else if c = '\\' then ([], .escape units)
      else if c.toNat < 0x20 then ([.invalid], .failed)
      else ([], .text (c.toNat :: units))
  | .escape units, c =>
      match unescape? c with
      | some unit => ([], .text (unit :: units))
      | none => if c = 'u' then ([], .hex units 0 3) else ([.invalid], .failed)
  | .hex units value missing, c =>
      match hexValue? c with
      | none => ([.invalid], .failed)
      | some digit =>
          match missing with
          | 0 => ([], .text ((16 * value + digit) :: units))
          | missing + 1 => ([], .hex units (16 * value + digit) missing)
  | .failed, _ => ([], .failed)

/-- The end of the text ends a scalar, and is an error inside a string. -/
def scanEnd : Scan → List Token
  | .between | .failed => []
  | .scalar read => [.scalar read.reverse]
  | .text _ | .escape _ | .hex _ _ _ => [.invalid]

def scanFrom (D : Decoding) : Scan → List Char → List Token
  | scan, [] => scanEnd scan
  | scan, c :: rest =>
      let (tokens, next) := scanChar D scan c
      tokens ++ scanFrom D next rest

/-! ### Scalars -/

def isDigit (c : Char) : Bool := decide ('0' ≤ c) && decide (c ≤ '9')

/-- `sys.get_int_max_str_digits()`. -/
def maxDigits : Nat := 4300

/-- `(\.\d+)?`: what it takes, and what is left. -/
def fraction : List Char → List Char × List Char
  | '.' :: rest =>
      match rest.takeWhile isDigit with
      | [] => ([], '.' :: rest)
      | digits => ('.' :: digits, rest.dropWhile isDigit)
  | text => ([], text)

/-- The sign of an exponent. -/
def exponentSign : List Char → List Char × List Char
  | '-' :: rest => (['-'], rest)
  | '+' :: rest => (['+'], rest)
  | text => ([], text)

/-- `([eE][-+]?\d+)?`: what it takes, and what is left. -/
def exponent : List Char → List Char × List Char
  | [] => ([], [])
  | c :: rest =>
      if c = 'e' ∨ c = 'E' then
        let (sign, after) := exponentSign rest
        match after.takeWhile isDigit with
        | [] => ([], c :: rest)
        | digits => (c :: (sign ++ digits), after.dropWhile isDigit)
      else ([], c :: rest)

/-- `0|[1-9]\d*`: what it takes, and what is left. -/
def integral : List Char → List Char × List Char
  | '0' :: rest => (['0'], rest)
  | text => (text.takeWhile isDigit, text.dropWhile isDigit)

def natOf (digits : List Char) : Nat :=
  digits.foldl (fun value c => 10 * value + (c.toNat - 48)) 0

/-- A number with its sign and its integral part read. -/
def number (D : Decoding) (negative : Bool) (digits rest : List Char) : Except Refusal Json :=
  let (fractionPart, rest) := fraction rest
  let (exponentPart, rest) := exponent rest
  let sign := if negative then ['-'] else []
  if digits = [] then .error .malformed
  else if fractionPart = [] ∧ exponentPart = [] then
    if maxDigits < digits.length then .error .tooManyDigits
    else if rest ≠ [] then .error .malformed
    else .ok (.int (if negative then -(natOf digits : Int) else natOf digits))
  else if rest ≠ [] then .error .malformed
  else .ok (.float (D.floatText (sign ++ digits ++ fractionPart ++ exponentPart)))

def scalarOf (D : Decoding) (lexeme : List Char) : Except Refusal Json :=
  if lexeme = "null".toList then .ok .null
  else if lexeme = "true".toList then .ok (.bool true)
  else if lexeme = "false".toList then .ok (.bool false)
  else if lexeme ∈ ["NaN".toList, "Infinity".toList, "-Infinity".toList] then
    .ok (.float (D.floatText lexeme))
  else
    match lexeme with
    | '-' :: rest => number D true (integral rest).1 (integral rest).2
    | text => number D false (integral text).1 (integral text).2

/-! ### Parsing -/

/-- An array or an object that is still open: its items in reverse, or its fields and the key
    whose value comes next. -/
inductive Frame where
  | items (read : List Json)
  | fields (read : Fields) (key : String)
deriving Repr

/-- What the machine takes next. -/
inductive Expected where
  | value
  | valueOrEnd
  | key (read : Fields)
  | keyOrEnd
  | colon (read : Fields) (key : String)
  | separator (last : Json)
deriving Repr

structure Parse where
  stack : List Frame
  expected : Expected
deriving Repr

/-- A value that begins with this token. -/
def opened (D : Decoding) (stack : List Frame) : Token → Except Refusal Parse
  | .text chars => .ok ⟨stack, .separator (.str (String.ofList chars))⟩
  | .scalar lexeme => do
      let value ← scalarOf D lexeme
      return ⟨stack, .separator value⟩
  | .mark '[' => .ok ⟨.items [] :: stack, .valueOrEnd⟩
  | .mark '{' => .ok ⟨stack, .keyOrEnd⟩
  | _ => .error .malformed

/-- A value of the innermost open array or object is complete. -/
def closed (stack : List Frame) (last : Json) : Token → Except Refusal Parse
  | .mark ',' =>
      match stack with
      | .items read :: outer => .ok ⟨.items (last :: read) :: outer, .value⟩
      | .fields read key :: outer => .ok ⟨outer, .key (read.set key last)⟩
      | [] => .error .malformed
  | .mark ']' =>
      match stack with
      | .items read :: outer => .ok ⟨outer, .separator (.arr (last :: read).reverse)⟩
      | _ => .error .malformed
  | .mark '}' =>
      match stack with
      | .fields read key :: outer => .ok ⟨outer, .separator (.obj (read.set key last))⟩
      | _ => .error .malformed
  | _ => .error .malformed

def parseToken (D : Decoding) (parse : Parse) (token : Token) : Except Refusal Parse :=
  match parse.expected with
  | .value => opened D parse.stack token
  | .valueOrEnd =>
      match token, parse.stack with
      | .mark ']', .items _ :: outer => .ok ⟨outer, .separator (.arr [])⟩
      | token, stack => opened D stack token
  | .keyOrEnd =>
      match token with
      | .mark '}' => .ok ⟨parse.stack, .separator (.obj [])⟩
      | .text key => .ok ⟨parse.stack, .colon [] (String.ofList key)⟩
      | _ => .error .malformed
  | .key read =>
      match token with
      | .text key => .ok ⟨parse.stack, .colon read (String.ofList key)⟩
      | _ => .error .malformed
  | .colon read key =>
      match token with
      | .mark ':' => .ok ⟨.fields read key :: parse.stack, .value⟩
      | _ => .error .malformed
  | .separator last => closed parse.stack last token

end JsonText

open JsonText in
/-- `json.loads(text)`. -/
def Json.loads (D : Decoding) (text : List Char) : Except Refusal Json := do
  let parse ← (scanFrom D .between text).foldlM (parseToken D) ⟨[], .value⟩
  match parse with
  | ⟨[], .separator value⟩ => return value
  | _ => .error .malformed

end Library
