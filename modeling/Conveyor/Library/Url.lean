import Conveyor.Library.Platform

/-!
# URLs

`urllib.parse` for absolute `http` and `https` URLs: `urlsplit` with its bracket
and normalization checks, the `hostname` and `port` attributes, `parse_qsl`,
`urlencode` and `urlunsplit`. A `none` is the `ValueError` of the library.
-/

namespace Library.Url

/-! ### Splitting text -/

/-- `text.partition(sep)` as the part before, whether it was found, and the part after. -/
def partition (sep : Char) : List Char → List Char × Bool × List Char
  | [] => ([], false, [])
  | c :: cs =>
      if c = sep then ([], true, cs)
      else
        let (head, found, tail) := partition sep cs
        (c :: head, found, tail)

/-- The part of `text` after the last `sep`, all of it when there is none. -/
def afterLast (sep : Char) : List Char → List Char
  | [] => []
  | c :: cs => if sep ∈ cs then afterLast sep cs else if c = sep then cs else c :: cs

/-- `text.split(sep)`. -/
def splitOn (sep : Char) : List Char → List (List Char)
  | [] => [[]]
  | c :: cs =>
      if c = sep then [] :: splitOn sep cs
      else
        match splitOn sep cs with
        | [] => [[c]]
        | head :: rest => (c :: head) :: rest

/-! ### Bracketed hosts -/

def isDigit (c : Char) : Bool := decide ('0' ≤ c) && decide (c ≤ '9')

def isHex (c : Char) : Bool :=
  isDigit c || (decide ('a' ≤ c) && decide (c ≤ 'f')) || (decide ('A' ≤ c) && decide (c ≤ 'F'))

def hexValue (c : Char) : Nat :=
  if isDigit c then c.toNat - 48
  else if decide ('a' ≤ c) then c.toNat - 87
  else c.toNat - 55

def decimalValue (digits : List Char) : Nat :=
  digits.foldl (fun acc c => acc * 10 + (c.toNat - 48)) 0

def isOctet (octet : List Char) : Bool :=
  !octet.isEmpty && octet.all isDigit && decide (octet.length ≤ 3) &&
    !(octet.head? = some '0' && decide (1 < octet.length)) && decide (decimalValue octet ≤ 255)

def isIPv4 (text : List Char) : Bool :=
  let octets := splitOn '.' text
  decide (octets.length = 4) && octets.all isOctet

def isHextet (part : List Char) : Bool :=
  !part.isEmpty && part.all isHex && decide (part.length ≤ 4)

/-- The indices strictly inside `parts` that hold an empty part. -/
def innerGaps (parts : List (List Char)) : List Nat :=
  (List.range parts.length).filter fun i =>
    decide (0 < i) && decide (i + 1 < parts.length) && (parts.getD i []).isEmpty

/-- The parts of an address without its `::`, once the IPv4 suffix is written as
    two hextets. -/
def hextetsValid (parts : List (List Char)) : Bool :=
  if 9 < parts.length then false
  else match innerGaps parts with
    | [] => decide (parts.length = 8) && parts.all isHextet
    | [skip] =>
        let openStart := (parts.getD 0 []).isEmpty
        let openEnd := (parts.getD (parts.length - 1) []).isEmpty
        let high := if openStart then skip - 1 else skip
        let low := if openEnd then parts.length - skip - 2 else parts.length - skip - 1
        !(openStart && decide (high ≠ 0)) && !(openEnd && decide (low ≠ 0)) &&
          decide (high + low < 8) && (parts.take high).all isHextet &&
          (parts.drop (parts.length - low)).all isHextet
    | _ => false

/-- `ipaddress.IPv6Address(host)` accepts. -/
def isIPv6 (host : List Char) : Bool :=
  let (address, hasZone, zone) := partition '%' host
  if hasZone && (zone.isEmpty || decide ('%' ∈ zone)) then false
  else
    let parts := splitOn ':' address
    let tail := parts.getD (parts.length - 1) []
    if parts.length < 3 then false
    else if '.' ∈ tail then
      isIPv4 tail && hextetsValid (parts.dropLast ++ [['0'], ['0']])
    else hextetsValid parts

/-- `_check_bracketed_host`: an `IPvFuture` literal or an IPv6 address. -/
def isBracketedHost (host : List Char) : Bool :=
  match host with
  | 'v' :: rest =>
      let (version, dotted, address) := partition '.' rest
      dotted && !version.isEmpty && version.all isHex && !address.isEmpty
  | _ => isIPv6 host

/-! ### `urlsplit` -/

structure SplitResult where
  scheme : List Char
  netloc : List Char
  path : List Char
  query : List Char
  fragment : List Char

def isNetlocEnd (c : Char) : Bool := c = '/' || c = '?' || c = '#'

def bracketsValid (netloc : List Char) : Bool :=
  if decide ('[' ∈ netloc) != decide (']' ∈ netloc) then false
  else if '[' ∈ netloc then
    isBracketedHost (partition ']' (partition '[' netloc).2.2).1
  else true

/-- `_checknetloc`: no separator may appear under normalization. -/
def netlocValid (P : Platform) (netloc : List Char) : Bool :=
  let plain := netloc.filter fun c => !(c = '@' || c = ':' || c = '#' || c = '?')
  let folded := P.nfkc plain
  netloc.all isAscii || plain = folded ||
    !(folded.any fun c => c = '/' || c = '?' || c = '#' || c = '@' || c = ':')

def urlsplit (P : Platform) (url : List Char) : Option SplitResult :=
  let (scheme, _, rest) := partition ':' url
  let rest := rest.drop 2
  let netloc := rest.takeWhile fun c => !isNetlocEnd c
  let (front, _, fragment) := partition '#' (rest.dropWhile fun c => !isNetlocEnd c)
  let (path, _, query) := partition '?' front
  if bracketsValid netloc && netlocValid P netloc then
    some ⟨scheme, netloc, path, query, fragment⟩
  else none

/-- `_hostinfo`: the host text and the port text after the last `@`. -/
def hostinfo (netloc : List Char) : List Char × List Char :=
  let info := afterLast '@' netloc
  let (_, bracketed, inner) := partition '[' info
  if bracketed then
    let (host, _, after) := partition ']' inner
    (host, (partition ':' after).2.2)
  else
    let (host, _, port) := partition ':' info
    (host, port)

/-- `parsed.hostname or ""`. -/
def hostname (P : Platform) (netloc : List Char) : List Char :=
  let (host, percent, zone) := partition '%' (hostinfo netloc).1
  P.lower host ++ (if percent then '%' :: zone else [])

/-- `parsed.port`, with the absent port as `0`; the outer `none` is the `ValueError`. -/
def port (netloc : List Char) : Option Nat :=
  let digits := (hostinfo netloc).2
  if digits.isEmpty then some 0
  else if digits.all isDigit && decide (decimalValue digits ≤ 65535) then
    some (decimalValue digits)
  else none

/-! ### Query strings -/

def replacement : Char := Char.ofNat 0xfffd

def isContinuation (low high : Nat) (b : UInt8) : Bool :=
  decide (low ≤ b.toNat) && decide (b.toNat ≤ high)

/-- How a lead byte continues: the range of its second byte, the number of bytes
    after it and the value bits it holds. -/
def leadByte (b : UInt8) : Option (Nat × Nat × Nat × Nat) :=
  let n := b.toNat
  if 0xc2 ≤ n ∧ n ≤ 0xdf then some (0x80, 0xbf, 1, n - 0xc0)
  else if n = 0xe0 then some (0xa0, 0xbf, 2, 0)
  else if n = 0xed then some (0x80, 0x9f, 2, 0xd)
  else if 0xe1 ≤ n ∧ n ≤ 0xef then some (0x80, 0xbf, 2, n - 0xe0)
  else if n = 0xf0 then some (0x90, 0xbf, 3, 0)
  else if 0xf1 ≤ n ∧ n ≤ 0xf3 then some (0x80, 0xbf, 3, n - 0xf0)
  else if n = 0xf4 then some (0x80, 0x8f, 3, 4)
  else none

/-- The continuation bytes of one character: its value and the bytes left, or the
    bytes left after the longest well-formed start. -/
def continuation : Nat → Nat → Nat → Nat → List UInt8 → Option Nat × List UInt8
  | 0, _, _, value, bytes => (some value, bytes)
  | _ + 1, _, _, _, [] => (none, [])
  | n + 1, low, high, value, b :: bytes =>
      if isContinuation low high b then
        continuation n 0x80 0xbf (value * 64 + (b.toNat - 0x80)) bytes
      else (none, b :: bytes)

/-- `bytes.decode("utf-8", "replace")`; the fuel is the number of bytes. -/
def decodeReplace : Nat → List UInt8 → List Char
  | 0, _ => []
  | _ + 1, [] => []
  | n + 1, b :: bytes =>
      if b.toNat < 0x80 then Char.ofNat b.toNat :: decodeReplace n bytes
      else match leadByte b with
        | none => replacement :: decodeReplace n bytes
        | some (low, high, count, value) =>
            match continuation count low high value bytes with
            | (some code, rest) => Char.ofNat code :: decodeReplace n rest
            | (none, rest) => replacement :: decodeReplace n rest

/-- `unquote_to_bytes` over one run of ASCII characters. -/
def unquoteBytes : List Char → List UInt8
  | [] => []
  | [c] => [UInt8.ofNat c.toNat]
  | [c, d] => [UInt8.ofNat c.toNat, UInt8.ofNat d.toNat]
  | c :: x :: y :: rest =>
      if c = '%' && isHex x && isHex y then
        UInt8.ofNat (hexValue x * 16 + hexValue y) :: unquoteBytes rest
      else UInt8.ofNat c.toNat :: unquoteBytes (x :: y :: rest)

/-- The maximal runs of ASCII and of non-ASCII characters. -/
def asciiRuns : List Char → List (Bool × List Char)
  | [] => []
  | c :: cs =>
      match asciiRuns cs with
      | [] => [(isAscii c, [c])]
      | (kind, run) :: rest =>
          if kind = isAscii c then (kind, c :: run) :: rest
          else (isAscii c, [c]) :: (kind, run) :: rest

def unquotePlus (text : List Char) : List Char :=
  let spaced := text.map fun c => if c = '+' then ' ' else c
  if '%' ∈ spaced then
    (asciiRuns spaced).flatMap fun (ascii, run) =>
      if ascii then
        let bytes := unquoteBytes run
        decodeReplace bytes.length bytes
      else run
  else spaced

/-- `parse_qsl(query, keep_blank_values=True)`. -/
def parseQsl (query : List Char) : List (List Char × List Char) :=
  ((splitOn '&' query).filter fun field => !field.isEmpty).map fun field =>
    let (name, _, value) := partition '=' field
    (unquotePlus name, unquotePlus value)

def isUnreserved (c : Char) : Bool :=
  (isAscii c && c.isAlphanum) || c = '_' || c = '.' || c = '-' || c = '~'

def upperHexDigit (n : Nat) : Char :=
  if n < 10 then Char.ofNat (48 + n) else Char.ofNat (55 + n)

/-- `quote_plus(text)`. -/
def quotePlus (text : List Char) : List Char :=
  text.flatMap fun c =>
    if c = ' ' then ['+']
    else if isUnreserved c then [c]
    else (String.utf8EncodeChar c).flatMap fun b =>
      ['%', upperHexDigit (b.toNat / 16), upperHexDigit (b.toNat % 16)]

/-- `urlencode(pairs)`. -/
def urlencode (pairs : List (List Char × List Char)) : List Char :=
  List.intercalate ['&'] (pairs.map fun (name, value) =>
    quotePlus name ++ '=' :: quotePlus value)

/-- `urlunsplit` of an `http` or `https` URL. -/
def urlunsplit (url : SplitResult) : List Char :=
  let path :=
    if !url.path.isEmpty && url.path.head? ≠ some '/' then '/' :: url.path else url.path
  url.scheme ++ ':' :: '/' :: '/' :: url.netloc ++ path ++
    (if url.query.isEmpty then [] else '?' :: url.query) ++
    (if url.fragment.isEmpty then [] else '#' :: url.fragment)

end Library.Url
