import Conveyor.Library.JsonRoundTrip
import Conveyor.Library.Platform

/-!
# Reading what was written in ASCII

`dumpsAscii` writes a character outside ASCII as one escaped code unit or as a surrogate pair.
The scanner joins the units again, so a list of texts reads back as it was
(`loads_dumpsAscii_texts`), and what is written has no character but the printable ones of ASCII.
-/

namespace Library

namespace JsonText

open Json Platform

variable (D : Decoding)

/-- The code units of a character. -/
def unitsOf (c : Char) : List Nat :=
  if c.toNat < 0x10000 then [c.toNat]
  else [0xd800 + (c.toNat - 0x10000) / 0x400, 0xdc00 + (c.toNat - 0x10000) % 0x400]

theorem toNat_lt (c : Char) : c.toNat < 0x110000 := by
  have hvalid : c.toNat < 0xd800 ∨ 0xdfff < c.toNat ∧ c.toNat < 0x110000 := c.valid
  omega

/-- The units of a text are joined to its characters. -/
theorem joinUnits_unitsOf (chars : List Char) : joinUnits D (chars.flatMap unitsOf) = chars := by
  induction chars with
  | nil => rfl
  | cons c rest ih =>
      rw [List.flatMap_cons, unitsOf]
      split
      · -- a unit of the basic plane is no surrogate, so it is joined with nothing
        have hhigh : isHigh c.toNat = false := (Bool.or_eq_false_iff.mp (not_surrogate c)).1
        rw [List.singleton_append]
        cases hunits : rest.flatMap unitsOf with
        | nil =>
            rw [hunits] at ih
            rw [← ih]
            simp [joinUnits]
        | cons unit units =>
            rw [joinUnits, hhigh, Bool.false_and, if_neg Bool.false_ne_true, charOf_toNat,
              ← hunits, ih]
      · rename_i hlarge
        have hbound := toNat_lt c
        have hhigh : isHigh (0xd800 + (c.toNat - 0x10000) / 0x400) = true := by
          simp only [isHigh, Bool.and_eq_true, decide_eq_true_eq]
          omega
        have hlow : isLow (0xdc00 + (c.toNat - 0x10000) % 0x400) = true := by
          simp only [isLow, Bool.and_eq_true, decide_eq_true_eq]
          omega
        have hjoined : 0x10000 + (0xd800 + (c.toNat - 0x10000) / 0x400 - 0xd800) * 0x400 +
            (0xdc00 + (c.toNat - 0x10000) % 0x400 - 0xdc00) = c.toNat := by
          omega
        rw [List.cons_append, List.cons_append, List.nil_append, joinUnits, hhigh, hlow,
          Bool.and_self, if_pos rfl, hjoined, Char.ofNat_toNat, ih]

/-! ### Scanning the escapes -/

theorem hexValue?_hexDigit {n : Nat} (h : n < 16) : hexValue? (hexDigit n) = some n := by
  interval_cases n <;> rfl

theorem scanFrom_digit (units : List Nat) (value missing : Nat) {c : Char} {digit : Nat}
    (h : hexValue? c = some digit) (rest : List Char) :
    scanFrom D (.hex units value (missing + 1)) (c :: rest) =
      scanFrom D (.hex units (16 * value + digit) missing) rest := by
  rw [scanFrom, scanChar, h]
  rfl

theorem scanFrom_lastDigit (units : List Nat) (value : Nat) {c : Char} {digit : Nat}
    (h : hexValue? c = some digit) (rest : List Char) :
    scanFrom D (.hex units value 0) (c :: rest) =
      scanFrom D (.text ((16 * value + digit) :: units)) rest := by
  rw [scanFrom, scanChar, h]
  rfl

/-- Four hexadecimal digits are one code unit. -/
theorem scanFrom_unit (units : List Nat) {n : Nat} (h : n < 0x10000) (rest : List Char) :
    scanFrom D (.text units) ('\\' :: 'u' :: hexDigits 4 n ++ rest) =
      scanFrom D (.text (n :: units)) rest := by
  have hdigits : hexDigits 4 n = [hexDigit (n / 16 / 16 / 16 % 16), hexDigit (n / 16 / 16 % 16),
      hexDigit (n / 16 % 16), hexDigit (n % 16)] := rfl
  have hvalue : ∀ m, hexValue? (hexDigit (m % 16)) = some (m % 16) := fun m =>
    hexValue?_hexDigit (Nat.mod_lt _ (by decide))
  have hunit : 16 * (16 * (16 * (16 * 0 + n / 16 / 16 / 16 % 16) + n / 16 / 16 % 16) +
      n / 16 % 16) + n % 16 = n := by
    omega
  have hescape : ∀ chars, scanFrom D (.text units) ('\\' :: 'u' :: chars) =
      scanFrom D (.hex units 0 3) chars := fun _ => rfl
  rw [hdigits, List.cons_append, List.cons_append, hescape, List.cons_append, List.cons_append,
    List.cons_append, List.cons_append, scanFrom_digit D _ _ _ (hvalue _),
    scanFrom_digit D _ _ _ (hvalue _), scanFrom_digit D _ _ _ (hvalue _),
    scanFrom_lastDigit D _ _ (hvalue _), hunit, List.nil_append]

/-- A character that is no mark of a quoted text stands for itself, or for its escape. -/
theorem scanFrom_asciiChar (units : List Nat) {c : Char} (hquote : c ≠ '"') (hslash : c ≠ '\\')
    (hcontrol : ¬c.toNat < 32) (rest : List Char) :
    scanFrom D (.text units) (asciiChar c ++ rest) =
      scanFrom D (.text ((unitsOf c).reverse ++ units)) rest := by
  have hbound := toNat_lt c
  unfold asciiChar unitsOf
  dsimp only
  split
  · rename_i hascii
    rw [if_pos (by omega), List.singleton_append, scanFrom, scanChar, if_neg hquote, if_neg hslash,
      if_neg hcontrol]
    rfl
  · split
    · exact scanFrom_unit D units (by omega) rest
    · rw [List.append_assoc, scanFrom_unit D units (by omega), scanFrom_unit D _ (by omega)]
      rfl

theorem asciiChar_of_lt {c : Char} (h : c.toNat < 127) : asciiChar c = [c] := if_pos h

theorem flatMap_asciiChar {chars : List Char} (h : ∀ c ∈ chars, c.toNat < 127) :
    chars.flatMap asciiChar = chars := by
  induction chars with
  | nil => rfl
  | cons c rest ih =>
      rw [List.forall_mem_cons] at h
      rw [List.flatMap_cons, asciiChar_of_lt h.1, ih h.2, List.singleton_append]

theorem visible_of_all {chars : List Char}
    (h : chars.all (fun d => decide (32 ≤ d.toNat ∧ d.toNat < 127)) = true) :
    ∀ d ∈ chars, 32 ≤ d.toNat ∧ d.toNat < 127 := by
  intro d hd
  exact of_decide_eq_true (List.all_eq_true.mp h d hd)

/-- A character that has an escape of its own is written in ASCII with it. -/
theorem escapeChar_cases (c : Char) :
    (escapeChar c = [c] ∧ c ≠ '"' ∧ c ≠ '\\' ∧ ¬c.toNat < 32) ∨
      (c.toNat < 127 ∧ ∀ d ∈ escapeChar c, 32 ≤ d.toNat ∧ d.toNat < 127) := by
  by_cases hcontrol : c.toNat < 32
  · right
    refine ⟨by omega, ?_⟩
    obtain ⟨n, hn, rfl⟩ : ∃ n, n = c.toNat ∧ c = Char.ofNat n := ⟨c.toNat, rfl, by simp⟩
    rw [← hn] at hcontrol
    apply visible_of_all
    interval_cases n <;> decide
  · by_cases hmark : c = '"' ∨ c = '\\'
    · right
      rcases hmark with rfl | rfl
      · exact ⟨by decide, visible_of_all (by decide)⟩
      · exact ⟨by decide, visible_of_all (by decide)⟩
    · left
      rw [not_or] at hmark
      refine ⟨?_, hmark.1, hmark.2, hcontrol⟩
      unfold escapeChar
      split
      · exact absurd rfl hmark.1
      · exact absurd rfl hmark.2
      · exact absurd (by decide) hcontrol
      · exact absurd (by decide) hcontrol
      · exact absurd (by decide) hcontrol
      · have hval : ∀ n : Nat, n < 32 → c.toNat ≠ n := fun n hn h => hcontrol (h ▸ hn)
        have h8 : c.val ≠ 8 := fun h => hval 8 (by decide) (congrArg UInt32.toNat h)
        have h12 : c.val ≠ 12 := fun h => hval 12 (by decide) (congrArg UInt32.toNat h)
        have h32 : ¬c.val < 32 := fun h => hcontrol h
        rw [if_neg h8, if_neg h12, if_neg h32]

theorem scanFrom_escapeAscii (units : List Nat) (c : Char) (rest : List Char) :
    scanFrom D (.text units) ((escapeChar c).flatMap asciiChar ++ rest) =
      scanFrom D (.text ((unitsOf c).reverse ++ units)) rest := by
  rcases escapeChar_cases c with ⟨hplain, hquote, hslash, hcontrol⟩ | ⟨hascii, hescape⟩
  · rw [hplain, List.flatMap_cons, List.flatMap_nil, List.append_nil]
    exact scanFrom_asciiChar D units hquote hslash hcontrol rest
  · rw [flatMap_asciiChar fun d hd => (hescape d hd).2, scanFrom_escapeChar, unitsOf, if_pos (by omega)]
    rfl

theorem scanFrom_escapedAscii (units : List Nat) (chars rest : List Char) :
    scanFrom D (.text units) ((chars.flatMap escapeChar).flatMap asciiChar ++ rest) =
      scanFrom D (.text ((chars.flatMap unitsOf).reverse ++ units)) rest := by
  induction chars generalizing units with
  | nil => rfl
  | cons c chars ih =>
      rw [List.flatMap_cons, List.flatMap_append, List.append_assoc, scanFrom_escapeAscii, ih,
        List.flatMap_cons, List.reverse_append, List.append_assoc]

theorem scanFrom_quotedAscii (s : String) (rest : List Char) :
    scanFrom D .between ((quoted s).flatMap asciiChar ++ rest) =
      .text s.toList :: scanFrom D .between rest := by
  have hquote : asciiChar '"' = ['"'] := rfl
  have hopen : ∀ chars, scanFrom D .between ('"' :: chars) = scanFrom D (.text []) chars :=
    fun _ => rfl
  have hclose : ∀ units, scanFrom D (.text units) ('"' :: rest) =
      .text (joinUnits D units.reverse) :: scanFrom D .between rest := fun _ => rfl
  rw [quoted, List.flatMap_cons, List.flatMap_append, List.flatMap_cons, List.flatMap_nil, hquote,
    List.append_nil, List.singleton_append, List.cons_append, hopen, List.append_assoc,
    List.singleton_append, scanFrom_escapedAscii, List.append_nil, hclose, List.reverse_reverse,
    joinUnits_unitsOf]

/-! ### Lists of texts -/

theorem roundTrips_texts (texts : List String) : RoundTrips (.arr (texts.map .str)) := by
  rw [RoundTrips]
  induction texts with
  | nil => rw [List.map_nil, RoundTripsItems]; trivial
  | cons text texts ih =>
      rw [List.map_cons, RoundTripsItems, RoundTrips]
      exact ⟨trivial, ih⟩

theorem scanFrom_itemsAscii (texts : List String) (rest : List Char) :
    scanFrom D .between ((dumpsItems (texts.map .str)).flatMap asciiChar ++ rest) =
      tokensOfItems (texts.map .str) ++ scanFrom D .between rest := by
  have hmark : ∀ c, isMark c = true → asciiChar c = [c] := by
    intro c hc
    simp only [isMark, decide_eq_true_eq, List.mem_cons, List.not_mem_nil, or_false] at hc
    rcases hc with rfl | rfl | rfl | rfl | rfl | rfl <;> rfl
  induction texts with
  | nil =>
      rw [List.map_nil, dumpsItems, tokensOfItems, List.flatMap_cons, List.flatMap_nil,
        hmark _ (by decide), List.append_nil, List.singleton_append, scanFrom_mark D (by decide)]
      rfl
  | cons text texts ih =>
      cases texts with
      | nil =>
          rw [List.map_cons, List.map_nil, dumpsItems, tokensOfItems, dumpsChars, tokensOf,
            List.flatMap_append, List.append_assoc, scanFrom_quotedAscii, List.flatMap_cons,
            List.flatMap_nil, hmark _ (by decide), List.append_nil, List.singleton_append,
            scanFrom_mark D (by decide)]
          rfl
      | cons next texts =>
          rw [List.map_cons] at ih
          rw [List.map_cons, List.map_cons, dumpsItems, tokensOfItems, dumpsChars, tokensOf,
            List.flatMap_append, List.append_assoc, scanFrom_quotedAscii, List.flatMap_cons,
            hmark _ (by decide), List.append_assoc, List.singleton_append,
            scanFrom_mark D (by decide), ih]
          · rfl
          · exact List.cons_ne_nil _ _
          · exact List.cons_ne_nil _ _

/-! ### What is written -/

def Printable (chars : List Char) : Prop := ∀ c ∈ chars, 32 ≤ c.toNat ∧ c.toNat < 127

theorem Printable.append {first second : List Char} (hfirst : Printable first)
    (hsecond : Printable second) : Printable (first ++ second) := by
  intro c hc
  rcases List.mem_append.mp hc with hc | hc
  · exact hfirst c hc
  · exact hsecond c hc

theorem printable_hexDigits (width n : Nat) : Printable (hexDigits width n) := by
  have hdigit : ∀ m, m < 16 → 32 ≤ (hexDigit m).toNat ∧ (hexDigit m).toNat < 127 := by
    intro m hm
    interval_cases m <;> decide
  induction width generalizing n with
  | zero => exact fun _ hc => nomatch hc
  | succ width ih =>
      refine (ih (n / 16)).append fun c hc => ?_
      rw [List.mem_singleton.mp hc]
      exact hdigit _ (Nat.mod_lt _ (by decide))

theorem printable_asciiChar {c : Char} (h : 32 ≤ c.toNat) : Printable (asciiChar c) := by
  have hunit : ∀ n, Printable ('\\' :: 'u' :: hexDigits 4 n) := by
    intro n d hd
    rcases List.mem_cons.mp hd with rfl | hd
    · decide
    · rcases List.mem_cons.mp hd with rfl | hd
      · decide
      · exact printable_hexDigits 4 n d hd
  unfold asciiChar
  dsimp only
  split
  · rename_i hascii
    intro d hd
    rw [List.mem_singleton.mp hd]
    exact ⟨h, hascii⟩
  · split
    · exact hunit _
    · exact (hunit _).append (hunit _)

theorem printable_flatMap {chars : List Char} (h : ∀ c ∈ chars, 32 ≤ c.toNat) :
    Printable (chars.flatMap asciiChar) := by
  intro d hd
  obtain ⟨c, hc, hd⟩ := List.mem_flatMap.mp hd
  exact printable_asciiChar (h c hc) d hd

theorem le_escapeChar {c d : Char} (h : d ∈ escapeChar c) : 32 ≤ d.toNat := by
  rcases escapeChar_cases c with ⟨hplain, -, -, hcontrol⟩ | ⟨-, hescape⟩
  · rw [hplain] at h
    rw [List.mem_singleton.mp h]
    omega
  · exact (hescape d h).1

theorem le_dumpsItems {texts : List String} {c : Char} (h : c ∈ dumpsItems (texts.map .str)) :
    32 ≤ c.toNat := by
  have hquoted : ∀ text : String, ∀ d ∈ quoted text, 32 ≤ d.toNat := by
    intro text d hd
    unfold quoted at hd
    rcases List.mem_cons.mp hd with rfl | hd
    · decide
    · rcases List.mem_append.mp hd with hd | hd
      · obtain ⟨e, -, hd⟩ := List.mem_flatMap.mp hd
        exact le_escapeChar hd
      · rw [List.mem_singleton.mp hd]
        decide
  induction texts with
  | nil =>
      rw [List.map_nil, dumpsItems] at h
      rw [List.mem_singleton.mp h]
      decide
  | cons text texts ih =>
      cases texts with
      | nil =>
          rw [List.map_cons, List.map_nil, dumpsItems, dumpsChars] at h
          rcases List.mem_append.mp h with h | h
          · exact hquoted text c h
          · rw [List.mem_singleton.mp h]
            decide
      | cons next texts =>
          rw [List.map_cons, List.map_cons, dumpsItems, dumpsChars] at h
          · rcases List.mem_append.mp h with h | h
            · exact hquoted text c h
            · rcases List.mem_cons.mp h with rfl | h
              · decide
              · exact ih h
          · exact fun heq => nomatch heq

end JsonText

open JsonText

theorem Json.printable_dumpsAscii_texts (texts : List String) :
    Printable (Platform.dumpsAscii (.arr (texts.map .str))).toList := by
  rw [Platform.dumpsAscii, String.toList_ofList, Json.dumpsChars]
  refine printable_flatMap fun c hc => ?_
  rcases List.mem_cons.mp hc with rfl | hc
  · decide
  · exact le_dumpsItems hc

/-- A list of texts written in ASCII reads back. -/
theorem Json.loads_dumpsAscii_texts (D : Decoding) (texts : List String) :
    Json.loads D (Platform.dumpsAscii (.arr (texts.map .str))).toList =
      .ok (.arr (texts.map .str)) := by
  have hscan := scanFrom_itemsAscii D texts []
  have hparse := parse_tokensOf D (.arr (texts.map .str)) (roundTrips_texts texts) [] []
  have hopen : ∀ chars, scanFrom D .between ('[' :: chars) =
      .mark '[' :: scanFrom D .between chars := fun _ => scanFrom_mark D (by decide) _
  have hbracket : Platform.asciiChar '[' = ['['] := rfl
  have hend : scanFrom D .between [] = [] := rfl
  rw [List.append_nil, hend, List.append_nil] at hscan
  rw [tokensOf, List.append_nil] at hparse
  rw [Platform.dumpsAscii, String.toList_ofList, Json.dumpsChars, List.flatMap_cons, hbracket,
    List.singleton_append, Json.loads, hopen, hscan, hparse]
  rfl

end Library
