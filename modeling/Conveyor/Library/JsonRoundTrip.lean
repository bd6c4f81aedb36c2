import Conveyor.Library.JsonText
import Mathlib.Data.List.TakeWhile
import Mathlib.Tactic.IntervalCases

/-!
# Reading what was written

The scanner takes a serialized value back to the tokens it was written from, and the machine
takes these tokens back to the value, whatever stands behind it. `loads_dumpsChars` is the round
trip for the values whose keys are in order and that hold no floating-point number.
-/

namespace Library

namespace JsonText

open Json

variable (D : Decoding)

/-! ### Scanning a quoted text -/

theorem not_surrogate (c : Char) : (isHigh c.toNat || isLow c.toNat) = false := by
  have hvalid : c.toNat < 0xd800 ∨ 0xdfff < c.toNat ∧ c.toNat < 0x110000 := c.valid
  simp only [isHigh, isLow, Bool.or_eq_false_iff, Bool.and_eq_false_iff, decide_eq_false_iff_not]
  omega

@[simp] theorem charOf_toNat (c : Char) : charOf D c.toNat = c := by
  rw [charOf, not_surrogate, if_neg Bool.false_ne_true, Char.ofNat_toNat]

@[simp] theorem joinUnits_toNat (chars : List Char) : joinUnits D (chars.map Char.toNat) = chars := by
  induction chars with
  | nil => rfl
  | cons c rest ih =>
      cases rest with
      | nil => simp [joinUnits]
      | cons next rest =>
          have hhigh : isHigh c.toNat = false := (Bool.or_eq_false_iff.mp (not_surrogate c)).1
          rw [List.map_cons, List.map_cons, joinUnits, hhigh, Bool.false_and,
            if_neg Bool.false_ne_true, charOf_toNat, ← List.map_cons, ih]

/-- An escaped character is one unit of the text. -/
theorem scanFrom_escapeChar (units : List Nat) (c : Char) (rest : List Char) :
    scanFrom D (.text units) (escapeChar c ++ rest) = scanFrom D (.text (c.toNat :: units)) rest := by
  by_cases hcontrol : c.toNat < 32
  · obtain ⟨n, hn, rfl⟩ : ∃ n, n = c.toNat ∧ c = Char.ofNat n := ⟨c.toNat, rfl, by simp⟩
    rw [← hn] at hcontrol
    interval_cases n <;> rfl
  · unfold escapeChar
    split
    · rfl
    · rfl
    · exact absurd (by decide) hcontrol
    · exact absurd (by decide) hcontrol
    · exact absurd (by decide) hcontrol
    · rename_i hquote hslash _ _ _
      have hval : ∀ n : Nat, n < 32 → c.toNat ≠ n := fun n hn h => hcontrol (h ▸ hn)
      have h8 : c.val ≠ 8 := fun h => hval 8 (by decide) (congrArg UInt32.toNat h)
      have h12 : c.val ≠ 12 := fun h => hval 12 (by decide) (congrArg UInt32.toNat h)
      have h32 : ¬c.val < 32 := fun h => hcontrol h
      rw [if_neg h8, if_neg h12, if_neg h32, List.singleton_append, scanFrom, scanChar,
        if_neg (fun h => hquote h), if_neg (fun h => hslash h), if_neg hcontrol]
      rfl

theorem scanFrom_escaped (units : List Nat) (chars rest : List Char) :
    scanFrom D (.text units) (chars.flatMap escapeChar ++ rest) =
      scanFrom D (.text ((chars.map Char.toNat).reverse ++ units)) rest := by
  induction chars generalizing units with
  | nil => rfl
  | cons c chars ih =>
      rw [List.flatMap_cons, List.append_assoc, scanFrom_escapeChar, ih, List.map_cons,
        List.reverse_cons, List.append_assoc, List.singleton_append]

/-- The rest of a quoted text, behind its opening mark. -/
theorem scanFrom_closing (chars rest : List Char) :
    scanFrom D (.text []) (chars.flatMap escapeChar ++ '"' :: rest) =
      .text chars :: scanFrom D .between rest := by
  rw [scanFrom_escaped, List.append_nil, scanFrom, scanChar, if_pos rfl, List.reverse_reverse,
    joinUnits_toNat]
  rfl

theorem scanFrom_quoted (s : String) (rest : List Char) :
    scanFrom D .between (quoted s ++ rest) = .text s.toList :: scanFrom D .between rest := by
  rw [quoted, List.cons_append, List.append_assoc, List.singleton_append]
  exact scanFrom_closing D s.toList rest

/-! ### Scanning a scalar -/

/-- What may stand behind a value: nothing, or a mark. -/
def Ends (rest : List Char) : Prop := ∀ c ∈ rest.head?, isMark c = true

theorem isMark_cases {c : Char} (h : isMark c = true) : isBlank c = false ∧ c ≠ '"' ∧
    isScalarChar c = false := by
  simp only [isMark, decide_eq_true_eq, List.mem_cons, List.not_mem_nil, or_false] at h
  rcases h with rfl | rfl | rfl | rfl | rfl | rfl <;> decide

theorem start_mark {c : Char} (h : isMark c = true) : start c = ([.mark c], .between) := by
  obtain ⟨hblank, hquote, -⟩ := isMark_cases h
  rw [start, hblank, if_neg Bool.false_ne_true, if_neg hquote, if_pos h]

theorem scanFrom_mark {c : Char} (h : isMark c = true) (rest : List Char) :
    scanFrom D .between (c :: rest) = .mark c :: scanFrom D .between rest := by
  rw [scanFrom, scanChar, start_mark h]
  rfl

theorem scanFrom_scalarChars {read lexeme rest : List Char}
    (h : ∀ c ∈ lexeme, isScalarChar c = true) (hrest : Ends rest) :
    scanFrom D (.scalar read) (lexeme ++ rest) =
      .scalar (read.reverse ++ lexeme) :: scanFrom D .between rest := by
  induction lexeme generalizing read with
  | nil =>
      cases rest with
      | nil => simp [scanFrom, scanEnd]
      | cons c rest =>
          have hmark : isMark c = true := hrest c rfl
          rw [List.nil_append, scanFrom, scanChar, (isMark_cases hmark).2.2, start_mark hmark,
            scanFrom_mark D hmark, List.append_nil]
          rfl
  | cons c lexeme ih =>
      rw [List.forall_mem_cons] at h
      rw [List.cons_append, scanFrom, scanChar, if_pos h.1]
      have hrest := @ih (c :: read) h.2
      simpa using hrest

/-- A lexeme that begins no other token. -/
def IsLexeme (lexeme : List Char) : Prop :=
  lexeme ≠ [] ∧ ∀ c ∈ lexeme, isScalarChar c = true ∧ isBlank c = false ∧ c ≠ '"' ∧
    isMark c = false

instance (lexeme : List Char) : Decidable (IsLexeme lexeme) :=
  decidable_of_iff (lexeme ≠ [] ∧ (lexeme.all fun c => isScalarChar c && !isBlank c && c != '"' &&
    !isMark c) = true) (by simp [IsLexeme, and_assoc])

theorem scanFrom_lexeme {lexeme rest : List Char} (h : IsLexeme lexeme) (hrest : Ends rest) :
    scanFrom D .between (lexeme ++ rest) = .scalar lexeme :: scanFrom D .between rest := by
  obtain ⟨hne, hall⟩ := h
  cases lexeme with
  | nil => exact absurd rfl hne
  | cons c lexeme =>
      rw [List.forall_mem_cons] at hall
      obtain ⟨⟨hscalar, hblank, hquote, hmark⟩, hlater⟩ := hall
      rw [List.cons_append, scanFrom, scanChar, start, hblank, if_neg Bool.false_ne_true,
        if_neg hquote, hmark, if_neg Bool.false_ne_true, if_pos hscalar]
      exact scanFrom_scalarChars D (fun d hd => (hlater d hd).1) hrest

/-! ### Integers -/

theorem isLexeme_of_digits {digits : List Char} (hne : digits ≠ [])
    (h : ∀ c ∈ digits, c.isDigit = true) : IsLexeme digits := by
  refine ⟨hne, fun c hc => ?_⟩
  have hdigit := h c hc
  have halnum : c.isAlphanum = true := by simp [Char.isAlphanum, hdigit]
  refine ⟨by simp [isScalarChar, halnum], ?_, ?_, ?_⟩
  · by_contra hblank
    simp only [isBlank, Bool.not_eq_false, Bool.or_eq_true, decide_eq_true_eq] at hblank
    rcases hblank with ((rfl | rfl) | rfl) | rfl <;> cases hdigit
  · rintro rfl
    cases hdigit
  · by_contra hmark
    simp only [isMark, Bool.not_eq_false, decide_eq_true_eq, List.mem_cons, List.not_mem_nil,
      or_false] at hmark
    rcases hmark with rfl | rfl | rfl | rfl | rfl | rfl <;> cases hdigit

theorem isDigit_of_charIsDigit {c : Char} (h : c.isDigit = true) : isDigit c = true := by
  simp only [Char.isDigit, Bool.and_eq_true, decide_eq_true_eq] at h
  simp only [isDigit, Bool.and_eq_true, decide_eq_true_eq]
  exact ⟨h.1, h.2⟩

theorem natOf_toDigits (n : Nat) : natOf (Nat.toDigits 10 n) = n := by
  rw [natOf]
  exact Nat.ofDigitChars_eq_foldl.symm.trans (Nat.ofDigitChars_toDigits (by decide) (by decide))

/-- A number of more than one digit does not begin with a zero. -/
theorem toDigits_head (n : Nat) : ∀ c rest, Nat.toDigits 10 n = c :: rest → c = '0' → rest = [] := by
  induction n using Nat.strong_induction_on with
  | _ n ih =>
      intro c rest heq hzero
      by_cases hsmall : n < 10
      · rw [Nat.toDigits_of_lt_base hsmall] at heq
        exact (List.cons.inj heq).2.symm
      · have hlarge : 10 ≤ n := Nat.le_of_not_lt hsmall
        rw [Nat.toDigits_of_base_le (by decide) hlarge] at heq
        -- the leading digit is the one of the tenth part, which is not zero
        cases hparts : Nat.toDigits 10 (n / 10) with
        | nil => exact absurd hparts Nat.toDigits_ne_nil
        | cons d more =>
            rw [hparts, List.cons_append, List.cons.injEq] at heq
            have hmore := ih (n / 10) (by omega) d more hparts (heq.1.trans hzero)
            have hvalue := natOf_toDigits (n / 10)
            rw [hparts, hmore, heq.1, hzero] at hvalue
            have hpos : natOf ['0'] = 0 := rfl
            omega

theorem integral_toDigits (n : Nat) :
    integral (Nat.toDigits 10 n) = (Nat.toDigits 10 n, []) := by
  have hall : ∀ c ∈ Nat.toDigits 10 n, isDigit c = true := fun c hc =>
    isDigit_of_charIsDigit (Nat.isDigit_of_mem_toDigits (by decide) (by decide) hc)
  unfold integral
  split
  · rename_i rest hdigits
    have hrest := toDigits_head n '0' rest hdigits rfl
    rw [hdigits, hrest]
  · rw [List.takeWhile_eq_self_iff.mpr hall, List.dropWhile_eq_nil_iff.mpr hall]

theorem number_toDigits {n : Nat} (h : (Nat.toDigits 10 n).length ≤ maxDigits) (negative : Bool) :
    number D negative (Nat.toDigits 10 n) [] =
      .ok (.int (if negative then -(n : Int) else n)) := by
  have hfraction : fraction [] = ([], []) := rfl
  have hexponent : exponent [] = ([], []) := rfl
  simp only [number, hfraction, hexponent, if_neg Nat.toDigits_ne_nil, and_self, if_true,
    if_neg (Nat.not_lt.mpr h), ne_eq, not_true_eq_false, if_false, natOf_toDigits]

/-! ### Values that read back -/

mutual

/-- The keys are in order, the integers are not too long to convert, and no number is a
    floating-point number. -/
def RoundTrips : Json → Prop
  | .null | .bool _ | .str _ => True
  | .int n => (Nat.toDigits 10 n.natAbs).length ≤ maxDigits
  | .float _ => False
  | .arr items => RoundTripsItems items
  | .obj fields => Fields.Ordered fields ∧ RoundTripsFields fields

def RoundTripsItems : List Json → Prop
  | [] => True
  | value :: rest => RoundTrips value ∧ RoundTripsItems rest

def RoundTripsFields : List (String × Json) → Prop
  | [] => True
  | (_, value) :: rest => RoundTrips value ∧ RoundTripsFields rest

end

mutual

/-- The tokens a value is written in. -/
def tokensOf : Json → List Token
  | .null => [.scalar "null".toList]
  | .bool b => [.scalar (if b then "true" else "false").toList]
  | .int n => [.scalar (toString n).toList]
  | .float lexeme => [.scalar lexeme.toList]
  | .str s => [.text s.toList]
  | .arr items => .mark '[' :: tokensOfItems items
  | .obj fields => .mark '\x7b' :: tokensOfFields fields

def tokensOfItems : List Json → List Token
  | [] => [.mark ']']
  | [value] => tokensOf value ++ [.mark ']']
  | value :: rest => tokensOf value ++ .mark ',' :: tokensOfItems rest

def tokensOfFields : List (String × Json) → List Token
  | [] => [.mark '\x7d']
  | [(key, value)] => .text key.toList :: .mark ':' :: tokensOf value ++ [.mark '\x7d']
  | (key, value) :: rest =>
      .text key.toList :: .mark ':' :: tokensOf value ++ .mark ',' :: tokensOfFields rest

end

theorem toList_toString_negSucc (m : Nat) :
    (toString (Int.negSucc m)).toList = '-' :: Nat.toDigits 10 (m + 1) := by
  have hsign : toString (Int.negSucc m) = "-" ++ (m + 1).repr := rfl
  rw [hsign, String.toList_append, Nat.toList_repr]
  rfl

theorem isLexeme_int (n : Int) : IsLexeme (toString n).toList := by
  have hdigits : IsLexeme (Nat.toDigits 10 n.natAbs) := isLexeme_of_digits Nat.toDigits_ne_nil
    fun c hc => Nat.isDigit_of_mem_toDigits (by decide) (by decide) hc
  cases n with
  | ofNat m =>
      have hchars : (toString (Int.ofNat m)).toList = Nat.toDigits 10 m := Nat.toList_repr
      rwa [hchars]
  | negSucc m =>
      rw [toList_toString_negSucc]
      refine ⟨List.cons_ne_nil _ _, fun c hc => ?_⟩
      rcases List.mem_cons.mp hc with rfl | hc
      · decide
      · exact hdigits.2 c hc

theorem ends_nil : Ends [] := by simp [Ends]

theorem ends_mark {c : Char} (h : isMark c = true) (rest : List Char) : Ends (c :: rest) := by
  simpa [Ends] using h

mutual

theorem scanFrom_dumpsChars : ∀ (value : Json) {rest : List Char}, RoundTrips value → Ends rest →
    scanFrom D .between (dumpsChars value ++ rest) = tokensOf value ++ scanFrom D .between rest
  | .null, _, _, hrest => scanFrom_lexeme D (by rw [dumpsChars]; decide) hrest
  | .bool true, _, _, hrest => scanFrom_lexeme D (by rw [dumpsChars]; decide) hrest
  | .bool false, _, _, hrest => scanFrom_lexeme D (by rw [dumpsChars]; decide) hrest
  | .int n, _, _, hrest => scanFrom_lexeme D (by rw [dumpsChars]; exact isLexeme_int n) hrest
  | .float _, _, h, _ => by rw [RoundTrips] at h; exact h.elim
  | .str s, rest, _, _ => by rw [dumpsChars, scanFrom_quoted, tokensOf]; rfl
  | .arr items, rest, h, hrest => by
      rw [RoundTrips] at h
      rw [dumpsChars, tokensOf, List.cons_append, scanFrom_mark D (by decide),
        scanFrom_dumpsItems items h hrest, List.cons_append]
  | .obj fields, rest, h, hrest => by
      rw [RoundTrips] at h
      rw [dumpsChars, tokensOf, List.cons_append, scanFrom_mark D (by decide),
        scanFrom_dumpsFields fields h.2 hrest, List.cons_append]

theorem scanFrom_dumpsItems : ∀ (items : List Json) {rest : List Char}, RoundTripsItems items →
    Ends rest → scanFrom D .between (dumpsItems items ++ rest) =
      tokensOfItems items ++ scanFrom D .between rest
  | [], rest, _, _ => by
      rw [dumpsItems, tokensOfItems, List.singleton_append, scanFrom_mark D (by decide)]
      rfl
  | [value], rest, h, _ => by
      rw [RoundTripsItems] at h
      rw [dumpsItems, tokensOfItems, List.append_assoc, List.singleton_append,
        scanFrom_dumpsChars value h.1 (ends_mark (by decide) _), scanFrom_mark D (by decide),
        List.append_assoc]
      rfl
  | value :: next :: more, rest, h, hrest => by
      rw [RoundTripsItems] at h
      rw [dumpsItems, tokensOfItems, List.append_assoc, List.cons_append,
        scanFrom_dumpsChars value h.1 (ends_mark (by decide) _), scanFrom_mark D (by decide),
        scanFrom_dumpsItems (next :: more) h.2 hrest, List.append_assoc, List.cons_append]
      · exact fun heq => nomatch heq
      · exact fun heq => nomatch heq

theorem scanFrom_dumpsFields : ∀ (fields : List (String × Json)) {rest : List Char},
    RoundTripsFields fields → Ends rest → scanFrom D .between (dumpsFields fields ++ rest) =
      tokensOfFields fields ++ scanFrom D .between rest
  | [], rest, _, _ => by
      rw [dumpsFields, tokensOfFields, List.singleton_append, scanFrom_mark D (by decide)]
      rfl
  | [(key, value)], rest, h, _ => by
      rw [RoundTripsFields] at h
      rw [dumpsFields, tokensOfFields, List.append_assoc, List.cons_append, List.append_assoc,
        List.append_assoc, scanFrom_quoted, List.cons_append, scanFrom_mark D (by decide),
        List.singleton_append, scanFrom_dumpsChars value h.1 (ends_mark (by decide) _),
        scanFrom_mark D (by decide)]
      simp
  | (key, value) :: next :: more, rest, h, hrest => by
      rw [RoundTripsFields] at h
      rw [dumpsFields, tokensOfFields, List.append_assoc, List.cons_append, List.append_assoc,
        List.cons_append, scanFrom_quoted, scanFrom_mark D (by decide),
        scanFrom_dumpsChars value h.1 (ends_mark (by decide) _), scanFrom_mark D (by decide),
        scanFrom_dumpsFields (next :: more) h.2 hrest]
      · simp
      · exact fun heq => nomatch heq
      · exact fun heq => nomatch heq
end

/-! ### Parsing the tokens -/

theorem toDigits_isDigit {n : Nat} : ∀ c ∈ Nat.toDigits 10 n, c.isDigit = true := fun _ =>
  Nat.isDigit_of_mem_toDigits (by decide) (by decide)

/-- The names of constants begin with a letter, apart from the one that begins with a sign. -/
theorem ne_constant {c : Char} {rest word : List Char} (h : c = '-' ∨ c.isDigit = true)
    (hword : (word.head?.all fun d => d != '-' && !d.isDigit) = true) : c :: rest ≠ word := by
  rintro rfl
  have hfirst : ¬(c = '-' ∨ c.isDigit = true) := by simpa using hword
  exact hfirst h

theorem scalarOf_number {c : Char} {rest : List Char} (h : c = '-' ∨ c.isDigit = true)
    (hinfinity : c :: rest ≠ "-Infinity".toList) :
    scalarOf D (c :: rest) =
      if c = '-' then number D true (integral rest).1 (integral rest).2
      else number D false (integral (c :: rest)).1 (integral (c :: rest)).2 := by
  have hconstant : c :: rest ∉ ["NaN".toList, "Infinity".toList, "-Infinity".toList] := by
    simp only [List.mem_cons, List.not_mem_nil, or_false, not_or]
    exact ⟨ne_constant h (by decide), ne_constant h (by decide), hinfinity⟩
  unfold scalarOf
  rw [if_neg (ne_constant h (by decide)), if_neg (ne_constant h (by decide)),
    if_neg (ne_constant h (by decide)), if_neg hconstant]
  split
  · rename_i digits heq
    rw [(List.cons.inj heq).1, (List.cons.inj heq).2, if_pos rfl]
  · rename_i hminus
    rw [if_neg fun heq => hminus rest (by rw [heq])]

theorem scalarOf_toDigits {n : Nat} (h : (Nat.toDigits 10 n).length ≤ maxDigits) :
    scalarOf D (Nat.toDigits 10 n) = .ok (.int n) := by
  cases hdigits : Nat.toDigits 10 n with
  | nil => exact absurd hdigits Nat.toDigits_ne_nil
  | cons c rest =>
      have hdigit : c.isDigit = true :=
        toDigits_isDigit (n := n) c (by rw [hdigits]; exact List.mem_cons_self)
      have hminus : c ≠ '-' := by
        rintro rfl
        cases hdigit
      have hinfinity : c :: rest ≠ "-Infinity".toList := fun heq => hminus (List.cons.inj heq).1
      rw [scalarOf_number D (Or.inr hdigit) hinfinity, if_neg hminus, ← hdigits,
        integral_toDigits, number_toDigits D h]
      rfl

theorem scalarOf_minus {n : Nat} (h : (Nat.toDigits 10 n).length ≤ maxDigits) :
    scalarOf D ('-' :: Nat.toDigits 10 n) = .ok (.int (-n)) := by
  have hinfinity : '-' :: Nat.toDigits 10 n ≠ "-Infinity".toList := by
    intro heq
    have hletter : ('I' : Char).isDigit = true := toDigits_isDigit (n := n) 'I' (by
      rw [List.tail_eq_of_cons_eq heq]
      decide)
    cases hletter
  rw [scalarOf_number D (Or.inl rfl) hinfinity, if_pos rfl, integral_toDigits, number_toDigits D h]
  rfl

theorem scalarOf_int {n : Int} (h : (Nat.toDigits 10 n.natAbs).length ≤ maxDigits) :
    scalarOf D (toString n).toList = .ok (.int n) := by
  cases n with
  | ofNat m =>
      have hchars : (toString (Int.ofNat m)).toList = Nat.toDigits 10 m := Nat.toList_repr
      rw [hchars]
      exact scalarOf_toDigits D h
  | negSucc m =>
      rw [toList_toString_negSucc]
      exact scalarOf_minus D h

/-- A value does not begin with the end of an array. -/
theorem tokensOf_head (value : Json) : ∃ first rest, tokensOf value = first :: rest ∧
    first ≠ .mark ']' := by
  cases value <;> exact ⟨_, _, by rw [tokensOf], by simp⟩

theorem parseToken_valueOrEnd {stack : List Frame} {token : Token} (h : token ≠ .mark ']') :
    parseToken D ⟨stack, .valueOrEnd⟩ token = parseToken D ⟨stack, .value⟩ token := by
  simp only [parseToken]
  split
  · exact absurd rfl h
  · rfl

theorem set_append {read : Fields} {key : String} (h : ∀ other ∈ read.keys, other < key)
    (value : Json) : read.set key value = read ++ [(key, value)] := by
  induction read with
  | nil => rfl
  | cons head read ih =>
      obtain ⟨other, found⟩ := head
      rw [Fields.keys_cons, List.forall_mem_cons] at h
      rw [Fields.set, if_neg (ne_of_gt h.1), if_neg (not_lt_of_gt h.1), ih h.2, List.cons_append]

theorem keys_lt_of_ordered {read : Fields} {key : String} {value : Json} {rest : Fields}
    (h : Fields.Ordered (read ++ (key, value) :: rest)) : ∀ other ∈ read.keys, other < key := by
  rw [Fields.Ordered, Fields.keys, List.map_append, List.pairwise_append] at h
  intro other hother
  exact h.2.2 other hother key List.mem_cons_self

theorem parse_tokensOfItems_valueOrEnd (value : Json) (rest : List Json) (stack : List Frame)
    (more : List Token) :
    (tokensOfItems (value :: rest) ++ more).foldlM (parseToken D) ⟨.items [] :: stack, .valueOrEnd⟩ =
      (tokensOfItems (value :: rest) ++ more).foldlM (parseToken D) ⟨.items [] :: stack, .value⟩ := by
  obtain ⟨first, later, htokens, hfirst⟩ := tokensOf_head value
  have hitems : ∃ tail, tokensOfItems (value :: rest) = first :: tail := by
    cases rest with
    | nil => exact ⟨_, by rw [tokensOfItems, htokens, List.cons_append]⟩
    | cons next rest =>
        refine ⟨later ++ .mark ',' :: tokensOfItems (next :: rest), ?_⟩
        rw [tokensOfItems, htokens, List.cons_append]
        exact fun heq => nomatch heq
  obtain ⟨tail, hitems⟩ := hitems
  rw [hitems, List.cons_append, List.foldlM_cons, List.foldlM_cons, parseToken_valueOrEnd D hfirst]

theorem parse_tokensOfFields_keyOrEnd (key : String) (value : Json) (rest : Fields)
    (stack : List Frame) (more : List Token) :
    (tokensOfFields ((key, value) :: rest) ++ more).foldlM (parseToken D) ⟨stack, .keyOrEnd⟩ =
      (tokensOfFields ((key, value) :: rest) ++ more).foldlM (parseToken D) ⟨stack, .key []⟩ := by
  cases rest with
  | nil => rw [tokensOfFields]; rfl
  | cons next rest =>
      rw [tokensOfFields]
      · rfl
      · exact fun heq => nomatch heq

theorem parse_key (read : Fields) (key : String) (stack : List Frame) (more : List Token) :
    (.text key.toList :: .mark ':' :: more).foldlM (parseToken D) ⟨stack, .key read⟩ =
      more.foldlM (parseToken D) ⟨.fields read key :: stack, .value⟩ := by
  rw [List.foldlM_cons]
  simp only [parseToken, String.ofList_toList]
  rfl

mutual

theorem parse_tokensOf : ∀ (value : Json), RoundTrips value → ∀ stack more,
    (tokensOf value ++ more).foldlM (parseToken D) ⟨stack, .value⟩ =
      more.foldlM (parseToken D) ⟨stack, .separator value⟩
  | .null, _, stack, more => rfl
  | .bool true, _, stack, more => rfl
  | .bool false, _, stack, more => rfl
  | .int n, h, stack, more => by
      rw [RoundTrips] at h
      rw [tokensOf, List.singleton_append, List.foldlM_cons]
      simp only [parseToken, opened, scalarOf_int D h]
      rfl
  | .float _, h, _, _ => by rw [RoundTrips] at h; exact h.elim
  | .str s, _, stack, more => by
      rw [tokensOf, List.singleton_append, List.foldlM_cons]
      simp only [parseToken, opened, String.ofList_toList]
      rfl
  | .arr [], _, stack, more => by
      rw [tokensOf, tokensOfItems]
      rfl
  | .arr (value :: rest), h, stack, more => by
      rw [RoundTrips] at h
      rw [tokensOf, List.cons_append, List.foldlM_cons]
      exact (parse_tokensOfItems_valueOrEnd D value rest stack more).trans
        (parse_tokensOfItems (value :: rest) h (List.cons_ne_nil _ _) stack [] more)
  | .obj [], _, stack, more => by
      rw [tokensOf, tokensOfFields]
      rfl
  | .obj ((key, value) :: rest), h, stack, more => by
      rw [RoundTrips] at h
      rw [tokensOf, List.cons_append, List.foldlM_cons]
      exact (parse_tokensOfFields_keyOrEnd D key value rest stack more).trans
        (parse_tokensOfFields ((key, value) :: rest) h.2 (List.cons_ne_nil _ _) stack [] more h.1)

theorem parse_tokensOfItems : ∀ (items : List Json), RoundTripsItems items → items ≠ [] →
    ∀ stack read more,
    (tokensOfItems items ++ more).foldlM (parseToken D) ⟨.items read :: stack, .value⟩ =
      more.foldlM (parseToken D) ⟨stack, .separator (.arr (read.reverse ++ items))⟩
  | [], _, hne, _, _, _ => absurd rfl hne
  | [value], h, _, stack, read, more => by
      rw [RoundTripsItems] at h
      rw [tokensOfItems, List.append_assoc, parse_tokensOf value h.1, List.singleton_append,
        List.foldlM_cons]
      simp only [parseToken, closed, List.reverse_cons]
      rfl
  | value :: next :: rest, h, _, stack, read, more => by
      rw [RoundTripsItems] at h
      rw [tokensOfItems, List.append_assoc, parse_tokensOf value h.1, List.cons_append,
        List.foldlM_cons]
      · have hrest := parse_tokensOfItems (next :: rest) h.2 (List.cons_ne_nil _ _) stack
          (value :: read) more
        rw [List.reverse_cons, List.append_assoc, List.singleton_append] at hrest
        exact hrest
      · exact fun heq => nomatch heq

theorem parse_tokensOfFields : ∀ (fields : List (String × Json)), RoundTripsFields fields →
    fields ≠ [] → ∀ stack (read : Fields) more, Fields.Ordered (read ++ fields) →
    (tokensOfFields fields ++ more).foldlM (parseToken D) ⟨stack, .key read⟩ =
      more.foldlM (parseToken D) ⟨stack, .separator (.obj (read ++ fields))⟩
  | [], _, hne, _, _, _, _ => absurd rfl hne
  | [(key, value)], h, _, stack, read, more, hordered => by
      rw [RoundTripsFields] at h
      rw [tokensOfFields, List.cons_append, List.cons_append, List.cons_append, List.cons_append,
        parse_key, List.append_assoc, parse_tokensOf value h.1, List.singleton_append,
        List.foldlM_cons]
      simp only [parseToken, closed, set_append (keys_lt_of_ordered hordered) value]
      rfl
  | (key, value) :: next :: rest, h, _, stack, read, more, hordered => by
      rw [RoundTripsFields] at h
      have hset := set_append (keys_lt_of_ordered hordered) value
      have hrest : read ++ (key, value) :: next :: rest =
          (read ++ [(key, value)]) ++ next :: rest := by simp
      rw [hrest] at hordered ⊢
      rw [tokensOfFields, List.cons_append, List.cons_append, List.cons_append, List.cons_append,
        parse_key, List.append_assoc, parse_tokensOf value h.1, List.cons_append, List.foldlM_cons,
        ← parse_tokensOfFields (next :: rest) h.2 (List.cons_ne_nil _ _) stack _ more hordered,
        ← hset]
      · rfl
      · exact fun heq => nomatch heq

end

end JsonText

open JsonText

/-- The round trip. -/
theorem Json.loads_dumpsChars (D : Decoding) {value : Json} (h : RoundTrips value) :
    Json.loads D (Json.dumpsChars value) = .ok value := by
  have hscan := scanFrom_dumpsChars D value h ends_nil
  have hparse := parse_tokensOf D value h [] []
  rw [List.append_nil] at hscan hparse
  have hend : scanFrom D .between [] = [] := rfl
  rw [Json.loads, hscan, hend, List.append_nil, hparse]
  rfl

end Library
