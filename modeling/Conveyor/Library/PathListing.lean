import Conveyor.Library.TextLines

/-!
# Listings of paths

How Git writes the names of files. Where it writes a name on each line, it quotes one that holds
a control character, a quote, a backslash or anything outside ASCII, the way C does; with `-z` it
writes every name as it is and ends it with a null character. `readLines_listLines` and
`readItems_listItems` say what a reader of such an output gets back.
-/

namespace Library

/-! ### Quoting -/

/-- Git writes the character as it is. -/
def isPlain (c : Char) : Bool :=
  decide (0x20 ≤ c.toNat ∧ c.toNat < 0x7f ∧ c ≠ '"' ∧ c ≠ '\\')

def octalDigit (n : Nat) : Char := Char.ofNat (0x30 + n % 8)

/-- `quote_c_style` for one byte that is not written as it is. -/
def quoteByte (b : UInt8) : List Char :=
  '\\' :: match b.toNat with
    | 0x07 => ['a']
    | 0x08 => ['b']
    | 0x09 => ['t']
    | 0x0a => ['n']
    | 0x0b => ['v']
    | 0x0c => ['f']
    | 0x0d => ['r']
    | 0x22 => ['"']
    | 0x5c => ['\\']
    | n => [octalDigit (n / 64), octalDigit (n / 8), octalDigit n]

def quoteChar (c : Char) : List Char :=
  if isPlain c then [c] else (String.utf8EncodeChar c).flatMap quoteByte

/-- A name as Git writes it on a line. -/
def quoteName (name : List Char) : List Char :=
  if name.all isPlain then name else '"' :: name.flatMap quoteChar ++ ['"']

theorem quoteName_plain {name : List Char} (h : name.all isPlain = true) :
    quoteName name = name := if_pos h

theorem toNat_octalDigit (n : Nat) : (octalDigit n).toNat = 0x30 + n % 8 := by
  have h : n % 8 < 8 := Nat.mod_lt _ (by decide)
  have hvalid : (0x30 + n % 8).isValidChar := Or.inl (by omega)
  rw [octalDigit, Char.ofNat, dif_pos hvalid]
  rfl

/-- Whatever Git writes on a line is printable ASCII. -/
def isPrintableAscii (c : Char) : Bool := decide (0x20 ≤ c.toNat ∧ c.toNat < 0x7f)

theorem isPrintableAscii_of_isPlain {c : Char} (h : isPlain c = true) :
    isPrintableAscii c = true := by
  simp only [isPlain, isPrintableAscii, decide_eq_true_eq] at h ⊢
  exact ⟨h.1, h.2.1⟩

theorem isPrintableAscii_octalDigit (n : Nat) : isPrintableAscii (octalDigit n) = true := by
  simp only [isPrintableAscii, toNat_octalDigit, decide_eq_true_eq]
  omega

theorem isPrintableAscii_quoteByte (b : UInt8) :
    ∀ c ∈ quoteByte b, isPrintableAscii c = true := by
  have hoctal := isPrintableAscii_octalDigit
  intro c hc
  rw [quoteByte, List.mem_cons] at hc
  rcases hc with rfl | hc
  · rfl
  · split at hc <;> simp only [List.mem_cons, List.not_mem_nil, or_false] at hc
    case h_10 =>
      rcases hc with rfl | rfl | rfl <;> apply hoctal
    all_goals
      subst hc
      rfl

theorem isPrintableAscii_quoteChar (c : Char) :
    ∀ d ∈ quoteChar c, isPrintableAscii d = true := by
  intro d hd
  rw [quoteChar] at hd
  split at hd
  · next hplain =>
    rw [List.mem_singleton.mp hd]
    exact isPrintableAscii_of_isPlain hplain
  · obtain ⟨b, -, hd⟩ := List.mem_flatMap.mp hd
    exact isPrintableAscii_quoteByte b d hd

theorem isPrintableAscii_quoteName (name : List Char) :
    ∀ c ∈ quoteName name, isPrintableAscii c = true := by
  intro c hc
  rw [quoteName] at hc
  split at hc
  · next hplain => exact isPrintableAscii_of_isPlain (List.all_eq_true.mp hplain c hc)
  · simp only [List.cons_append, List.mem_cons, List.mem_append, List.mem_flatMap,
      List.not_mem_nil, or_false] at hc
    rcases hc with rfl | ⟨d, -, hc⟩ | rfl
    · rfl
    · exact isPrintableAscii_quoteChar d c hc
    · rfl

theorem isLineBoundary_of_isPrintableAscii {c : Char} (h : isPrintableAscii c = true) :
    isLineBoundary c = false := by
  simp only [isPrintableAscii, decide_eq_true_eq] at h
  simp only [isLineBoundary, List.mem_cons, List.not_mem_nil, or_false, decide_eq_false_iff_not]
  omega

theorem quoteChar_ne_nil (c : Char) : quoteChar c ≠ [] := by
  rw [quoteChar]
  split
  · exact List.cons_ne_nil _ _
  · cases hbytes : String.utf8EncodeChar c with
    | nil => exact absurd hbytes String.utf8EncodeChar_ne_nil
    | cons b bytes => simp [quoteByte]

theorem length_le_length_flatMap_quoteChar (name : List Char) :
    name.length ≤ (name.flatMap quoteChar).length := by
  induction name with
  | nil => exact Nat.le_refl _
  | cons c name ih =>
      have hpos : 0 < (quoteChar c).length := List.length_pos_of_ne_nil (quoteChar_ne_nil c)
      rw [List.flatMap_cons, List.length_cons, List.length_append]
      omega

/-- A quoted name is longer than the name. -/
theorem length_lt_length_quoteName {name : List Char} (h : name.all isPlain = false) :
    name.length < (quoteName name).length := by
  have hle := length_le_length_flatMap_quoteChar name
  rw [quoteName, if_neg (by simp [h])]
  simp only [List.cons_append, List.length_cons, List.length_append, List.length_nil]
  omega

theorem quoteName_ne_nil {name : List Char} (h : name ≠ []) : quoteName name ≠ [] := by
  rw [quoteName]
  split
  · exact h
  · exact List.cons_ne_nil _ _

/-! ### One name a line -/

def listLines (names : List (List Char)) : List Char :=
  names.flatMap fun name => quoteName name ++ ['\n']

/-- `splitlines`, of a text stream, without the empty lines. -/
def readLines (text : List Char) : List (List Char) :=
  (splitlines (universalNewlines text)).filter (· ≠ [])

theorem universalNewlines_plain {text : List Char} (h : ∀ c ∈ text, c ≠ '\r')
    (rest : List Char) : universalNewlines (text ++ rest) = text ++ universalNewlines rest := by
  induction text with
  | nil => rfl
  | cons c text ih =>
      have hc : c ≠ '\r' := h c List.mem_cons_self
      rw [List.cons_append, universalNewlines.eq_def]
      split <;> simp_all

theorem return_not_mem_universalNewlines (text : List Char) : '\r' ∉ universalNewlines text := by
  fun_induction universalNewlines text with
  | case1 => exact List.not_mem_nil
  | case2 text ih => simpa using ih
  | case3 text hnext ih => simpa using ih
  | case4 c text hpair hreturn ih =>
      have hc : c ≠ '\r' := hreturn
      simpa [hc.symm] using ih

theorem piecesOf_printable {line : List Char} (h : ∀ c ∈ line, isPrintableAscii c = true) :
    piecesOf line = [line] := by
  have hreturn : ∀ c ∈ line, c ≠ '\r' := by
    rintro c hc rfl
    cases h _ hc
  have hline : ∀ c ∈ line, isLineBoundary c = false := fun c hc =>
    isLineBoundary_of_isPrintableAscii (h c hc)
  have hread : universalNewlines ['\n'] = ['\n'] := rfl
  rw [piecesOf, universalNewlines_plain hreturn, hread, splitlines_plain hline]
  rfl

/-- A listing is read back as the names the way they were written. -/
theorem readLines_listLines {names : List (List Char)} (h : ∀ name ∈ names, name ≠ []) :
    readLines (listLines names) = names.map quoteName := by
  have hpieces : (names.map quoteName).flatMap piecesOf = names.map quoteName := by
    induction names with
    | nil => rfl
    | cons name names ih =>
        rw [List.map_cons, List.flatMap_cons, piecesOf_printable (isPrintableAscii_quoteName name),
          ih fun other hother => h other (List.mem_cons_of_mem _ hother), List.singleton_append]
  have hlist : listLines names = (names.map quoteName).flatMap fun line => line ++ ['\n'] := by
    rw [listLines, List.flatMap_map]
  rw [readLines, hlist, splitlines_flatMap, hpieces, List.filter_eq_self]
  intro line hline
  obtain ⟨name, hname, rfl⟩ := List.mem_map.mp hline
  simpa using quoteName_ne_nil (h name hname)

/-! ### Names ended by a null character -/

def listItems (items : List (List Char)) : List Char := items.flatMap fun item => item ++ ['\x00']

/-- `split("\0")`, of a text stream, without the empty items. -/
def readItems (text : List Char) : List (List Char) :=
  ((universalNewlines text).splitOn '\x00').filter (· ≠ [])

theorem universalNewlines_item (item rest : List Char) :
    universalNewlines (item ++ '\x00' :: rest) =
      universalNewlines item ++ '\x00' :: universalNewlines rest := by
  fun_induction universalNewlines item with
  | case1 => rfl
  | case2 item ih => simpa [universalNewlines] using ih
  | case3 item hnext ih =>
      cases item with
      | nil => rfl
      | cons c item =>
          have hc : c ≠ '\n' := fun heq => hnext item (by rw [heq])
          simpa [universalNewlines, hc] using ih
  | case4 c item _ hreturn ih =>
      have hc : c ≠ '\r' := hreturn
      simpa [universalNewlines, hc] using ih

theorem null_not_mem_universalNewlines {text : List Char} (h : '\x00' ∉ text) :
    '\x00' ∉ universalNewlines text := by
  fun_induction universalNewlines text with
  | case1 => exact h
  | case2 text ih => simp_all
  | case3 text hnext ih => simp_all
  | case4 c text hpair hreturn ih => simp_all

theorem universalNewlines_ne_nil {text : List Char} (h : text ≠ []) :
    universalNewlines text ≠ [] := by
  fun_cases universalNewlines text with
  | case1 => exact absurd rfl h
  | case2 => exact List.cons_ne_nil _ _
  | case3 => exact List.cons_ne_nil _ _
  | case4 => exact List.cons_ne_nil _ _

theorem splitOn_listItems {names : List (List Char)} (h : ∀ name ∈ names, '\x00' ∉ name) :
    (universalNewlines (listItems names)).splitOn '\x00' =
      names.map universalNewlines ++ [[]] := by
  induction names with
  | nil => rfl
  | cons name names ih =>
      have hname : '\x00' ∉ universalNewlines name :=
        null_not_mem_universalNewlines (h name List.mem_cons_self)
      rw [listItems, List.flatMap_cons, List.append_assoc, List.singleton_append,
        universalNewlines_item, ← listItems, List.splitOn_append_cons_self_of_not_mem hname,
        ih fun other hother => h other (List.mem_cons_of_mem _ hother)]
      rfl

/-- A listing is read back as the names, with their line ends as a text stream reads them. -/
theorem readItems_listItems {names : List (List Char)}
    (h : ∀ name ∈ names, name ≠ [] ∧ '\x00' ∉ name) :
    readItems (listItems names) = names.map universalNewlines := by
  rw [readItems, splitOn_listItems fun name hname => (h name hname).2, List.filter_append]
  have hkept : (names.map universalNewlines).filter (· ≠ []) = names.map universalNewlines := by
    rw [List.filter_eq_self]
    intro line hline
    obtain ⟨name, hname, rfl⟩ := List.mem_map.mp hline
    simpa using universalNewlines_ne_nil (h name hname).1
  rw [hkept]
  simp

end Library
