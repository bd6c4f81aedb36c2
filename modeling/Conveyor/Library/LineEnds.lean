import Conveyor.Library.TextLines

/-!
# Lines with their ends

`str.splitlines(keepends=True)`: the lines of a text, each with what ends it. The text is its
lines put together again (`joined_keepends`), only the last of them may have no end
(`terminated_keepends`), and a text that is cut behind a `"\n"` is cut into the lines of its two parts
(`keepends_append`).
-/

namespace Library

/-- A line and what ends it, which is nothing at the end of a text. -/
structure Piece where
  line : List Char
  terminator : List Char
deriving DecidableEq, Repr

namespace Piece

def text (piece : Piece) : List Char := piece.line ++ piece.terminator

end Piece

def joined (pieces : List Piece) : List Char := pieces.flatMap Piece.text

@[simp] theorem joined_nil : joined [] = [] := rfl

@[simp] theorem joined_cons (piece : Piece) (pieces : List Piece) :
    joined (piece :: pieces) = piece.line ++ (piece.terminator ++ joined pieces) := by
  rw [joined, List.flatMap_cons, Piece.text, List.append_assoc]
  rfl

@[simp] theorem joined_append (first second : List Piece) :
    joined (first ++ second) = joined first ++ joined second := List.flatMap_append

/-- `splitlines(keepends=True)`, behind what was read of the line so far. -/
def keependsFrom : List Char → List Char → List Piece
  | [], [] => []
  | line, [] => [⟨line, []⟩]
  | line, '\r' :: '\n' :: rest => ⟨line, ['\r', '\n']⟩ :: keependsFrom [] rest
  | line, c :: rest =>
      if isLineBoundary c then ⟨line, [c]⟩ :: keependsFrom [] rest
      else keependsFrom (line ++ [c]) rest

def keepends (text : List Char) : List Piece := keependsFrom [] text

theorem keependsFrom_cons {line rest : List Char} {c : Char}
    (hc : c = '\r' → rest.head? ≠ some '\n') :
    keependsFrom line (c :: rest) =
      if isLineBoundary c then ⟨line, [c]⟩ :: keependsFrom [] rest
      else keependsFrom (line ++ [c]) rest := by
  rw [keependsFrom.eq_def]
  split <;> simp_all

/-- A carriage return that is no part of a pair. -/
theorem apart_of_no_pair {c : Char} {rest : List Char}
    (h : ∀ after, c = '\r' → rest = '\n' :: after → False) :
    c = '\r' → rest.head? ≠ some '\n' := by
  intro hc hhead
  cases rest with
  | nil => cases hhead
  | cons d rest => exact h rest hc (by rw [Option.some.inj hhead])

theorem lines_keependsFrom (line text : List Char) :
    (keependsFrom line text).map Piece.line = splitlinesFrom line text := by
  fun_induction keependsFrom line text with
  | case1 => rfl
  | case2 line hline => rw [splitlinesFrom.eq_def]; split <;> simp_all
  | case3 line rest ih => rw [List.map_cons, splitlinesFrom, ih]
  | case4 line c rest hpair hc ih =>
      rw [List.map_cons, splitlinesFrom_cons (apart_of_no_pair hpair), if_pos hc, ih]
  | case5 line c rest hpair hc ih =>
      rw [splitlinesFrom_cons (apart_of_no_pair hpair), if_neg hc, ih]

/-- The lines are those of `splitlines`. -/
theorem lines_keepends (text : List Char) :
    (keepends text).map Piece.line = splitlines text := lines_keependsFrom [] text

theorem joined_keependsFrom (line text : List Char) :
    joined (keependsFrom line text) = line ++ text := by
  fun_induction keependsFrom line text with
  | case1 => rfl
  | case2 line hline => simp
  | case3 line rest ih => simp [ih]
  | case4 line c rest hpair hc ih => simp [ih]
  | case5 line c rest hpair hc ih => simp [ih]

theorem joined_keepends (text : List Char) : joined (keepends text) = text :=
  joined_keependsFrom [] text

/-- One line boundary. -/
def Ends (terminator : List Char) : Prop :=
  terminator = ['\r', '\n'] ∨ ∃ c, isLineBoundary c = true ∧ terminator = [c]

/-- Every line but the last is ended. -/
def Terminated : List (List Char) → Prop
  | [] => True
  | [terminator] => Ends terminator ∨ terminator = []
  | terminator :: next :: rest => Ends terminator ∧ Terminated (next :: rest)

theorem Terminated.cons {terminator : List Char} {rest : List (List Char)}
    (h : Ends terminator) (hrest : Terminated rest) : Terminated (terminator :: rest) := by
  cases rest with
  | nil => exact Or.inl h
  | cons next rest => exact ⟨h, hrest⟩

theorem Terminated.of_append {front back : List (List Char)} (h : Terminated (front ++ back)) :
    Terminated back := by
  induction front with
  | nil => exact h
  | cons first front ih =>
      cases hrest : front ++ back with
      | nil =>
          rw [(List.append_eq_nil_iff.mp hrest).2]
          exact trivial
      | cons next rest =>
          rw [List.cons_append, hrest] at h
          rw [hrest] at ih
          exact ih h.2

theorem Terminated.mem {terminators : List (List Char)} (h : Terminated terminators)
    {terminator : List Char} (hmem : terminator ∈ terminators) :
    Ends terminator ∨ terminator = [] := by
  induction terminators with
  | nil => cases hmem
  | cons first rest ih =>
      cases rest with
      | nil =>
          rw [List.mem_singleton.mp hmem]
          exact h
      | cons next rest =>
          rcases List.mem_cons.mp hmem with rfl | hmem
          · exact Or.inl h.1
          · exact ih h.2 hmem

theorem terminated_keepends (text : List Char) :
    Terminated ((keepends text).map Piece.terminator) := by
  unfold keepends
  generalize [] = line
  fun_induction keependsFrom line text with
  | case1 => exact trivial
  | case2 line hline => exact Or.inr rfl
  | case3 line rest ih => exact .cons (Or.inl rfl) ih
  | case4 line c rest hpair hc ih => exact .cons (Or.inr ⟨c, hc, rfl⟩) ih
  | case5 line c rest hpair hc ih => exact ih

/-- No line has a boundary in it. -/
theorem plain_of_mem_keepends {text : List Char} {piece : Piece} (h : piece ∈ keepends text) :
    ∀ c ∈ piece.line, isLineBoundary c = false := by
  refine @splitlines_pieces text piece.line ?_
  rw [← lines_keepends]
  exact List.mem_map_of_mem h

theorem keependsFrom_plain {line : List Char} (hline : ∀ c ∈ line, isLineBoundary c = false)
    (before rest : List Char) :
    keependsFrom before (line ++ rest) = keependsFrom (before ++ line) rest := by
  induction line generalizing before with
  | nil => rw [List.nil_append, List.append_nil]
  | cons c line ih =>
      have hc : isLineBoundary c = false := hline c List.mem_cons_self
      have hplain : c = '\r' → (line ++ rest).head? ≠ some '\n' := by
        rintro rfl
        cases hc
      rw [List.cons_append, keependsFrom_cons hplain, if_neg (by simp [hc]),
        ih (fun d hd => hline d (List.mem_cons_of_mem _ hd)), List.append_assoc,
        List.singleton_append]

/-- What was read of a line begins the first line there is. -/
theorem keependsFrom_first (before text : List Char) (h : before ++ text ≠ []) :
    ∃ line terminator rest,
      keependsFrom before text = ⟨before ++ line, terminator⟩ :: rest := by
  fun_induction keependsFrom before text with
  | case1 => exact absurd rfl h
  | case2 before hbefore => exact ⟨[], [], [], by rw [List.append_nil]⟩
  | case3 before rest ih => exact ⟨[], _, _, by rw [List.append_nil]⟩
  | case4 before c rest hpair hc ih => exact ⟨[], _, _, by rw [List.append_nil]⟩
  | case5 before c rest hpair hc ih =>
      obtain ⟨line, terminator, after, heq⟩ := ih (by simp)
      exact ⟨c :: line, terminator, after, by rw [heq, List.append_assoc, List.singleton_append]⟩

/-- A text that is cut behind a `"\n"` is cut into the lines of its parts. -/
theorem keependsFrom_append (before first second : List Char) :
    keependsFrom before (first ++ '\n' :: second) =
      keependsFrom before (first ++ ['\n']) ++ keepends second := by
  have hend : ∀ before, keependsFrom before ('\n' :: second) =
      ⟨before, ['\n']⟩ :: keepends second := by
    intro before
    rw [keependsFrom_cons fun h => absurd h (by decide)]
    rfl
  have hlast : ∀ before, keependsFrom before ['\n'] = [⟨before, ['\n']⟩] := by
    intro before
    rw [keependsFrom_cons (by decide)]
    rfl
  fun_induction keependsFrom before first with
  | case1 => rw [List.nil_append, List.nil_append, hend, hlast, List.singleton_append]
  | case2 before _ => rw [List.nil_append, List.nil_append, hend, hlast, List.singleton_append]
  | case3 before rest ih => simp only [List.cons_append, keependsFrom, ih]
  | case4 before c rest hreturn hc ih =>
      by_cases hpair : c = '\r' ∧ rest = []
      · -- the line end completes a carriage return
        rw [hpair.1, hpair.2]
        simp [keependsFrom, keepends]
      · have hapart : ∀ after, c = '\r' → (rest ++ '\n' :: after).head? ≠ some '\n' := by
          intro after hreturned
          cases rest with
          | nil => exact absurd ⟨hreturned, rfl⟩ hpair
          | cons d rest =>
              intro hhead
              exact hreturn rest hreturned (by rw [Option.some.inj hhead])
        rw [List.cons_append, List.cons_append, keependsFrom_cons (hapart second),
          keependsFrom_cons (hapart []), if_pos hc, if_pos hc, ih, List.cons_append]
  | case5 before c rest hreturn hc ih =>
      have hplain : ∀ after : List Char, c = '\r' → after.head? ≠ some '\n' := by
        rintro after rfl
        exact absurd rfl hc
      rw [List.cons_append, List.cons_append, keependsFrom_cons (hplain _),
        keependsFrom_cons (hplain _), if_neg hc, if_neg hc, ih]

/-- The boundaries of a text stand at the ends of its lines. -/
theorem forall_terminator_iff {text : List Char} :
    (∀ piece ∈ keepends text, piece.terminator = ['\n'] ∨ piece.terminator = []) ↔
      ∀ c ∈ text, isLineBoundary c = true → c = '\n' := by
  constructor
  · intro h c hc hboundary
    rw [← joined_keepends text, joined, List.mem_flatMap] at hc
    obtain ⟨piece, hpiece, hc⟩ := hc
    rcases List.mem_append.mp hc with hline | hend
    · rw [plain_of_mem_keepends hpiece c hline] at hboundary
      cases hboundary
    · rcases h piece hpiece with heq | heq
      · rw [heq] at hend
        exact List.mem_singleton.mp hend
      · rw [heq] at hend
        cases hend
  · intro h piece hpiece
    have hmem : ∀ c ∈ piece.terminator, c ∈ text := by
      intro c hc
      rw [← joined_keepends text, joined, List.mem_flatMap]
      exact ⟨piece, hpiece, List.mem_append_right _ hc⟩
    rcases (terminated_keepends text).mem (List.mem_map_of_mem hpiece) with hends | hnone
    · rcases hends with hpair | ⟨c, hc, hsingle⟩
      · have hreturn := h '\r' (hmem '\r' (by rw [hpair]; exact List.mem_cons_self)) (by decide)
        exact absurd hreturn (by decide)
      · have hnewline := h c (hmem c (by rw [hsingle]; exact List.mem_cons_self)) hc
        rw [hsingle, hnewline]
        exact Or.inl rfl
    · exact Or.inr hnone

/-- `"\n".join(lines)`. -/
def joinLines (lines : List (List Char)) : List Char := ['\n'].intercalate lines

/-- `"\n"`, when the last line is ended by it. -/
def newlineSuffix (terminators : List (List Char)) : List Char :=
  match terminators.getLast? with
  | some terminator => if terminator.getLast? = some '\n' then ['\n'] else []
  | none => []

/-- Lines that are joined again lose every end that is not `"\n"`. -/
theorem joinLines_eq_joined_iff {pieces : List Piece}
    (h : Terminated (pieces.map Piece.terminator)) :
    joinLines (pieces.map Piece.line) ++ newlineSuffix (pieces.map Piece.terminator) =
      joined pieces ↔
        ∀ piece ∈ pieces, piece.terminator = ['\n'] ∨ piece.terminator = [] := by
  induction pieces with
  | nil => simp [joinLines, newlineSuffix]
  | cons piece rest ih =>
      cases rest with
      | nil =>
          simp only [List.map_cons, List.map_nil, joinLines, List.intercalate_singleton,
            newlineSuffix, List.getLast?_singleton, joined_cons, joined_nil, List.append_nil,
            List.append_cancel_left_eq, List.mem_singleton, forall_eq]
          rcases h with (hpair | ⟨c, -, hsingle⟩) | hnone
          · rw [hpair]
            decide
          · rw [hsingle, List.getLast?_singleton]
            by_cases hc : c = '\n'
            · subst hc
              simp
            · simp [hc]
          · rw [hnone]
            decide
      | cons next rest =>
          have hrest := ih h.2
          have hends : joinLines ((piece :: next :: rest).map Piece.line) ++
              newlineSuffix ((piece :: next :: rest).map Piece.terminator) =
                piece.line ++ ('\n' :: (joinLines ((next :: rest).map Piece.line) ++
                  newlineSuffix ((next :: rest).map Piece.terminator))) := by
            have hlast : newlineSuffix ((piece :: next :: rest).map Piece.terminator) =
                newlineSuffix ((next :: rest).map Piece.terminator) := by
              unfold newlineSuffix
              rw [List.map_cons, List.map_cons, List.getLast?_cons_cons]
            rw [hlast, List.map_cons, List.map_cons, joinLines, List.intercalate_cons_cons,
              List.append_assoc, List.append_assoc, List.singleton_append]
            rfl
          rw [hends, joined_cons, List.append_cancel_left_eq, List.forall_mem_cons, ← hrest]
          rcases h.1 with hpair | ⟨c, -, hsingle⟩
          · rw [hpair]
            simp
          · rw [hsingle]
            simp [eq_comm]

/-- No line is empty with its end. -/
theorem text_ne_nil_of_mem {line text : List Char} {piece : Piece}
    (h : piece ∈ keependsFrom line text) : piece.text ≠ [] := by
  fun_induction keependsFrom line text with
  | case1 => cases h
  | case2 line hline =>
      rw [List.mem_singleton.mp h]
      simpa [Piece.text] using hline
  | case3 line rest ih =>
      rcases List.mem_cons.mp h with rfl | h
      · simp [Piece.text]
      · exact ih h
  | case4 line c rest hpair hc ih =>
      rcases List.mem_cons.mp h with rfl | h
      · simp [Piece.text]
      · exact ih h
  | case5 line c rest hpair hc ih => exact ih h

/-- A text ends in a `"\n"` as its last line does. -/
theorem newlineSuffix_keepends (text : List Char) :
    newlineSuffix ((keepends text).map Piece.terminator) =
      if text.getLast? = some '\n' then ['\n'] else [] := by
  have htext := joined_keepends text
  rcases List.eq_nil_or_concat (keepends text) with hnil | ⟨front, last, hpieces⟩
  · rw [hnil] at htext ⊢
    rw [← htext]
    rfl
  · have hlast : last ∈ keepends text := by
      rw [hpieces]
      simp
    rw [hpieces] at htext ⊢
    have hsuffix : newlineSuffix ((front.concat last).map Piece.terminator) =
        if last.terminator.getLast? = some '\n' then ['\n'] else [] := by
      simp [newlineSuffix]
    rw [hsuffix]
    have hend : text.getLast? = some '\n' ↔ last.terminator.getLast? = some '\n' := by
      rw [← htext, List.concat_eq_append, joined_append, joined_cons, joined_nil, List.append_nil,
        ← List.append_assoc]
      cases hterminator : last.terminator with
      | nil =>
          have hne := text_ne_nil_of_mem hlast
          rw [Piece.text, hterminator, List.append_nil] at hne
          rw [List.append_nil, List.getLast?_append_of_ne_nil _ hne]
          constructor
          · intro hc
            have hplain := plain_of_mem_keepends hlast '\n' (List.mem_of_getLast? hc)
            cases hplain
          · exact fun hc => nomatch hc
      | cons c rest => rw [List.getLast?_append_of_ne_nil _ (List.cons_ne_nil _ _)]
    simp only [hend]

/-- The text is empty or ends in a `"\n"`. -/
def AtLineStart (text : List Char) : Prop := text = [] ∨ ∃ before, text = before ++ ['\n']

theorem keepends_append {first second : List Char} (h : AtLineStart first) :
    keepends (first ++ second) = keepends first ++ keepends second := by
  rcases h with rfl | ⟨before, rfl⟩
  · rfl
  · rw [List.append_assoc, List.singleton_append]
    exact keependsFrom_append [] before second

end Library
