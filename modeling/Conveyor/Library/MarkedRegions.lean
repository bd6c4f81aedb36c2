import Mathlib.Data.List.DropRight
import Mathlib.Data.List.Infix

/-!
# Marked regions of a text

A region goes from an opening marker to the first closing marker behind it, and takes the newline
at either side of it. `eraseRegions` puts one newline in the place of each region, as a
substitution of `\n?OPENING.*?CLOSING\n?` does. `blank_erased_iff` says which regions it takes away
whole.
-/

namespace Library

/-- A text of one line that begins with `start` and does not have it again. -/
structure Marker (start : Char) where
  rest : List Char
  once : start ∉ rest
  oneLine : '\n' ∉ start :: rest

/-- The characters of a marker. -/
def Marker.chars {start : Char} (marker : Marker start) : List Char := start :: marker.rest

/-- The two markers of a region; the opening one does not begin the closing one. -/
structure RegionMarkers (start : Char) where
  opening : Marker start
  closing : Marker start
  apart : ¬opening.chars <+: closing.chars

/-- The place of the first marker in the text. -/
def firstAt (marker : List Char) : List Char → Option Nat
  | [] => none
  | c :: rest =>
      if marker.isPrefixOf (c :: rest) then some 0 else (firstAt marker rest).map (· + 1)

/-- The text behind a newline at its start. -/
def behindNewline : List Char → List Char
  | '\n' :: rest => rest
  | text => text

namespace RegionMarkers

variable {start : Char} (markers : RegionMarkers start)

/-- The length of the region that the text begins with. -/
def regionLength (text : List Char) : Option Nat :=
  let before := if ('\n' :: markers.opening.chars).isPrefixOf text then 1 else 0
  let body := text.drop before
  if markers.opening.chars.isPrefixOf body then
    (firstAt markers.closing.chars (body.drop markers.opening.chars.length)).map fun width =>
      let stop := before + markers.opening.chars.length + width + markers.closing.chars.length
      if (text.drop stop).head? = some '\n' then stop + 1 else stop
  else none

/-- The text with its regions erased, once so many characters are passed over. -/
def eraseFrom : Nat → List Char → List Char
  | _, [] => []
  | skip + 1, _ :: rest => eraseFrom skip rest
  | 0, c :: rest => match markers.regionLength (c :: rest) with
      | some length => '\n' :: eraseFrom (length - 1) rest
      | none => c :: eraseFrom 0 rest

def eraseRegions (text : List Char) : List Char := markers.eraseFrom 0 text

/-- What may stand between the markers of a region that is taken away whole: pieces without a
    closing marker, and between two of them nothing but a closing marker, blanks and an opening
    marker. -/
inductive Closed (blank : Char → Bool) : List Char → Prop
  | piece {text : List Char} (h : ¬markers.closing.chars <:+: text) : Closed blank text
  | more {text blanks behind : List Char} (h : ¬markers.closing.chars <:+: text)
      (hblanks : ∀ c ∈ blanks, blank c = true) (hbehind : Closed blank behind) :
      Closed blank
        (text ++ (markers.closing.chars ++ (blanks ++ (markers.opening.chars ++ behind))))

end RegionMarkers

/-! ### Places of markers -/

section Markers

variable {start : Char}

/-- A marker that begins a text with a marker in it ends before that marker or is it. -/
theorem Marker.prefix_append {first second : Marker start} {front behind : List Char}
    (h : first.chars <+: front ++ (second.chars ++ behind)) :
    first.chars <+: front ∨ front = [] := by
  rcases List.prefix_or_prefix_of_prefix h (List.prefix_append _ _) with hle | ⟨tail, htail⟩
  · exact Or.inl hle
  cases front with
  | nil => exact Or.inr rfl
  | cons c front =>
      left
      cases tail with
      | nil => rw [← htail, List.append_nil]
      | cons d tail =>
          -- the rest of the first marker would begin where the second one does
          rw [← htail] at h
          rw [List.prefix_append_right_inj] at h
          have hd : d = start := (List.cons_prefix_cons.mp h).1
          have hrest : first.rest = front ++ d :: tail := (List.cons.inj htail.symm).2
          exact absurd (hrest ▸ List.mem_append_right _ (hd ▸ List.mem_cons_self)) first.once

/-- A marker that begins a text does not go on behind its first newline. -/
theorem Marker.prefix_newline {marker : Marker start} {front behind : List Char}
    (h : marker.chars <+: front ++ '\n' :: behind) : marker.chars <+: front := by
  rcases List.prefix_or_prefix_of_prefix h (List.prefix_append _ _) with hle | ⟨tail, htail⟩
  · exact hle
  cases tail with
  | nil => rw [← htail, List.append_nil]
  | cons d tail =>
      rw [← htail, List.prefix_append_right_inj] at h
      have hd : d = '\n' := (List.cons_prefix_cons.mp h).1
      have hmem : d ∈ marker.chars := htail ▸ List.mem_append_right _ List.mem_cons_self
      exact absurd (hd ▸ hmem) marker.oneLine

theorem Marker.not_prefix_blank {marker : Marker start} {c : Char} {behind : List Char}
    (h : c ≠ start) : ¬marker.chars <+: c :: behind := by
  intro hprefix
  exact h (List.cons_prefix_cons.mp hprefix).1.symm

theorem firstAt_append {marker : Marker start} {text behind : List Char}
    (h : ¬marker.chars <:+: text) :
    firstAt marker.chars (text ++ (marker.chars ++ behind)) = some text.length := by
  induction text with
  | nil =>
      have hprefix : marker.chars.isPrefixOf (start :: (marker.rest ++ behind)) = true :=
        List.isPrefixOf_iff_prefix.mpr (List.prefix_append marker.chars behind)
      exact if_pos hprefix
  | cons c text ih =>
      have hnot : ¬marker.chars <+: c :: (text ++ (marker.chars ++ behind)) := by
        intro hprefix
        rcases @Marker.prefix_append _ _ _ (c :: text) _ hprefix with hle | hnil
        · exact h hle.isInfix
        · cases hnil
      rw [List.cons_append, firstAt, if_neg (by rwa [List.isPrefixOf_iff_prefix]),
        ih fun hin => h (hin.trans (List.suffix_cons c text).isInfix)]
      rfl

/-- A text with a marker in it has a first one. -/
theorem Marker.exists_first {marker : Marker start} {text : List Char}
    (h : marker.chars <:+: text) : ∃ front behind,
      text = front ++ (marker.chars ++ behind) ∧ ¬marker.chars <:+: front := by
  induction hlength : text.length using Nat.strong_induction_on generalizing text with
  | _ n ih =>
      obtain ⟨front, behind, htext⟩ := h
      rw [List.append_assoc] at htext
      by_cases hfront : marker.chars <:+: front
      · have hshorter : front.length < n := by
          rw [← hlength, ← htext, List.length_append, List.length_append, Marker.chars,
            List.length_cons]
          omega
        obtain ⟨first, between, rfl, hfirst⟩ := ih _ hshorter hfront rfl
        refine ⟨first, between ++ (marker.chars ++ behind), ?_, hfirst⟩
        rw [← htext]
        simp only [List.append_assoc]
      · exact ⟨front, behind, htext.symm, hfront⟩

/-- What is put in at the start of a line, and does not have the marker's first character, makes no
    marker. -/
theorem Marker.not_infix_inserted {marker : Marker start} {front inserted behind : List Char}
    (hline : front = [] ∨ ∃ before, front = before ++ ['\n']) (hinserted : start ∉ inserted)
    (hfront : ¬marker.chars <:+: front) (hbehind : ¬marker.chars <:+: behind) :
    ¬marker.chars <:+: front ++ (inserted ++ behind) := by
  have hinside : ∀ {text rest : List Char},
      inserted ++ behind ≠ text ++ (marker.chars ++ rest) := by
    intro text rest hsplit
    rcases List.append_eq_append_iff.mp hsplit with ⟨tail, -, rfl⟩ | ⟨tail, rfl, hmarker⟩
    · exact hbehind ⟨tail, rest, List.append_assoc _ _ _⟩
    · cases tail with
      | nil => exact hbehind ⟨[], rest, hmarker⟩
      | cons c tail =>
          have hc : start = c := (List.cons.inj hmarker).1
          exact hinserted (hc ▸ List.mem_append_right _ List.mem_cons_self)
  rintro ⟨passed, rest, hsplit⟩
  rw [List.append_assoc] at hsplit
  rcases List.append_eq_append_iff.mp hsplit with ⟨text, rfl, hmarker⟩ | ⟨text, -, hmarker⟩
  · -- a marker that begins in front ends before the line does
    rcases List.eq_nil_or_concat text with rfl | ⟨text, c, rfl⟩
    · exact @hinside [] rest hmarker.symm
    · rcases hline with hnil | ⟨before, hbefore⟩
      · simp at hnil
      · rw [List.concat_eq_append, ← List.append_assoc] at hbefore
        obtain rfl : c = '\n' := by simpa using (List.append_inj' hbefore rfl).2
        have hprefix : marker.chars <+: text ++ '\n' :: (inserted ++ behind) :=
          ⟨rest, by rw [hmarker, List.concat_eq_append, List.append_assoc]; rfl⟩
        have hin := (Marker.prefix_newline hprefix).isInfix
        exact hfront (hin.trans ⟨passed, ['\n'], by simp⟩)
  · exact hinside hmarker

end Markers

/-! ### Blanks at the end of a text -/

section Ends

variable {α : Type} {blank : α → Bool} {front behind : List α}

theorem rdropWhile_append_blanks (h : ∀ c ∈ behind, blank c = true) :
    (front ++ behind).rdropWhile blank = front.rdropWhile blank := by
  induction behind using List.reverseRecOn with
  | nil => rw [List.append_nil]
  | append_singleton behind c ih =>
      rw [List.forall_mem_append, List.forall_mem_singleton] at h
      rw [← List.append_assoc, List.rdropWhile_concat_pos _ _ _ h.2]
      exact ih h.1

/-- Only what stands behind loses its end, where something of it is no blank. -/
theorem rdropWhile_append (h : behind.rdropWhile blank ≠ []) :
    (front ++ behind).rdropWhile blank = front ++ behind.rdropWhile blank := by
  induction behind using List.reverseRecOn with
  | nil => exact absurd (List.rdropWhile_nil _) h
  | append_singleton behind c ih =>
      by_cases hc : blank c = true
      · rw [List.rdropWhile_concat_pos _ _ _ hc] at h ⊢
        rw [← List.append_assoc, List.rdropWhile_concat_pos _ _ _ hc]
        exact ih h
      · rw [List.rdropWhile_concat_neg _ _ _ hc, ← List.append_assoc,
          List.rdropWhile_concat_neg _ _ _ hc]

end Ends

/-! ### Passing over a text -/

theorem behindNewline_split (text : List Char) : ∃ newline, (∀ c ∈ newline, c = '\n') ∧
    text = newline ++ behindNewline text := by
  unfold behindNewline
  split
  · exact ⟨['\n'], by simp, rfl⟩
  · exact ⟨[], by simp, rfl⟩

namespace RegionMarkers

variable {start : Char} {markers : RegionMarkers start} {blank : Char → Bool}

theorem eraseFrom_eq (skip : Nat) (text : List Char) :
    markers.eraseFrom skip text = markers.eraseRegions (text.drop skip) := by
  induction text generalizing skip with
  | nil => cases skip <;> rfl
  | cons c rest ih =>
      cases skip with
      | zero => rfl
      | succ skip => rw [eraseFrom, ih, List.drop_succ_cons]

theorem eraseRegions_of_none {c : Char} {rest : List Char}
    (h : markers.regionLength (c :: rest) = none) :
    markers.eraseRegions (c :: rest) = c :: markers.eraseRegions rest := by
  rw [eraseRegions, eraseFrom, h]
  rfl

theorem regionLength_eq_none {text : List Char} (h : ¬markers.opening.chars <+: text)
    (hnewline : ¬ '\n' :: markers.opening.chars <+: text) : markers.regionLength text = none := by
  rw [← List.isPrefixOf_iff_prefix] at h hnewline
  simp only [regionLength, if_neg hnewline, List.drop_zero, if_neg h]

theorem eraseRegions_of_some {text : List Char} {length : Nat} (hpos : 0 < length)
    (h : markers.regionLength text = some length) :
    markers.eraseRegions text = '\n' :: markers.eraseRegions (text.drop length) := by
  cases text with
  | nil =>
      have hnone : markers.regionLength [] = none :=
        regionLength_eq_none (fun hnil => List.cons_ne_nil _ _ (List.prefix_nil.mp hnil))
          (fun hnil => List.cons_ne_nil _ _ (List.prefix_nil.mp hnil))
      rw [hnone] at h
      cases h
  | cons c rest =>
      obtain ⟨before, rfl⟩ := Nat.exists_eq_add_of_le' hpos
      rw [eraseRegions, eraseFrom, h]
      dsimp only
      rw [Nat.add_sub_cancel, eraseFrom_eq, List.drop_succ_cons]

theorem start_ne_newline (markers : RegionMarkers start) : start ≠ '\n' := by
  intro h
  exact markers.opening.oneLine (h ▸ List.mem_cons_self)

theorem not_opening_newline (behind : List Char) : ¬markers.opening.chars <+: '\n' :: behind :=
  Marker.not_prefix_blank markers.start_ne_newline.symm

theorem not_newline_opening (behind : List Char) :
    ¬ '\n' :: markers.opening.chars <+: markers.opening.chars ++ behind := by
  intro h
  exact markers.start_ne_newline (List.cons_prefix_cons.mp h).1.symm

/-- What is passed over when the text begins with a region. -/
theorem regionLength_eq {newline text behind : List Char}
    (hnewline : newline = [] ∨ newline = ['\n']) (h : ¬markers.closing.chars <:+: text) :
    markers.regionLength (newline ++ (markers.opening.chars ++ (text ++
        (markers.closing.chars ++ behind)))) =
      some (newline.length + markers.opening.chars.length + text.length +
        markers.closing.chars.length + (behind.length - (behindNewline behind).length)) := by
  have hbefore : (if ('\n' :: markers.opening.chars).isPrefixOf (newline ++
      (markers.opening.chars ++ (text ++ (markers.closing.chars ++ behind)))) then 1 else 0) =
        newline.length := by
    rcases hnewline with rfl | rfl
    · refine if_neg ?_
      rw [List.isPrefixOf_iff_prefix]
      exact not_newline_opening _
    · refine if_pos ?_
      rw [List.isPrefixOf_iff_prefix]
      exact List.cons_prefix_cons.mpr ⟨rfl, List.prefix_append _ _⟩
  have hopening : markers.opening.chars.isPrefixOf (markers.opening.chars ++ (text ++
      (markers.closing.chars ++ behind))) = true :=
    List.isPrefixOf_iff_prefix.mpr (List.prefix_append _ _)
  have hstop : (newline ++ (markers.opening.chars ++ (text ++ (markers.closing.chars ++
      behind)))).drop (newline.length + markers.opening.chars.length + text.length +
        markers.closing.chars.length) = behind := by
    simp only [← List.append_assoc]
    exact List.drop_left' (by simp only [List.length_append])
  simp only [regionLength, hbefore, List.drop_left, hopening, if_true, firstAt_append h,
    Option.map_some, hstop]
  cases behind with
  | nil => rfl
  | cons c rest =>
      by_cases hc : c = '\n'
      · subst hc
        simp [behindNewline]
      · rw [if_neg (by simpa using hc), behindNewline]
        · simp
        · intro rest' h'
          exact hc (List.cons.inj h').1

/-- A region is erased together with the newlines at its sides. -/
theorem eraseRegions_region {newline text behind : List Char}
    (hnewline : newline = [] ∨ newline = ['\n']) (h : ¬markers.closing.chars <:+: text) :
    markers.eraseRegions (newline ++ (markers.opening.chars ++ (text ++
        (markers.closing.chars ++ behind)))) =
      '\n' :: markers.eraseRegions (behindNewline behind) := by
  obtain ⟨front, -, hfront⟩ := behindNewline_split behind
  have hpos : 0 < markers.opening.chars.length := Nat.succ_pos _
  have hfrontLength : behind.length - (behindNewline behind).length = front.length := by
    have hlength := congrArg List.length hfront
    rw [List.length_append] at hlength
    omega
  have hlength := @regionLength_eq _ markers _ _ behind hnewline h
  rw [hfrontLength] at hlength
  rw [eraseRegions_of_some (by omega) hlength]
  congr 2
  nth_rewrite 1 [hfront]
  simp only [← List.append_assoc]
  exact List.drop_left' (by simp only [List.length_append])

/-- A text in which no region begins is kept. -/
theorem eraseRegions_append {front behind : List Char}
    (h : ∀ passed c rest, front = passed ++ c :: rest →
      markers.regionLength (c :: (rest ++ behind)) = none) :
    markers.eraseRegions (front ++ behind) = front ++ markers.eraseRegions behind := by
  induction front with
  | nil => rfl
  | cons c rest ih =>
      rw [List.cons_append, eraseRegions_of_none (h [] c rest rfl),
        ih fun passed d tail htail => h (c :: passed) d tail (by rw [htail, List.cons_append])]
      rfl

/-- A text without an opening marker is kept in front of two newlines. -/
theorem eraseRegions_front {front behind : List Char} (h : ¬markers.opening.chars <:+: front) :
    markers.eraseRegions (front ++ '\n' :: '\n' :: behind) =
      front ++ '\n' :: markers.eraseRegions ('\n' :: behind) := by
  rw [eraseRegions_append fun passed c rest hfront => ?_, eraseRegions_of_none]
  · apply regionLength_eq_none (not_opening_newline _)
    intro hprefix
    exact not_opening_newline _ (List.cons_prefix_cons.mp hprefix).2
  · have hrest : ∀ text, text <:+ front →
        ¬markers.opening.chars <+: text ++ '\n' :: '\n' :: behind :=
      fun text hsuffix hprefix =>
        h ((Marker.prefix_newline hprefix).isInfix.trans hsuffix.isInfix)
    apply regionLength_eq_none
    · exact hrest (c :: rest) ⟨passed, hfront.symm⟩
    · intro hprefix
      exact hrest rest ⟨passed ++ [c], by rw [hfront, List.append_assoc]; rfl⟩
        (List.cons_prefix_cons.mp hprefix).2

/-- A text without an opening marker has no regions. -/
theorem eraseRegions_plain {text : List Char} (h : ¬markers.opening.chars <:+: text) :
    markers.eraseRegions text = text := by
  have hkept := @eraseRegions_append _ markers text [] fun passed c rest htext => by
    rw [List.append_nil]
    apply regionLength_eq_none
    · intro hbegins
      exact h (hbegins.isInfix.trans ⟨passed, [], by rw [htext, List.append_nil]⟩)
    · intro hbegins
      have hopening := (List.cons_prefix_cons.mp hbegins).2
      exact h (hopening.isInfix.trans ⟨passed ++ [c], [], by rw [htext]; simp⟩)
  rwa [List.append_nil, show markers.eraseRegions [] = [] from rfl, List.append_nil] at hkept

/-! ### Regions taken away whole -/

section Blanks

variable (hstart : blank start = false)

include hstart in
theorem not_prefix_of_blank {c : Char} {behind : List Char} (h : blank c = true) :
    ¬markers.opening.chars <+: c :: behind := by
  apply Marker.not_prefix_blank
  rintro rfl
  rw [hstart] at h
  exact absurd h Bool.false_ne_true

/-- A newline in front of an opening marker belongs to its region. -/
theorem regionLength_newline (behind : List Char) :
    markers.regionLength ('\n' :: (markers.opening.chars ++ behind)) =
      (markers.regionLength (markers.opening.chars ++ behind)).map (· + 1) := by
  have hnewline : ('\n' :: markers.opening.chars).isPrefixOf
      ('\n' :: (markers.opening.chars ++ behind)) = true :=
    List.isPrefixOf_iff_prefix.mpr (List.cons_prefix_cons.mpr ⟨rfl, List.prefix_append _ _⟩)
  have hnone : ¬('\n' :: markers.opening.chars).isPrefixOf (markers.opening.chars ++ behind) =
      true := by
    rw [List.isPrefixOf_iff_prefix]
    exact not_newline_opening _
  have hopening : markers.opening.chars.isPrefixOf (markers.opening.chars ++ behind) = true :=
    List.isPrefixOf_iff_prefix.mpr (List.prefix_append _ _)
  simp only [regionLength, if_pos hnewline, if_neg hnone, List.drop_succ_cons, List.drop_zero,
    if_pos hopening, Option.map_map]
  congr 1
  funext width
  have hstop : 1 + markers.opening.chars.length + width + markers.closing.chars.length =
      0 + markers.opening.chars.length + width + markers.closing.chars.length + 1 := by omega
  simp only [Function.comp_apply, hstop, List.drop_succ_cons]
  split <;> rfl

theorem regionLength_pos {text : List Char} {length : Nat}
    (h : markers.regionLength text = some length) : 0 < length := by
  have hpos : 0 < markers.opening.chars.length := Nat.succ_pos _
  unfold regionLength at h
  dsimp only at h
  generalize (if ('\n' :: markers.opening.chars).isPrefixOf text = true then 1 else 0) = before at h
  split at h
  · obtain ⟨width, -, rfl⟩ := Option.map_eq_some_iff.mp h
    split <;> omega
  · cases h

include hstart in
/-- Blanks in front of an opening marker stay blanks. -/
theorem blank_erased_blanks {blanks behind : List Char} (hblanks : ∀ c ∈ blanks, blank c = true) :
    (∀ c ∈ markers.eraseRegions (blanks ++ (markers.opening.chars ++ behind)), blank c = true) ↔
      ∀ c ∈ markers.eraseRegions (markers.opening.chars ++ behind), blank c = true := by
  induction blanks with
  | nil => exact Iff.rfl
  | cons d blanks ih =>
      rw [List.forall_mem_cons] at hblanks
      rw [List.cons_append]
      cases hlength : markers.regionLength (d :: (blanks ++ (markers.opening.chars ++ behind))) with
      | none =>
          rw [eraseRegions_of_none hlength, List.forall_mem_cons, and_iff_right hblanks.1]
          exact ih hblanks.2
      | some length =>
          -- the region begins behind the newline that is its first character
          have hprefix : '\n' :: markers.opening.chars <+:
              d :: (blanks ++ (markers.opening.chars ++ behind)) := by
            by_contra hnot
            rw [regionLength_eq_none (not_prefix_of_blank hstart hblanks.1) hnot] at hlength
            cases hlength
          obtain ⟨rfl, hopening⟩ := List.cons_prefix_cons.mp hprefix
          cases blanks with
          | cons e blanks =>
              exact absurd hopening
                (not_prefix_of_blank hstart (hblanks.2 e List.mem_cons_self))
          | nil =>
              rw [List.nil_append, regionLength_newline, Option.map_eq_some_iff] at hlength
              obtain ⟨inner, hinner, rfl⟩ := hlength
              rw [List.nil_append, eraseRegions_of_some (Nat.succ_pos inner)
                (by rw [regionLength_newline, hinner]; rfl),
                eraseRegions_of_some (regionLength_pos hinner) hinner, List.drop_succ_cons]

include hstart in
/-- What is no blank and begins no region is kept behind blanks. -/
theorem mem_erased_of_kept {blanks rest : List Char} {c : Char}
    (hblanks : ∀ d ∈ blanks, blank d = true) (hc : c ≠ '\n')
    (h : ¬markers.opening.chars <+: c :: rest) :
    c ∈ markers.eraseRegions (blanks ++ c :: rest) := by
  rw [eraseRegions_append fun passed d text hsplit => ?_]
  · rw [eraseRegions_of_none (regionLength_eq_none h fun hprefix =>
      hc (List.cons_prefix_cons.mp hprefix).1.symm)]
    exact List.mem_append_right _ List.mem_cons_self
  · rw [hsplit, List.forall_mem_append, List.forall_mem_cons] at hblanks
    apply regionLength_eq_none (not_prefix_of_blank hstart hblanks.2.1)
    intro hprefix
    have hopening := (List.cons_prefix_cons.mp hprefix).2
    cases text with
    | nil => exact h hopening
    | cons e text =>
        exact not_prefix_of_blank hstart (hblanks.2.2 e List.mem_cons_self) hopening

theorem behindNewline_append {marker : Marker start} {front behind : List Char} :
    behindNewline (front ++ (marker.chars ++ behind)) =
      behindNewline front ++ (marker.chars ++ behind) := by
  cases front with
  | nil =>
      have hne : start ≠ '\n' := fun h => marker.oneLine (h ▸ List.mem_cons_self)
      unfold behindNewline
      split
      · rename_i rest h
        exact absurd (List.cons.inj h).1 hne
      · rfl
  | cons c front =>
      unfold behindNewline
      by_cases hc : c = '\n'
      · subst hc
        rfl
      · split
        · rename_i rest h
          exact absurd (List.cons.inj h).1 hc
        · split
          · rename_i rest h
            exact absurd (List.cons.inj h).1 hc
          · rfl

include hstart in
/-- A region is taken away whole exactly where its text is closed. -/
theorem blank_erased_iff (hnewline : blank '\n' = true) {text : List Char} :
    (∀ c ∈ markers.eraseRegions (markers.opening.chars ++ (text ++
        (markers.closing.chars ++ ['\n']))), blank c = true) ↔ markers.Closed blank text := by
  have hregion : ∀ {front behind : List Char}, ¬markers.closing.chars <:+: front →
      ((∀ c ∈ markers.eraseRegions (markers.opening.chars ++ (front ++
        (markers.closing.chars ++ behind))), blank c = true) ↔
          ∀ c ∈ markers.eraseRegions (behindNewline behind), blank c = true) := by
    intro front behind h
    have herased := @eraseRegions_region _ markers _ _ behind (Or.inl rfl) h
    rw [List.nil_append] at herased
    rw [herased, List.forall_mem_cons, and_iff_right hnewline]
  constructor
  · intro h
    induction hlength : text.length using Nat.strong_induction_on generalizing text with
    | _ n ih =>
        by_cases hclosing : markers.closing.chars <:+: text
        · obtain ⟨front, behind, rfl, hfront⟩ := Marker.exists_first hclosing
          simp only [List.append_assoc] at h
          rw [hregion hfront, behindNewline_append] at h
          -- what stands behind the first closing marker is blanks up to an opening marker
          obtain ⟨blanks, rest, hsplit, hblanks, hrest⟩ : ∃ blanks rest,
              behindNewline behind = blanks ++ rest ∧ (∀ c ∈ blanks, blank c = true) ∧
                ∀ c tail, rest = c :: tail → blank c = false := by
            refine ⟨(behindNewline behind).takeWhile blank, (behindNewline behind).dropWhile blank,
              List.takeWhile_append_dropWhile.symm, fun c hc => List.mem_takeWhile_imp hc,
              fun c tail htail => ?_⟩
            have hhead := List.head?_dropWhile_not blank (behindNewline behind)
            rw [htail] at hhead
            simpa using hhead
          rw [hsplit, List.append_assoc] at h
          have hopening : markers.opening.chars <+: rest := by
            by_contra hnot
            have hkept : ∃ c tail, rest ++ (markers.closing.chars ++ ['\n']) = c :: tail ∧
                blank c = false ∧ ¬markers.opening.chars <+: c :: tail := by
              cases rest with
              | nil =>
                  exact ⟨start, markers.closing.rest ++ ['\n'], rfl, hstart,
                    fun hprefix => markers.apart (Marker.prefix_newline hprefix)⟩
              | cons c tail =>
                  refine ⟨c, _, rfl, hrest c tail rfl, fun hprefix => ?_⟩
                  rcases @Marker.prefix_append _ _ _ (c :: tail) _ hprefix with hle | hnil
                  · exact hnot hle
                  · cases hnil
            obtain ⟨c, tail, hsplit', hc, hprefix⟩ := hkept
            rw [hsplit'] at h
            have hne : c ≠ '\n' := by
              rintro rfl
              rw [hnewline] at hc
              cases hc
            rw [h c (mem_erased_of_kept hstart hblanks hne hprefix)] at hc
            cases hc
          obtain ⟨tail, rfl⟩ := hopening
          obtain ⟨newline, hnewlines, hwhole⟩ := behindNewline_split behind
          rw [List.append_assoc, blank_erased_blanks hstart hblanks] at h
          rw [hwhole, hsplit, ← List.append_assoc newline]
          refine .more hfront (List.forall_mem_append.mpr ⟨fun c hc => ?_, hblanks⟩)
            (ih tail.length ?_ h rfl)
          · rw [hnewlines c hc]
            exact hnewline
          · rw [← hlength, hwhole, hsplit]
            simp only [List.length_append, Marker.chars, List.length_cons]
            omega
        · exact .piece hclosing
  · intro h
    induction h with
    | piece h =>
        rw [hregion h]
        exact fun c hc => (List.not_mem_nil hc).elim
    | @more front blanks behind h hblanks _ ih =>
        simp only [List.append_assoc]
        obtain ⟨newline, -, hsplit⟩ := behindNewline_split blanks
        rw [hsplit, List.forall_mem_append] at hblanks
        rw [hregion h, behindNewline_append, blank_erased_blanks hstart hblanks.2]
        exact ih

theorem rdropWhile_append_iff {front behind : List Char} (h : front.rdropWhile blank = front) :
    (front ++ behind).rdropWhile blank = front ↔ ∀ c ∈ behind, blank c = true := by
  constructor
  · intro hdropped c hc
    have hsplit : (front ++ behind).rdropWhile blank ++ (front ++ behind).rtakeWhile blank =
        front ++ behind := List.rdropWhile_append_rtakeWhile
    rw [hdropped] at hsplit
    rw [← List.append_cancel_left hsplit] at hc
    exact List.mem_rtakeWhile_imp hc
  · intro hblanks
    rw [rdropWhile_append_blanks hblanks, h]

include hstart in
/-- A region behind a text without blanks at its end leaves that text, exactly where the text of the
    region is closed. -/
theorem erased_iff (hnewline : blank '\n' = true) {front text : List Char}
    (hfront : front.rdropWhile blank = front) (hopening : ¬markers.opening.chars <:+: front) :
    (markers.eraseRegions (front ++ '\n' :: '\n' :: (markers.opening.chars ++ (text ++
        (markers.closing.chars ++ ['\n']))))).rdropWhile blank = front ↔
      markers.Closed blank text := by
  rw [eraseRegions_front hopening, rdropWhile_append_iff hfront, List.forall_mem_cons,
    and_iff_right hnewline]
  have hblanks := @blank_erased_blanks _ markers _ hstart ['\n']
    (text ++ (markers.closing.chars ++ ['\n'])) (by simpa using hnewline)
  rw [List.singleton_append] at hblanks
  rw [hblanks, blank_erased_iff hstart hnewline]

end Blanks

end RegionMarkers

end Library
