import Mathlib.Data.List.Basic

/-!
# Backtracking regular expressions

The matcher of Python's `re` for the constructs a redaction pattern needs:
character classes, alternation in order, greedy and lazy repetition, one capture
group, line anchors and the word boundary. `run` searches in the order the
backtracking engine does and hands the end of the match to a continuation, so
the first success is the match `re` reports.

`sub_eq_self` is the lemma its users need most: a text over an alphabet that no
match can stay inside is left alone by `re.sub`.
-/

namespace Library

inductive Regex where
  | eps
  | chr (accepts : Char → Bool)
  | seq (first second : Regex)
  | alt (first second : Regex)
  | star (body : Regex) (greedy : Bool)
  | group (body : Regex)
  | lineStart
  | lineEnd
  | wordBoundary (isWord : Char → Bool)

namespace Regex

/-- A position in the text: the character before it, the text after it, and the
    text the capture group holds. -/
structure Cursor where
  before : Option Char
  rest : List Char
  captured : List Char

/-! ### Matching -/

/-- One repetition loop. An iteration that consumes nothing ends it, as in `re`. -/
def starLoop (step : Cursor → (Cursor → Option α) → Option α) (greedy : Bool) :
    Nat → Cursor → (Cursor → Option α) → Option α
  | 0, c, k => k c
  | n + 1, c, k =>
      let again := fun _ : Unit => step c fun c' =>
        if c'.rest.length < c.rest.length then starLoop step greedy n c' k else none
      if greedy then (again ()).orElse fun _ => k c
      else (k c).orElse again

def run : Regex → Cursor → (Cursor → Option α) → Option α
  | .eps, c, k => k c
  | .chr accepts, c, k =>
      match c.rest with
      | [] => none
      | x :: rest => if accepts x then k { c with before := some x, rest } else none
  | .seq first second, c, k => run first c fun c' => run second c' k
  | .alt first second, c, k => (run first c k).orElse fun _ => run second c k
  | .star body greedy, c, k =>
      starLoop (fun c' k' => run body c' k') greedy c.rest.length c k
  | .group body, c, k => run body c fun c' =>
      k { c' with captured := c.rest.take (c.rest.length - c'.rest.length) }
  | .lineStart, c, k => if c.before = none ∨ c.before = some '\n' then k c else none
  | .lineEnd, c, k => if c.rest = [] ∨ c.rest.head? = some '\n' then k c else none
  | .wordBoundary isWord, c, k =>
      if c.before.any isWord ≠ c.rest.head?.any isWord then k c else none

def matchAt (r : Regex) (before : Option Char) (rest : List Char) : Option Cursor :=
  run r ⟨before, rest, []⟩ some

def subLoop (r : Regex) (replace : List Char → List Char → List Char) :
    Nat → Option Char → List Char → List Char
  | 0, _, rest => rest
  | n + 1, before, rest =>
      match matchAt r before rest with
      | some stop =>
          if stop.rest.length < rest.length then
            replace (rest.take (rest.length - stop.rest.length)) stop.captured ++
              subLoop r replace n stop.before stop.rest
          else
            replace [] stop.captured ++
              match rest with
              | [] => []
              | x :: xs => x :: subLoop r replace n (some x) xs
      | none =>
          match rest with
          | [] => []
          | x :: xs => x :: subLoop r replace n (some x) xs

/-- `re.sub`: every match from the left, replaced by a function of the matched
    text and the capture group. -/
def sub (r : Regex) (replace : List Char → List Char → List Char) (text : List Char) :
    List Char :=
  subLoop r replace (text.length + 1) none text

/-- `re.search`: whether some place of the text has a match. -/
def search (r : Regex) : Option Char → List Char → Bool
  | before, [] => (matchAt r before []).isSome
  | before, x :: rest => (matchAt r before (x :: rest)).isSome || search r (some x) rest

/-! ### Building patterns -/

/-- The letters of `s`, each under the case folding `fold`. -/
def textWith (fold : Char → Char) (s : String) : Regex :=
  (s.toList.map fun c => chr fun x => decide (fold x = c)).foldr seq eps

def text (s : String) : Regex := textWith id s

def oneOf : List Regex → Regex
  | [] => chr fun _ => false
  | [r] => r
  | r :: rs => alt r (oneOf rs)

def opt (r : Regex) : Regex := alt r eps

def many (r : Regex) : Regex := star r true

def many1 (r : Regex) : Regex := seq r (star r true)

/-- `r{n,}`. -/
def atLeast : Nat → Regex → Regex
  | 0, r => many r
  | n + 1, r => seq r (atLeast n r)

/-- `r{0,n}`. -/
def atMost : Nat → Regex → Regex
  | 0, _ => eps
  | n + 1, r => opt (seq r (atMost n r))

def cat (rs : List Regex) : Regex := rs.foldr seq eps

/-! ### Texts no match can stay inside -/

/-- Every match of the pattern consumes a character outside `inside`. -/
def Leaves (inside : Char → Bool) : Regex → Prop
  | .eps => False
  | .chr accepts => ∀ c, accepts c = true → inside c = false
  | .seq first second => Leaves inside first ∨ Leaves inside second
  | .alt first second => Leaves inside first ∧ Leaves inside second
  | .star _ _ => False
  | .group body => Leaves inside body
  | .lineStart => False
  | .lineEnd => False
  | .wordBoundary _ => False

/-- The position stays in the alphabet: what is left of the text is a suffix. -/
def Inside (inside : Char → Bool) (c : Cursor) : Prop := ∀ x ∈ c.rest, inside x = true

theorem starLoop_none {inside : List Char → Prop}
    {step : Cursor → (Cursor → Option α) → Option α}
    (hstep : ∀ c k, inside c.rest → (∀ c' : Cursor, inside c'.rest → k c' = none) →
      step c k = none) (greedy : Bool) (n : Nat) (c : Cursor) (k : Cursor → Option α)
    (hc : inside c.rest) (hk : ∀ c' : Cursor, inside c'.rest → k c' = none) :
    starLoop step greedy n c k = none := by
  induction n generalizing c with
  | zero => exact hk c hc
  | succ n ih =>
      have hagain : (step c fun c' =>
          if c'.rest.length < c.rest.length then starLoop step greedy n c' k else none) =
          none := by
        refine hstep c _ hc fun c' hc' => ?_
        split
        · exact ih c' hc'
        · rfl
      cases greedy <;> simp [starLoop, hagain, hk c hc]

/-- A continuation that fails on every rest of a kind makes the run on such a rest fail. -/
theorem run_none (inside : List Char → Prop) (htail : ∀ x rest, inside (x :: rest) → inside rest)
    (r : Regex) :
    ∀ (c : Cursor) (k : Cursor → Option α), inside c.rest →
      (∀ c' : Cursor, inside c'.rest → k c' = none) → run r c k = none := by
  induction r with
  | eps => intro c k hc hk; exact hk c hc
  | chr accepts =>
      intro c k hc hk
      unfold run
      split
      · rfl
      · rename_i x rest hrest
        rw [hrest] at hc
        split
        · exact hk _ (htail x rest hc)
        · rfl
  | seq first second ih₁ ih₂ =>
      intro c k hc hk
      exact ih₁ c _ hc fun c' hc' => ih₂ c' k hc' hk
  | alt first second ih₁ ih₂ =>
      intro c k hc hk
      simp [run, ih₁ c k hc hk, ih₂ c k hc hk]
  | star body greedy ih =>
      intro c k hc hk
      exact starLoop_none (fun c' k' hc' hk' => ih c' k' hc' hk') greedy _ c k hc hk
  | group body ih =>
      intro c k hc hk
      exact ih c _ hc fun c' hc' => hk _ hc'
  | lineStart => intro c k hc hk; unfold run; split <;> [exact hk c hc; rfl]
  | lineEnd => intro c k hc hk; unfold run; split <;> [exact hk c hc; rfl]
  | wordBoundary isWord => intro c k hc hk; unfold run; split <;> [exact hk c hc; rfl]

theorem run_leaves {inside : Char → Bool} (r : Regex) (hr : Leaves inside r) :
    ∀ (c : Cursor) (k : Cursor → Option α), Inside inside c → run r c k = none := by
  induction r with
  | eps => exact hr.elim
  | chr accepts =>
      intro c k hc
      unfold run
      split
      · rfl
      · rename_i x rest hrest
        have hx : inside x = true := hc x (by rw [hrest]; exact List.mem_cons_self)
        have hno : accepts x ≠ true := fun h => by simp [hr x h] at hx
        simp [hno]
  | seq first second ih₁ ih₂ =>
      intro c k hc
      rcases hr with hr | hr
      · exact ih₁ hr c _ hc
      · exact run_none (fun rest => ∀ x ∈ rest, inside x = true)
          (fun x rest h y hy => h y (List.mem_cons_of_mem x hy)) first c _ hc
          fun c' hc' => ih₂ hr c' k hc'
  | alt first second ih₁ ih₂ =>
      intro c k hc
      simp [run, ih₁ hr.1 c k hc, ih₂ hr.2 c k hc]
  | star body greedy _ => exact hr.elim
  | group body ih => intro c k hc; exact ih hr c _ hc
  | lineStart => exact hr.elim
  | lineEnd => exact hr.elim
  | wordBoundary isWord => exact hr.elim

theorem subLoop_eq_self {inside : Char → Bool} {r : Regex} (hr : Leaves inside r)
    (replace : List Char → List Char → List Char) (n : Nat) (before : Option Char)
    (rest : List Char) (h : ∀ x ∈ rest, inside x = true) :
    subLoop r replace n before rest = rest := by
  induction n generalizing before rest with
  | zero => rfl
  | succ n ih =>
      have hmatch : matchAt r before rest = none := run_leaves r hr ⟨before, rest, []⟩ some h
      cases rest with
      | nil => simp [subLoop, hmatch]
      | cons x xs =>
          have hxs : ∀ y ∈ xs, inside y = true := fun y hy => h y (List.mem_cons_of_mem _ hy)
          simp [subLoop, hmatch, ih (some x) xs hxs]

/-- A text inside an alphabet that every match leaves is not changed. -/
theorem sub_eq_self {inside : Char → Bool} {r : Regex} (hr : Leaves inside r)
    (replace : List Char → List Char → List Char) {text : List Char}
    (h : ∀ x ∈ text, inside x = true) : sub r replace text = text :=
  subLoop_eq_self hr replace _ none text h

/-- A text stays nonempty where no replacement is empty. -/
theorem subLoop_ne_nil {r : Regex} {replace : List Char → List Char → List Char}
    (hreplace : ∀ matched captured, replace matched captured ≠ []) (n : Nat)
    (before : Option Char) {rest : List Char} (h : rest ≠ []) :
    subLoop r replace n before rest ≠ [] := by
  cases n with
  | zero => exact h
  | succ n =>
      obtain ⟨x, xs, rfl⟩ := List.exists_cons_of_ne_nil h
      rw [subLoop]
      split
      · split
        · exact List.append_ne_nil_of_left_ne_nil (hreplace _ _) _
        · exact List.append_ne_nil_of_left_ne_nil (hreplace _ _) _
      · exact List.cons_ne_nil _ _

theorem sub_ne_nil {r : Regex} {replace : List Char → List Char → List Char}
    (hreplace : ∀ matched captured, replace matched captured ≠ []) {text : List Char}
    (h : text ≠ []) : sub r replace text ≠ [] :=
  subLoop_ne_nil hreplace _ none h
/-- A literal pattern leaves the alphabet as soon as one of its letters does. -/
theorem leaves_textWith {inside : Char → Bool} {fold : Char → Char} {s : String} {c : Char}
    (hc : c ∈ s.toList) (hfold : ∀ x, fold x = c → inside x = false) :
    Leaves inside (textWith fold s) := by
  unfold textWith
  generalize s.toList = letters at hc
  induction letters with
  | nil => cases hc
  | cons d ds ih =>
      rcases List.mem_cons.mp hc with rfl | hc
      · exact Or.inl fun x hx => hfold x (by simpa using hx)
      · exact Or.inr (ih hc)

theorem leaves_head {inside : Char → Bool} {r : Regex} {rs : List Regex}
    (h : Leaves inside r) : Leaves inside (cat (r :: rs)) :=
  Or.inl h

theorem leaves_tail {inside : Char → Bool} {r : Regex} {rs : List Regex}
    (h : Leaves inside (cat rs)) : Leaves inside (cat (r :: rs)) :=
  Or.inr h

theorem leaves_group {inside : Char → Bool} {r : Regex} (h : Leaves inside r) :
    Leaves inside (group r) := h

theorem leaves_oneOf {inside : Char → Bool} {rs : List Regex}
    (h : ∀ r ∈ rs, Leaves inside r) : Leaves inside (oneOf rs) := by
  induction rs with
  | nil => exact fun c hc => by simp at hc
  | cons first rest ih =>
      cases rest with
      | nil => exact h first List.mem_cons_self
      | cons second more =>
          exact ⟨h first List.mem_cons_self,
            ih fun r hr => h r (List.mem_cons_of_mem _ hr)⟩

/-! ### Texts without a place for a part of the pattern -/

theorem isSome_orElse {first : Option α} {second : Unit → Option α} :
    (first.orElse second).isSome = true ↔ first.isSome = true ∨ (second ()).isSome = true := by
  cases first <;> simp [Option.orElse]

/-- The pattern has no repetition and no anchor. -/
def Plain : Regex → Prop
  | .eps | .chr _ => True
  | .seq first second | .alt first second => Plain first ∧ Plain second
  | .group body => Plain body
  | .star _ _ | .lineStart | .lineEnd | .wordBoundary _ => False

theorem plain_textWith {fold : Char → Char} {s : String} : Plain (textWith fold s) := by
  unfold textWith
  induction s.toList with
  | nil => trivial
  | cons c letters ih => exact ⟨trivial, ih⟩

theorem plain_oneOf {rs : List Regex} (h : ∀ r ∈ rs, Plain r) : Plain (oneOf rs) := by
  induction rs with
  | nil => trivial
  | cons first rest ih =>
      rw [List.forall_mem_cons] at h
      cases rest with
      | nil => exact h.1
      | cons second more => exact ⟨h.1, ih h.2⟩

/-- Where a plain pattern runs to success depends on the rest of the text alone. -/
theorem run_plain {r : Regex} (hr : Plain r) :
    ∀ (c c' : Cursor) (k k' : Cursor → Option α), c'.rest = c.rest →
      (∀ d d' : Cursor, d'.rest = d.rest → (k d).isSome → (k' d').isSome) →
        (run r c k).isSome → (run r c' k').isSome := by
  induction r with
  | eps => intro c c' k k' hrest hk h; exact hk c c' hrest h
  | chr accepts =>
      intro c c' k k' hrest hk h
      rcases hc : c.rest with _ | ⟨x, rest⟩
      · simp [run, hc] at h
      · rw [hc] at hrest
        simp only [run, hc, hrest] at h ⊢
        split at h
        · rename_i hx
          rw [if_pos hx]
          exact hk ⟨some x, rest, c.captured⟩ ⟨some x, rest, c'.captured⟩ rfl h
        · cases h
  | seq first second ih₁ ih₂ =>
      intro c c' k k' hrest hk h
      exact ih₁ hr.1 c c' _ _ hrest (fun d d' hd => ih₂ hr.2 d d' k k' hd hk) h
  | alt first second ih₁ ih₂ =>
      intro c c' k k' hrest hk h
      unfold run at h ⊢
      rw [isSome_orElse] at h ⊢
      exact h.imp (ih₁ hr.1 c c' k k' hrest hk) (ih₂ hr.2 c c' k k' hrest hk)
  | group body ih =>
      intro c c' k k' hrest hk h
      unfold run at h ⊢
      refine ih hr c c' _ _ hrest (fun d d' hd hsome => ?_) h
      have hboth : ∀ taken taken', (k { d with captured := taken }).isSome →
          (k' { d' with captured := taken' }).isSome := fun _ _ => hk _ _ hd
      exact hboth _ _ hsome
  | star body greedy => exact hr.elim
  | lineStart => exact hr.elim
  | lineEnd => exact hr.elim
  | wordBoundary isWord => exact hr.elim

/-- The pattern matches at no place of the text, whatever is to follow it. -/
def Blocked (text : List Char) (r : Regex) : Prop :=
  ∀ (c : Cursor) (k : Cursor → Option Cursor), c.rest <:+ text → run r c k = none

/-- A plain pattern that the text does not contain. -/
theorem blocked_of_search {r : Regex} (hr : Plain r) {text : List Char}
    (h : search r none text = false) : Blocked text r := by
  have hall : ∀ (before : Option Char) (rest : List Char), search r before rest = false →
      ∀ c : Cursor, c.rest <:+ rest → ∀ k : Cursor → Option Cursor, run r c k = none := by
    intro before rest
    induction rest generalizing before with
    | nil =>
        intro hsearch c hc k
        by_contra hne
        have hfound := run_plain hr c ⟨before, [], []⟩ k some (List.suffix_nil.mp hc).symm
          (fun _ _ _ _ => rfl) (Option.isSome_iff_ne_none.mpr hne)
        rw [search, matchAt, hfound] at hsearch
        cases hsearch
    | cons x rest ih =>
        intro hsearch c hc k
        rw [search, Bool.or_eq_false_iff] at hsearch
        rcases List.suffix_cons_iff.mp hc with hwhole | hlater
        · by_contra hne
          have hfound := run_plain hr c ⟨before, x :: rest, []⟩ k some hwhole.symm
            (fun _ _ _ _ => rfl) (Option.isSome_iff_ne_none.mpr hne)
          rw [matchAt, hfound] at hsearch
          cases hsearch.1
        · exact ih (some x) hsearch.2 c hlater k
  exact fun c k hc => hall none text h c hc k

theorem blocked_head {text : List Char} {r : Regex} {rs : List Regex} (h : Blocked text r) :
    Blocked text (cat (r :: rs)) := fun c _ hc => h c _ hc

theorem blocked_tail {text : List Char} {r : Regex} {rs : List Regex}
    (h : Blocked text (cat rs)) : Blocked text (cat (r :: rs)) := by
  intro c k hc
  have htail : ∀ (x : Char) (rest : List Char), x :: rest <:+ text → rest <:+ text :=
    fun x rest hsuffix => (List.suffix_cons x rest).trans hsuffix
  exact run_none (fun rest => rest <:+ text) htail r c _ hc fun c' hc' => h c' k hc'

/-- A text that the pattern is blocked in is not changed. -/
theorem sub_eq_self_of_blocked {r : Regex} (replace : List Char → List Char → List Char)
    {text : List Char} (h : Blocked text r) : sub r replace text = text := by
  have hloop : ∀ n before rest, rest <:+ text → subLoop r replace n before rest = rest := by
    intro n
    induction n with
    | zero => exact fun _ _ _ => rfl
    | succ n ih =>
        intro before rest hrest
        have hmatch : matchAt r before rest = none := h ⟨before, rest, []⟩ some hrest
        cases rest with
        | nil => simp [subLoop, hmatch]
        | cons x xs =>
            simp [subLoop, hmatch, ih (some x) xs ((List.suffix_cons x xs).trans hrest)]
  exact hloop _ none text List.suffix_rfl

/-! ### Matches inside a line -/

/-- No anchor of the pattern looks at the ends of a line other than as at a character that is no
    part of a word. -/
def Unanchored : Regex → Prop
  | .eps | .chr _ => True
  | .seq first second | .alt first second => Unanchored first ∧ Unanchored second
  | .star body _ | .group body => Unanchored body
  | .lineStart | .lineEnd => False
  | .wordBoundary isWord => isWord '\n' = false

theorem unanchored_cat {rs : List Regex} (h : ∀ r ∈ rs, Unanchored r) : Unanchored (cat rs) := by
  induction rs with
  | nil => trivial
  | cons r rs ih =>
      rw [List.forall_mem_cons] at h
      exact ⟨h.1, ih h.2⟩

theorem unanchored_textWith {fold : Char → Char} {s : String} : Unanchored (textWith fold s) := by
  unfold textWith
  induction s.toList with
  | nil => trivial
  | cons c letters ih => exact ⟨trivial, ih⟩

theorem unanchored_oneOf {rs : List Regex} (h : ∀ r ∈ rs, Unanchored r) :
    Unanchored (oneOf rs) := by
  induction rs with
  | nil => trivial
  | cons first rest ih =>
      rw [List.forall_mem_cons] at h
      cases rest with
      | nil => exact h.1
      | cons second more => exact ⟨h.1, ih h.2⟩

theorem unanchored_atLeast {n : Nat} {r : Regex} (h : Unanchored r) : Unanchored (atLeast n r) := by
  induction n with
  | zero => exact h
  | succ n ih => exact ⟨h, ih⟩

/-- A position of a line, as a position of a text that the line is part of. -/
structure InText (post : List Char) (c c' : Cursor) : Prop where
  rest : c'.rest = c.rest ++ post
  before : c'.before = c.before ∨ c.before = none ∧ c'.before = some '\n'

theorem starLoop_inText {post : List Char} {step : Cursor → (Cursor → Option α) → Option α}
    (hstep : ∀ c c' k k', InText post c c' →
      (∀ d d', InText post d d' → (k d).isSome → (k' d').isSome) →
      (step c k).isSome → (step c' k').isSome) {greedy : Bool} {n n' : Nat} (hn : n ≤ n')
    {c c' : Cursor} {k k' : Cursor → Option α} (hc : InText post c c')
    (hk : ∀ d d', InText post d d' → (k d).isSome → (k' d').isSome)
    (h : (starLoop step greedy n c k).isSome) : (starLoop step greedy n' c' k').isSome := by
  induction n generalizing n' c c' with
  | zero =>
      have hstop : (k' c').isSome := hk c c' hc h
      cases n' with
      | zero => exact hstop
      | succ n' => cases greedy <;> simp [starLoop, hstop]
  | succ n ih =>
      obtain ⟨n', rfl⟩ : ∃ m, n' = m + 1 := ⟨n' - 1, by omega⟩
      have hagain : (step c fun d =>
          if d.rest.length < c.rest.length then starLoop step greedy n d k else none).isSome →
          (step c' fun d =>
            if d.rest.length < c'.rest.length then starLoop step greedy n' d k' else none).isSome := by
        refine hstep c c' _ _ hc fun d d' hd hsome => ?_
        have hlength : d'.rest.length < c'.rest.length ↔ d.rest.length < c.rest.length := by
          rw [hd.rest, hc.rest, List.length_append, List.length_append]
          omega
        split at hsome
        · rename_i hless
          rw [if_pos (hlength.mpr hless)]
          exact ih (by omega) hd hsome
        · cases hsome
      have hstop := hk c c' hc
      unfold starLoop at h ⊢
      dsimp only at h ⊢
      split at h
      · rename_i hgreedy
        rw [if_pos hgreedy]
        exact isSome_orElse.mpr ((isSome_orElse.mp h).imp hagain hstop)
      · rename_i hlazy
        rw [if_neg hlazy]
        exact isSome_orElse.mpr ((isSome_orElse.mp h).imp hstop hagain)

/-- What a pattern matches in a line, it matches there in a text that the line is part of. -/
theorem run_inText {post : List Char} (hpost : post = [] ∨ post.head? = some '\n') (r : Regex)
    (hr : Unanchored r) : ∀ (c c' : Cursor) (k k' : Cursor → Option α), InText post c c' →
      (∀ d d', InText post d d' → (k d).isSome → (k' d').isSome) →
      (run r c k).isSome → (run r c' k').isSome := by
  induction r with
  | eps => exact fun c c' k k' hc hk h => hk c c' hc h
  | chr accepts =>
      intro c c' k k' hc hk h
      unfold run at h ⊢
      split at h
      · cases h
      · rename_i x rest hrest
        rw [hc.rest, hrest, List.cons_append]
        dsimp only
        split at h
        · rename_i haccepts
          rw [if_pos haccepts]
          exact hk ⟨some x, rest, c.captured⟩ ⟨some x, rest ++ post, c'.captured⟩ ⟨rfl, .inl rfl⟩ h
        · cases h
  | seq first second ih₁ ih₂ =>
      intro c c' k k' hc hk h
      exact ih₁ hr.1 c c' _ _ hc (fun d d' hd => ih₂ hr.2 d d' k k' hd hk) h
  | alt first second ih₁ ih₂ =>
      intro c c' k k' hc hk h
      unfold run at h ⊢
      exact isSome_orElse.mpr ((isSome_orElse.mp h).imp (ih₁ hr.1 c c' k k' hc hk)
        (ih₂ hr.2 c c' k k' hc hk))
  | star body greedy ih =>
      intro c c' k k' hc hk h
      refine starLoop_inText (fun d d' l l' => ih hr d d' l l') ?_ hc hk h
      rw [hc.rest, List.length_append]
      exact Nat.le_add_right _ _
  | group body ih =>
      intro c c' k k' hc hk h
      unfold run at h ⊢
      refine ih hr c c' _ _ hc (fun d d' hd => ?_) h
      exact hk ⟨d.before, d.rest, _⟩ ⟨d'.before, d'.rest, _⟩ ⟨hd.rest, hd.before⟩
  | lineStart => exact hr.elim
  | lineEnd => exact hr.elim
  | wordBoundary isWord =>
      intro c c' k k' hc hk h
      have hword : isWord '\n' = false := hr
      have hbefore : c'.before.any isWord = c.before.any isWord := by
        rcases hc.before with heq | ⟨hnone, hsome⟩
        · rw [heq]
        · simp [hnone, hsome, hword]
      have hafter : c'.rest.head?.any isWord = c.rest.head?.any isWord := by
        rw [hc.rest, List.head?_append]
        cases c.rest with
        | cons x rest => rfl
        | nil => rcases hpost with rfl | hpost <;> simp_all
      unfold run at h ⊢
      rw [hbefore, hafter]
      split at h
      · rename_i hboundary
        rw [if_pos hboundary]
        exact hk c c' hc h
      · cases h

theorem search_inText {post : List Char} (hpost : post = [] ∨ post.head? = some '\n') {r : Regex}
    (hr : Unanchored r) {before before' : Option Char} {line : List Char}
    (hbefore : before' = before ∨ before = none ∧ before' = some '\n')
    (h : search r before line = true) : search r before' (line ++ post) = true := by
  have hmatch : ∀ {before before' : Option Char} {line : List Char},
      (before' = before ∨ before = none ∧ before' = some '\n') →
      (matchAt r before line).isSome → (matchAt r before' (line ++ post)).isSome := by
    intro before before' line hbefore hsome
    exact run_inText hpost r hr ⟨before, line, []⟩ ⟨before', line ++ post, []⟩ some some
      ⟨rfl, hbefore⟩ (fun _ _ _ _ => rfl) hsome
  induction line generalizing before before' with
  | nil =>
      have hsome := hmatch hbefore h
      rw [List.nil_append] at hsome ⊢
      cases post with
      | nil => exact hsome
      | cons x rest => rw [search, hsome, Bool.true_or]
  | cons x line ih =>
      rw [search, Bool.or_eq_true] at h
      rw [List.cons_append, search, Bool.or_eq_true]
      rcases h with h | h
      · exact .inl (hmatch hbefore h)
      · exact .inr (ih (.inl rfl) h)

theorem search_append {r : Regex} {text : List Char} (front : List Char)
    (h : ∀ before, search r before text = true) (before : Option Char) :
    search r before (front ++ text) = true := by
  induction front generalizing before with
  | nil => exact h before
  | cons x front ih => rw [List.cons_append, search, ih, Bool.or_true]

/-- What a pattern finds in one of the lines, it finds in the lines joined. -/
theorem search_intercalate {r : Regex} (hr : Unanchored r) {lines : List (List Char)}
    {line : List Char} (hmem : line ∈ lines) (h : search r none line = true)
    {before : Option Char} (hbefore : before = none ∨ before = some '\n') :
    search r before (['\n'].intercalate lines) = true := by
  induction lines generalizing before with
  | nil => cases hmem
  | cons first rest ih =>
      have hstart : before = none ∨ (none : Option Char) = none ∧ before = some '\n' :=
        hbefore.imp_right fun heq => ⟨rfl, heq⟩
      cases rest with
      | nil =>
          rw [List.mem_singleton] at hmem
          rw [List.intercalate_singleton, ← hmem, ← List.append_nil line]
          exact search_inText (.inl rfl) hr hstart h
      | cons second more =>
          rw [List.intercalate_cons_cons]
          rcases List.mem_cons.mp hmem with rfl | hmem
          · rw [List.append_assoc]
            exact search_inText (.inr rfl) hr hstart h
          · rw [List.append_assoc]
            refine search_append first (fun last => ?_) before
            rw [List.singleton_append, search, ih hmem (.inr rfl), Bool.or_true]

end Regex

end Library
