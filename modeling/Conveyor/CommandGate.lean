import Conveyor.Contracts
import Mathlib.Data.List.Forall2

/-!
# The command gate

Which argument arrays the controller may run (`SafetyPolicy` in `validation.py`): its own
commands and the validation commands that a repository configures. `ReadOnly` says of the Git
commands on the list which forms only read, by their options and operands.
-/

namespace Conveyor

open Library

namespace CommandGate

def safetyViolation (message : String) : Failure := ⟨.safetyViolation, message⟩

/-- What the gate reads outside its arguments: where a directory leads. -/
structure CommandSite where
  platform : Platform
  resolve : String → Result String

/-! ### The gate -/

def PROHIBITED_WORDS : List String :=
  ["deploy", "deployment", "publish", "publication", "release", "notarize", "notarization"]

def SAFE_GIT_READ_COMMANDS : List String :=
  ["branch", "check-ref-format", "check-ignore", "diff", "diff-tree", "for-each-ref", "log",
   "ls-files", "merge-base", "rev-list", "rev-parse", "show", "status", "symbolic-ref",
   "worktree"]

def MUTATING_GIT_COMMANDS : List String :=
  ["push", "tag", "merge", "stash", "clean", "reset", "rebase"]

def SHELLS : List String := ["sh", "bash", "zsh", "dash", "fish"]

def isTokenChar (c : Char) : Bool :=
  ('a' ≤ c && c ≤ 'z') || ('0' ≤ c && c ≤ '9') || decide (c = '_') || decide (c = '-')

/-- The parts of `re.split(r"[^a-z0-9_-]+", text)` that are not empty. -/
def tokensOf (text : String) : List String :=
  ((text.toList.splitOnP fun c => !isTokenChar c).filter (· ≠ [])).map String.ofList

/-- `Path(program).name.lower()`. -/
def executableOf (P : Platform) (program : String) : String :=
  P.lowerText (String.ofList
    (((program.toList.splitOn '/').filter fun part => part ≠ [] ∧ part ≠ ['.']).getLast?.getD []))

/-- One of the words has one of the tokens. -/
def anyToken (tokens words : List String) : Bool :=
  words.any fun word => (tokensOf word).any fun token => token ∈ tokens

/-- `_is_swift_release_build`. -/
def isSwiftReleaseBuild (executable : String) (lowered : List String) : Bool :=
  decide (executable = "swift") &&
    [["build", "-c", "release"], ["build", "--configuration", "release"]].contains lowered

variable (site : CommandSite)

/-- The directory is the registered repository, where one is given. -/
def checkInside (cwd : String) (registeredRepository : Option String) (message : String) :
    Result Unit := do
  let resolvedCwd ← site.resolve cwd
  match registeredRepository with
  | none => return ()
  | some repository =>
      let root ← site.resolve repository
      require (resolvedCwd = root) (safetyViolation message)

/-- The branch of `validate_controller_command` for Git. -/
def checkControllerGit (args lowered : List String) : Result Unit :=
  match lowered with
  | [] => .error (safetyViolation "unstructured git invocation is prohibited")
  | operation :: _ => do
      require (operation ∉ MUTATING_GIT_COMMANDS)
        (safetyViolation s!"git {operation} is prohibited for the controller")
      require (¬(operation = "checkout" ∨ "--force" ∈ lowered ∨ "-f" ∈ lowered ∨
          "-d" ∈ lowered ∨ "-D" ∈ args))
        (safetyViolation "discarding checkout, force, or branch deletion is prohibited")
      require (operation ∈ SAFE_GIT_READ_COMMANDS)
        (safetyViolation s!"git {operation} is not on the controller allowlist")

def validateControllerCommand (argv : List String) (cwd : String)
    (registeredRepository : Option String) (allowCodex : Bool) : Result Unit := do
  require (argv ≠ [] ∧ "" ∉ argv)
    (safetyViolation "commands must be non-empty argument arrays")
  checkInside site cwd registeredRepository "operation outside the registered repository"
  let executable := executableOf site.platform (argv.head?.getD "")
  let lowered := argv.tail.map site.platform.lowerText
  require (anyToken PROHIBITED_WORDS lowered = false)
    (safetyViolation
      "release, publication, deployment, and notarization operations are prohibited")
  if executable = "git" then checkControllerGit argv.tail lowered
  else if executable = "codex" ∧ allowCodex = true then
    require (¬("--dangerously-bypass-approvals-and-sandbox" ∈ lowered ∨
        "--ignore-rules" ∈ lowered))
      (safetyViolation "unsafe Codex launcher options are prohibited")
  else .error (safetyViolation s!"controller executable is not allowlisted: {executable}")

def validateConfiguredCommand (argv : List String) (cwd registeredRepository : String) :
    Result Unit := do
  require (argv ≠ [] ∧ "" ∉ argv)
    (safetyViolation "configured commands must be non-empty argument arrays")
  checkInside site cwd (some registeredRepository)
    "configured command is outside the registered repository"
  let executable := executableOf site.platform (argv.head?.getD "")
  let lowered := argv.tail.map site.platform.lowerText
  let prohibited := if isSwiftReleaseBuild executable lowered = true then
    PROHIBITED_WORDS.filter (· ≠ "release") else PROHIBITED_WORDS
  require (anyToken (prohibited ++ ["notarytool"]) (executable :: lowered) = false)
    (safetyViolation
      "configured release, publication, deployment, and notarization operations are prohibited")
  require (¬(executable ∈ SHELLS ∧ "-c" ∈ lowered))
    (safetyViolation "configured shell command strings are prohibited")
  if executable = "git" then
    let operation := lowered.head?.getD "<missing>"
    require (operation ∈ SAFE_GIT_READ_COMMANDS)
      (safetyViolation s!"configured git {operation} is not a read-only operation")
  else return ()

/-! ### Options and operands -/

def isOption (word : String) : Bool :=
  match word.toList with
  | '-' :: _ :: _ => true
  | _ => false

/-- The letters of a word of short options. -/
def shortLetters (word : String) : List Char :=
  match word.toList with
  | '-' :: '-' :: _ => []
  | '-' :: letters => letters
  | _ => []

/-- The name of a long option, without its value. -/
def longName (word : String) : String := String.ofList (word.toList.takeWhile (· ≠ '='))

/-- The options before the operands or `--`; the word after an option that takes one is its
    value. -/
def optionWords (valued : String → Bool) : Bool → List String → List String
  | _, [] => []
  | true, _ :: rest => optionWords valued false rest
  | false, word :: rest =>
      if word = "--" then []
      else if isOption word then word :: optionWords valued (valued word) rest
      else optionWords valued false rest

/-- The words that are neither options nor values. -/
def operandWords (valued : String → Bool) : Bool → List String → List String
  | _, [] => []
  | true, _ :: rest => operandWords valued false rest
  | false, word :: rest =>
      if word = "--" then rest
      else if isOption word then operandWords valued (valued word) rest
      else word :: operandWords valued false rest

/-! ### Forms that write -/

def hasLong (words names : List String) : Bool := words.any fun word => longName word ∈ names

def hasShort (words : List String) (letters : List Char) : Bool :=
  words.any fun word => (shortLetters word).any fun letter => letter ∈ letters

/-- A rename, copy, delete, force or upstream option of `git branch`. -/
def branchChanges (options : List String) : Bool :=
  hasShort options ['m', 'M', 'c', 'C', 'd', 'D', 'f', 'u'] ||
    hasLong options ["--move", "--copy", "--delete", "--force", "--set-upstream-to",
      "--unset-upstream"]

/-- The options with which the operands of `git branch` are patterns. -/
def branchLists (options : List String) : Bool :=
  hasShort options ['l'] ||
    hasLong options ["--list", "--contains", "--no-contains", "--with", "--without", "--merged",
      "--no-merged", "--points-at", "--show-current"]

def branchWrites (args : List String) : Bool :=
  let valued := fun word => decide (word ∈ ["--sort", "--format"])
  let options := optionWords valued false args
  branchChanges options ||
    (!branchLists options && decide (operandWords valued false args ≠ []))

/-- `-m`, alone or at the end of a cluster, takes the next word. -/
def takesReason (word : String) : Bool :=
  decide ((shortLetters word).dropWhile (· ≠ 'm') = ['m'])

def symbolicRefWrites (args : List String) : Bool :=
  let options := optionWords takesReason false args
  hasLong options ["--delete"] ||
    (options.any fun word => 'd' ∈ (shortLetters word).takeWhile (· ≠ 'm')) ||
    decide (2 ≤ (operandWords takesReason false args).length)

def worktreeWrites (args : List String) : Bool :=
  args.head?.any fun word => decide (word ≠ "list" ∧ word.toList.head? ≠ some '-')

/-- An output-file option. -/
def outputWrites (args : List String) : Bool :=
  hasLong (optionWords (fun word => decide (word = "--output")) false args) ["--output"]

/-- The form of a Git command on the list writes refs, HEAD, worktrees, the index or files. -/
def writesForm (operation : String) (args : List String) : Bool :=
  if operation = "branch" then branchWrites args
  else if operation = "symbolic-ref" then symbolicRefWrites args
  else if operation = "worktree" then worktreeWrites args
  else if operation ∈ ["diff", "diff-tree", "log", "show"] then outputWrites args
  else false

/-- The form only reads. -/
def ReadOnly (operation : String) (args : List String) : Prop := writesForm operation args = false

instance (operation : String) (args : List String) : Decidable (ReadOnly operation args) :=
  inferInstanceAs (Decidable (_ = false))

/-- `-o`, `-O` and the options for a file take the next word. -/
def shellValued (word : String) : Bool :=
  decide (word ∈ ["--rcfile", "--init-file"]) || (shortLetters word).any fun c => c ∈ ['o', 'O']

/-- The options of a shell before its first operand. -/
def shellOptions : Bool → List String → List String
  | _, [] => []
  | true, _ :: rest => shellOptions false rest
  | false, word :: rest =>
      if word = "--" ∨ isOption word = false then []
      else word :: shellOptions (shellValued word) rest

/-- The options of a shell have the `c` flag, alone or in a cluster. -/
def HasCommandFlag (args : List String) : Prop := hasShort (shellOptions false args) ['c'] = true

instance (args : List String) : Decidable (HasCommandFlag args) :=
  inferInstanceAs (Decidable (_ = true))

/-! ### What the gate looks at -/

/-- A word without letters, or with one of these tokens. -/
def Barred (P : Platform) (tokens : List String) (word : String) : Prop :=
  word = "" ∨ ∃ token ∈ tokensOf (P.lowerText word), token ∈ tokens

/-- A word that the controller refuses in a Git command. -/
def Refused (P : Platform) (word : String) : Prop :=
  Barred P PROHIBITED_WORDS word ∨ P.lowerText word ∈ ["--force", "-f", "-d"]

/-- A word that is refused in a configured command. -/
def RefusedConfigured (P : Platform) (word : String) : Prop :=
  Barred P (PROHIBITED_WORDS ++ ["notarytool"]) word

instance (P : Platform) (tokens : List String) : DecidablePred (Barred P tokens) := fun _ =>
  inferInstanceAs (Decidable (_ ∨ _))

instance (P : Platform) : DecidablePred (Refused P) := fun _ =>
  inferInstanceAs (Decidable (_ ∨ _))

instance (P : Platform) : DecidablePred (RefusedConfigured P) := fun word =>
  inferInstanceAs (Decidable (Barred P (PROHIBITED_WORDS ++ ["notarytool"]) word))

/-- The working directory is the registered repository, where one is given. -/
def Located (site : CommandSite) (cwd : String) (repository : Option String) : Prop :=
  ∃ root, site.resolve cwd = .ok root ∧ ∀ path ∈ repository, site.resolve path = .ok root

/-- The call returned. -/
def Admitted (result : Result Unit) : Prop := result = .ok ()

theorem anyToken_eq_false {P : Platform} {tokens args : List String} (hnone : "" ∉ args) :
    anyToken tokens (args.map P.lowerText) = false ↔ ∀ word ∈ args, ¬Barred P tokens word := by
  rw [anyToken, List.any_eq_false]
  simp only [List.mem_map, forall_exists_index, and_imp, forall_apply_eq_imp_iff₂,
    List.any_eq_true, decide_eq_true_eq]
  refine forall₂_congr fun word hword => not_congr ?_
  constructor
  · exact Or.inr
  · rintro (rfl | htoken)
    · exact absurd hword hnone
    · exact htoken

section Admission

variable {site : CommandSite} {program operation cwd repository : String} {args : List String}
  {registered : Option String} {allowCodex : Bool}

/-- `str.lower` keeps a text of small ASCII characters. -/
theorem lowerText_of_lower {P : Platform} {text : String}
    (h : (text.toList.all fun c => isAscii c && decide (c.toLower = c)) = true) :
    P.lowerText text = text := by
  have hall : ∀ c ∈ text.toList, isAscii c = true ∧ c.toLower = c := fun c hc => by
    simpa using List.all_eq_true.mp h c hc
  have hsame : text.toList.map Char.toLower = text.toList :=
    (List.map_congr_left fun c hc => (hall c hc).2).trans (List.map_id' _)
  rw [Platform.lowerText, P.lower_ascii _ fun c hc => (hall c hc).1, hsame, String.ofList_toList]

/-- The program and the operation of a Git command on the list are never refused. -/
theorem program_named (hgit : executableOf site.platform program = "git") : program ≠ "" := by
  rintro rfl
  have hnone : executableOf site.platform "" = "" := lowerText_of_lower rfl
  exact absurd (hnone.symm.trans hgit) (by decide)

theorem operation_fine (hop : site.platform.lowerText operation ∈ SAFE_GIT_READ_COMMANDS)
    {tokens : List String} (htokens : tokens ⊆ PROHIBITED_WORDS ++ ["notarytool"]) :
    ¬Barred site.platform tokens operation := by
  have hall : (SAFE_GIT_READ_COMMANDS.all fun name => (tokensOf name).all fun token =>
      token ∉ PROHIBITED_WORDS ++ ["notarytool"]) = true := by decide +kernel
  rintro (rfl | ⟨token, htoken, hmem⟩)
  · rw [lowerText_of_lower rfl] at hop
    exact absurd hop (by decide)
  · have hfine := List.all_eq_true.mp (List.all_eq_true.mp hall _ hop) token htoken
    exact of_decide_eq_true hfine (htokens hmem)

theorem safe_not_mutating (hop : operation ∈ SAFE_GIT_READ_COMMANDS) :
    operation ∉ MUTATING_GIT_COMMANDS ∧ operation ≠ "checkout" ∧
      operation ∉ ["--force", "-f", "-d"] := by
  have hall : ∀ name ∈ SAFE_GIT_READ_COMMANDS, name ∉ MUTATING_GIT_COMMANDS ∧
      name ≠ "checkout" ∧ name ∉ ["--force", "-f", "-d"] := by decide
  exact hall operation hop

theorem checkInside_of_located {message : String} (h : Located site cwd registered) :
    checkInside site cwd registered message = .ok () := by
  obtain ⟨root, hroot, hpath⟩ := h
  rw [checkInside, hroot, ok_bind]
  cases registered with
  | none => rfl
  | some path =>
      dsimp only
      rw [hpath path rfl, ok_bind]
      exact require_eq_ok.mpr rfl

theorem lowerText_delete (P : Platform) : P.lowerText "-D" = "-d" := by
  have hascii : ("-D".toList.all isAscii) = true := rfl
  rw [Platform.lowerText, P.lower_ascii _ (List.all_eq_true.mp hascii)]
  rfl

theorem checkControllerGit_iff
    (hop : site.platform.lowerText operation ∈ SAFE_GIT_READ_COMMANDS) :
    checkControllerGit (operation :: args)
        ((operation :: args).map site.platform.lowerText) = .ok () ↔
      ∀ word ∈ args, site.platform.lowerText word ∉ ["--force", "-f", "-d"] := by
  obtain ⟨hmutating, hcheckout, hflags⟩ := safe_not_mutating hop
  have hlowered : ∀ flag ∈ ["--force", "-f", "-d"],
      (flag ∈ (operation :: args).map site.platform.lowerText ↔
        ∃ word ∈ args, site.platform.lowerText word = flag) := by
    intro flag hflag
    rw [List.map_cons, List.mem_cons, List.mem_map]
    refine or_iff_right ?_
    rintro rfl
    exact hflags hflag
  simp only [checkControllerGit, List.map_cons, bind_eq_ok, require_eq_ok]
  rw [← List.map_cons, hlowered "--force" (by decide), hlowered "-f" (by decide),
    hlowered "-d" (by decide)]
  constructor
  · rintro ⟨-, -, -, hfine, -⟩ word hword hflag
    simp only [List.mem_cons, List.not_mem_nil, or_false] at hflag
    rcases hflag with hforce | hshort | hdelete
    · exact hfine (Or.inr (Or.inl ⟨word, hword, hforce⟩))
    · exact hfine (Or.inr (Or.inr (Or.inl ⟨word, hword, hshort⟩)))
    · exact hfine (Or.inr (Or.inr (Or.inr (Or.inl ⟨word, hword, hdelete⟩))))
  · intro hfine
    refine ⟨(), hmutating, (), ?_, hop⟩
    rintro (heq | ⟨word, hword, heq⟩ | ⟨word, hword, heq⟩ | ⟨word, hword, heq⟩ | hmem)
    · exact hcheckout heq
    · exact hfine word hword (by simp [heq])
    · exact hfine word hword (by simp [heq])
    · exact hfine word hword (by simp [heq])
    · rcases List.mem_cons.mp hmem with rfl | hmem
      · exact hflags (by rw [lowerText_delete]; decide)
      · exact hfine _ hmem (by rw [lowerText_delete]; decide)

/-- The controller admits a Git command on the list unless it refuses one of its words. -/
theorem controller_admits_iff (hgit : executableOf site.platform program = "git")
    (hop : site.platform.lowerText operation ∈ SAFE_GIT_READ_COMMANDS)
    (hlocated : Located site cwd registered) :
    Admitted (validateControllerCommand site (program :: operation :: args) cwd registered
      allowCodex) ↔ ∀ word ∈ args, ¬Refused site.platform word := by
  have hprogram := program_named hgit
  have hoperation := operation_fine hop (List.subset_append_left PROHIBITED_WORDS ["notarytool"])
  unfold Admitted validateControllerCommand
  dsimp only [List.head?_cons, Option.getD_some, List.tail_cons]
  rw [hgit, if_pos rfl, checkInside_of_located hlocated, ok_bind]
  constructor
  · intro h word hword hrefused
    obtain ⟨_, hargv, h⟩ := bind_eq_ok.mp h
    obtain ⟨_, htokens, hflags⟩ := bind_eq_ok.mp h
    rw [require_eq_ok] at hargv htokens
    rw [anyToken_eq_false fun hmem => hargv.2 (List.mem_cons_of_mem _ hmem)] at htokens
    rcases hrefused with hbarred | hflag
    · exact htokens word (List.mem_cons_of_mem _ hword) hbarred
    · exact (checkControllerGit_iff hop).mp hflags word hword hflag
  · intro hfine
    have hwords : "" ∉ operation :: args := by
      intro hmem
      rcases List.mem_cons.mp hmem with heq | hmem
      · exact hoperation (Or.inl heq.symm)
      · exact hfine "" hmem (Or.inl (Or.inl rfl))
    have htokens : anyToken PROHIBITED_WORDS ((operation :: args).map site.platform.lowerText) =
        false := by
      rw [anyToken_eq_false hwords]
      intro word hword hbarred
      rcases List.mem_cons.mp hword with rfl | hmem
      · exact hoperation hbarred
      · exact hfine word hmem (Or.inl hbarred)
    refine bind_eq_ok.mpr ⟨(), require_eq_ok.mpr ⟨List.cons_ne_nil _ _, ?_⟩,
      bind_eq_ok.mpr ⟨(), require_eq_ok.mpr htokens, (checkControllerGit_iff hop).mpr ?_⟩⟩
    · intro hmem
      rcases List.mem_cons.mp hmem with heq | hmem
      · exact hprogram heq.symm
      · exact hwords hmem
    · intro word hword hflag
      exact hfine word hword (Or.inr hflag)

/-- A configured command with an executable that no token bars is refused for its words, or as
    a command string of a shell, or as a Git command that is not on the list. -/
theorem configured_admits_iff (hprogram : program ≠ "")
    (hexecutable : anyToken (PROHIBITED_WORDS ++ ["notarytool"])
      [executableOf site.platform program] = false)
    (hswift : executableOf site.platform program ≠ "swift")
    (hlocated : Located site cwd (some repository)) :
    Admitted (validateConfiguredCommand site (program :: args) cwd repository) ↔
      (∀ word ∈ args, ¬RefusedConfigured site.platform word) ∧
        ¬(executableOf site.platform program ∈ SHELLS ∧
          "-c" ∈ args.map site.platform.lowerText) ∧
        (executableOf site.platform program = "git" →
          (args.map site.platform.lowerText).head?.getD "<missing>" ∈ SAFE_GIT_READ_COMMANDS) := by
  have hbuild : isSwiftReleaseBuild (executableOf site.platform program)
      (args.map site.platform.lowerText) = false := by
    simp [isSwiftReleaseBuild, hswift]
  have hsplit : ∀ words : List String, anyToken (PROHIBITED_WORDS ++ ["notarytool"])
      (executableOf site.platform program :: words) =
        anyToken (PROHIBITED_WORDS ++ ["notarytool"]) words := by
    intro words
    rw [anyToken, List.any_cons] at hexecutable ⊢
    rw [(Bool.or_eq_false_iff.mp hexecutable).1, Bool.false_or]
    rfl
  unfold Admitted validateConfiguredCommand
  dsimp only [List.head?_cons, Option.getD_some, List.tail_cons]
  rw [checkInside_of_located hlocated, ok_bind, hbuild]
  simp only [Bool.false_eq_true, if_false, hsplit]
  constructor
  · intro h
    obtain ⟨_, hargv, h⟩ := bind_eq_ok.mp h
    obtain ⟨_, htokens, h⟩ := bind_eq_ok.mp h
    obtain ⟨_, hshell, h⟩ := bind_eq_ok.mp h
    rw [require_eq_ok] at hargv htokens hshell
    rw [anyToken_eq_false fun hmem => hargv.2 (List.mem_cons_of_mem _ hmem)] at htokens
    refine ⟨htokens, hshell, fun hgit => ?_⟩
    rw [if_pos hgit] at h
    exact require_eq_ok.mp h
  · rintro ⟨htokens, hshell, hgit⟩
    have hwords : "" ∉ args := fun hmem => htokens "" hmem (Or.inl rfl)
    refine bind_eq_ok.mpr ⟨(), require_eq_ok.mpr ⟨List.cons_ne_nil _ _, ?_⟩,
      bind_eq_ok.mpr ⟨(), require_eq_ok.mpr ((anyToken_eq_false hwords).mpr htokens),
        bind_eq_ok.mpr ⟨(), require_eq_ok.mpr hshell, ?_⟩⟩⟩
    · intro hmem
      rcases List.mem_cons.mp hmem with heq | hmem
      · exact hprogram heq.symm
      · exact hwords hmem
    · split
      · rename_i hexec
        exact require_eq_ok.mpr (hgit hexec)
      · rfl

/-- A configured Git command on the list is admitted unless it has a refused word. -/
theorem configured_git_admits_iff (hgit : executableOf site.platform program = "git")
    (hop : site.platform.lowerText operation ∈ SAFE_GIT_READ_COMMANDS)
    (hlocated : Located site cwd (some repository)) :
    Admitted (validateConfiguredCommand site (program :: operation :: args) cwd repository) ↔
      ∀ word ∈ args, ¬RefusedConfigured site.platform word := by
  rw [configured_admits_iff (program_named hgit) (by rw [hgit]; decide +kernel)
    (by rw [hgit]; decide) hlocated, List.forall_mem_cons]
  constructor
  · rintro ⟨⟨-, hwords⟩, -, -⟩
    exact hwords
  · intro hwords
    refine ⟨⟨operation_fine hop (List.Subset.refl _), hwords⟩, ?_, fun _ => hop⟩
    rintro ⟨hshell, -⟩
    rw [hgit] at hshell
    exact absurd hshell (by decide)

/-- A configured shell is admitted unless it has a refused word or the word `-c`. -/
theorem configured_shell_admits_iff (hshell : executableOf site.platform program ∈ SHELLS)
    (hlocated : Located site cwd (some repository)) :
    Admitted (validateConfiguredCommand site (program :: args) cwd repository) ↔
      ∀ word ∈ args, ¬RefusedConfigured site.platform word ∧
        site.platform.lowerText word ≠ "-c" := by
  have hall : ∀ name ∈ SHELLS, name ≠ "" ∧ name ≠ "git" ∧ name ≠ "swift" := by decide
  have hfine : (SHELLS.all fun name =>
      anyToken (PROHIBITED_WORDS ++ ["notarytool"]) [name] = false) = true := by decide +kernel
  obtain ⟨hnamed, hgit, hswift⟩ := hall _ hshell
  have hprogram : program ≠ "" := by
    rintro rfl
    exact hnamed (lowerText_of_lower rfl)
  rw [configured_admits_iff hprogram (of_decide_eq_true (List.all_eq_true.mp hfine _ hshell))
    hswift hlocated]
  constructor
  · rintro ⟨hwords, hflag, -⟩ word hword
    exact ⟨hwords word hword, fun heq => hflag ⟨hshell, List.mem_map.mpr ⟨word, hword, heq⟩⟩⟩
  · intro hwords
    refine ⟨fun word hword => (hwords word hword).1, ?_, fun h => absurd h hgit⟩
    rintro ⟨-, hflag⟩
    obtain ⟨word, hword, heq⟩ := List.mem_map.mp hflag
    exact (hwords word hword).2 heq

end Admission

/-! ### The spelling of names -/

/-- A word that names a ref, a revision or a path. -/
def Named (word : String) : Prop := word ≠ "" ∧ word.toList.head? ≠ some '-'

instance : DecidablePred Named := fun _ => inferInstanceAs (Decidable (_ ∧ _))

def subcommand (operation : String) (args : List String) : List String :=
  if operation = "worktree" then args.take 1 else []

def afterSubcommand (operation : String) (args : List String) : List String :=
  if operation = "worktree" then args.drop 1 else args

/-- The two words are the same, or both of them are names. -/
def SameWord (word word' : String) : Prop := word = word' ∨ Named word ∧ Named word'

/-- The same form, with other names in it. -/
structure SameForm (operation : String) (args args' : List String) : Prop where
  leading : subcommand operation args' = subcommand operation args
  words : List.Forall₂ SameWord (afterSubcommand operation args) (afterSubcommand operation args')

/-- The words of the form that are not names. -/
def fixedWords (operation : String) (args : List String) : List String :=
  subcommand operation args ++ (afterSubcommand operation args).filter fun word => ¬Named word

theorem subcommand_append (operation : String) (args : List String) :
    subcommand operation args ++ afterSubcommand operation args = args := by
  unfold subcommand afterSubcommand
  split
  · exact List.take_append_drop 1 args
  · rfl

/-- Every name of the form replaced by another. -/
def respell (operation name : String) (args : List String) : List String :=
  subcommand operation args ++
    (afterSubcommand operation args).map fun word => if Named word then name else word

theorem respell_sameForm {operation name : String} (hname : Named name) (args : List String) :
    SameForm operation args (respell operation name args) := by
  have hwords : List.Forall₂ SameWord (afterSubcommand operation args)
      ((afterSubcommand operation args).map fun word => if Named word then name else word) := by
    rw [List.forall₂_map_right_iff, List.forall₂_same]
    intro word _
    by_cases hnamed : Named word
    · rw [if_pos hnamed]
      exact Or.inr ⟨hnamed, hname⟩
    · rw [if_neg hnamed]
      exact Or.inl rfl
  unfold respell
  by_cases hworktree : operation = "worktree"
  · refine ⟨?_, ?_⟩
    · cases args <;> simp [subcommand, afterSubcommand, hworktree]
    · cases args with
      | nil => simp [subcommand, afterSubcommand, hworktree]
      | cons first rest =>
          simp only [subcommand, afterSubcommand, hworktree, if_true] at hwords ⊢
          exact hwords
  · refine ⟨?_, ?_⟩
    · simp [subcommand, hworktree]
    · simp only [subcommand, afterSubcommand, hworktree, if_false, List.nil_append] at hwords ⊢
      exact hwords

theorem mem_fixedWords {operation word : String} {args : List String} :
    word ∈ fixedWords operation args ↔ word ∈ subcommand operation args ∨
      word ∈ afterSubcommand operation args ∧ ¬Named word := by
  rw [fixedWords, List.mem_append, List.mem_filter, decide_eq_true_iff]

theorem mem_respell {operation name word : String} {args : List String}
    (h : word ∈ respell operation name args) :
    word ∈ fixedWords operation args ∨ word = name := by
  rw [mem_fixedWords]
  rcases List.mem_append.mp h with hmem | hmem
  · exact Or.inl (Or.inl hmem)
  · obtain ⟨other, hother, rfl⟩ := List.mem_map.mp hmem
    by_cases hnamed : Named other
    · exact Or.inr (if_pos hnamed)
    · rw [if_neg hnamed]
      exact Or.inl (Or.inr ⟨hother, hnamed⟩)

theorem mem_of_fixedWords {operation word : String} {args : List String}
    (h : word ∈ fixedWords operation args) : word ∈ args := by
  rw [← subcommand_append operation args, List.mem_append]
  exact (mem_fixedWords.mp h).imp id And.left

/-- The fixed words are in every form that differs in its names. -/
theorem SameForm.fixed_mem {operation word : String} {args args' : List String}
    (h : SameForm operation args args') (hword : word ∈ fixedWords operation args) :
    word ∈ args' := by
  rw [← subcommand_append operation args', List.mem_append, h.leading]
  rcases mem_fixedWords.mp hword with hmem | ⟨hmem, hnot⟩
  · exact Or.inl hmem
  · refine Or.inr ?_
    have hwords := h.words
    generalize afterSubcommand operation args = words at hwords hmem
    generalize afterSubcommand operation args' = words' at hwords
    induction hwords with
    | nil => cases hmem
    | @cons first first' rest rest' hfirst _ ih =>
        rcases List.mem_cons.mp hmem with rfl | hmem
        · rcases hfirst with rfl | ⟨hnamed, -⟩
          · exact List.mem_cons_self
          · exact absurd hnamed hnot
        · exact List.mem_cons_of_mem _ (ih hmem)

/-- A form without names has no other spelling. -/
theorem SameForm.eq_of_nameless {operation : String} {args args' : List String}
    (h : SameForm operation args args')
    (hnone : ∀ word ∈ afterSubcommand operation args, ¬Named word) : args' = args := by
  have hsame : afterSubcommand operation args' = afterSubcommand operation args := by
    have hwords := h.words
    generalize afterSubcommand operation args = words at hwords hnone
    generalize afterSubcommand operation args' = words' at hwords
    induction hwords with
    | nil => rfl
    | @cons first first' rest rest' hfirst _ ih =>
        rcases hfirst with rfl | ⟨hnamed, -⟩
        · rw [ih fun word hword => hnone word (List.mem_cons_of_mem _ hword)]
        · exact absurd hnamed (hnone _ List.mem_cons_self)
  rw [← subcommand_append operation args', ← subcommand_append operation args, h.leading, hsame]

theorem main_fine (P : Platform) : ¬Refused P "main" := by
  have hmain : P.lowerText "main" = "main" := lowerText_of_lower (by decide +kernel)
  rintro ((hnone | ⟨token, htoken, hmem⟩) | hflag)
  · exact absurd hnone (by decide)
  · rw [hmain] at htoken
    have hall : ((tokensOf "main").all fun token => token ∉ PROHIBITED_WORDS) = true := by
      decide +kernel
    exact of_decide_eq_true (List.all_eq_true.mp hall token htoken) hmem
  · rw [hmain] at hflag
    exact absurd hflag (by decide)

theorem release_refused (P : Platform) : Refused P "release" := by
  have hrelease : P.lowerText "release" = "release" := lowerText_of_lower (by decide +kernel)
  refine Or.inl (Or.inr ⟨"release", ?_, by decide⟩)
  rw [hrelease]
  decide +kernel

/-- The verdict on a form does not depend on its names exactly where the form has none or a
    fixed word of it is refused. -/
theorem spelling_iff {P : Platform} {operation : String} {args : List String} :
    (∀ args', SameForm operation args args' →
        ((∀ word ∈ args, ¬Refused P word) ↔ ∀ word ∈ args', ¬Refused P word)) ↔
      (∀ word ∈ afterSubcommand operation args, ¬Named word) ∨
        ∃ word ∈ fixedWords operation args, Refused P word := by
  constructor
  · intro h
    by_contra hnone
    rw [not_or] at hnone
    push Not at hnone
    obtain ⟨⟨name, hmem, hnamed⟩, hfixed⟩ := hnone
    have hmain : ∀ word ∈ respell operation "main" args, ¬Refused P word := by
      intro word hword
      rcases mem_respell hword with hmem | rfl
      · exact hfixed word hmem
      · exact main_fine P
    have hfine := (h _ (respell_sameForm (by decide) args)).mpr hmain
    have hrelease : "release" ∈ respell operation "release" args :=
      List.mem_append_right _ (List.mem_map.mpr ⟨name, hmem, if_pos hnamed⟩)
    have hsame : SameForm operation args (respell operation "release" args) :=
      respell_sameForm (by decide) args
    exact (h _ hsame).mp hfine "release" hrelease (release_refused P)
  · rintro (hnone | ⟨word, hword, hrefused⟩) args' hsame
    · rw [hsame.eq_of_nameless hnone]
    · refine iff_of_false (fun hfine => ?_) fun hfine => ?_
      · exact hfine word (mem_of_fixedWords hword) hrefused
      · exact hfine word (hsame.fixed_mem hword) hrefused

/-! ### When the gate admits what the claim says -/

/-- The array is a Git command on the list. -/
structure GitRead (P : Platform) (argv : List String) (operation : String) (args : List String) :
    Prop where
  git : ∃ program spelled, argv = program :: spelled :: args ∧
    executableOf P program = "git" ∧ P.lowerText spelled = operation
  listed : operation ∈ SAFE_GIT_READ_COMMANDS

/-- What is asked of the gate for an argument array: it admits exactly the reading forms of the
    Git commands on the list, whatever names are in them, as the configured gate admits no other
    form of them, and no shell with the `c` flag. -/
structure AdmitsExactly (site : CommandSite) (cwd : String) (registered : Option String)
    (repository : String) (allowCodex : Bool) (argv : List String) : Prop where
  controller : ∀ operation args, GitRead site.platform argv operation args →
    (Admitted (validateControllerCommand site argv cwd registered allowCodex) ↔
      ReadOnly operation args)
  spelling : ∀ operation args, GitRead site.platform argv operation args → ∀ args',
    SameForm operation args args' →
    (Admitted (validateControllerCommand site argv cwd registered allowCodex) ↔
      Admitted (validateControllerCommand site (argv.take 2 ++ args') cwd registered allowCodex))
  configured : ∀ operation args, GitRead site.platform argv operation args →
    Admitted (validateConfiguredCommand site argv cwd repository) → ReadOnly operation args
  shell : ∀ program args, argv = program :: args → executableOf site.platform program ∈ SHELLS →
    HasCommandFlag args → ¬Admitted (validateConfiguredCommand site argv cwd repository)

/-- The condition: no word of a reading form is refused, but a word of any other form is, by
    both gates; no form has a name unless one of its other words is refused; and a shell with
    the `c` flag has it as a word of its own, or a word that is refused. -/
structure TellsApart (P : Platform) (argv : List String) : Prop where
  reading : ∀ operation args, GitRead P argv operation args → ReadOnly operation args →
    ∀ word ∈ args, ¬Refused P word
  writing : ∀ operation args, GitRead P argv operation args → ¬ReadOnly operation args →
    (∃ word ∈ args, Refused P word) ∧ ∃ word ∈ args, RefusedConfigured P word
  spelling : ∀ operation args, GitRead P argv operation args →
    (∀ word ∈ afterSubcommand operation args, ¬Named word) ∨
      ∃ word ∈ fixedWords operation args, Refused P word
  shell : ∀ program args, argv = program :: args → executableOf P program ∈ SHELLS →
    HasCommandFlag args →
      ∃ word ∈ args, RefusedConfigured P word ∨ P.lowerText word = "-c"

section Exact

variable {site : CommandSite} {cwd repository : String} {registered : Option String}
  {allowCodex : Bool} {argv : List String} {operation : String} {args : List String}

theorem GitRead.controller_iff (h : GitRead site.platform argv operation args)
    (hlocated : Located site cwd registered) :
    Admitted (validateControllerCommand site argv cwd registered allowCodex) ↔
      ∀ word ∈ args, ¬Refused site.platform word := by
  obtain ⟨⟨program, spelled, rfl, hgit, rfl⟩, hlisted⟩ := h
  exact controller_admits_iff hgit hlisted hlocated

theorem GitRead.configured_iff (h : GitRead site.platform argv operation args)
    (hlocated : Located site cwd (some repository)) :
    Admitted (validateConfiguredCommand site argv cwd repository) ↔
      ∀ word ∈ args, ¬RefusedConfigured site.platform word := by
  obtain ⟨⟨program, spelled, rfl, hgit, rfl⟩, hlisted⟩ := h
  exact configured_git_admits_iff hgit hlisted hlocated

theorem GitRead.respelled {P : Platform} (h : GitRead P argv operation args)
    (args' : List String) : GitRead P (argv.take 2 ++ args') operation args' := by
  obtain ⟨⟨program, spelled, rfl, hgit, hspelled⟩, hlisted⟩ := h
  exact ⟨⟨program, spelled, rfl, hgit, hspelled⟩, hlisted⟩

end Exact

/-! ### Forms that the gate confuses -/

/-- Directories lead to themselves. -/
def CommandSite.plain : CommandSite := ⟨.reference, .ok⟩

instance (result : Result Unit) : Decidable (Admitted result) :=
  match result with
  | .ok () => isTrue rfl
  | .error _ => isFalse (fun h => nomatch h)

end CommandGate

end Conveyor
