import Mathlib.Algebra.BigOperators.Group.List.Lemmas
import Mathlib.Algebra.Order.BigOperators.Group.List
import Conveyor.TerminalEnvelope

/-!
# The child budget of a session

`launch` watches the stream of a session for collaboration calls (`sessions.py`) and ends the
session when more of them come than it may have children. What it counts are the events of the
stream: a call that is announced and later completed counts twice. `launch_reports_iff` says when
the verdict is still about calls.
-/

namespace Conveyor

open Library JsonText

namespace SessionBudget

/-! ### What a line says -/

variable (D : Decoding)

/-- `_collaboration_tool_call`. -/
def collaborationToolCall (line : List Char) : Result (Option String) :=
  match Json.loads D line with
  | .error .malformed => .ok none
  | .error .tooManyDigits => .error digitsError
  | .ok (.obj event) =>
      match Fields.get event "item" with
      | .obj item =>
          if Fields.get item "type" = .str "collab_tool_call" then
            match Fields.get item "tool" with
            | .str tool => .ok (some (if tool = "" then "unknown_collaboration_tool" else tool))
            | _ => .ok (some "unknown_collaboration_tool")
          else .ok none
      | _ => .ok none
  | .ok _ => .ok none

def IDENTITY_KEYS : List String := ["thread_id", "threadId", "session_id", "sessionId"]

/-- The first of the identity keys with a text. -/
def identityOf (fields : Fields) : Option String :=
  IDENTITY_KEYS.findSome? fun key => (Fields.get fields key).asString?

/-- The session identity of an event, its own or that of its payload. -/
def eventIdentity (event : Fields) : Option String :=
  match identityOf event, Fields.get event "payload" with
  | some session, _ => some session
  | none, .obj payload => identityOf payload
  | none, _ => none

/-- The loop of `_session_id` over the lines. -/
def sessionIdOf : List (List Char) → Result (Option String)
  | [] => .ok none
  | line :: rest =>
      match Json.loads D line with
      | .error .malformed => sessionIdOf rest
      | .error .tooManyDigits => .error digitsError
      | .ok (.obj event) =>
          match eventIdentity event with
          | some session => .ok (some session)
          | none => sessionIdOf rest
      | .ok _ => sessionIdOf rest

/-- `_session_id`. -/
def sessionId (output : List Char) : Result (Option String) := sessionIdOf D (splitlines output)

/-- The line is the event of a collaboration call. -/
def announcesCall (line : List Char) : Bool :=
  match collaborationToolCall D line with
  | .ok (some _) => true
  | _ => false

/-! ### The reader -/

def sessionError (message : String) : Failure := ⟨.sessionError, message⟩

def budgetExceeded : Failure :=
  sessionError "child-session budget exceeded before terminal result"

def boundaryExceeded : Failure :=
  sessionError "execution plan exceeded its child-session collaboration boundary"

/-- A failure of what stands around the reader: of none of these does it raise the reader's own. -/
abbrev OtherFailure := {failure : Failure // failure ≠ budgetExceeded ∧ failure ≠ boundaryExceeded}

/-- What `consume` is given. -/
structure Observer where
  /-- `request.child_session_budget or 0`. -/
  budget : Nat
  /-- `on_session_started`, with what it raises for a session. -/
  onSessionStarted : Option (String → Option OtherFailure)

/-- What `consume` has kept of the lines. -/
structure Observed where
  destination : List (List Char)
  observedChildCalls : List String
  budgetViolations : List String
  observedSession : Option String

def Observed.empty : Observed := ⟨[], [], [], none⟩

variable (observer : Observer)

/-- The session identity of a line, where somebody waits for it. -/
def observeSession (seen : Observed) (line : List Char) : Observed × Option Failure :=
  match observer.onSessionStarted with
  | none => (seen, none)
  | some callback =>
      match sessionId D line with
      | .error failure => (seen, some failure)
      | .ok (some session) =>
          if session = "" then missing
          else if seen.observedSession = none then
            ({ seen with observedSession := some session }, (callback session).map Subtype.val)
          else (seen, none)
      | .ok none => missing
where
  missing : Observed × Option Failure :=
    if seen.destination.length = 1 then
      (seen, some (sessionError
        "typed workflow did not expose a session identity before work began"))
    else (seen, none)

/-- One pass of the loop of `consume` over the output of the session. -/
def consumeLine (seen : Observed) (line : List Char) : Observed × Option Failure :=
  let seen := { seen with destination := seen.destination ++ [line] }
  match collaborationToolCall D line with
  | .error failure => (seen, some failure)
  | .ok none => observeSession D observer seen line
  | .ok (some tool) =>
      let seen := { seen with observedChildCalls := seen.observedChildCalls ++ [tool] }
      if observer.budget < seen.observedChildCalls.length then
        ({ seen with budgetViolations := seen.budgetViolations ++ [tool] }, some budgetExceeded)
      else observeSession D observer seen line

/-- `consume`: the first failure ends the loop. -/
def consume (seen : Observed) : List (List Char) → Observed × Option Failure
  | [] => (seen, none)
  | line :: rest =>
      match consumeLine D observer seen line with
      | (seen, none) => consume seen rest
      | (seen, some failure) => (seen, some failure)

/-! ### The launch -/

inductive SessionKind where
  | parent | child
deriving DecidableEq, Repr

/-- What the launch reads of its request for the budgets. -/
structure SessionRequest where
  sessionKind : SessionKind
  parentSessionBudget : Option Nat
  childSessionBudget : Option Nat

inductive ProcessEnd where
  | launchFailed (error : String)
  | timedOut (output : String)
  | exited
deriving DecidableEq, Repr

/-- What the launch meets besides the lines of the session. -/
structure LaunchSite where
  onSessionStarted : Option (String → Option OtherFailure)
  /-- How often the parent was launched, at the first look and at the second. -/
  launched : Nat
  launchedAgain : Nat
  /-- `plan` and `on_context_ready`. -/
  plan : Option OtherFailure
  process : ProcessEnd
  /-- What breaks the output off behind its last line. -/
  broken : Option OtherFailure
  /-- A failure of the reader of the error output, and whether it comes first. -/
  stderr : Option (OtherFailure × Bool)

/-- `callback_errors`. -/
def callbackErrors (site : LaunchSite) (failure : Option Failure) : List Failure :=
  let own := (failure.or (site.broken.map Subtype.val)).toList
  match site.stderr with
  | none => own
  | some (other, true) => other.val :: own
  | some (other, false) => own ++ [other.val]

/-- The launch from the process on, up to what the session wrote. -/
def runProcess (site : LaunchSite) (lines : List (List Char)) : Result (List (List Char)) :=
  match site.process with
  | .launchFailed error =>
      .error (sessionError s!"repository session process launch failed: {error}")
  | .timedOut output => .error (sessionError s!"repository session timed out; {output}")
  | .exited =>
      let (seen, failure) := consume D observer .empty lines
      match callbackErrors site failure with
      | error :: _ => .error error
      | [] =>
          if seen.budgetViolations ≠ [] then .error boundaryExceeded
          else if observer.onSessionStarted.isSome ∧ seen.observedSession = none then
            .error (sessionError "typed workflow completed without an early session identity")
          else .ok seen.destination

/-- The parent has not been launched as often as it may. -/
def SessionRequest.parentLeft (request : SessionRequest) (launched : Nat) : Prop :=
  request.sessionKind = .parent → ∀ budget ∈ request.parentSessionBudget, launched < budget

instance (request : SessionRequest) (launched : Nat) : Decidable (request.parentLeft launched) :=
  inferInstanceAs (Decidable (_ → ∀ budget ∈ request.parentSessionBudget, launched < budget))

/-- `launch`, up to what the session wrote. -/
def launch (request : SessionRequest) (site : LaunchSite) (lines : List (List Char)) :
    Result (List (List Char)) := do
  require (request.sessionKind = .child → request.childSessionBudget.getD 0 ≠ 0)
    (sessionError "child session budget exhausted or prohibited before Codex launch")
  require (request.parentLeft site.launched)
    (sessionError "parent session budget exhausted before Codex launch")
  if let some failure := site.plan then throw failure.val
  require (request.parentLeft site.launchedAgain)
    (sessionError "parent session budget exhausted before Codex process invocation")
  runProcess D ⟨request.childSessionBudget.getD 0, site.onSessionStarted⟩ site lines

/-! ### When the reader ends the session -/

section

variable {D} {observer}

/-- The line is what the one who waits for the session identity asks for. -/
def Identifies (D : Decoding) (observer : Observer) (first : Prop) (line : List Char) : Prop :=
  ∀ callback, observer.onSessionStarted = some callback →
    ∃ found, sessionId D line = .ok found ∧
      (first → ∃ session, found = some session ∧ session ≠ "" ∧ callback session = none)

/-- Nothing but the budget ends the reader at this line. -/
structure QuietLine (D : Decoding) (observer : Observer) (first : Prop) (line : List Char) :
    Prop where
  converts : ∃ call, collaborationToolCall D line = .ok call
  identifies : Identifies D observer first line

/-- Nothing but the budget ends the reader in these lines. -/
def Quiet (D : Decoding) (observer : Observer) (lines : List (List Char)) : Prop :=
  ∀ read line rest, lines = read ++ line :: rest → QuietLine D observer (read = []) line

/-- How many of the lines are events of collaboration calls. -/
def callEvents (D : Decoding) (lines : List (List Char)) : Nat := lines.countP (announcesCall D)

/-- What the reader has kept of the lines it has read. -/
structure Keeps (D : Decoding) (observer : Observer) (read : List (List Char)) (seen : Observed) :
    Prop where
  destination : seen.destination = read
  calls : seen.observedChildCalls.length = callEvents D read
  fresh : read = [] → seen.observedSession = none
  session : observer.onSessionStarted.isSome → read ≠ [] → seen.observedSession.isSome

theorem Keeps.empty : Keeps D observer [] .empty :=
  ⟨rfl, rfl, fun _ => rfl, fun _ h => absurd rfl h⟩

theorem announcesCall_eq_true {line : List Char} :
    announcesCall D line = true ↔ ∃ tool, collaborationToolCall D line = .ok (some tool) := by
  unfold announcesCall
  split
  · rename_i tool htool
    exact ⟨fun _ => ⟨tool, htool⟩, fun _ => rfl⟩
  · rename_i hnone
    exact ⟨nofun, fun ⟨tool, htool⟩ => absurd htool (hnone tool)⟩

@[simp] theorem callEvents_nil : callEvents D [] = 0 := rfl

@[simp] theorem callEvents_append (front behind : List (List Char)) :
    callEvents D (front ++ behind) = callEvents D front + callEvents D behind :=
  List.countP_append

@[simp] theorem callEvents_singleton (line : List Char) :
    callEvents D [line] = if announcesCall D line then 1 else 0 := by
  simp [callEvents, List.countP_singleton]

theorem digitsError_ne : digitsError ≠ budgetExceeded := by decide

theorem collaborationToolCall_error {line : List Char} {failure : Failure}
    (h : collaborationToolCall D line = .error failure) : failure = digitsError := by
  unfold collaborationToolCall at h
  split at h
  · cases h
  · cases h
    rfl
  · split at h
    · split_ifs at h
      · split at h <;> cases h
    · cases h
  · cases h

theorem sessionIdOf_error {lines : List (List Char)} {failure : Failure}
    (h : sessionIdOf D lines = .error failure) : failure = digitsError := by
  induction lines with
  | nil => cases h
  | cons line rest ih =>
      rw [sessionIdOf] at h
      split at h
      · exact ih h
      · cases h
        rfl
      · split at h
        · cases h
        · exact ih h
      · exact ih h

section

variable {seen : Observed} {line : List Char} {first : Prop}
  (hlength : seen.destination.length = 1 ↔ first)
  (hfresh : first → seen.observedSession = none)

include hlength hfresh

/-- A line that identifies the session, or comes behind one that did, is read through. -/
theorem observeSession_identifies
    (hlater : observer.onSessionStarted.isSome → ¬first → seen.observedSession.isSome)
    (h : Identifies D observer first line) :
    ∃ session, observeSession D observer seen line =
        ({ seen with observedSession := session }, none) ∧
      (observer.onSessionStarted.isSome → session.isSome) := by
  unfold observeSession
  cases hcallback : observer.onSessionStarted with
  | none => exact ⟨seen.observedSession, rfl, nofun⟩
  | some callback =>
      obtain ⟨found, hfound, hfirst⟩ := h callback hcallback
      rw [hcallback] at hlater
      dsimp only
      rw [hfound]
      by_cases hat : first
      · obtain ⟨session, rfl, hsession, hpassed⟩ := hfirst hat
        dsimp only
        rw [if_neg hsession, if_pos (hfresh hat), hpassed]
        exact ⟨some session, rfl, fun _ => rfl⟩
      · have hsome := hlater rfl hat
        have hkept : ¬seen.observedSession = none := by
          intro hnone
          rw [hnone] at hsome
          cases hsome
        have hmissing : observeSession.missing seen = (seen, none) := by
          rw [observeSession.missing, if_neg fun hone => hat (hlength.mp hone)]
        refine ⟨seen.observedSession, ?_, fun _ => hsome⟩
        cases found with
        | none => exact hmissing
        | some session =>
            dsimp only
            split_ifs
            · exact hmissing
            · rfl

/-- Any other line raises, and not for the budget. -/
theorem observeSession_raises (h : ¬Identifies D observer first line) :
    ∃ after failure, observeSession D observer seen line = (after, some failure) ∧
      failure ≠ budgetExceeded := by
  simp only [Identifies, not_forall] at h
  obtain ⟨callback, hcallback, hnot⟩ := h
  unfold observeSession
  rw [hcallback]
  dsimp only
  cases hfound : sessionId D line with
  | error failure =>
      refine ⟨seen, failure, rfl, ?_⟩
      rw [sessionIdOf_error hfound]
      exact digitsError_ne
  | ok found =>
      have hat : first := by
        by_contra hlate
        exact hnot ⟨found, hfound, fun h => absurd h hlate⟩
      have hmissing : ∃ after failure, observeSession.missing seen = (after, some failure) ∧
          failure ≠ budgetExceeded := by
        rw [observeSession.missing, if_pos (hlength.mpr hat)]
        exact ⟨_, _, rfl, by decide⟩
      cases found with
      | none => exact hmissing
      | some session =>
          dsimp only
          split_ifs with hempty hnone
          · exact hmissing
          · cases hraised : callback session with
            | none => exact absurd ⟨_, hfound, fun _ => ⟨session, rfl, hempty, hraised⟩⟩ hnot
            | some failure => exact ⟨_, failure.val, rfl, failure.property.1⟩
          · exact absurd (hfresh hat) hnone

end

/-- The line is the event of a call beyond the budget. -/
def Exceeds (D : Decoding) (observer : Observer) (read : List (List Char)) (line : List Char) :
    Prop :=
  announcesCall D line = true ∧ observer.budget ≤ callEvents D read

section

variable {read : List (List Char)} {seen : Observed} {line : List Char}

theorem consumeLine_exceeds (h : Keeps D observer read seen)
    (hexceeds : Exceeds D observer read line) :
    ∃ after, consumeLine D observer seen line = (after, some budgetExceeded) := by
  obtain ⟨hcall, hbudget⟩ := hexceeds
  obtain ⟨tool, htool⟩ := announcesCall_eq_true.mp hcall
  unfold consumeLine
  rw [htool]
  dsimp only
  rw [if_pos]
  · exact ⟨_, rfl⟩
  · rw [List.length_append, h.calls, List.length_singleton]
    omega

/-- What the reader does with a line within the budget is left to the session identity. -/
theorem consumeLine_within (h : Keeps D observer read seen)
    (hwithin : ¬Exceeds D observer read line) {call : Option String}
    (hcall : collaborationToolCall D line = .ok call) :
    ∃ between, consumeLine D observer seen line = observeSession D observer between line ∧
      between.destination = read ++ [line] ∧ between.observedSession = seen.observedSession ∧
      between.observedChildCalls.length = callEvents D (read ++ [line]) := by
  unfold consumeLine
  rw [hcall]
  cases call with
  | none =>
      have hplain : announcesCall D line = false := by
        rw [announcesCall, hcall]
      refine ⟨_, rfl, ?_, rfl, ?_⟩
      · rw [← h.destination]
      · simp [h.calls, hplain]
  | some tool =>
      have hannounces : announcesCall D line = true := announcesCall_eq_true.mpr ⟨tool, hcall⟩
      have hbudget : ¬observer.budget < (seen.observedChildCalls ++ [tool]).length := by
        rw [List.length_append, h.calls, List.length_singleton]
        intro hover
        exact hwithin ⟨hannounces, by omega⟩
      dsimp only
      rw [if_neg hbudget]
      refine ⟨_, rfl, ?_, rfl, ?_⟩
      · rw [← h.destination]
      · simp [h.calls, hannounces]

theorem consumeLine_quiet (h : Keeps D observer read seen)
    (hwithin : ¬Exceeds D observer read line)
    (hquiet : QuietLine D observer (read = []) line) :
    ∃ after, consumeLine D observer seen line = (after, none) ∧
      Keeps D observer (read ++ [line]) after := by
  obtain ⟨call, hcall⟩ := hquiet.converts
  obtain ⟨between, hbetween, hdestination, hsession, hcalls⟩ := consumeLine_within h hwithin hcall
  have hlength : between.destination.length = 1 ↔ read = [] := by
    rw [hdestination]
    simp
  obtain ⟨session, hread, hsome⟩ := @observeSession_identifies D observer between line _ hlength
    (fun hfirst => hsession.trans (h.fresh hfirst))
    (fun hcallback hlate => by
      rw [hsession]
      exact h.session hcallback hlate) hquiet.identifies
  rw [hbetween, hread]
  refine ⟨_, rfl, hdestination, hcalls, fun hnil => ?_, fun hcallback _ => hsome hcallback⟩
  exact absurd hnil (by simp)

theorem consumeLine_raises (h : Keeps D observer read seen)
    (hwithin : ¬Exceeds D observer read line)
    (hloud : ¬QuietLine D observer (read = []) line) :
    ∃ after failure, consumeLine D observer seen line = (after, some failure) ∧
      failure ≠ budgetExceeded := by
  cases hcall : collaborationToolCall D line with
  | error failure =>
      unfold consumeLine
      rw [hcall, collaborationToolCall_error hcall]
      exact ⟨_, _, rfl, digitsError_ne⟩
  | ok call =>
      obtain ⟨between, hbetween, hdestination, hsession, _⟩ := consumeLine_within h hwithin hcall
      rw [hbetween]
      refine @observeSession_raises D observer between line (read = []) ?_ ?_ ?_
      · rw [hdestination]
        simp
      · exact fun hfirst => hsession.trans (h.fresh hfirst)
      · exact fun hidentifies => hloud ⟨⟨call, hcall⟩, hidentifies⟩

end

/-- The reader gets to an event beyond the budget without another failure. -/
def ReadsBeyond (D : Decoding) (observer : Observer) (read rest : List (List Char)) : Prop :=
  ∃ between line behind, rest = between ++ line :: behind ∧
    Exceeds D observer (read ++ between) line ∧
    ∀ front other back, between = front ++ other :: back →
      ¬Exceeds D observer (read ++ front) other ∧
        QuietLine D observer (read ++ front = []) other

theorem readsBeyond_nil {read : List (List Char)} : ¬ReadsBeyond D observer read [] := by
  rintro ⟨between, line, behind, hrest, _⟩
  simp at hrest

theorem readsBeyond_cons {read rest : List (List Char)} {line : List Char} :
    ReadsBeyond D observer read (line :: rest) ↔
      Exceeds D observer read line ∨
        (¬Exceeds D observer read line ∧ QuietLine D observer (read = []) line ∧
          ReadsBeyond D observer (read ++ [line]) rest) := by
  constructor
  · rintro ⟨between, last, behind, hrest, hexceeds, hbetween⟩
    cases between with
    | nil =>
        cases hrest
        exact Or.inl (by simpa using hexceeds)
    | cons head between =>
        cases hrest
        have hhead := hbetween [] line between rfl
        rw [List.append_nil] at hhead
        refine Or.inr ⟨hhead.1, hhead.2, between, last, behind, rfl, by simpa using hexceeds, ?_⟩
        rintro front other back rfl
        simpa using hbetween (line :: front) other back rfl
  · rintro (hexceeds | ⟨hwithin, hquiet, between, last, behind, rfl, hexceeds, hbetween⟩)
    · exact ⟨[], line, rest, rfl, by simpa using hexceeds, by simp⟩
    · refine ⟨line :: between, last, behind, rfl, by simpa using hexceeds, ?_⟩
      intro front other back hfront
      cases front with
      | nil =>
          cases hfront
          simpa using ⟨hwithin, hquiet⟩
      | cons head front =>
          cases hfront
          simpa using hbetween front other back rfl

/-- The induction is on the lines still to be read. -/
theorem consume_eq_budgetExceeded {read rest : List (List Char)} {seen : Observed}
    (h : Keeps D observer read seen) :
    (consume D observer seen rest).2 = some budgetExceeded ↔ ReadsBeyond D observer read rest := by
  induction rest generalizing read seen with
  | nil => exact ⟨nofun, fun hbeyond => absurd hbeyond readsBeyond_nil⟩
  | cons line rest ih =>
      rw [readsBeyond_cons, consume]
      by_cases hexceeds : Exceeds D observer read line
      · obtain ⟨after, hline⟩ := consumeLine_exceeds h hexceeds
        rw [hline]
        exact ⟨fun _ => Or.inl hexceeds, fun _ => rfl⟩
      · by_cases hquiet : QuietLine D observer (read = []) line
        · obtain ⟨after, hline, hafter⟩ := consumeLine_quiet h hexceeds hquiet
          rw [hline]
          dsimp only
          rw [ih hafter]
          simp [hexceeds, hquiet]
        · obtain ⟨after, failure, hline, hne⟩ := consumeLine_raises h hexceeds hquiet
          rw [hline]
          simp [hexceeds, hquiet, hne]

/-- The lines before the first event beyond the budget are quiet. -/
def QuietBefore (D : Decoding) (observer : Observer) (lines : List (List Char)) : Prop :=
  ∀ between line behind, lines = between ++ line :: behind → announcesCall D line = true →
    callEvents D between = observer.budget → Quiet D observer between

theorem exists_event {lines : List (List Char)} {n : Nat} (h : n < callEvents D lines) :
    ∃ between line behind, lines = between ++ line :: behind ∧ announcesCall D line = true ∧
      callEvents D between = n := by
  induction lines generalizing n with
  | nil => simp at h
  | cons head rest ih =>
      rw [← List.singleton_append, callEvents_append, callEvents_singleton] at h
      by_cases hhead : announcesCall D head
      · cases n with
        | zero => exact ⟨[], head, rest, rfl, hhead, rfl⟩
        | succ n =>
            rw [if_pos hhead] at h
            obtain ⟨between, line, behind, rfl, hline, hcount⟩ := ih (n := n) (by omega)
            refine ⟨head :: between, line, behind, rfl, hline, ?_⟩
            rw [← List.singleton_append, callEvents_append, callEvents_singleton, if_pos hhead,
              hcount, Nat.add_comm]
      · rw [if_neg hhead, Nat.zero_add] at h
        obtain ⟨between, line, behind, rfl, hline, hcount⟩ := ih h
        refine ⟨head :: between, line, behind, rfl, hline, ?_⟩
        rw [← List.singleton_append, callEvents_append, callEvents_singleton, if_neg hhead,
          hcount, Nat.zero_add]

theorem callEvents_lt {front back : List (List Char)} {line : List Char}
    (h : announcesCall D line = true) :
    callEvents D front < callEvents D (front ++ line :: back) := by
  rw [← List.singleton_append, callEvents_append, callEvents_append, callEvents_singleton, if_pos h]
  omega

/-- Two events with as many before them are one. -/
theorem event_unique {front front' back back' : List (List Char)} {line line' : List Char}
    (heq : front ++ line :: back = front' ++ line' :: back') (hline : announcesCall D line = true)
    (hline' : announcesCall D line' = true) (hcount : callEvents D front = callEvents D front') :
    front = front' := by
  rcases List.append_eq_append_iff.mp heq with ⟨between, rfl, hbehind⟩ | ⟨between, rfl, hbehind⟩
  · cases between with
    | nil => simp
    | cons head between =>
        cases hbehind
        exact absurd hcount (callEvents_lt hline).ne
  · cases between with
    | nil => simp
    | cons head between =>
        cases hbehind
        exact absurd hcount (callEvents_lt hline').ne'

/-- The reader ends the session for the budget where there are more events than the budget has and
    nothing else ends it before. -/
theorem readsBeyond_iff {lines : List (List Char)} :
    ReadsBeyond D observer [] lines ↔
      observer.budget < callEvents D lines ∧ QuietBefore D observer lines := by
  constructor
  · rintro ⟨between, line, behind, rfl, ⟨hline, hbudget⟩, hbetween⟩
    rw [List.nil_append] at hbudget
    have hcount : callEvents D between = observer.budget := by
      by_contra hne
      obtain ⟨front, other, back, rfl, hother, hfront⟩ :=
        @exists_event D between observer.budget (by omega)
      exact (hbetween front other back rfl).1 ⟨hother, by simpa using hfront.ge⟩
    refine ⟨hcount ▸ callEvents_lt hline, ?_⟩
    intro front other back heq hother hfront
    cases event_unique heq hline hother (hcount.trans hfront.symm)
    intro read quiet rest hread
    simpa using (hbetween read quiet rest hread).2
  · rintro ⟨hbudget, hquiet⟩
    obtain ⟨between, line, behind, hlines, hline, hcount⟩ := exists_event hbudget
    refine ⟨between, line, behind, hlines, ⟨hline, by simpa using hcount.ge⟩, ?_⟩
    intro front other back hfront
    refine ⟨fun hexceeds => ?_, ?_⟩
    · have hlt := @callEvents_lt D front back other hexceeds.1
      have hle := hexceeds.2
      rw [← hfront, hcount] at hlt
      rw [List.nil_append] at hle
      omega
    · simpa using hquiet between line behind hlines hline hcount front other back hfront

/-! ### When the launch reports it -/

/-- The launch reports that the session has more children than it may have. -/
def Reports (result : Result (List (List Char))) : Prop :=
  result = .error budgetExceeded ∨ result = .error boundaryExceeded

/-- The launch gets to the lines of the session, and they come before any other failure. -/
structure Undisturbed (D : Decoding) (request : SessionRequest) (site : LaunchSite)
    (lines : List (List Char)) : Prop where
  child : request.sessionKind = .child → request.childSessionBudget.getD 0 ≠ 0
  parent : request.parentLeft site.launched ∧ request.parentLeft site.launchedAgain
  planned : site.plan = none
  exited : site.process = .exited
  stderr : ∀ failure, site.stderr ≠ some (failure, true)
  quiet : QuietBefore D ⟨request.childSessionBudget.getD 0, site.onSessionStarted⟩ lines

theorem sessionError_ne {message : String}
    (h : message.toList.head? ≠ some 'c' ∧ message.toList.head? ≠ some 'e') :
    sessionError message ≠ budgetExceeded ∧ sessionError message ≠ boundaryExceeded := by
  refine ⟨fun heq => h.1 ?_, fun heq => h.2 ?_⟩
  · rw [show message = budgetExceeded.message from congrArg Failure.message heq]
    rfl
  · rw [show message = boundaryExceeded.message from congrArg Failure.message heq]
    rfl

/-- What the reader itself raises is not the failure that the launch adds. -/
theorem observeSession_ne {seen after : Observed} {line : List Char} {failure : Failure}
    (h : observeSession D observer seen line = (after, some failure)) :
    failure ≠ boundaryExceeded := by
  have hmissing : ∀ {after failure}, observeSession.missing seen = (after, some failure) →
      failure ≠ boundaryExceeded := by
    intro after failure hraised
    unfold observeSession.missing at hraised
    split_ifs at hraised
    · cases hraised
      decide
    · cases hraised
  unfold observeSession at h
  split at h
  · cases h
  · split at h
    · rename_i failed hfailed
      cases h
      rw [sessionIdOf_error hfailed]
      decide
    · split_ifs at h
      · exact hmissing h
      · rename_i callback _ _ session _ _ _
        cases hraised : callback session with
        | none =>
            rw [hraised] at h
            cases h
        | some other =>
            rw [hraised] at h
            cases h
            exact other.property.2
      · cases h
    · exact hmissing h

theorem observeSession_violations (seen : Observed) (line : List Char) :
    (observeSession D observer seen line).1.budgetViolations = seen.budgetViolations := by
  unfold observeSession observeSession.missing
  split
  · rfl
  · split
    · rfl
    · split_ifs <;> rfl
    · split_ifs <;> rfl

/-- The reader notes a violation only where it raises, and never raises what the launch adds. -/
theorem consumeLine_violations {seen : Observed} {line : List Char} :
    (∀ after failure, consumeLine D observer seen line = (after, some failure) →
      failure ≠ boundaryExceeded) ∧
    ∀ after, consumeLine D observer seen line = (after, none) →
      after.budgetViolations = seen.budgetViolations := by
  unfold consumeLine
  dsimp only
  split
  · rename_i failure hfailure
    refine ⟨fun after other h => ?_, fun after h => by cases h⟩
    cases h
    rw [collaborationToolCall_error hfailure]
    decide
  · refine ⟨fun after failure h => observeSession_ne h, fun after h => ?_⟩
    exact (congrArg (·.1.budgetViolations) h).symm.trans (observeSession_violations _ _)
  · split_ifs
    · refine ⟨fun after failure h => ?_, fun after h => by cases h⟩
      cases h
      decide
    · refine ⟨fun after failure h => observeSession_ne h, fun after h => ?_⟩
      exact (congrArg (·.1.budgetViolations) h).symm.trans (observeSession_violations _ _)

theorem consume_violations {seen : Observed} {lines : List (List Char)} :
    (∀ after failure, consume D observer seen lines = (after, some failure) →
      failure ≠ boundaryExceeded) ∧
    ∀ after, consume D observer seen lines = (after, none) →
      after.budgetViolations = seen.budgetViolations := by
  induction lines generalizing seen with
  | nil =>
      refine ⟨nofun, fun after h => ?_⟩
      cases h
      rfl
  | cons line rest ih =>
      obtain ⟨hraised, hkept⟩ := @consumeLine_violations D observer seen line
      rw [consume]
      split
      · rename_i middle hline
        rw [← hkept middle hline]
        exact ih
      · rename_i middle failure hline
        refine ⟨fun after other h => ?_, fun after h => by cases h⟩
        cases h
        exact hraised _ _ hline

/-- The first of the failures is the one of the budget where the reader raised it, and first. -/
theorem callbackErrors_head {site : LaunchSite} {failure : Option Failure}
    (h : failure ≠ some boundaryExceeded) :
    (callbackErrors site failure).head? ≠ some boundaryExceeded ∧
      ((callbackErrors site failure).head? = some budgetExceeded ↔
        (∀ other, site.stderr ≠ some (other, true)) ∧ failure = some budgetExceeded) := by
  unfold callbackErrors
  rcases site.stderr with _ | ⟨other, _ | _⟩
  · cases failure with
    | some failure => simpa using h
    | none =>
        rcases site.broken with _ | broken
        · simp
        · simp [broken.property]
  · cases failure with
    | some failure => simpa using h
    | none =>
        rcases site.broken with _ | broken
        · simp [other.property]
        · simp [broken.property]
  · simp [other.property]

theorem not_reports {failure : Failure}
    (h : failure ≠ budgetExceeded ∧ failure ≠ boundaryExceeded) : ¬Reports (.error failure) := by
  rintro (heq | heq)
  · exact h.1 (Except.error.inj heq)
  · exact h.2 (Except.error.inj heq)

/-- The launch reports the budget where the reader raises for it and no failure comes before. -/
theorem runProcess_reports {site : LaunchSite} {lines : List (List Char)} :
    Reports (runProcess D observer site lines) ↔
      site.process = .exited ∧ (∀ failure, site.stderr ≠ some (failure, true)) ∧
        (consume D observer .empty lines).2 = some budgetExceeded := by
  unfold runProcess
  cases hprocess : site.process with
  | launchFailed error =>
      refine iff_of_false (not_reports (sessionError_ne ?_)) nofun
      simp [String.toList_append, toString]
  | timedOut output =>
      refine iff_of_false (not_reports (sessionError_ne ?_)) nofun
      simp [String.toList_append, toString]
  | exited =>
      obtain ⟨hraised, hkept⟩ := @consume_violations D observer .empty lines
      rcases hconsume : consume D observer .empty lines with ⟨seen, failure⟩
      have hboundary : failure ≠ some boundaryExceeded := by
        rintro rfl
        exact hraised _ _ hconsume rfl
      obtain ⟨hne, hbudget⟩ := @callbackErrors_head site failure hboundary
      rw [← hbudget]
      dsimp only
      cases herrors : callbackErrors site failure with
      | cons first others =>
          have hfirst : first ≠ boundaryExceeded := by simpa [herrors] using hne
          simp [Reports, hfirst]
      | nil =>
          have hplain : seen.budgetViolations = [] := by
            cases failure with
            | none => exact hkept seen hconsume
            | some failure =>
                unfold callbackErrors at herrors
                rcases hstderr : site.stderr with _ | ⟨other, _ | _⟩ <;> simp [hstderr] at herrors
          refine iff_of_false ?_ (fun h => nomatch h.2)
          dsimp only
          rw [if_neg (fun h => h hplain)]
          split_ifs
          · exact not_reports (sessionError_ne (by decide))
          · rintro (h | h) <;> cases h

/-- A check that raises something else stands in the way of the report. -/
theorem reports_require {condition : Prop} [Decidable condition] {failure : Failure}
    (h : failure ≠ budgetExceeded ∧ failure ≠ boundaryExceeded)
    {rest : Unit → Result (List (List Char))} :
    Reports (require condition failure >>= rest) ↔ condition ∧ Reports (rest ()) := by
  by_cases hcondition : condition
  · rw [require_of hcondition, ok_bind]
    exact ⟨fun hreports => ⟨hcondition, hreports⟩, And.right⟩
  · rw [require, if_neg hcondition]
    exact iff_of_false (not_reports h) fun hboth => hcondition hboth.1

/-- The launch reports the budget where nothing disturbs it and there are more events than the
    budget has. -/
theorem launch_reports {request : SessionRequest} {site : LaunchSite}
    {lines : List (List Char)} :
    Reports (launch D request site lines) ↔
      Undisturbed D request site lines ∧
        request.childSessionBudget.getD 0 < callEvents D lines := by
  unfold launch
  rw [reports_require (by decide), reports_require (by decide)]
  cases hplan : site.plan with
  | some failure =>
      refine iff_of_false ?_ fun h => ?_
      · rintro ⟨_, _, hreports⟩
        exact not_reports failure.property hreports
      · have hplanned := h.1.planned
        rw [hplan] at hplanned
        cases hplanned
  | none =>
      dsimp only
      rw [reports_require (by decide), runProcess_reports,
        consume_eq_budgetExceeded .empty, readsBeyond_iff]
      constructor
      · rintro ⟨hchild, hfirst, hagain, hexited, hstderr, hbudget, hquiet⟩
        exact ⟨⟨hchild, ⟨hfirst, hagain⟩, hplan, hexited, hstderr, hquiet⟩, hbudget⟩
      · rintro ⟨h, hbudget⟩
        exact ⟨h.child, h.parent.1, h.parent.2, h.exited, h.stderr, hbudget, h.quiet⟩

/-! ### Events and calls -/

/-- A line of a stream, with the collaboration call that it is about. -/
structure StreamLine (κ : Type) where
  text : List Char
  call : Option κ

variable {κ : Type} [DecidableEq κ]

/-- The texts of a stream. -/
def texts (stream : List (StreamLine κ)) : List (List Char) := stream.map StreamLine.text

/-- The calls of a stream, each as often as it has events. -/
def calls (stream : List (StreamLine κ)) : List κ := stream.filterMap StreamLine.call

/-- How many calls a stream has. -/
def distinctCalls (stream : List (StreamLine κ)) : Nat := (calls stream).dedup.length

/-- `event["type"]` of a line. -/
def eventType (D : Decoding) (line : List Char) : Option String :=
  match Json.loads D line with
  | .ok (.obj event) => (Fields.get event "type").asString?
  | _ => none

/-- Every collaboration call is announced, and completed later. -/
structure Announced (D : Decoding) (stream : List (StreamLine κ)) : Prop where
  calls : ∀ line ∈ stream, line.call.isSome ↔ announcesCall D line.text
  paired : ∀ call ∈ SessionBudget.calls stream, ∃ started between completed,
    stream.filter (·.call = some call) = started :: between ++ [completed] ∧
      eventType D started.text = some "item.started" ∧
      eventType D completed.text = some "item.completed"

omit [DecidableEq κ] in
theorem callEvents_texts {stream : List (StreamLine κ)}
    (h : ∀ line ∈ stream, line.call.isSome ↔ announcesCall D line.text) :
    callEvents D (texts stream) = (calls stream).length := by
  rw [callEvents, texts, List.countP_map, calls, List.length_filterMap_eq_countP]
  exact List.countP_congr fun line hline => (h line hline).symm

/-- A call has two events or more. -/
theorem two_mul_distinctCalls_le {stream : List (StreamLine κ)} (h : Announced D stream) :
    2 * distinctCalls stream ≤ callEvents D (texts stream) := by
  rw [callEvents_texts h.calls, ← List.sum_map_count_dedup_eq_length (calls stream), distinctCalls,
    Nat.mul_comm]
  refine List.card_nsmul_le_sum ((calls stream).dedup.map fun call => (calls stream).count call) 2
    (fun count hcount => ?_) |>.trans_eq' (by simp)
  obtain ⟨call, hcall, rfl⟩ := List.mem_map.mp hcount
  obtain ⟨started, between, completed, hevents, _, _⟩ := h.paired call (List.mem_dedup.mp hcall)
  have hcounted : (calls stream).count call = (stream.filter (·.call = some call)).length := by
    rw [calls, List.count_filterMap, List.countP_eq_length_filter]
    refine congrArg List.length (List.filter_congr fun line _ => ?_)
    rw [Bool.eq_iff_iff]
    simp
  rw [hcounted, hevents]
  simp

/-- The verdict is about calls only where it does not differ from one about events. With more calls
    than the budget has, the launch reports it where nothing disturbs it. With no more calls, it
    keeps silent where the events are no more than the budget either, and a call has two or more,
    or where something else ends the launch first. -/
theorem launch_reports_iff {stream : List (StreamLine κ)} (h : Announced D stream)
    (request : SessionRequest) (site : LaunchSite) :
    ((Reports (launch D request site (texts stream)) ↔
        request.childSessionBudget.getD 0 < distinctCalls stream) ↔
      if request.childSessionBudget.getD 0 < distinctCalls stream then
        Undisturbed D request site (texts stream)
      else callEvents D (texts stream) ≤ request.childSessionBudget.getD 0 ∨
        ¬Undisturbed D request site (texts stream)) ∧
    2 * distinctCalls stream ≤ callEvents D (texts stream) := by
  have hevents := two_mul_distinctCalls_le h
  refine ⟨?_, hevents⟩
  rw [launch_reports]
  split_ifs with hcalls
  · have hbudget : request.childSessionBudget.getD 0 < callEvents D (texts stream) := by omega
    simp [hcalls, hbudget]
  · rw [iff_false_right hcalls, not_and_or, not_lt, or_comm]

/-! ### One child that is started and completed -/

/-- A decoding that keeps numbers as they are written. -/
def lexemeDecoding : Decoding := ⟨fun _ => '?', String.ofList⟩

/-- The event of the only child. -/
def childEvent (type : String) : StreamLine Unit where
  text := ("\x7b\"type\": \"" ++ type ++ "\", \"item\": \x7b\"type\": \"collab_tool_call\", " ++
    "\"tool\": \"spawn_agent\"\x7d\x7d\n").toList
  call := some ()

def oneChild : List (StreamLine Unit) := [childEvent "item.started", childEvent "item.completed"]

def exitedSite : LaunchSite := ⟨none, 0, 0, none, .exited, none, none⟩

theorem oneChild_announced : Announced lexemeDecoding oneChild where
  calls := by
    rw [oneChild, List.forall_mem_cons, List.forall_mem_singleton]
    exact ⟨by decide +kernel, by decide +kernel⟩
  paired _ _ := ⟨_, [], _, rfl, by decide +kernel, by decide +kernel⟩

theorem undisturbed_exitedSite {budget : Nat} {lines : List (List Char)}
    (h : ∀ line ∈ lines, ∃ call, collaborationToolCall lexemeDecoding line = .ok call) :
    Undisturbed lexemeDecoding ⟨.parent, none, some budget⟩ exitedSite lines := by
  refine ⟨nofun, ⟨nofun, nofun⟩, rfl, rfl, nofun, ?_⟩
  rintro between line behind rfl _ _ read other rest rfl
  exact ⟨h other (by simp), nofun⟩

/-- A session that may have one child is ended for its first: the event of its completion is
    counted too. -/
theorem completed_child_counts_twice :
    Announced lexemeDecoding oneChild ∧ distinctCalls oneChild = 1 ∧
      launch lexemeDecoding ⟨.parent, none, some 1⟩ exitedSite (texts oneChild) =
        .error budgetExceeded := by
  refine ⟨oneChild_announced, rfl, ?_⟩
  decide +kernel

/-- Without any child to spare the verdict is right. -/
theorem no_child_left :
    Reports (launch lexemeDecoding ⟨.parent, none, some 0⟩ exitedSite (texts oneChild)) ↔
      0 < distinctCalls oneChild := by
  apply (launch_reports_iff oneChild_announced ⟨.parent, none, some 0⟩ exitedSite).1.mpr
  rw [if_pos (by decide)]
  apply undisturbed_exitedSite
  rw [texts, oneChild, List.map_cons, List.map_singleton, List.forall_mem_cons,
    List.forall_mem_singleton]
  exact ⟨⟨some "spawn_agent", by decide +kernel⟩, ⟨some "spawn_agent", by decide +kernel⟩⟩

end

end SessionBudget

end Conveyor
