import Conveyor.Library.JsonLines
import Conveyor.PolicyResolution
import Conveyor.SchemaValidation
import Conveyor.Redaction
import Mathlib.Logic.Function.Basic

/-!
# The shared event log

The processes of the controller append their run events to one file, and the audit of an applied
human resolution reads the file back and may replace it (`logging.py`, `cycle_engine.py`). All of
it happens under one lock of the host. An event is written with one `os.write` whose count nobody
looks at, and a process may end anywhere; `kept_of_run` says what the file holds then.
-/

namespace Conveyor

open Library JsonText JsonLog SchemaValidation

namespace EventLog

/-! ### Events -/

/-- The arguments of `run_event`. -/
structure EventArguments where
  runId : String
  projectId : Json
  source : String
  repositoryFingerprint : Json := .null
  model : Json := .null
  reasoning : Json := .null
  milestone : Json := .null
  feature : Json := .null
  branch : Json := .null
  commit : Json := .null
  commandCategory : Json := .null
  command : Json := .null
  result : Json := .null
  validationOutcome : Json := .null
  reviewFindings : Json := .null
  repairAttempt : Json := .null
  integrationOutcome : Json := .null
  previousState : Json := .null
  nextState : Json := .null
  stopReason : Json := .null
  humanGate : Json := .null

/-- `first or second`. -/
def orElse (first second : Json) : Json := if first.truthy then first else second

def runEvent (timestamp : String) (arguments : EventArguments) : Fields :=
  [("branch", arguments.branch),
   ("command", arguments.command),
   ("command_category", arguments.commandCategory),
   ("commit", arguments.commit),
   ("feature", arguments.feature),
   ("human_gate", arguments.humanGate),
   ("integration_outcome", arguments.integrationOutcome),
   ("milestone", arguments.milestone),
   ("model", arguments.model),
   ("next_state", arguments.nextState),
   ("previous_state", arguments.previousState),
   ("project_id", arguments.projectId),
   ("reasoning", arguments.reasoning),
   ("repair_attempt", arguments.repairAttempt),
   ("repository_fingerprint", arguments.repositoryFingerprint),
   ("result", arguments.result),
   ("review_findings", orElse arguments.reviewFindings (.obj [])),
   ("run_id", .str arguments.runId),
   ("schema_version", .int 1),
   ("source", .str arguments.source),
   ("stop_reason", arguments.stopReason),
   ("timestamp", .str timestamp),
   ("validation_outcome", arguments.validationOutcome)]

def text : Schema := { type := some [.string] }

def textOrNull : Schema := { type := some [.string, .null] }

/-- `schemas/run-event.schema.json`. -/
def runEventSchema : Schema where
  type := some [.object]
  additionalProperties := false
  required := ["schema_version", "timestamp", "run_id", "project_id", "repository_fingerprint",
    "source", "model", "reasoning", "milestone", "feature", "branch", "commit",
    "command_category", "command", "result", "validation_outcome", "review_findings",
    "repair_attempt", "integration_outcome", "previous_state", "next_state", "stop_reason",
    "human_gate"]
  properties :=
    [("schema_version", { type := some [.integer], enum := some [.int 1] }),
     ("timestamp", text),
     ("run_id", text),
     ("project_id", textOrNull),
     ("repository_fingerprint", textOrNull),
     ("source", text),
     ("model", textOrNull),
     ("reasoning", textOrNull),
     ("milestone", textOrNull),
     ("feature", textOrNull),
     ("branch", textOrNull),
     ("commit", textOrNull),
     ("command_category", textOrNull),
     ("command", { type := some [.array, .null], items := some text }),
     ("result", textOrNull),
     ("validation_outcome", textOrNull),
     ("review_findings", { type := some [.object] }),
     ("repair_attempt", { type := some [.integer, .null] }),
     ("integration_outcome", textOrNull),
     ("previous_state", textOrNull),
     ("next_state", textOrNull),
     ("stop_reason", textOrNull),
     ("human_gate", { type := some [.object, .null] })]

/-- What the log takes from outside: the Unicode tables of the redaction, the conversions of
`json.loads`, and what the validator takes. -/
structure LogSite extends SchemaSite where
  platform : Platform
  decoding : Decoding

variable (site : LogSite)

/-- What `append` does before it takes the lock. -/
def prepared (event : Fields) : Result Fields := do
  let value := redactFields site.platform event
  validateSchema site.toSchemaSite (.obj value) runEventSchema "$"
  return value

/-! ### The audit of a resolution -/

/-- What the audit knows of the resolution. -/
structure Resolution where
  resolutionId : String
  projectId : String
  fingerprint : String
  reportPath : String

/-- `value or {}`, of which a key is read: another value than an object raises. -/
def orEmpty (value : Json) : Option Fields :=
  match orElse value (.obj []) with
  | .obj fields => some fields
  | _ => none

/-- `str(value)`. -/
def strOf : Json → String
  | .str text => text
  | value => site.repr value

def expectedResolutionEvent (resolution : Resolution) (prior : Fields) : Option Fields := do
  let identity ← orEmpty (prior.get "expected_repository_identity")
  let originalGate ← orEmpty (prior.get "original_gate")
  return runEvent (strOf site (prior.get "timestamp"))
    { runId := resolution.resolutionId
      projectId := .str resolution.projectId
      repositoryFingerprint := identity.get "path_fingerprint"
      source := "deterministic_script"
      milestone := prior.get "expected_milestone"
      branch := prior.get "expected_branch"
      commit := orElse (originalGate.get "accepted_feature_commit")
        (prior.get "expected_milestone_head")
      commandCategory := .str "human_decision_resolution"
      result := .str "explicit_human_decision_resolved"
      validationOutcome := .str "passed"
      previousState := prior.get "previous_state"
      nextState := prior.get "approved_next_state"
      stopReason := .str "Explicit human decision resolved; queue reconciliation is next."
      humanGate := .obj
        [("actor_classification", .str "explicit_user_approval"),
         ("gate_fingerprint", prior.get "original_gate_fingerprint"),
         ("gate_id", originalGate.get "gate_id"),
         ("report_location", .str resolution.reportPath),
         ("resolution_fingerprint", .str resolution.fingerprint),
         ("resolution_id", .str resolution.resolutionId)] }

def auditMatches (value expected : Fields) : Bool :=
  match value.get "timestamp" with
  | .str timestamp => timestamp ≠ "" &&
      isEqual site.toSchemaSite (.obj (value.erase "timestamp")) (.obj (expected.erase "timestamp"))
  | _ => false

def hasRunId (resolutionId : String) (event : Fields) : Bool :=
  decide (event.get "run_id" = .str resolutionId)

/-- What the audit read, and whether a line was malformed. -/
structure Reading where
  parsed : List Fields
  malformedLog : Bool

def contents (file : Option (List Char)) : List Char := file.getD []

/-- The file is read; without one nothing is. -/
def readLog (file : Option (List Char)) : Except Refusal Reading :=
  (parseLines site.decoding (splitlines (universalNewlines (contents file)))).map fun read =>
    ⟨read.1, read.2⟩

/-- The system could not read the file. -/
def unreadable : Reading := ⟨[], true⟩

def matchesOf (resolutionId : String) (parsed : List Fields) : List Fields :=
  parsed.filter (hasRunId resolutionId)

/-- There is one event of the run, and it is the expected one. -/
def soleMatch (resolutionId : String) (expected : Fields) (parsed : List Fields) : Bool :=
  match matchesOf resolutionId parsed with
  | [found] => auditMatches site found expected
  | _ => false

/-- What is written in the place of the log. -/
def retained (resolutionId : String) (expected : Fields) (parsed : List Fields) : List Fields :=
  (parsed.filter fun item => !hasRunId resolutionId item) ++ [expected]

def encoded (items : List Fields) : List Char := items.flatMap fun item => lineOf item ++ ['\n']

/-! ### Processes -/

structure Report where
  matchingEventCount : Nat
  auditValid : Bool
  malformedLog : Bool
  repairStarted : Bool
  repairFailed : Bool
deriving DecidableEq

structure Audit where
  resolutionId : String
  expected : Fields
  repair : Bool

/-- What a process wants of the log. -/
inductive Request where
  | append (value : Fields)
  | audit (audit : Audit)

inductive Activity where
  | idle
  | waiting (request : Request)
  | locked (request : Request)
  | replacing (audit : Audit) (parsed : List Fields)
  | rereading (audit : Audit) (found : Nat)
  | reporting (audit : Audit) (report : Report)
  /-- the work is done, or it raised; the lock is still held -/
  | leaving

/-- The process is between the two calls of `flock`. -/
def Activity.inside : Activity → Bool
  | .idle | .waiting _ => false
  | _ => true

/-- What became of the log, in the order it happened. -/
inductive Entry where
  | appended (event : Fields) (taken : Nat)
  | repaired (resolutionId : String) (expected : Fields)

structure World (Process : Type) where
  file : Option (List Char)
  holder : Option Process
  activity : Process → Activity
  history : List Entry

variable {Process : Type} [DecidableEq Process]

def World.start : World Process := ⟨none, none, fun _ => .idle, []⟩

/-- The process goes on, and nothing else changes. -/
def World.goes (w : World Process) (p : Process) (activity : Activity) : World Process :=
  { w with activity := Function.update w.activity p activity }

/-- What the audit does with a reading. -/
def inspected (audit : Audit) (reading : Reading) : Activity :=
  let found := (matchesOf audit.resolutionId reading.parsed).length
  let valid := !reading.malformedLog && soleMatch site audit.resolutionId audit.expected reading.parsed
  if valid = false ∧ audit.repair = true ∧ reading.malformedLog = false then
    .replacing audit reading.parsed
  else
    .reporting audit ⟨found, valid, reading.malformedLog, reading.malformedLog && audit.repair,
      reading.malformedLog && audit.repair⟩

/-- What the audit reports of the log it has written. -/
def reread (audit : Audit) (parsed : List Fields) : Report :=
  ⟨(matchesOf audit.resolutionId parsed).length,
    soleMatch site audit.resolutionId audit.expected parsed, false, true, false⟩

def repairFailure (found : Nat) : Report := ⟨found, false, false, true, true⟩

/-- One step of one process. -/
inductive Step : World Process → World Process → Prop
  | append (w p) (event value : Fields) (hidle : w.activity p = .idle) (hordered : event.Ordered)
      (hvalues : RoundTripsFields event) (hprepared : prepared site event = .ok value) :
      Step w (w.goes p (.waiting (.append value)))
  | audit (w p resolution prior expected repair) (hidle : w.activity p = .idle)
      (hvalues : RoundTripsFields prior)
      (hexpected : expectedResolutionEvent site resolution prior = some expected) :
      Step w (w.goes p (.waiting (.audit ⟨resolution.resolutionId, expected, repair⟩)))
  | lock (w p request) (hwaiting : w.activity p = .waiting request) (hfree : w.holder = none) :
      Step w { w.goes p (.locked request) with holder := some p }
  /-- the system takes some of the characters, or refuses the write -/
  | write (w p value taken) (hlocked : w.activity p = .locked (.append value))
      (htaken : taken ≤ (lineOf value ++ ['\n']).length) :
      Step w { w.goes p .leaving with
        file := some (contents w.file ++ (lineOf value ++ ['\n']).take taken)
        history := w.history ++ [.appended value taken] }
  | writeRefused (w p value) (hlocked : w.activity p = .locked (.append value)) :
      Step w (w.goes p .leaving)
  | read (w p audit reading) (hlocked : w.activity p = .locked (.audit audit))
      (hread : readLog site w.file = .ok reading) : Step w (w.goes p (inspected site audit reading))
  | readRefused (w p audit) (hlocked : w.activity p = .locked (.audit audit)) :
      Step w (w.goes p (inspected site audit unreadable))
  /-- an integer with too many digits raises -/
  | readRaised (w p audit refusal) (hlocked : w.activity p = .locked (.audit audit))
      (hread : readLog site w.file = .error refusal) : Step w (w.goes p .leaving)
  | replace (w p audit parsed) (hreplacing : w.activity p = .replacing audit parsed) :
      Step w { w.goes p (.rereading audit (matchesOf audit.resolutionId parsed).length) with
        file := some (encoded (retained audit.resolutionId audit.expected parsed))
        history := w.history ++ [.repaired audit.resolutionId audit.expected] }
  | replaceRefused (w p audit parsed) (hreplacing : w.activity p = .replacing audit parsed) :
      Step w (w.goes p (.reporting audit
        (repairFailure (matchesOf audit.resolutionId parsed).length)))
  | reread (w p audit found parsed) (hrereading : w.activity p = .rereading audit found)
      (hread : readLines site.decoding (contents w.file) = some parsed) :
      Step w (w.goes p (.reporting audit (reread site audit parsed)))
  | rereadRefused (w p audit found) (hrereading : w.activity p = .rereading audit found) :
      Step w (w.goes p (.reporting audit (repairFailure found)))
  | rereadRaised (w p audit found) (hrereading : w.activity p = .rereading audit found)
      (hread : readLines site.decoding (contents w.file) = none) : Step w (w.goes p .leaving)
  | unlock (w p) (hinside : w.activity p = .leaving ∨ ∃ audit report,
      w.activity p = .reporting audit report) :
      Step w { w.goes p .idle with holder := none }
  /-- the process ends, and the system takes the lock back -/
  | crash (w p) : Step w { w.goes p .idle with
      holder := if w.holder = some p then none else w.holder }

inductive Reachable : World Process → Prop
  | start : Reachable World.start
  | step {w w'} (hreachable : Reachable w) (hstep : Step site w w') : Reachable w'

/-! ### What the file holds -/

def written (event : Fields) (taken : Nat) : JsonLog.Piece :=
  if (lineOf event).length < taken then .line event else .cut event taken

/-- The pieces of the file: a write adds one, and the repair writes whole lines. -/
def replayEntry (pieces : List JsonLog.Piece) : Entry → List JsonLog.Piece
  | .appended event taken => pieces ++ [written event taken]
  | .repaired resolutionId expected =>
      match readPieces pieces with
      | some events => (retained resolutionId expected events).map .line
      | none => pieces

def replay (history : List Entry) : List JsonLog.Piece := history.foldl replayEntry []

def conditionAfter (condition : Condition) : Entry → Condition
  | .appended event taken => condition.behind (written event taken)
  | .repaired _ _ => if condition = .broken then .broken else .whole

/-- How the file ends: broken where a write was cut inside of its line, or stands behind a line
without its line feed. -/
def condition (history : List Entry) : Condition := history.foldl conditionAfter .whole

/-- The events of the log, as the writes of whole lines and the repairs make them. -/
def eventsAfter (events : List Fields) : Entry → List Fields
  | .appended event taken => if (lineOf event).length ≤ taken then events ++ [event] else events
  | .repaired resolutionId expected => retained resolutionId expected events

def eventsOf (history : List Entry) : List Fields := history.foldl eventsAfter []

/-- The events of one run: that of its last repair, and what was appended behind. -/
def eventsForAfter (run : String) (events : List Fields) : Entry → List Fields
  | .appended event taken =>
      if (lineOf event).length ≤ taken ∧ hasRunId run event = true then events ++ [event] else events
  | .repaired resolutionId expected => if resolutionId = run then [expected] else events

def eventsFor (run : String) (history : List Entry) : List Fields :=
  history.foldl (eventsForAfter run) []

/-- What holds of the log in every state. -/
structure Kept (w : World Process) : Prop where
  /-- whoever is between the two calls of `flock` holds the lock, and nobody else does -/
  alone : ∀ p, (w.activity p).inside = true ↔ w.holder = some p
  read : readLines site.decoding (contents w.file) =
    if condition w.history = .broken then none else some (eventsOf w.history)
  ofRun : ∀ run, matchesOf run (eventsOf w.history) = eventsFor run w.history
  /-- nothing is repaired behind a write that broke a line -/
  unbroken : ∀ before resolutionId expected,
    before ++ [.repaired resolutionId expected] <+: w.history → condition before ≠ .broken
  valid : ∀ p audit report, w.activity p = .reporting audit report → report.auditValid = true →
    condition w.history ≠ .broken ∧ ∃ found, eventsFor audit.resolutionId w.history = [found] ∧
      auditMatches site found audit.expected = true
  repaired : ∀ p audit report, w.activity p = .reporting audit report →
    report.repairStarted = true → report.repairFailed = false →
      condition w.history ≠ .broken ∧
        eventsFor audit.resolutionId w.history = [audit.expected] ∧
        (report.auditValid = true ↔ audit.expected.get "timestamp" ≠ .str "")

/-! ### Lines of events -/

section Lines

variable {site : LogSite} {fields : Fields}

mutual

theorem roundTrips_redactValue (P : Platform) : ∀ (value : Json), RoundTrips value →
    RoundTrips (redactValue P value)
  | .null, h => h
  | .bool _, h => h
  | .int _, h => h
  | .float _, h => h
  | .str _, _ => by rw [redactValue, RoundTrips]; trivial
  | .arr items, h => by
      rw [RoundTrips] at h
      rw [redactValue, RoundTrips]
      exact roundTrips_redactItems P items h
  | .obj fields, h => by
      rw [RoundTrips] at h
      rw [redactValue, RoundTrips]
      refine ⟨?_, roundTrips_redactFields P fields h.2⟩
      have hordered := h.1
      unfold Fields.Ordered at hordered ⊢
      rwa [keys_redactFields]

theorem roundTrips_redactItems (P : Platform) : ∀ (items : List Json), RoundTripsItems items →
    RoundTripsItems (redactItems P items)
  | [], h => h
  | item :: rest, h => by
      rw [RoundTripsItems] at h
      rw [redactItems, RoundTripsItems]
      exact ⟨roundTrips_redactValue P item h.1, roundTrips_redactItems P rest h.2⟩

theorem roundTrips_redactFields (P : Platform) : ∀ (fields : List (String × Json)),
    RoundTripsFields fields → RoundTripsFields (redactFields P fields)
  | [], h => h
  | (key, value) :: rest, h => by
      rw [RoundTripsFields] at h
      rw [redactFields, RoundTripsFields]
      refine ⟨?_, roundTrips_redactFields P rest h.2⟩
      split
      · rw [RoundTrips]
        trivial
      · exact roundTrips_redactValue P value h.1

end

theorem roundTrips_of_mem {key : String} {value : Json} (h : RoundTripsFields fields)
    (hmem : (key, value) ∈ fields) : RoundTrips value := by
  induction fields with
  | nil => cases hmem
  | cons entry rest ih =>
      rw [RoundTripsFields] at h
      rcases List.mem_cons.mp hmem with heq | hmem
      · cases heq
        exact h.1
      · exact ih h.2 hmem

theorem roundTripsFields_iff : RoundTripsFields fields ↔ ∀ entry ∈ fields, RoundTrips entry.2 := by
  constructor
  · intro h entry hentry
    exact roundTrips_of_mem h hentry
  · intro h
    induction fields with
    | nil => trivial
    | cons entry rest ih =>
        rw [List.forall_mem_cons] at h
        exact ⟨h.1, ih h.2⟩

/-- The keys of an event in their order. -/
def eventKeys : List String :=
  ["branch", "command", "command_category", "commit", "feature", "human_gate",
    "integration_outcome", "milestone", "model", "next_state", "previous_state", "project_id",
    "reasoning", "repair_attempt", "repository_fingerprint", "result", "review_findings",
    "run_id", "schema_version", "source", "stop_reason", "timestamp", "validation_outcome"]

theorem ordered_eventKeys : eventKeys.Pairwise (· < ·) := by decide

/-- An accepted event has the keys of the schema. -/
theorem keys_of_accepted {path : String} (hordered : fields.Ordered)
    (h : validateSchema site.toSchemaSite (.obj fields) runEventSchema path = .ok ()) :
    fields.keys = eventKeys := by
  have hkeys : KeysValid runEventSchema fields := by
    refine (validateSchema_ok site.toSchemaSite _).mp h (.keys runEventSchema fields) ?_
    rw [assertions]
    exact List.mem_append_right _ List.mem_cons_self
  have hnames : ∀ key ∈ runEventSchema.properties.map Prod.fst, key ∈ eventKeys := by decide
  have hrequired : ∀ key ∈ eventKeys, key ∈ runEventSchema.required := by decide
  refine List.Pairwise.eq_of_mem_iff hordered ordered_eventKeys fun key => ?_
  constructor
  · intro hmem
    exact hnames key (hkeys.additional rfl key hmem)
  · intro hmem
    exact hkeys.required key (hrequired key hmem)

theorem keyLetter_b : KeyLetter 'b' := ⟨by decide, by decide⟩

theorem writable_of_keys (hvalues : RoundTripsFields fields) (h : fields.keys = eventKeys) :
    Writable 'b' fields := by
  have hordered : fields.Ordered := by
    unfold Fields.Ordered
    rw [h]
    exact ordered_eventKeys
  refine ⟨hordered, hvalues, ?_⟩
  cases fields with
  | nil => cases h
  | cons entry rest =>
      obtain ⟨key, value⟩ := entry
      have hkey : key = "branch" := (List.cons.inj h).1
      subst hkey
      exact ⟨"branch", value, rest, rfl, by decide⟩

theorem writable_of_prepared {event value : Fields} (hordered : event.Ordered)
    (hvalues : RoundTripsFields event) (h : prepared site event = .ok value) :
    Writable 'b' value := by
  unfold prepared at h
  obtain ⟨haccepted, hvalue⟩ := then_eq_ok.mp h
  cases hvalue
  have hredacted : Fields.Ordered (redactFields site.platform event) := by
    unfold Fields.Ordered at hordered ⊢
    rwa [keys_redactFields]
  exact writable_of_keys (roundTrips_redactFields _ _ hvalues)
    (keys_of_accepted hredacted haccepted)

theorem roundTrips_get (h : RoundTripsFields fields) (key : String) :
    RoundTrips (fields.get key) := by
  rw [Fields.get]
  cases hget : fields.get? key with
  | none => trivial
  | some value => exact roundTrips_of_mem h (Dict.mem_of_get? hget)

theorem roundTrips_orElse {first second : Json} (hfirst : RoundTrips first)
    (hsecond : RoundTrips second) : RoundTrips (orElse first second) := by
  unfold orElse
  split
  · exact hfirst
  · exact hsecond

theorem roundTrips_orEmpty {value : Json} {fields : Fields} (hvalue : RoundTrips value)
    (h : orEmpty value = some fields) : RoundTripsFields fields := by
  have hempty : RoundTrips (.obj []) := ⟨List.Pairwise.nil, trivial⟩
  have horElse := roundTrips_orElse hvalue hempty
  unfold orEmpty at h
  split at h
  · rename_i members heq
    cases h
    rw [heq] at horElse
    exact horElse.2
  · cases h

/-- The event of a repair is one that the log can hold. -/
theorem expected_of_prior {resolution : Resolution} {prior expected : Fields}
    (hprior : RoundTripsFields prior)
    (h : expectedResolutionEvent site resolution prior = some expected) :
    Writable 'b' expected ∧ hasRunId resolution.resolutionId expected = true ∧
      ∃ timestamp, expected.get "timestamp" = .str timestamp := by
  simp only [expectedResolutionEvent, Option.bind_eq_bind, Option.bind_eq_some_iff] at h
  obtain ⟨identity, hidentity, originalGate, hgate, hexpected⟩ := h
  cases hexpected
  have hget := roundTrips_get hprior
  have hidentity := roundTrips_get (roundTrips_orEmpty (hget _) hidentity)
  have hgate := roundTrips_get (roundTrips_orEmpty (hget _) hgate)
  refine ⟨writable_of_keys ?_ rfl, decide_eq_true rfl, _, rfl⟩
  have hnull : RoundTrips .null := trivial
  have hstr : ∀ text, RoundTrips (.str text) := fun _ => trivial
  have hinteger : RoundTrips (.int 1) := by
    rw [RoundTrips]
    decide
  have hempty : RoundTrips (.obj []) := ⟨List.Pairwise.nil, trivial⟩
  have hhuman : RoundTrips (.obj
      [("actor_classification", .str "explicit_user_approval"),
       ("gate_fingerprint", prior.get "original_gate_fingerprint"),
       ("gate_id", originalGate.get "gate_id"),
       ("report_location", .str resolution.reportPath),
       ("resolution_fingerprint", .str resolution.fingerprint),
       ("resolution_id", .str resolution.resolutionId)]) := by
    rw [RoundTrips, roundTripsFields_iff]
    have hkeys : ["actor_classification", "gate_fingerprint", "gate_id", "report_location",
        "resolution_fingerprint", "resolution_id"].Pairwise (· < ·) := by decide
    refine ⟨hkeys, ?_⟩
    simp [hstr, hget, hgate]
  rw [roundTripsFields_iff, runEvent]
  simp [hnull, hstr, hinteger, hhuman, hget, hidentity, roundTrips_orElse, hgate, hempty]

end Lines

/-! ### Histories -/

section Histories

variable {history : List Entry}

theorem replay_snoc (entry : Entry) :
    replay (history ++ [entry]) = replayEntry (replay history) entry := by
  simp [replay]

theorem condition_snoc (entry : Entry) :
    condition (history ++ [entry]) = conditionAfter (condition history) entry := by
  simp [condition]

theorem eventsOf_snoc (entry : Entry) :
    eventsOf (history ++ [entry]) = eventsAfter (eventsOf history) entry := by
  simp [eventsOf]

theorem eventsFor_snoc (run : String) (entry : Entry) :
    eventsFor run (history ++ [entry]) = eventsForAfter run (eventsFor run history) entry := by
  simp [eventsFor]

theorem eventsAfter_appended (events : List Fields) (event : Fields) (taken : Nat) :
    eventsAfter events (.appended event taken) = events ++ (written event taken).objects := by
  rw [eventsAfter, written]
  by_cases hpast : (lineOf event).length < taken
  · rw [if_pos hpast, if_pos hpast.le]
    rfl
  · rw [if_neg hpast, JsonLog.Piece.objects]
    split
    · rfl
    · rw [List.append_nil]

/-- What a reader makes of the file, and of all that is written behind it. -/
theorem reads_replay (history : List Entry) :
    Reads (replay history) (eventsOf history) (condition history) := by
  induction history using List.reverseRecOn with
  | nil => exact reads_nil
  | append_singleton history entry ih =>
      rw [replay_snoc, eventsOf_snoc, condition_snoc]
      cases entry with
      | appended event taken =>
          rw [eventsAfter_appended]
          exact ih.snoc (written event taken)
      | repaired resolutionId expected =>
          rw [replayEntry, ih.read, conditionAfter]
          by_cases hbroken : condition history = .broken
          · rw [if_pos hbroken, if_pos hbroken]
            rw [hbroken] at ih
            exact ih
          · rw [if_neg hbroken, if_neg hbroken]
            exact reads_lines _

theorem eq_of_hasRunId {first second : String} {event : Fields}
    (hfirst : hasRunId first event = true) (hsecond : hasRunId second event = true) :
    first = second := by
  rw [hasRunId, decide_eq_true_eq] at hfirst hsecond
  rw [hfirst] at hsecond
  exact Json.str.inj hsecond

theorem matchesOf_retained {run resolutionId : String} {expected : Fields} (events : List Fields)
    (hnamed : hasRunId resolutionId expected = true) :
    matchesOf run (retained resolutionId expected events) =
      if resolutionId = run then [expected] else matchesOf run events := by
  rw [matchesOf, retained, List.filter_append, List.filter_filter]
  by_cases hrun : resolutionId = run
  · subst hrun
    rw [if_pos rfl, List.filter_cons_of_pos hnamed, List.filter_nil]
    simp
  · have hother : hasRunId run expected = false := by
      by_contra hcontra
      exact hrun (eq_of_hasRunId hnamed (Bool.not_eq_false _ ▸ hcontra))
    rw [if_neg hrun, List.filter_cons_of_neg (by simp [hother]), List.filter_nil, List.append_nil]
    refine List.filter_congr fun event _ => ?_
    cases hevent : hasRunId run event with
    | false => rfl
    | true =>
        have hdifferent : hasRunId resolutionId event = false := by
          by_contra hcontra
          exact hrun (eq_of_hasRunId (Bool.not_eq_false _ ▸ hcontra) hevent)
        rw [hdifferent]
        rfl

theorem matchesOf_eventsOf (run : String)
    (hnamed : ∀ resolutionId expected, Entry.repaired resolutionId expected ∈ history →
      hasRunId resolutionId expected = true) :
    matchesOf run (eventsOf history) = eventsFor run history := by
  induction history using List.reverseRecOn with
  | nil => rfl
  | append_singleton history entry ih =>
      have hbefore := ih fun resolutionId expected hmem =>
        hnamed resolutionId expected (List.mem_append_left _ hmem)
      rw [eventsOf_snoc, eventsFor_snoc, ← hbefore]
      cases entry with
      | appended event taken =>
          rw [eventsAfter, eventsForAfter]
          by_cases hwhole : (lineOf event).length ≤ taken
          · rw [if_pos hwhole, matchesOf, List.filter_append, ← matchesOf]
            by_cases hrun : hasRunId run event = true
            · rw [if_pos ⟨hwhole, hrun⟩, List.filter_cons_of_pos hrun, List.filter_nil]
            · rw [if_neg fun hboth => hrun hboth.2, List.filter_cons_of_neg hrun, List.filter_nil,
                List.append_nil]
          · rw [if_neg hwhole, if_neg fun hboth => hwhole hboth.1]
      | repaired resolutionId expected =>
          rw [eventsAfter, eventsForAfter, matchesOf_retained _
            (hnamed resolutionId expected (List.mem_append_right _ List.mem_cons_self))]

end Histories

/-! ### The invariant -/

/-- The event of an audit is one of its run, and the log can hold it. -/
structure Expected (audit : Audit) : Prop where
  writable : Writable 'b' audit.expected
  named : hasRunId audit.resolutionId audit.expected = true
  timed : ∃ timestamp, audit.expected.get "timestamp" = .str timestamp

def Requested : Request → Prop
  | .append value => Writable 'b' value
  | .audit audit => Expected audit

/-- What a report says of the log. -/
structure ReportHolds (history : List Entry) (audit : Audit) (report : Report) : Prop where
  valid : report.auditValid = true → condition history ≠ .broken ∧
    ∃ found, eventsFor audit.resolutionId history = [found] ∧
      auditMatches site found audit.expected = true
  repaired : report.repairStarted = true → report.repairFailed = false →
    condition history ≠ .broken ∧ eventsFor audit.resolutionId history = [audit.expected] ∧
      (report.auditValid = true ↔ audit.expected.get "timestamp" ≠ .str "")

/-- What a process knows of the log. -/
def Knows (history : List Entry) : Activity → Prop
  | .idle | .leaving => True
  | .waiting request | .locked request => Requested request
  | .replacing audit parsed =>
      Expected audit ∧ condition history ≠ .broken ∧ parsed = eventsOf history
  | .rereading audit _ => Expected audit ∧ condition history ≠ .broken ∧
      eventsFor audit.resolutionId history = [audit.expected]
  | .reporting audit report => ReportHolds site history audit report

structure Invariant (w : World Process) : Prop where
  alone : ∀ p, (w.activity p).inside = true ↔ w.holder = some p
  text : contents w.file = textOf (replay w.history)
  writable : ∀ piece ∈ replay w.history, Writable 'b' piece.event
  named : ∀ resolutionId expected, .repaired resolutionId expected ∈ w.history →
    hasRunId resolutionId expected = true
  unbroken : ∀ before resolutionId expected,
    before ++ [.repaired resolutionId expected] <+: w.history → condition before ≠ .broken
  knows : ∀ p, Knows site w.history (w.activity p)

section Steps

variable {site : LogSite} {w w' : World Process} {p : Process} {audit : Audit}

theorem Invariant.read (h : Invariant site w) :
    readLines site.decoding (contents w.file) =
      if condition w.history = .broken then none else some (eventsOf w.history) := by
  rw [h.text, readLines_textOf site.decoding keyLetter_b h.writable]
  exact (reads_replay w.history).read

theorem Invariant.matches (h : Invariant site w) (run : String) :
    matchesOf run (eventsOf w.history) = eventsFor run w.history :=
  matchesOf_eventsOf run h.named

theorem Invariant.kept (h : Invariant site w) : Kept site w where
  alone := h.alone
  read := h.read
  ofRun := h.matches
  unbroken := h.unbroken
  valid p audit report hreporting hvalid := by
    have hknows := h.knows p
    rw [hreporting] at hknows
    exact hknows.valid hvalid
  repaired p audit report hreporting hstarted hfailed := by
    have hknows := h.knows p
    rw [hreporting] at hknows
    exact hknows.repaired hstarted hfailed

/-- One process moves, and with it the lock. -/
theorem alone_update {activity : Process → Activity} {holder after : Option Process}
    {next : Activity} (h : ∀ q, (activity q).inside = true ↔ holder = some q)
    (hp : next.inside = true ↔ after = some p)
    (hothers : ∀ q, q ≠ p → (after = some q ↔ holder = some q)) (q : Process) :
    ((Function.update activity p next) q).inside = true ↔ after = some q := by
  by_cases hq : q = p
  · subst hq
    rw [Function.update_self]
    exact hp
  · rw [Function.update_of_ne hq, h q, hothers q hq]

theorem knows_of_outside {history after : List Entry} {activity : Activity}
    (houtside : activity.inside = false) (h : Knows site history activity) :
    Knows site after activity := by
  cases activity with
  | idle => trivial
  | waiting request => exact h
  | _ => cases houtside

theorem knows_update {activity : Process → Activity} {after : List Entry} {next : Activity}
    (hnext : Knows site after next) (hothers : ∀ q, q ≠ p → Knows site after (activity q))
    (q : Process) : Knows site after ((Function.update activity p next) q) := by
  by_cases hq : q = p
  · subst hq
    rwa [Function.update_self]
  · rw [Function.update_of_ne hq]
    exact hothers q hq

/-- A step that leaves the file and the lock alone. -/
theorem Invariant.goes (h : Invariant site w) {next : Activity}
    (hinside : next.inside = (w.activity p).inside) (hknows : Knows site w.history next) :
    Invariant site (w.goes p next) where
  alone := alone_update h.alone (by rw [hinside]; exact h.alone p) fun _ _ => Iff.rfl
  text := h.text
  writable := h.writable
  named := h.named
  unbroken := h.unbroken
  knows := knows_update hknows fun q _ => h.knows q

/-- A step of the holder of the lock that changes the file. -/
theorem Invariant.enters (h : Invariant site w) {next : Activity} {file : Option (List Char)}
    {entry : Entry} (hbefore : (w.activity p).inside = true) (hinside : next.inside = true)
    (htext : contents file = textOf (replay (w.history ++ [entry])))
    (hwritable : ∀ piece ∈ replay (w.history ++ [entry]), Writable 'b' piece.event)
    (hentry : ∀ resolutionId expected, entry = .repaired resolutionId expected →
      hasRunId resolutionId expected = true ∧ condition w.history ≠ .broken)
    (hknows : Knows site (w.history ++ [entry]) next) :
    Invariant site { w.goes p next with file := file, history := w.history ++ [entry] } where
  alone := by
    refine alone_update h.alone ?_ fun _ _ => Iff.rfl
    rw [hinside]
    exact ⟨fun _ => (h.alone p).mp hbefore, fun _ => rfl⟩
  text := htext
  writable := hwritable
  named resolutionId expected hmem := by
    rcases List.mem_append.mp hmem with hmem | hmem
    · exact h.named resolutionId expected hmem
    · exact (hentry resolutionId expected (List.mem_singleton.mp hmem).symm).1
  unbroken before resolutionId expected hprefix := by
    rcases List.prefix_concat_iff.mp hprefix with heq | hprefix
    · obtain ⟨rfl, hlast⟩ := List.append_inj' heq rfl
      exact (hentry resolutionId expected (List.cons.inj hlast).1.symm).2
    · exact h.unbroken before resolutionId expected hprefix
  knows := by
    refine knows_update hknows fun q hq => ?_
    refine knows_of_outside ?_ (h.knows q)
    have hholder := (h.alone p).mp hbefore
    by_contra hcontra
    have hq' := (h.alone q).mp (Bool.not_eq_false _ ▸ hcontra)
    rw [hholder] at hq'
    exact hq (Option.some.inj hq').symm

/-! ### What a step keeps -/

theorem readLog_eq_ok {file : Option (List Char)} {reading : Reading}
    (h : readLog site file = .ok reading) : readLines site.decoding (contents file) =
      if reading.malformedLog = true then none else some reading.parsed := by
  unfold readLog at h
  rw [JsonLog.readLines, objectsOf]
  cases hparse : parseLines site.decoding (splitlines (universalNewlines (contents file))) with
  | error refusal => rw [hparse] at h; cases h
  | ok read =>
      rw [hparse] at h
      cases h
      rfl

theorem soleMatch_eq_true {run : String} {expected : Fields} {parsed : List Fields}
    (h : soleMatch site run expected parsed = true) :
    ∃ found, matchesOf run parsed = [found] ∧ auditMatches site found expected = true := by
  unfold soleMatch at h
  split at h
  · rename_i found hfound
    exact ⟨found, hfound, h⟩
  · cases h

theorem inside_inspected (audit : Audit) (reading : Reading) :
    (inspected site audit reading).inside = true := by
  unfold inspected
  dsimp only
  split <;> rfl

/-- The audit has read the log, or knows that it did not. -/
theorem Invariant.knows_inspected (h : Invariant site w) {reading : Reading}
    (haudit : Expected audit)
    (hread : reading.malformedLog = false →
      condition w.history ≠ .broken ∧ reading.parsed = eventsOf w.history) :
    Knows site w.history (inspected site audit reading) := by
  unfold inspected
  dsimp only
  split
  · rename_i hrepair
    exact ⟨haudit, hread hrepair.2.2⟩
  · constructor
    · intro hvalid
      simp only [Bool.and_eq_true, Bool.not_eq_true'] at hvalid
      obtain ⟨hbroken, hparsed⟩ := hread hvalid.1
      obtain ⟨found, hfound, hmatches⟩ := soleMatch_eq_true hvalid.2
      rw [hparsed, h.matches] at hfound
      exact ⟨hbroken, found, hfound, hmatches⟩
    · intro hstarted hfailed
      exact absurd (hstarted.symm.trans hfailed) (by decide)

mutual

theorem exact_of_roundTrips : ∀ (value : Json), RoundTrips value → ExecutionPolicy.Exact value
  | .null, _ => .null
  | .bool b, _ => .bool b
  | .int n, _ => .int n
  | .str text, _ => .str text
  | .float _, h => by rw [RoundTrips] at h; exact h.elim
  | .arr items, h => by
      rw [RoundTrips] at h
      exact .arr (exact_of_roundTripsItems items h)
  | .obj fields, h => by
      rw [RoundTrips] at h
      exact .obj h.1.nodup (exact_of_roundTripsFields fields h.2)

theorem exact_of_roundTripsItems : ∀ (items : List Json), RoundTripsItems items →
    ∀ item ∈ items, ExecutionPolicy.Exact item
  | [], _ => List.forall_mem_nil _
  | item :: rest, h => by
      rw [RoundTripsItems] at h
      rw [List.forall_mem_cons]
      exact ⟨exact_of_roundTrips item h.1, exact_of_roundTripsItems rest h.2⟩

theorem exact_of_roundTripsFields : ∀ (fields : List (String × Json)), RoundTripsFields fields →
    ∀ entry ∈ fields, ExecutionPolicy.Exact entry.2
  | [], _ => List.forall_mem_nil _
  | (key, value) :: rest, h => by
      rw [RoundTripsFields] at h
      rw [List.forall_mem_cons]
      exact ⟨exact_of_roundTrips value h.1, exact_of_roundTripsFields rest h.2⟩

end

/-- An event is the expected one of its own, unless it has no time. -/
theorem auditMatches_self {expected : Fields} {timestamp : String} (h : Writable 'b' expected)
    (htime : expected.get "timestamp" = .str timestamp) :
    auditMatches site expected expected = true ↔ expected.get "timestamp" ≠ .str "" := by
  have hsame : isEqual site.toSchemaSite (.obj (expected.erase "timestamp"))
      (.obj (expected.erase "timestamp")) = true := by
    refine ExecutionPolicy.equals_self ⟨fun a b => arithmeticValue site.toSchemaSite a =
      arithmeticValue site.toSchemaSite b, by simp, by simp⟩ (.obj ?_ ?_)
    · exact h.ordered.nodup.sublist (List.Sublist.map _ List.filter_sublist)
    · intro entry hentry
      exact exact_of_roundTripsFields _ h.values entry (List.mem_of_mem_filter hentry)
  rw [auditMatches, htime, hsame]
  simp

theorem text_written {value : Fields} {taken : Nat}
    (htaken : taken ≤ (lineOf value ++ ['\n']).length) :
    (written value taken).text = (lineOf value ++ ['\n']).take taken := by
  rw [written]
  split
  · rename_i hpast
    rw [List.length_append, List.length_singleton] at htaken
    rw [List.take_of_length_le (by rw [List.length_append, List.length_singleton]; omega)]
    rfl
  · rename_i hpast
    rw [List.take_append_of_le_length (Nat.not_lt.mp hpast)]
    rfl

theorem event_written (value : Fields) (taken : Nat) : (written value taken).event = value := by
  unfold written
  split <;> rfl

theorem writable_retained (h : Invariant site w) (hbroken : condition w.history ≠ .broken)
    (haudit : Expected audit) :
    ∀ event ∈ retained audit.resolutionId audit.expected (eventsOf w.history),
      Writable 'b' event := by
  intro event hevent
  rcases List.mem_append.mp hevent with hevent | hevent
  · have hread := (reads_replay w.history).read
    rw [if_neg hbroken] at hread
    obtain ⟨piece, hpiece, rfl⟩ := exists_piece hread event (List.mem_of_mem_filter hevent)
    exact h.writable piece hpiece
  · rw [List.mem_singleton.mp hevent]
    exact haudit.writable

/-- What a step keeps. -/
theorem Invariant.step (h : Invariant site w) (hstep : Step site w w') : Invariant site w' := by
  cases hstep with
  | append p event value hidle hordered hvalues hprepared =>
      refine h.goes ?_ (writable_of_prepared hordered hvalues hprepared)
      rw [hidle]
      rfl
  | audit p resolution prior expected repair hidle hvalues hexpected =>
      obtain ⟨hwritable, hnamed, htimed⟩ := expected_of_prior hvalues hexpected
      refine h.goes ?_ (Expected.mk hwritable hnamed htimed)
      rw [hidle]
      rfl
  | lock p request hwaiting hfree =>
      have hknows := h.knows p
      rw [hwaiting] at hknows
      refine ⟨?_, h.text, h.writable, h.named, h.unbroken,
        knows_update hknows fun q _ => h.knows q⟩
      refine alone_update h.alone ⟨fun _ => rfl, fun _ => rfl⟩ fun q hq => ?_
      rw [hfree]
      exact ⟨fun heq => absurd (Option.some.inj heq).symm hq, fun heq => by cases heq⟩
  | write p value taken hlocked htaken =>
      have hknows := h.knows p
      rw [hlocked] at hknows
      refine h.enters (by rw [hlocked]; rfl) rfl ?_ ?_ (fun _ _ heq => by cases heq) trivial
      · rw [replay_snoc, replayEntry, textOf_append, ← h.text, textOf_cons, text_written htaken]
        exact congrArg (contents w.file ++ ·) (List.append_nil _).symm
      · rw [replay_snoc, replayEntry]
        intro piece hpiece
        rcases List.mem_append.mp hpiece with hpiece | hpiece
        · exact h.writable piece hpiece
        · rw [List.mem_singleton.mp hpiece, event_written]
          exact hknows
  | writeRefused p value hlocked =>
      refine h.goes ?_ trivial
      rw [hlocked]
      rfl
  | read p audit reading hlocked hread =>
      have hknows := h.knows p
      rw [hlocked] at hknows
      refine h.goes ?_ (h.knows_inspected hknows fun hwhole => ?_)
      · rw [hlocked, inside_inspected]
        rfl
      · have heq := (readLog_eq_ok hread).symm.trans h.read
        rw [hwhole, if_neg (by decide)] at heq
        by_cases hbroken : condition w.history = .broken
        · rw [if_pos hbroken] at heq
          cases heq
        · rw [if_neg hbroken] at heq
          exact ⟨hbroken, Option.some.inj heq⟩
  | readRefused p audit hlocked =>
      have hknows := h.knows p
      rw [hlocked] at hknows
      refine h.goes ?_ (h.knows_inspected hknows fun hwhole => absurd hwhole (by decide))
      rw [hlocked, inside_inspected]
      rfl
  | readRaised p audit refusal hlocked hread =>
      refine h.goes ?_ trivial
      rw [hlocked]
      rfl
  | replace p audit parsed hreplacing =>
      have hknows := h.knows p
      rw [hreplacing] at hknows
      obtain ⟨haudit, hbroken, hparsed⟩ := hknows
      have hreplay : replay (w.history ++ [.repaired audit.resolutionId audit.expected]) =
          (retained audit.resolutionId audit.expected parsed).map .line := by
        rw [replay_snoc, replayEntry, (reads_replay w.history).read, if_neg hbroken, hparsed]
      refine h.enters (by rw [hreplacing]; rfl) rfl ?_ ?_ ?_ ?_
      · rw [hreplay]
        rw [textOf, List.flatMap_map]
        rfl
      · rw [hreplay, hparsed]
        intro piece hpiece
        obtain ⟨event, hevent, rfl⟩ := List.mem_map.mp hpiece
        exact writable_retained h hbroken haudit event hevent
      · intro resolutionId expected heq
        cases heq
        exact ⟨haudit.named, hbroken⟩
      · refine ⟨haudit, ?_, ?_⟩
        · rw [condition_snoc, conditionAfter, if_neg hbroken]
          exact Condition.noConfusion
        · rw [eventsFor_snoc, eventsForAfter, if_pos rfl]
  | replaceRefused p audit parsed hreplacing =>
      refine h.goes ?_ ⟨fun hvalid => (by cases hvalid), fun _ hfailed => by cases hfailed⟩
      rw [hreplacing]
      rfl
  | reread p audit found parsed hrereading hread =>
      have hknows := h.knows p
      rw [hrereading] at hknows
      obtain ⟨haudit, hbroken, hfound⟩ := hknows
      have hparsed : parsed = eventsOf w.history := by
        have heq := hread.symm.trans h.read
        rw [if_neg hbroken] at heq
        exact Option.some.inj heq
      have hmatches : matchesOf audit.resolutionId parsed = [audit.expected] := by
        rw [hparsed, h.matches, hfound]
      obtain ⟨timestamp, htimed⟩ := haudit.timed
      have hvalid : (reread site audit parsed).auditValid = true ↔
          audit.expected.get "timestamp" ≠ .str "" := by
        rw [← auditMatches_self haudit.writable htimed]
        unfold reread soleMatch
        rw [hmatches]
      refine h.goes (by rw [hrereading]; rfl) ⟨fun hholds => ?_, fun _ _ => ⟨hbroken, hfound, hvalid⟩⟩
      exact ⟨hbroken, audit.expected, hfound,
        (auditMatches_self haudit.writable htimed).mpr (hvalid.mp hholds)⟩
  | rereadRefused p audit found hrereading =>
      refine h.goes ?_ ⟨fun hvalid => (by cases hvalid), fun _ hfailed => by cases hfailed⟩
      rw [hrereading]
      rfl
  | rereadRaised p audit found hrereading hread =>
      refine h.goes ?_ trivial
      rw [hrereading]
      rfl
  | unlock p hinside =>
      have hp : (w.activity p).inside = true := by
        rcases hinside with heq | ⟨audit, report, heq⟩
        · rw [heq]
          rfl
        · rw [heq]
          rfl
      have hholder := (h.alone p).mp hp
      refine ⟨?_, h.text, h.writable, h.named, h.unbroken,
        knows_update trivial fun q _ => h.knows q⟩
      refine alone_update h.alone ⟨fun heq => (by cases heq), fun heq => (by cases heq)⟩
        fun q hq => ?_
      rw [hholder]
      exact ⟨fun heq => (by cases heq), fun heq => absurd (Option.some.inj heq).symm hq⟩
  | crash p =>
      refine ⟨?_, h.text, h.writable, h.named, h.unbroken,
        knows_update trivial fun q _ => h.knows q⟩
      by_cases hholder : w.holder = some p
      · refine alone_update h.alone ⟨fun heq => (by cases heq), fun heq => ?_⟩ fun q hq => ?_
        · rw [if_pos hholder] at heq
          cases heq
        · rw [if_pos hholder, hholder]
          exact ⟨fun heq => (by cases heq), fun heq => absurd (Option.some.inj heq).symm hq⟩
      · refine alone_update h.alone ⟨fun heq => (by cases heq), fun heq => ?_⟩ fun q hq => ?_
        · rw [if_neg hholder] at heq
          exact absurd heq hholder
        · rw [if_neg hholder]

end Steps

theorem invariant_start : Invariant site (World.start : World Process) where
  alone p := ⟨fun h => (by cases h), fun h => by cases h⟩
  text := rfl
  writable := List.forall_mem_nil _
  named _ _ h := by cases h
  unbroken _ _ _ h := absurd (List.prefix_nil.mp h)
    (List.append_ne_nil_of_right_ne_nil _ (List.cons_ne_nil _ _))
  knows _ := trivial

theorem invariant_of_run {w : World Process} (h : Reachable site w) : Invariant site w := by
  induction h with
  | start => exact invariant_start site
  | step _ hstep ih => exact ih.step hstep

theorem condition_append_broken {history : List Entry} (h : condition history = .broken)
    (more : List Entry) : condition (history ++ more) = .broken := by
  induction more using List.reverseRecOn with
  | nil => rwa [List.append_nil]
  | append_singleton more entry ih =>
      rw [← List.append_assoc, condition_snoc, ih]
      cases entry with
      | appended event taken =>
          rw [conditionAfter]
          cases written event taken <;> simp [Condition.behind]
      | repaired resolutionId expected => rfl

variable {site} in
theorem Step.history {w w' : World Process} (h : Step site w w') :
    w.history <+: w'.history := by
  cases h with
  | write => exact List.prefix_append _ _
  | replace => exact List.prefix_append _ _
  | _ => exact List.prefix_refl _

/-- Behind a line that was cut the log stays malformed: it is never repaired, and no audit finds
what it looks for. -/
theorem malformed_for_good {w w' : World Process} (h : Reachable site w)
    (hread : readLines site.decoding (contents w.file) = none)
    (hrun : Relation.ReflTransGen (Step site) w w') :
    readLines site.decoding (contents w'.file) = none ∧
      (∀ resolutionId expected, .repaired resolutionId expected ∈ w'.history →
        .repaired resolutionId expected ∈ w.history) ∧
      ∀ p audit report, w'.activity p = .reporting audit report → report.auditValid = false := by
  have hbroken : condition w.history = .broken := by
    by_contra hwhole
    rw [(Invariant.kept (invariant_of_run site h)).read, if_neg hwhole] at hread
    cases hread
  have hlater : Reachable site w' ∧ w.history <+: w'.history := by
    induction hrun with
    | refl => exact ⟨h, List.prefix_refl _⟩
    | tail _ hstep ih => exact ⟨ih.1.step hstep, ih.2.trans hstep.history⟩
  have hkept := Invariant.kept (invariant_of_run site hlater.1)
  obtain ⟨more, hmore⟩ := hlater.2
  have hafter : condition w'.history = .broken := by
    rw [← hmore]
    exact condition_append_broken hbroken more
  refine ⟨by rw [hkept.read, if_pos hafter], ?_, ?_⟩
  · intro resolutionId expected hmem
    by_contra hnew
    obtain ⟨before, behind, hsplit⟩ := List.append_of_mem
      ((List.mem_append.mp (hmore ▸ hmem)).resolve_left hnew)
    refine hkept.unbroken (w.history ++ before) resolutionId expected ?_
      (condition_append_broken hbroken before)
    rw [← hmore, hsplit]
    exact ⟨behind, by simp⟩
  · intro p audit report hreporting
    by_contra hvalid
    exact (hkept.valid p audit report hreporting (Bool.not_eq_false _ ▸ hvalid)).1 hafter

/-! ### A run -/

def sampleSite : LogSite where
  toSchemaSite := plainSite
  platform := Platform.reference
  decoding := ⟨fun _ => '?', fun lexeme => String.ofList lexeme⟩

def sampleEvent : Fields :=
  runEvent "2024" { runId := "r1", projectId := .null, source := "s" }

theorem prepared_sampleEvent : prepared sampleSite sampleEvent = .ok sampleEvent := by
  decide +kernel

theorem roundTrips_sampleEvent : RoundTripsFields sampleEvent := by
  have hinteger : RoundTrips (.int 1) := by
    rw [RoundTrips]
    decide
  have hempty : RoundTrips (.obj []) := ⟨List.Pairwise.nil, trivial⟩
  have hnull : RoundTrips .null := trivial
  have hstr : ∀ text, RoundTrips (.str text) := fun _ => trivial
  rw [roundTripsFields_iff, sampleEvent, runEvent]
  simp [orElse, Json.truthy, hinteger, hempty, hnull, hstr]

/-- A process appends an event, and the system takes three characters of its line. -/
theorem exists_cut : ∃ w : World Nat, Reachable sampleSite w ∧ w.activity 0 = .leaving ∧
    w.history = [.appended sampleEvent 3] := by
  have hlength : 3 ≤ (lineOf sampleEvent ++ ['\n']).length := by decide +kernel
  exact ⟨_, ((Reachable.start.step (.append _ 0 sampleEvent sampleEvent rfl ordered_eventKeys
    roundTrips_sampleEvent prepared_sampleEvent)).step (.lock _ 0 (.append sampleEvent) rfl
      rfl)).step (.write _ 0 sampleEvent 3 rfl hlength), rfl, rfl⟩

theorem condition_cut : condition [.appended sampleEvent 3] = .broken := by decide +kernel

theorem malformed_for_good_cut : ∃ w w' : World Nat, w'.holder = none ∧ w ≠ w' ∧
    readLines sampleSite.decoding (contents w.file) = none ∧
    readLines sampleSite.decoding (contents w'.file) = none := by
  obtain ⟨w, hrun, hleaving, hhistory⟩ := exists_cut
  have hread : readLines sampleSite.decoding (contents w.file) = none := by
    rw [(Invariant.kept (invariant_of_run sampleSite hrun)).read, hhistory, if_pos condition_cut]
  refine ⟨w, _, rfl, fun heq => ?_, hread, (malformed_for_good sampleSite hrun hread
    (.single (.unlock w 0 (Or.inl hleaving)))).1⟩
  have hidle := congrArg (fun world => world.activity 0) heq
  simp [hleaving, World.goes] at hidle

end EventLog

end Conveyor
