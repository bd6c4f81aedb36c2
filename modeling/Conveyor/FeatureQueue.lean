import Conveyor.Contracts
import Mathlib.Data.List.Infix
import Mathlib.Data.List.Sort

/-!
# Feature queues

The queue document of a project, how it is validated and normalized (`queue.py`), and what
the operator's controls write into it (`queue_control.py`): `rewrite` is the document that
an operation would write over the one that it read. The reading, the writer lease and the
writing are in `QueueInterleaving`.
-/

namespace Conveyor

open Library

def queueError (message : String) : Failure := ⟨.queueError, message⟩

def COMPLETE_STATUSES : List String := ["integrated", "done"]

def BLOCKED_STATUSES : List String :=
  ["blocked", "human_decision_required", "deferred", "rejected", "failed"]

def SUPPORTED_STATUSES : List String :=
  ["proposed", "ready", "in_progress", "review", "accepted", "integration_pending",
   "integrating", "integrated", "failed", "human_decision_required", "blocked", "done",
   "deferred", "rejected"]

def STATUS_ALIASES : List (String × String) :=
  [("complete", "done"), ("completed", "done"), ("inprogress", "in_progress"),
   ("pending_integration", "integration_pending"),
   ("awaiting_human_decision", "human_decision_required")]

def PRIORITY_LABELS : List String := ["P1", "P2", "P3"]

/-- What a queue is read against: where a specification path leads, which of these paths are
    files, and the contract of an execution policy. -/
structure QueueSite where
  platform : Platform
  escapes : String → Bool
  isFile : String → Bool
  validateFeatureExecutionPolicy : Json → String → Result Unit

/-! ### Normal forms -/

def isSlug (c : Char) : Bool := ('a' ≤ c && c ≤ 'z') || ('0' ≤ c && c ≤ '9')

/-- `re.sub(r"[^a-z0-9]+", separator, text)`; `gap` is set inside a run that was replaced. -/
def replaceRuns (separator : Char) (gap : Bool) : List Char → List Char
  | [] => []
  | c :: rest =>
      if isSlug c then c :: replaceRuns separator false rest
      else if gap then replaceRuns separator true rest
      else separator :: replaceRuns separator true rest

def slug (P : Platform) (separator : Char) (text : String) : String :=
  String.ofList (Platform.trim (· = separator)
    (replaceRuns separator false (P.lowerText (Platform.strip text)).toList))

def normalizeStatus (P : Platform) (value : Json) (path : String) : Result String :=
  match value with
  | .str text =>
      if Platform.hasText text then do
        let normalized := slug P '_' text
        let normalized := (STATUS_ALIASES.lookup normalized).getD normalized
        let shown := String.ofList (P.repr value)
        require (normalized ∈ SUPPORTED_STATUSES)
          (queueError s!"{path}: unsupported status {shown}")
        return normalized
      else .error (queueError s!"{path}: expected a non-empty status string")
  | _ => .error (queueError s!"{path}: expected a non-empty status string")

/-- The number behind one of the stems, as `int` of the group `(\d+)`. -/
def numberAfter (text : String) (stems : List String) : Option Nat :=
  stems.findSome? fun stem =>
    if stem.toList.isPrefixOf text.toList then
      let digits := text.toList.drop stem.length
      if digits ≠ [] ∧ digits.all Char.isDigit then
        some (digits.foldl (fun n digit => 10 * n + (digit.toNat - '0'.toNat)) 0)
      else none
    else none

def normalizeMilestoneName (P : Platform) (value : String) : String :=
  let normalized := slug P '-' value
  match numberAfter normalized ["p", "phase-", "phase"] with
  | some n => s!"phase-{n}"
  | none =>
      match numberAfter normalized ["m", "milestone-", "milestone"] with
      | some n => s!"milestone-{n}"
      | none => normalized

/-- `value.upper()` where it is a label. -/
def upperLabel (value : String) : Option String :=
  PRIORITY_LABELS.find? fun label => value.toList.map Char.toUpper = label.toList

def priorityLabel : Json → String
  | .str value => (upperLabel value).getD "P2"
  | .int 1 => "P1"
  | .int 3 => "P3"
  | _ => "P2"

/-- `_priority`. -/
def priorityRank (value : Json) : Nat := PRIORITY_LABELS.idxOf (priorityLabel value) + 1

/-! ### The queue -/

structure FeatureQueue where
  milestones : List Fields
  features : List Fields

namespace FeatureQueue

/-- The only item with this value of the key. -/
def only (items : List Fields) (key value : String) : Option Fields :=
  match items.filter fun item => item.get key = .str value with
  | [item] => some item
  | _ => none

def milestoneOf (P : Platform) (milestones : List Fields) (milestoneId : String) :
    Option Fields :=
  match only milestones "id" milestoneId with
  | some milestone => some milestone
  | none => only milestones "normalized_id" (normalizeMilestoneName P milestoneId)

def milestone (P : Platform) (queue : FeatureQueue) (milestoneId : String) : Option Fields :=
  milestoneOf P queue.milestones milestoneId

def feature (queue : FeatureQueue) (featureId : String) : Option Fields :=
  only queue.features "id" featureId

/-- The text of a value that has one. -/
def textOf (value : Json) (failure : Failure) : Result String :=
  match value with
  | .str text => if Platform.hasText text then .ok text else .error failure
  | _ => .error failure

def readMilestone (P : Platform) (path : String) (item : Fields) : Result Fields := do
  let text ← textOf (item.get "id") (queueError s!"{path}.id: expected a non-empty string")
  let id := Platform.strip text
  return (item.set "id" (.str id)).set "normalized_id" (.str (normalizeMilestoneName P id))

def readDependencies (path : String) (item : Fields) : Result (List String) := do
  let dependencies := item.getD "dependencies" (item.getD "depends_on" (.arr []))
  require ("dependencies" ∉ item.keys ∨ "depends_on" ∉ item.keys ∨
      item.get "dependencies" = item.get "depends_on")
    (queueError s!"{path}: dependencies and depends_on disagree")
  match dependencies with
  | .arr values =>
      values.mapIdx (fun index value => (index, value)) |>.mapM fun (index, value) => do
        let text ← textOf value
          (queueError s!"{path}.dependencies[{index}]: expected a non-empty feature ID")
        return Platform.strip text
  | _ => .error (queueError s!"{path}.dependencies: expected an array of feature IDs")

/-- The checks of a commit reference; the value may be missing. -/
def checkCommit (path : String) (value : Json) : Result Unit :=
  match value with
  | .null => .ok ()
  | value => do
      let _ ← textOf value (queueError s!"{path}.commit: expected a non-empty commit reference")
      return ()

def isCriterion : Json → Bool
  | .str text => Platform.hasText text
  | _ => false

def specificationOf (item : Fields) : Json :=
  firstTruthy [item.get "spec", item.get "specification", item.get "spec_path"]

/-- `path.is_absolute() or ".." in path.parts`. -/
def leaves (path : String) : Bool :=
  path.toList.head? = some '/' || (path.toList.splitOn '/').contains ['.', '.']

def checkSpecification (site : QueueSite) (path : String) (value : Json) : Result Unit :=
  match value with
  | .null => .ok ()
  | value => do
      let text ← textOf value
        (queueError s!"{path}.spec: expected a non-empty repository-relative path")
      require (leaves text = false)
        (queueError s!"{path}.spec: path must be repository-relative and cannot traverse")
      require (site.escapes text = false)
        (queueError s!"{path}.spec: resolved path escapes the registered repository")

/-- The checks of the fields that a feature may leave out. -/
def checkOptional (site : QueueSite) (path : String) (item : Fields) : Result Unit := do
  match item.get "acceptance_criteria" with
  | .null => pure ()
  | .arr criteria =>
      require (criteria.all isCriterion = true)
        (queueError s!"{path}.acceptance_criteria: expected non-empty strings")
  | _ => .error (queueError s!"{path}.acceptance_criteria: expected non-empty strings")
  match item.get "requires_human_decision" with
  | .null | .bool _ => pure ()
  | _ => .error (queueError s!"{path}.requires_human_decision: expected a boolean")
  match item.get? "execution_policy" with
  | none => pure ()
  | some policy => site.validateFeatureExecutionPolicy policy s!"{path}.execution_policy"
  checkSpecification site path (specificationOf item)

def readFeature (site : QueueSite) (milestones : List Fields) (path : String) (item : Fields) :
    Result Fields := do
  let id ← textOf (item.get "id") (queueError s!"{path}.id: expected a non-empty string")
  let item := item.set "id" (.str (Platform.strip id))
  let title ← textOf (item.getD "title" (item.getD "name" (item.get "id")))
    (queueError s!"{path}.title: expected a non-empty title or name")
  let item := item.set "title" (.str (Platform.strip title))
  let status ← normalizeStatus site.platform (item.get "status") s!"{path}.status"
  let item := item.set "status" (.str status)
  let milestoneId ← textOf (item.get "milestone")
    (queueError s!"{path}.milestone: expected a non-empty string")
  let shown := String.ofList (site.platform.repr (.str milestoneId))
  match milestoneOf site.platform milestones milestoneId with
  | none => .error (queueError s!"{path}.milestone: unknown milestone {shown}")
  | some milestone => do
      let item := item.set "milestone" (milestone.get "id")
      let dependencies ← readDependencies path item
      let item := item.set "dependencies" (.arr (dependencies.map Json.str))
      let commit := item.getD "accepted_commit" (item.get "commit")
      checkCommit path commit
      let item := match commit with
        | .str text => item.set "accepted_commit" (.str (Platform.strip text))
        | _ => item
      checkCommit path (item.get "commit")
      checkOptional site path item
      return item

/-- `read` of every value, which has to be an object, under its path. -/
def readAll (name : String) (read : String → Fields → Result Fields) (values : List Json) :
    Result (List Fields) :=
  (values.mapIdx fun index value => (s!"$.{name}[{index}]", value)).mapM fun (path, value) =>
    match value with
    | .obj item => read path item
    | _ => .error (queueError s!"{path}: expected an object")

/-- `sorted(set(values) - set(known))`. -/
def unknown (values : List Json) (known : List Json) : List String :=
  ((values.filter (· ∉ known)).filterMap Json.asString?).dedup.insertionSort (· ≤ ·)

def checkDependencies (features : List Fields) (index : Nat) (item : Fields) : Result Unit :=
  let dependencies := match item.get "dependencies" with
    | .arr values => values
    | _ => []
  let missing := unknown dependencies (features.map fun item => item.get "id")
  let names := ", ".intercalate missing
  require (missing = [])
    (queueError s!"$.features[{index}].dependencies: unknown feature IDs: {names}")

/-- `_validate_and_normalize`. -/
def ofFields (site : QueueSite) (document : Fields) : Result FeatureQueue :=
  match document.get "milestones", document.get "features" with
  | .arr rawMilestones, .arr rawFeatures => do
      let milestones ← readAll "milestones" (readMilestone site.platform) rawMilestones
      require (milestones.map fun item => item.get "id").Nodup
        (queueError "$.milestones: milestone IDs must be unique")
      require (milestones.map fun item => item.get "normalized_id").Nodup
        (queueError "$.milestones: milestone IDs are ambiguous after normalization")
      let features ← readAll "features" (readFeature site milestones) rawFeatures
      require (features.map fun item => item.get "id").Nodup
        (queueError "$.features: feature IDs must be unique")
      requireAll (fun entry => checkDependencies features entry.1 entry.2)
        (features.mapIdx fun index item => (index, item))
      return ⟨milestones, features⟩
  | .arr _, _ => .error (queueError "$.features: expected an array")
  | _, _ => .error (queueError "$.milestones: expected an array")

/-- The check of `load_queue` on one of the lists. -/
def checkList (document : Fields) (key : String) : Result Unit :=
  match document.get? key with
  | none => .error (queueError s!"$: missing required key: {key}")
  | some (.arr _) => .ok ()
  | some _ => .error (queueError s!"$.{key}: expected an array")

/-- `from_location`: `load_queue` and the queue of what it read. -/
def fromLocation (site : QueueSite) (file : Option Json) : Result FeatureQueue :=
  match file with
  | none => .error (queueError "$: unsupported queue format; expected JSON-compatible YAML")
  | some (.obj document) => do
      requireAll (checkList document) ["milestones", "features"]
      ofFields site document
  | some _ => .error (queueError "$: expected an object")

/-- `value in container`. -/
def isIn (value : String) : Json → Result Bool
  | .arr items => .ok (items.contains (.str value))
  | .obj fields => .ok (decide (value ∈ Fields.keys fields))
  | .str text => .ok (decide (value.toList <:+: text.toList))
  | _ => .error ⟨.typeError, "argument is not iterable"⟩

def dependencyComplete (P : Platform) (queue : FeatureQueue) (dependencyId : String) :
    Result Bool :=
  match queue.feature dependencyId with
  | none => .ok false
  | some dependency =>
      if ∀ status ∈ COMPLETE_STATUSES, dependency.get "status" ≠ .str status then .ok false
      else if dependency.get "status" = .str "integrated" then
        if dependency.get "integration_status" ≠ .str "passed" ∨
            (dependency.get "integrated_commit").asString? = none then .ok false
        else
          let integrated := ((queue.milestone P (P.str (dependency.get "milestone"))).map
            fun milestone => milestone.getD "integrated_features" (.arr [])).getD (.arr [])
          isIn dependencyId integrated
      else .ok true

/-- The dependencies that are not complete, in their order. -/
def incomplete (P : Platform) (queue : FeatureQueue) (feature : Fields) :
    Result (List String) := do
  let dependencies := match feature.get "dependencies" with
    | .arr values => values.filterMap Json.asString?
    | _ => []
  let checked ← dependencies.mapM fun dependencyId => do
    let complete ← queue.dependencyComplete P dependencyId
    return (dependencyId, complete)
  return (checked.filter fun entry => !entry.2).map Prod.fst

/-- `_specified`, of a queue that was read from a repository. -/
def specified (site : QueueSite) (feature : Fields) : Bool :=
  match specificationOf feature, feature.get "acceptance_criteria" with
  | .str path, .arr criteria =>
      path ≠ "" && !leaves path && !site.escapes path && site.isFile path && criteria ≠ []
  | _, _ => false

def dependencyIds (feature : Fields) : List String :=
  match feature.get "dependencies" with
  | .arr values => values.filterMap Json.asString?
  | _ => []

/-- The dependencies are complete; the first that is not ends the loop. -/
def allComplete (P : Platform) (queue : FeatureQueue) : List String → Result Bool
  | [] => .ok true
  | dependencyId :: rest => do
      if ← queue.dependencyComplete P dependencyId then allComplete P queue rest
      else return false

def dependenciesComplete (P : Platform) (queue : FeatureQueue) (feature : Fields) : Result Bool :=
  queue.allComplete P (dependencyIds feature)

def featuresForMilestone (P : Platform) (queue : FeatureQueue) (milestoneId : String) :
    List Fields :=
  match queue.milestone P milestoneId with
  | none => []
  | some milestone =>
      queue.features.filter fun item => item.get "milestone" = milestone.get "id"

/-- The field is a text of the list. -/
def hasStatus (item : Fields) (statuses : List String) : Bool :=
  (item.get "status").asString?.any fun status => status ∈ statuses

def milestoneComplete (P : Platform) (queue : FeatureQueue) (milestoneId : String) : Bool :=
  let features := (queue.featuresForMilestone P milestoneId).filter fun item =>
    !hasStatus item ["deferred", "rejected"]
  !features.isEmpty && features.all fun item => hasStatus item COMPLETE_STATUSES

/-- Whether `ready` takes a feature. -/
def eligible (site : QueueSite) (queue : FeatureQueue) (feature : Fields) : Result Bool := do
  if feature.get "status" ≠ .str "ready" then return false
  else if feature.get "requires_human_decision" = .bool true then return false
  else
    let complete ← queue.dependenciesComplete site.platform feature
    return complete && specified site feature

/-- The order of the candidates: their priority, then their place. -/
def before (first second : Nat × Fields) : Bool :=
  let rank := fun candidate : Nat × Fields => priorityRank (candidate.2.get "priority")
  rank first < rank second || (rank first = rank second && first.1 ≤ second.1)

def ready (site : QueueSite) (queue : FeatureQueue) (milestoneId : String) :
    Result (List Fields) := do
  let features := queue.featuresForMilestone site.platform milestoneId
  let checked ← (features.mapIdx fun index feature => (index, feature)).mapM fun candidate => do
    let takes ← queue.eligible site candidate.2
    return (candidate, takes)
  let candidates := (checked.filter fun entry => entry.2).map Prod.fst
  return (candidates.insertionSort fun first second => before first second = true).map Prod.snd

structure Selection where
  featureId : Json
  title : Json
  reason : String
  feature : Fields

def selectNext (site : QueueSite) (queue : FeatureQueue) (milestoneId : String) :
    Result (Option Selection) := do
  match ← queue.ready site milestoneId with
  | [] => return none
  | feature :: _ =>
      let shown := site.platform.str (feature.get "id")
      return some
        { featureId := feature.get "id"
          title := feature.get "title"
          reason := "Selected deterministically from the active milestone by priority, queue " ++
            "order, eligible status, completed dependencies, unblocked state, then feature ID; " ++
            s!"dependencies are complete for {shown}."
          feature := feature }

structure Readiness where
  ready : Bool
  dependenciesComplete : Bool
  blockedReason : Option String

def readiness (site : QueueSite) (queue : FeatureQueue) (feature : Fields) : Result Readiness := do
  let complete ← queue.dependenciesComplete site.platform feature
  let status := site.platform.str (feature.get "status")
  let blocked := fun reason : String => (⟨false, complete, some reason⟩ : Readiness)
  if status ∈ COMPLETE_STATUSES then return blocked s!"feature status is {status}"
  else if status ∈ BLOCKED_STATUSES then
    return blocked (site.platform.str (firstTruthy
      [feature.get "blocked_reason", feature.get "blocking_reason",
       .str s!"feature status is {status}"]))
  else if status ≠ "ready" then return blocked s!"feature status is {status}; expected ready"
  else if feature.get "requires_human_decision" = .bool true then
    return blocked "feature requires a human decision"
  else if complete = false then
    let names := ", ".intercalate (← queue.incomplete site.platform feature)
    return blocked s!"dependencies incomplete: {names}"
  else if specified site feature = false then
    return blocked "feature specification or acceptance criteria are incomplete"
  else return ⟨true, complete, none⟩

end FeatureQueue

/-- `_ready_transition_reason`. -/
def readyTransitionReason (site : QueueSite) (queue : FeatureQueue) (feature : Fields) :
    Result (Option String) := do
  if feature.get "status" ≠ .str "proposed" then return some "Feature is not in Backlog."
  if feature.get "requires_human_decision" = .bool true then
    return some "Feature requires a human decision."
  match firstTruthy [feature.get "blocked_reason", feature.get "blocking_reason"] with
  | .str text => if Platform.hasText text then return some (Platform.strip text)
  | _ => pure ()
  let incomplete ← queue.incomplete site.platform feature
  if incomplete ≠ [] then
    let names := ", ".intercalate incomplete
    return some s!"Dependencies incomplete: {names}"
  if FeatureQueue.specified site feature = false then
    return some "Feature specification or acceptance criteria are incomplete."
  return none

/-! ### The operator's controls -/

inductive QueueOperation where
  | prioritize (featureId : String) (relativeId placement priority : Option String)
  | transitionReady (featureId : String) (activeTransaction : Option String)
  | transitionBacklog (featureId : String) (activeTransaction : Option String)

/-- The checks of an operation before it looks at the repository. -/
def QueueOperation.checkArguments : QueueOperation → Result Unit
  | .prioritize featureId relativeId placement priority => do
      require (∀ value ∈ placement, value ∈ ["before", "after"])
        (conveyorError "prioritize placement must be before or after")
      require (relativeId.isNone = placement.isNone)
        (conveyorError "prioritize requires both a relative feature and placement")
      require (relativeId ≠ none ∨ priority ≠ none)
        (conveyorError "prioritize requires a priority or before/after placement")
      require (∀ value ∈ priority, upperLabel value ≠ none)
        (queueError "priority must be one of P1, P2, or P3")
      require (relativeId ≠ some featureId)
        (queueError "a feature cannot be prioritized relative to itself")
  | .transitionReady _ activeTransaction =>
      require (activeTransaction.getD "" = "")
        (conveyorError "ready is unavailable while an active transaction exists")
  | .transitionBacklog _ activeTransaction =>
      require (activeTransaction.getD "" = "")
        (conveyorError "backlog is unavailable while an active transaction exists")

/-- The objects of the document's features, as the document has them. -/
def rawFeatures (document : Fields) : List Fields :=
  match document.get "features" with
  | .arr items => items.filterMap fun item => match item with
      | .obj fields => some fields
      | _ => none
  | _ => []

def withFeatures (document : Fields) (features : List Fields) : Fields :=
  document.set "features" (.arr (features.map Json.obj))

/-- The places of the features with this identifier. -/
def placesOf (features : List Fields) (featureId : String) : List Nat :=
  (features.mapIdx fun index item => (index, item)).filterMap fun (index, item) =>
    if item.get "id" = .str featureId then some index else none

/-- `features.insert(place, features.pop(...))` next to the relative feature. -/
def moveFeature (features : List Fields) (place : Nat) (relativeId placement : String) :
    Result (List Fields) :=
  let rest := features.eraseIdx place
  match placesOf rest relativeId with
  | [] => .error ⟨.stopIteration, ""⟩
  | target :: _ =>
      .ok (rest.insertIdx (if placement = "after" then target + 1 else target)
        (features.getD place []))

/-- What `prioritize` makes of the features; none where nothing would change. -/
def prioritize (P : Platform) (activeMilestone : Option String) (featureId : String)
    (relativeId placement priority : Option String) (queue : FeatureQueue)
    (features : List Fields) : Result (Option (List Fields)) :=
  match placesOf features featureId with
  | [place] => do
      let named := relativeId.getD ""
      require (∀ relative ∈ relativeId, (placesOf features relative).length = 1)
        (queueError s!"unknown or duplicate relative feature: {named}")
      let relatives := (relativeId.filter (· ≠ "")).map queue.feature
      match queue.feature featureId with
      | none => .error (queueError "prioritize features must belong to the active milestone")
      | some feature => do
          let active := Json.ofOption activeMilestone
          require (feature.get "milestone" = active ∧ ∀ relative ∈ relatives, ∀ item ∈ relative,
              item.get "milestone" = active)
            (queueError "prioritize features must belong to the active milestone")
          let previous := priorityLabel (feature.get "priority")
          let labelled := match priority.bind upperLabel with
            | some label => features.modify place fun item => item.set "priority" (.str label)
            | none => features
          let moved ← match relativeId, placement with
            | some relative, some placement => moveFeature labelled place relative placement
            | _, _ => .ok labelled
          let order := features.map fun item => P.str (item.get "id")
          if (moved.map fun item => P.str (item.get "id")) = order ∧
              previous = priorityLabel (.ofOption priority) then return none
          return some moved
  | _ => .error (queueError s!"unknown or duplicate feature: {featureId}")

/-- `ready` and `backlog`: the status of one feature, once `allows` says that it may change. -/
def transition (activeMilestone : Option String) (featureId name source target : String)
    (allows : FeatureQueue → Fields → Result Unit) (queue : FeatureQueue)
    (features : List Fields) : Result (Option (List Fields)) :=
  match queue.feature featureId with
  | none => .error (queueError s!"unknown feature: {featureId}")
  | some feature => do
      require (feature.get "milestone" = .ofOption activeMilestone)
        (queueError s!"{name} feature must belong to the active milestone")
      require (feature.get "status" = .str source)
        (queueError s!"{name} may change only {source} features")
      allows queue feature
      match placesOf features featureId with
      | [] => .error ⟨.stopIteration, ""⟩
      | place :: _ =>
          return some (features.modify place fun item => item.set "status" (.str target))

def transitionReady (site : QueueSite) (activeMilestone : Option String) (featureId : String) :
    FeatureQueue → List Fields → Result (Option (List Fields)) :=
  transition activeMilestone featureId "ready" "proposed" "ready" fun queue feature => do
    let reason ← readyTransitionReason site queue feature
    let text := reason.getD ""
    require (reason = none) (queueError s!"ready is blocked: {text}")

def transitionBacklog (activeMilestone : Option String) (featureId : String) :
    FeatureQueue → List Fields → Result (Option (List Fields)) :=
  transition activeMilestone featureId "backlog" "ready" "proposed" fun _ _ => .ok ()

/-- The document that an operation writes over the one it read; none where it writes none. -/
def QueueOperation.rewrite (site : QueueSite) (activeMilestone : Option String)
    (operation : QueueOperation) (document : Fields) : Result (Option Fields) := do
  let queue ← FeatureQueue.ofFields site document
  let features := rawFeatures document
  let changed ← match operation with
    | .prioritize featureId relativeId placement priority =>
        Conveyor.prioritize site.platform activeMilestone featureId relativeId placement priority
          queue features
    | .transitionReady featureId _ =>
        Conveyor.transitionReady site activeMilestone featureId queue features
    | .transitionBacklog featureId _ =>
        Conveyor.transitionBacklog activeMilestone featureId queue features
  return changed.map (withFeatures document)

/-- The document that an operation leaves when it runs alone. -/
def QueueOperation.run (site : QueueSite) (activeMilestone : Option String)
    (operation : QueueOperation) (document : Fields) : Result Fields := do
  operation.checkArguments
  match ← operation.rewrite site activeMilestone document with
  | none => return document
  | some written => do
      let _ ← FeatureQueue.fromLocation site (some (.obj written))
      return written

end Conveyor
