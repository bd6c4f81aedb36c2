import Conveyor.FeatureQueue
import Conveyor.IntegrationQueue
import Conveyor.Library.Dict
import Conveyor.Library.Regex

/-!
# Feature scoping

What a planning session may leave in its worktree (`feature_scoping.py`): `validateResult` is
the check of a scoping session's result, `assertAcyclic` and `specIdentity` the checks that it
shares with the resolution of queue decisions.
-/

namespace Conveyor

open Library

/-- A worktree as a planner checks it: the texts of its files, what `git diff --check` finds, and
    which numbers are equal. -/
structure PlanningSite extends QueueSite where
  readText : String → Result String
  diffCheck : Bool
  numbersEqual : Json → Json → Bool

/-- `{str(item["id"]): item for item in items}`. -/
def byId (P : Platform) (items : List Fields) : Result (Dict Fields) :=
  items.foldlM (fun dict item => match item.get? "id" with
    | some id => .ok (dict.insert (P.str id) item)
    | none => .error ⟨.keyError, "'id'"⟩) []

/-- `dict[key]`. -/
def lookupKey {α : Type} (dict : Dict α) (key : String) : Result α :=
  match dict.get? key with
  | some value => .ok value
  | none => .error ⟨.keyError, s!"'{key}'"⟩

/-- `tuple(value or ())`. -/
def tupleOf (value : Json) : Result (List Json) :=
  if value.truthy then iterated value else .ok []

/-! ### Cycles -/

/-- `visit`, with the features visited so far; the features being visited are the path. The fuel
    bounds the path, which never repeats a feature. -/
def visit (dependencies : Dict (List String)) :
    Nat → List String → List String → String → Result (List String)
  | 0, path, _, featureId =>
      let names := " -> ".intercalate (path ++ [featureId])
      .error (queueError s!"feature dependency cycle detected: {names}")
  | fuel + 1, path, visited, featureId =>
      let names := " -> ".intercalate (path ++ [featureId])
      if featureId ∈ path then
        .error (queueError s!"feature dependency cycle detected: {names}")
      else if featureId ∈ visited then .ok visited
      else do
        let own ← lookupKey dependencies featureId
        let visited ← own.foldlM
          (fun visited dependency =>
            visit dependencies fuel (path ++ [featureId]) visited dependency) visited
        return visited ++ [featureId]

/-- More fuel than there are features left to visit changes nothing. -/
theorem visit_fuel {dependencies : Dict (List String)} {fuel : Nat} {path visited : List String}
    {featureId : String} (hnodup : path.Nodup) (hknown : ∀ id ∈ path, id ∈ dependencies.keys)
    (hfuel : dependencies.keys.length < fuel + path.length) :
    visit dependencies (fuel + 1) path visited featureId =
      visit dependencies fuel path visited featureId := by
  induction fuel generalizing path visited featureId with
  | zero =>
      have hlength := (List.subperm_of_subset hnodup hknown).length_le
      omega
  | succ fuel ih =>
      unfold visit
      split
      · rfl
      · rename_i hpath
        split
        · rfl
        · cases hlookup : lookupKey dependencies featureId with
          | error failure => rfl
          | ok own =>
              have hkey : featureId ∈ dependencies.keys := by
                by_contra hmissing
                rw [lookupKey, Dict.get?_eq_none.mpr hmissing] at hlookup
                cases hlookup
              have hbody : (fun visited dependency =>
                  visit dependencies (fuel + 1) (path ++ [featureId]) visited dependency) =
                  fun visited dependency =>
                    visit dependencies fuel (path ++ [featureId]) visited dependency := by
                funext visited dependency
                apply ih
                · exact List.nodup_append.mpr ⟨hnodup, List.nodup_singleton _, by
                    rintro id hid other hother rfl
                    exact hpath (List.mem_singleton.mp hother ▸ hid)⟩
                · intro id hid
                  rcases List.mem_append.mp hid with hid | hid
                  · exact hknown id hid
                  · exact List.mem_singleton.mp hid ▸ hkey
                · rw [List.length_append, List.length_singleton]
                  omega
              rw [ok_bind, ok_bind, hbody]

/-- The dependencies of every feature, as the check for cycles reads them. -/
def dependencyTable (P : Platform) (queue : FeatureQueue) : Result (Dict (List String)) :=
  queue.features.foldlM (fun table feature => do
    let own ← iterated (feature.getD "dependencies" (.arr []))
    return table.insert (P.str (feature.get "id")) (own.map P.str)) []

def assertAcyclic (P : Platform) (queue : FeatureQueue) : Result Unit := do
  let table ← dependencyTable P queue
  let _ ← table.keys.foldlM (fun visited featureId =>
    visit table (table.length + 1) [] visited featureId) []
  return ()

/-! ### Specifications -/

/-- `^#{1,6}\s+ID(?:\s|$)` in multiline mode. -/
def specificationHeading (featureId : String) : Regex :=
  let hash := Regex.chr fun c => decide (c = '#')
  let space := Regex.chr fun c => Platform.isSpace c
  .cat [.lineStart, hash, .atMost 5 hash, .many1 space, .text featureId, .alt space .lineEnd]

/-- `Path(path).name`. -/
def fileName (path : String) : String :=
  String.ofList (((path.toList.splitOn '/').filter (· ≠ [])).getLast?.getD [])

def specIdentity (site : PlanningSite) (path featureId : String) : Result Unit :=
  let name := fileName path
  match site.readText path with
  | .error ⟨.osError, _⟩ =>
      .error (queueError s!"feature specification is unavailable: {name}")
  | .error failure => .error failure
  | .ok text =>
      require ((specificationHeading featureId).search none text.toList = true)
        (queueError s!"feature specification does not preserve stable ID {featureId}: {name}")

/-! ### The result of a scoping session -/

/-- What `_validate_result` reads of a `ScopeFeatureRequest`; `inspect` makes none that does not
    request its ready feature. -/
structure ScopeFeatureRequest where
  activeMilestone : Option String
  existingFeatures : List String
  newFeatures : List String
  readyFeature : String
  targetSpecs : Dict String
  executionPolicies : Dict Json
  dependencyExpectations : Dict (Option (List String))
  baselineFeatures : List Fields
  authorizedPaths : List String
  readyRequested : readyFeature ∈ existingFeatures ++ newFeatures

def ScopeFeatureRequest.targetFeatures (request : ScopeFeatureRequest) : List String :=
  request.existingFeatures ++ request.newFeatures

structure ScopeResult where
  readyFeature : String
  targetFeatures : List String
  newFeatures : List String
  changedPaths : List String

/-- The identifiers of the ready features of a milestone, in queue order. -/
def readyIds (P : Platform) (queue : FeatureQueue) (milestoneId : String) : List String :=
  ((queue.featuresForMilestone P milestoneId).filter fun item =>
    item.get "status" = .str "ready").map fun item => P.str (item.get "id")

/-- The features are the ones before and the new ones. -/
def checkFeatureIds (request : ScopeFeatureRequest) (baseline after : Dict Fields) : Result Unit :=
  let expected := baseline.keys ++ request.newFeatures
  require (after.length = expected.length ∧ (∀ id ∈ after.keys, id ∈ expected) ∧
      ∀ id ∈ expected, id ∈ after.keys)
    (queueError "feature IDs were removed, replaced, duplicated, or added outside scope")

/-- A feature that was not asked for is as it was. -/
def checkUnrequested (site : PlanningSite) (request : ScopeFeatureRequest) (after : Dict Fields)
    (entry : String × Fields) : Result Unit :=
  if entry.1 ∈ request.targetFeatures then .ok ()
  else do
    let feature ← lookupKey after entry.1
    require (Json.equals site.numbersEqual (.obj feature) (.obj entry.2) = true)
      (queueError s!"unrequested feature metadata changed: {entry.1}")

/-- The dependencies of a feature that was asked for: it keeps the ones it had, and has the ones
    of the brief. -/
def checkScopedDependencies (request : ScopeFeatureRequest) (baseline : Dict Fields)
    (featureId : String) (feature : Fields) : Result Unit := do
  let expectedDependencies ← lookupKey request.dependencyExpectations featureId
  let actual ← tupleOf (feature.get "dependencies")
  match baseline.get? featureId with
  | none => pure ()
  | some before => do
      let preserved ← tupleOf (before.get "dependencies")
      let keys ← preserved.mapM hashKey
      require (∀ key ∈ keys, key ∈ actual)
        (queueError s!"existing valid dependencies were removed: {featureId}")
  require (∀ expected ∈ expectedDependencies, actual = expected.map Json.str)
    (queueError s!"scoped feature dependencies disagree with the brief: {featureId}")

/-- The checks of one feature that was asked for. -/
def checkScoped (site : PlanningSite) (request : ScopeFeatureRequest)
    (baseline after : Dict Fields) (featureId : String) : Result Unit := do
  let feature ← lookupKey after featureId
  let expectedStatus := if featureId = request.readyFeature then "ready" else "proposed"
  require (feature.get "status" = .str expectedStatus)
    (queueError s!"scoped feature has unexpected status: {featureId}")
  require (featureId = request.readyFeature → feature.get "implementation_status" = .str "Ready")
    (queueError "ready feature must record implementation_status: Ready")
  let expectedPolicy ← lookupKey request.executionPolicies featureId
  require (Json.equals site.numbersEqual (feature.get "execution_policy") expectedPolicy = true)
    (queueError s!"scoped feature execution policy disagrees with the brief: {featureId}")
  let policy ← lookupKey feature "execution_policy"
  site.validateFeatureExecutionPolicy policy s!"$.features.{featureId}.execution_policy"
  checkScopedDependencies request baseline featureId feature
  let expectedSpec ← lookupKey request.targetSpecs featureId
  require (feature.get "spec" = .str expectedSpec)
    (queueError s!"scoped feature specification path changed unexpectedly: {featureId}")
  match feature.get "acceptance_criteria" with
  | .arr (_ :: _) => specIdentity site expectedSpec featureId
  | _ => .error (queueError s!"scoped feature lacks acceptance criteria: {featureId}")

/-- `sorted(set(changed) - set(authorized))`. -/
def unauthorizedPaths (changedPaths authorizedPaths : List String) : List String :=
  ((changedPaths.filter fun path => path ∉ authorizedPaths).dedup).insertionSort (· ≤ ·)

/-- The specification of a new feature is among the changed paths. -/
def checkNewSpecification (request : ScopeFeatureRequest) (changedPaths : List String)
    (featureId : String) : Result Unit := do
  let path ← lookupKey request.targetSpecs featureId
  require (path ∈ changedPaths)
    (queueError s!"new feature specification was not created exactly once: {featureId}")

/-- `_validate_result`, of the queue document in the worktree. -/
def validateResult (site : PlanningSite) (request : ScopeFeatureRequest)
    (changedPaths : List String) (file : Option Json) : Result ScopeResult := do
  let queue ← FeatureQueue.fromLocation site.toQueueSite file
  assertAcyclic site.platform queue
  let baseline ← byId site.platform request.baselineFeatures
  let after ← byId site.platform queue.features
  checkFeatureIds request baseline after
  requireAll (checkUnrequested site request after) baseline
  require (readyIds site.platform queue (request.activeMilestone.getD "") = [request.readyFeature])
    (queueError "scope-features must leave exactly the explicitly selected feature ready")
  requireAll (checkScoped site request baseline after) request.targetFeatures
  let unauthorized := unauthorizedPaths changedPaths request.authorizedPaths
  let names := ", ".intercalate unauthorized
  require (unauthorized = []) (queueError s!"scope-features changed unauthorized paths: {names}")
  requireAll (checkNewSpecification request changedPaths) request.newFeatures
  require (site.diffCheck = true) (queueError "scope-features git diff --check failed")
  return ⟨request.readyFeature, request.targetFeatures, request.newFeatures, changedPaths⟩

end Conveyor
