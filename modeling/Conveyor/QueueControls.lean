import Conveyor.DependencyGates
import Conveyor.ExecutionPolicy
import Conveyor.Library.Raises
import Conveyor.QueueEdits
import Conveyor.QueueInterleaving

/-!
# The queue controls, called alone

`prioritize`, `transition_ready` and `transition_backlog` (`queue_control.py`) check the queue as
it was read and edit the document as it is written: they find the feature a second time, under its
identifier without normalization, and write before they read back. `queue_controls_iff` says of
which calls it is true that they change what they were asked to change and nothing else.
-/

namespace Conveyor

open Library

/-- The class of the error is one of the controller's own. -/
def ErrorKind.isConveyorError : ErrorKind → Bool
  | conveyorError | schemaValidationError | repositoryError | lockError | ambiguousLockError
  | recoveryError | sessionError | transactionError | evidenceError | corruptEvidenceError
  | projectionError | staleProjectionCache | queueError | autopilotStopRequested
  | invalidTransition | integrationPlanError | safetyViolation | configurationError => true
  | osError | valueError | typeError | attributeError | keyError | stopIteration
  | assertionError | syntaxError | memoryError | recursionError | unicodeDecodeError
  | unicodeEncodeError | indexError => false

namespace QueueControls

/-! ### A call -/

/-- A queue is read from a repository with the contract of its execution policies. -/
def repositorySite (P : Platform) (escapes isFile : String → Bool) : QueueSite where
  platform := P
  escapes := escapes
  isFile := isFile
  validateFeatureExecutionPolicy value path :=
    (ExecutionPolicy.validateFeatureExecutionPolicy P value path .queueError).map fun _ => ()

/-- What a call observes of the repository around the queue file. -/
structure Surroundings where
  gitOperation : Bool
  onBranch : Bool
  /-- Changes outside the queue file, before the call and once it has written. -/
  dirty : Bool
  dirtied : Bool
  leased : Bool
  /-- The writer lease cannot be acquired. -/
  refused : Bool

/-- `_mutation_preflight`, up to the reading of the queue. -/
def Surroundings.preflight (around : Surroundings) : Result Unit := do
  require (around.gitOperation = false) (conveyorError
    "queue metadata control is unavailable during an unfinished Git operation")
  require (around.onBranch = true) (conveyorError
    "queue metadata control requires the configured milestone branch")
  require (around.dirty = false) (conveyorError
    "queue metadata control requires a clean repository except for the queue file")
  require (around.leased = false) (conveyorError
    "queue metadata control is unavailable while another writer lease exists")

/-- The bytes of the queue file: those that the call read, or a document written over them. -/
inductive QueueBytes where
  | original
  | rendered (document : Fields)

def QueueBytes.document (original : Fields) : QueueBytes → Fields
  | .original => original
  | .rendered document => document

inductive Classification where
  | priorityUnchanged
  | updated
deriving DecidableEq, Repr

variable (site : QueueSite) (around : Surroundings) (activeMilestone : Option String)

/-- What follows the write: the queue is read again, and nothing else may have changed. -/
def readBack (written : Fields) : Result Unit := do
  let _ ← FeatureQueue.fromLocation site (some (.obj written))
  require (around.dirtied = false) (conveyorError
    "queue metadata control changed a path other than FEATURE_QUEUE.yaml")

/-- `_write_queue_mutation`: a failure behind the write puts the original bytes back. -/
def writeQueueMutation (written : Fields) : Result Classification × QueueBytes :=
  if around.refused then (.error ⟨.lockError, "writer lease cannot be acquired"⟩, .original)
  else
    match readBack site around written with
    | .ok () => (.ok .updated, .rendered written)
    | .error failure => (.error failure, .original)

/-- What a call is about to write, if anything. -/
def planned (operation : QueueOperation) (document : Fields) : Result (Option Fields) := do
  operation.checkArguments
  around.preflight
  operation.rewrite site activeMilestone document

/-- `prioritize`, `transition_ready` or `transition_backlog`, and the bytes that it leaves. -/
def call (operation : QueueOperation) (document : Fields) : Result Classification × QueueBytes :=
  match planned site around activeMilestone operation document with
  | .error failure => (.error failure, .original)
  | .ok none => (.ok .priorityUnchanged, .original)
  | .ok (some written) => writeQueueMutation site around written

/-! ### What a call is asked for -/

/-- The feature stands where it is to stand, between the others in their order. -/
inductive Placed (feature : Fields) (front back : List Fields) :
    Option String → Option String → List Fields → Prop
  | stays : Placed feature front back none none (front ++ feature :: back)
  | before {relativeId : String} {before after : List Fields} {relative : Fields}
      (others : front ++ back = before ++ relative :: after)
      (named : relative.get "id" = .str relativeId) :
      Placed feature front back (some relativeId) (some "before")
        (before ++ feature :: relative :: after)
  | after {relativeId : String} {before after : List Fields} {relative : Fields}
      (others : front ++ back = before ++ relative :: after)
      (named : relative.get "id" = .str relativeId) :
      Placed feature front back (some relativeId) (some "after")
        (before ++ relative :: feature :: after)

/-- The feature with the priority that was asked for. -/
def labelled (priority : Option String) (feature : Fields) : Fields :=
  match priority.bind upperLabel with
  | some label => feature.set "priority" (.str label)
  | none => feature

/-- What an operation asks to become of the features. -/
def Asked (operation : QueueOperation) (features features' : List Fields) : Prop :=
  ∃ front feature back, features = front ++ feature :: back ∧
    match operation with
    | .prioritize featureId relativeId placement priority =>
        feature.get "id" = .str featureId ∧
          Placed (labelled priority feature) front back relativeId placement features'
    | .transitionReady featureId _ =>
        feature.get "id" = .str featureId ∧
          features' = front ++ feature.set "status" (.str "ready") :: back
    | .transitionBacklog featureId _ =>
        feature.get "id" = .str featureId ∧
          features' = front ++ feature.set "status" (.str "proposed") :: back

/-- The document with what was asked for, and otherwise as it was. -/
structure Rewritten (operation : QueueOperation) (document written : Fields) : Prop where
  features : ∃ features features', document.get "features" = .arr (features.map Json.obj) ∧
    written.get "features" = .arr (features'.map Json.obj) ∧ Asked operation features features'
  others : ∀ key, key ≠ "features" → written.get? key = document.get? key

/-- The features' identifiers, in their order. -/
def order (document : Fields) : List Json :=
  (rawFeatures document).map fun feature => feature.get "id"

/-- The priority that is shown of a feature. -/
def labelOf (document : Fields) (featureId : String) : Option String :=
  ((rawFeatures document).find? fun feature => feature.get "id" = .str featureId).map
    fun feature => priorityLabel (feature.get "priority")

/-- What was asked for is there already. -/
def Already (operation : QueueOperation) (featureId : String) (document : Fields) : Prop :=
  ∃ written, Rewritten operation document written ∧ order written = order document ∧
    labelOf written featureId = labelOf document featureId

/-- The controls change exactly what was asked. -/
structure ExactlyAsked (operation : QueueOperation) (document : Fields) : Prop where
  raised : ∀ failure, (call site around activeMilestone operation document).1 = .error failure →
    failure.kind.isConveyorError = true ∧
      (call site around activeMilestone operation document).2 = .original
  unchanged : (call site around activeMilestone operation document).1 = .ok .priorityUnchanged →
    (call site around activeMilestone operation document).2 = .original
  updated : (call site around activeMilestone operation document).1 = .ok .updated →
    ∃ written, (call site around activeMilestone operation document).2 = .rendered written ∧
      Rewritten operation document written
  verdict : ∀ featureId relativeId placement priority,
    operation = .prioritize featureId relativeId placement priority → ∀ classification,
      (call site around activeMilestone operation document).1 = .ok classification →
        (classification = .priorityUnchanged ↔ Already operation featureId document)
  repeated : ∀ featureId relativeId placement priority,
    operation = .prioritize featureId relativeId placement priority → ∀ classification,
      (call site around activeMilestone operation document).1 = .ok classification →
        (call site around activeMilestone operation
          ((call site around activeMilestone operation document).2.document document)).1 =
            .ok .priorityUnchanged

/-! ### Finding and moving a feature -/

section

variable {features front back : List Fields} {feature : Fields} {featureId : String}

theorem placesOf_nil : placesOf [] featureId = [] := rfl

theorem placesOf_cons : placesOf (feature :: back) featureId =
    (if feature.get "id" = .str featureId then [0] else []) ++
      (placesOf back featureId).map (· + 1) := by
  unfold placesOf
  rw [List.mapIdx_cons, List.filterMap_cons]
  have hrest : ((back.mapIdx fun index item => (index + 1, item)).filterMap
      fun entry : Nat × Fields =>
        if entry.2.get "id" = .str featureId then some entry.1 else none) =
      ((back.mapIdx fun index item => (index, item)).filterMap fun entry : Nat × Fields =>
        if entry.2.get "id" = .str featureId then some entry.1 else none).map (· + 1) := by
    rw [List.map_filterMap, List.mapIdx_eq_zipIdx_map, List.mapIdx_eq_zipIdx_map,
      List.filterMap_map, List.filterMap_map]
    refine List.filterMap_congr fun entry _ => ?_
    simp only [Function.comp_apply]
    split_ifs <;> rfl
  split_ifs with hid
  · simpa [hid] using hrest
  · simpa [hid] using hrest

theorem placesOf_eq_nil : placesOf features featureId = [] ↔
    ∀ feature ∈ features, feature.get "id" ≠ .str featureId := by
  induction features with
  | nil => simp [placesOf_nil]
  | cons feature rest ih =>
      rw [placesOf_cons, List.append_eq_nil_iff, List.map_eq_nil_iff, ih, List.forall_mem_cons]
      simp

/-- Where only one feature has the identifier, it is found at its place. -/
theorem placesOf_split (hfeature : feature.get "id" = .str featureId)
    (hfront : ∀ other ∈ front, other.get "id" ≠ .str featureId)
    (hback : ∀ other ∈ back, other.get "id" ≠ .str featureId) :
    placesOf (front ++ feature :: back) featureId = [front.length] := by
  induction front with
  | nil => rw [List.nil_append, placesOf_cons, if_pos hfeature, placesOf_eq_nil.mpr hback]; rfl
  | cons head rest ih =>
      rw [List.forall_mem_cons] at hfront
      rw [List.cons_append, placesOf_cons, if_neg hfront.1, ih hfront.2]
      rfl

/-- The identifiers of the features stay apart. -/
abbrev Apart (features : List Fields) : Prop := (features.map fun item => item.get "id").Nodup

theorem Apart.alone (h : Apart (front ++ feature :: back))
    (hfeature : feature.get "id" = .str featureId) :
    (∀ other ∈ front, other.get "id" ≠ .str featureId) ∧
      ∀ other ∈ back, other.get "id" ≠ .str featureId := by
  rw [Apart, List.map_append, List.map_cons, List.nodup_middle, List.nodup_cons, hfeature] at h
  refine ⟨fun other hother heq => h.1 ?_, fun other hother heq => h.1 ?_⟩
  · exact List.mem_append_left _ (List.mem_map.mpr ⟨other, hother, heq⟩)
  · exact List.mem_append_right _ (List.mem_map.mpr ⟨other, hother, heq⟩)

theorem Apart.places (h : Apart (front ++ feature :: back))
    (hfeature : feature.get "id" = .str featureId) :
    placesOf (front ++ feature :: back) featureId = [front.length] :=
  placesOf_split hfeature (h.alone hfeature).1 (h.alone hfeature).2

theorem insertIdx_length (front back : List Fields) (feature : Fields) :
    (front ++ back).insertIdx front.length feature = front ++ feature :: back := by
  induction front with
  | nil => rfl
  | cons head rest ih => simp [ih]

theorem modify_length (front back : List Fields) (feature : Fields) (f : Fields → Fields) :
    (front ++ feature :: back).modify front.length f = front ++ f feature :: back := by
  induction front with
  | nil => rfl
  | cons head rest ih => simp [ih]

/-- A feature is moved next to another one, the others staying as they are. -/
theorem moveFeature_split (h : Apart (front ++ feature :: back)) {relativeId : String}
    {relative : Fields} (hrelative : relative ∈ front ++ back)
    (hname : relative.get "id" = .str relativeId) :
    ∃ before after, front ++ back = before ++ relative :: after ∧ ∀ placement,
      moveFeature (front ++ feature :: back) front.length relativeId placement =
        .ok (before ++ (if placement = "after" then [relative, feature] else [feature, relative]) ++
          after) := by
  obtain ⟨before, after, hothers⟩ := List.append_of_mem hrelative
  refine ⟨before, after, hothers, fun placement => ?_⟩
  have hapart : Apart (before ++ relative :: after) := by
    rw [Apart, List.map_append, List.map_cons, List.nodup_middle, List.nodup_cons] at h
    rw [← hothers, Apart, List.map_append]
    exact h.2
  have hrest : (front ++ feature :: back).eraseIdx front.length = before ++ relative :: after := by
    rw [List.eraseIdx_append_of_length_le le_rfl, Nat.sub_self, List.eraseIdx_cons_zero, hothers]
  have htaken : (front ++ feature :: back).getD front.length [] = feature := by
    simp [List.getD_eq_getElem?_getD]
  rw [moveFeature, hrest, htaken, hapart.places hname]
  dsimp only
  split_ifs
  · have hbehind := insertIdx_length (before ++ [relative]) after feature
    rw [List.length_append, List.length_singleton] at hbehind
    simpa using hbehind
  · simp [insertIdx_length]

end

/-! ### The features of a queue that was read -/

section

variable {site : QueueSite} {document : Fields} {queue : FeatureQueue}

theorem rawFeatures_eq (document : Fields) :
    rawFeatures document = entries document "features" := rfl

/-- A text without the spaces around it. -/
def strippedText : Json → Json
  | .str text => .str (Platform.strip text)
  | value => value

/-- The queue's identifiers are the document's without the spaces around them. -/
theorem ids_eq (h : QueueRead site document queue) :
    queue.features.map (fun item => item.get "id") =
      (rawFeatures document).map fun item => strippedText (item.get "id") := by
  apply List.ext_getElem?
  intro i
  rw [List.getElem?_map, List.getElem?_map, rawFeatures_eq]
  by_cases hi : i < queue.features.length
  · have hraw : i < (entries document "features").length := by
      rw [h.featureCount]
      exact hi
    obtain ⟨parts, hparts, heq⟩ := h.features i _ _ (List.getElem?_eq_getElem hraw)
      (List.getElem?_eq_getElem hi)
    rw [List.getElem?_eq_getElem hi, List.getElem?_eq_getElem hraw, heq, Option.map_some,
      Option.map_some, parts.get_copy_id, hparts.id, strippedText]
  · have hraw : ¬i < (entries document "features").length := by
      rw [h.featureCount]
      exact hi
    rw [List.getElem?_eq_none (not_lt.mp hi), List.getElem?_eq_none (not_lt.mp hraw)]
    rfl

theorem apart (h : QueueRead site document queue) : Apart (rawFeatures document) := by
  have hids := h.featureIds
  rw [ids_eq h] at hids
  refine List.Nodup.of_map strippedText ?_
  rw [List.map_map]
  exact hids

/-- The copy of a feature that is found under its identifier as it is written. -/
theorem copy_of_named (h : QueueRead site document queue) {raw feature : Fields}
    {featureId : String} (hraw : raw ∈ rawFeatures document)
    (hid : raw.get "id" = .str featureId) (hfeature : queue.feature featureId = some feature) :
    ∃ path parts, FeatureAccepted site queue.milestones path raw parts ∧
      feature = parts.copy raw := by
  obtain ⟨i, copied, parts, -, hi, hparts, rfl⟩ := h.feature_entry hraw
  refine ⟨_, parts, hparts, ?_⟩
  obtain ⟨hmem, hname⟩ := (FeatureQueue.feature_eq_some h).mp hfeature
  obtain ⟨_, raw', parts', -, -, hparts', rfl⟩ := h.feature_copy hmem
  have hown : parts.id = featureId := Json.str.inj (hparts.id.symm.trans hid)
  have hfound : queue.feature featureId = some (parts.copy raw) := by
    refine (FeatureQueue.feature_eq_some h).mpr ⟨List.mem_of_getElem? hi, ?_⟩
    rw [parts'.get_copy_id] at hname
    have hstripped : Platform.strip parts'.id = featureId := Json.str.inj hname
    rw [parts.get_copy_id, hown, ← hstripped, Platform.strip_strip]
  exact Option.some.inj (hfeature.symm.trans hfound)

end

/-! ### What `prioritize` does -/

/-- The features that a prioritization names are there, and belong to the active milestone. -/
structure Admits (queue : FeatureQueue) (features : List Fields) (featureId : String)
    (relativeId : Option String) : Prop where
  named : ∃ feature ∈ features, feature.get "id" = .str featureId
  relative : ∀ relativeName ∈ relativeId, ∃ feature ∈ features,
    feature.get "id" = .str relativeName
  active : ∃ feature, queue.feature featureId = some feature ∧
    feature.get "milestone" = .ofOption activeMilestone
  relativeActive : ∀ relativeName ∈ relativeId, ∀ feature,
    queue.feature relativeName = some feature →
      feature.get "milestone" = .ofOption activeMilestone

section

variable {site : QueueSite} {document : Fields} {queue : FeatureQueue}
  {activeMilestone : Option String} {featureId : String}
  {relativeId placement priority : Option String}

/-- A priority that is asked for leaves the identifier alone. -/
theorem labelled_id (priority : Option String) (feature : Fields) :
    (labelled priority feature).get "id" = feature.get "id" := by
  unfold labelled
  split <;> simp [Fields.get, Fields.get?_set]

/-- A feature is named by one entry or by none. -/
theorem placesOf_length (h : QueueRead site document queue) :
    (placesOf (rawFeatures document) featureId).length = 1 ↔
      ∃ raw ∈ rawFeatures document, raw.get "id" = .str featureId := by
  constructor
  · intro hlength
    by_contra hnone
    push Not at hnone
    rw [placesOf_eq_nil.mpr hnone] at hlength
    cases hlength
  · rintro ⟨raw, hraw, hid⟩
    obtain ⟨front, back, hsplit⟩ := List.append_of_mem hraw
    have hplaces := Apart.places (hsplit ▸ apart h) hid
    rw [hsplit, hplaces]
    rfl

/-- The move of `prioritize`, where one is asked for. -/
def moveIfAsked (features : List Fields) (place : Nat) (relativeId placement : Option String) :
    Result (List Fields) :=
  match relativeId, placement with
  | some relative, some placement => moveFeature features place relative placement
  | _, _ => .ok features

/-- The checks of `prioritize` on the features that it names. -/
theorem prioritize_eq (h : QueueRead site document queue) {front back : List Fields}
    {raw : Fields} (hsplit : rawFeatures document = front ++ raw :: back)
    (hid : raw.get "id" = .str featureId) :
    prioritize site.platform activeMilestone featureId relativeId placement priority queue
        (rawFeatures document) = (do
      let named := relativeId.getD ""
      require (∀ relative ∈ relativeId, (placesOf (rawFeatures document) relative).length = 1)
        (queueError s!"unknown or duplicate relative feature: {named}")
      match queue.feature featureId with
      | none => .error (queueError "prioritize features must belong to the active milestone")
      | some feature => do
          require (feature.get "milestone" = .ofOption activeMilestone ∧
              ∀ relative ∈ (relativeId.filter (· ≠ "")).map queue.feature, ∀ item ∈ relative,
                item.get "milestone" = .ofOption activeMilestone)
            (queueError "prioritize features must belong to the active milestone")
          let moved ← moveIfAsked (front ++ labelled priority raw :: back) front.length relativeId
            placement
          return if (moved.map fun item => site.platform.str (item.get "id")) =
              ((rawFeatures document).map fun item => site.platform.str (item.get "id")) ∧
              priorityLabel (feature.get "priority") = priorityLabel (.ofOption priority)
            then none else some moved) := by
  have hplaces : placesOf (rawFeatures document) featureId = [front.length] := by
    rw [hsplit]
    exact Apart.places (hsplit ▸ apart h) hid
  have hlabelled : ∀ label : String, (rawFeatures document).modify front.length
      (fun item => item.set "priority" (.str label)) =
        front ++ raw.set "priority" (.str label) :: back := by
    intro label
    rw [hsplit]
    exact modify_length front back raw _
  unfold prioritize labelled
  rw [hplaces]
  dsimp only
  refine congrArg _ (funext fun _ => ?_)
  cases queue.feature featureId with
  | none => rfl
  | some feature =>
      dsimp only
      refine congrArg _ (funext fun _ => ?_)
      cases priority.bind upperLabel with
      | none =>
          dsimp only
          rw [hsplit]
          cases relativeId <;> cases placement <;> dsimp only <;>
            exact congrArg _ (funext fun moved => by split_ifs <;> rfl)
      | some label =>
          dsimp only
          rw [hlabelled]
          cases relativeId <;> cases placement <;> dsimp only <;>
            exact congrArg _ (funext fun moved => by split_ifs <;> rfl)

/-- Where the features are not admitted, `prioritize` raises. -/
theorem prioritize_refused (h : QueueRead site document queue)
    (hrefused : ¬Admits activeMilestone queue (rawFeatures document) featureId relativeId) :
    ∃ message, prioritize site.platform activeMilestone featureId relativeId placement priority
      queue (rawFeatures document) = .error (queueError message) := by
  by_cases hnamed : ∃ raw ∈ rawFeatures document, raw.get "id" = .str featureId
  · obtain ⟨raw, hraw, hid⟩ := hnamed
    obtain ⟨front, back, hsplit⟩ := List.append_of_mem hraw
    rw [prioritize_eq h hsplit hid]
    dsimp only
    by_cases hrelative : ∀ relative ∈ relativeId,
        (placesOf (rawFeatures document) relative).length = 1
    · rw [require_of hrelative, ok_bind]
      cases hfeature : queue.feature featureId with
      | none => exact ⟨_, rfl⟩
      | some feature =>
          dsimp only
          rw [require, if_neg]
          · exact ⟨_, rfl⟩
          · rintro ⟨hactive, hothers⟩
            refine hrefused ⟨⟨raw, hraw, hid⟩, fun relative hmem =>
              (placesOf_length h).mp (hrelative relative hmem), ⟨feature, hfeature, hactive⟩, ?_⟩
            intro relative hmem item hitem
            have hname : relative ≠ "" := by
              rintro rfl
              obtain ⟨other, hother, hempty⟩ := (placesOf_length h).mp (hrelative "" hmem)
              obtain ⟨_, _, parts, _, _, hparts, _⟩ := h.feature_entry hother
              have htext := hparts.idText
              rw [Json.str.inj (hparts.id.symm.trans hempty)] at htext
              cases htext
            refine hothers _ ?_ item hitem
            rw [Option.mem_def] at hmem ⊢
            rw [hmem, Option.filter_some_pos (by simpa using hname)]
            rfl
    · rw [require, if_neg hrelative]
      exact ⟨_, rfl⟩
  · push Not at hnamed
    rw [prioritize, placesOf_eq_nil.mpr hnamed]
    exact ⟨_, rfl⟩

/-- What the arguments of `prioritize` are asked for. -/
theorem prioritize_checked :
    (QueueOperation.prioritize featureId relativeId placement priority).checkArguments = .ok () ↔
      (∀ value ∈ placement, value ∈ ["before", "after"]) ∧
        relativeId.isNone = placement.isNone ∧ (relativeId ≠ none ∨ priority ≠ none) ∧
        (∀ value ∈ priority, upperLabel value ≠ none) ∧ relativeId ≠ some featureId := by
  unfold QueueOperation.checkArguments
  rw [require_bind_eq_ok, require_bind_eq_ok, require_bind_eq_ok, require_bind_eq_ok,
    require_eq_ok]

/-- The identifiers of the queue's entries are texts. -/
theorem id_text (h : QueueRead site document queue) {raw : Fields}
    (hraw : raw ∈ rawFeatures document) : ∃ id, raw.get "id" = .str id := by
  obtain ⟨_, _, parts, _, _, hparts, _⟩ := h.feature_entry hraw
  exact ⟨parts.id, hparts.id⟩

/-- As texts the identifiers are in the same order. -/
theorem map_str_iff {P : Platform} {features features' : List Fields}
    (h : ∀ feature ∈ features, ∃ id, feature.get "id" = .str id)
    (h' : ∀ feature ∈ features', ∃ id, feature.get "id" = .str id) :
    (features.map fun item => P.str (item.get "id")) =
        (features'.map fun item => P.str (item.get "id")) ↔
      (features.map fun item => item.get "id") = features'.map fun item => item.get "id" := by
  have hstr : ∀ items : List Fields, (∀ item ∈ items, ∃ id, item.get "id" = .str id) →
      (items.map fun item => item.get "id") =
        (items.map fun item => P.str (item.get "id")).map Json.str := by
    intro items hitems
    rw [List.map_map]
    refine List.map_congr_left fun item hitem => ?_
    obtain ⟨id, hid⟩ := hitems item hitem
    simp [hid]
  constructor
  · intro heq
    rw [hstr _ h, hstr _ h', heq]
  · intro heq
    rw [hstr _ h, hstr _ h'] at heq
    exact List.map_injective_iff.mpr (fun _ _ => Json.str.inj) heq

/-- A placement keeps the other features. -/
theorem Placed.perm {feature : Fields} {front back features : List Fields}
    (h : Placed feature front back relativeId placement features) :
    features.Perm (feature :: (front ++ back)) := by
  cases h with
  | stays => exact List.perm_middle
  | before others _ =>
      rw [others]
      exact List.perm_middle
  | @after relativeId before after relative others _ =>
      rw [others]
      have hbehind : (before ++ relative :: feature :: after).Perm
          (feature :: (before ++ [relative] ++ after)) := by
        simpa using @List.perm_middle _ feature (before ++ [relative]) after
      simpa using hbehind

/-- Where they are, it asks for what it was asked for, unless it finds nothing to change. -/
theorem prioritize_admitted (h : QueueRead site document queue)
    (hadmits : Admits activeMilestone queue (rawFeatures document) featureId relativeId)
    (hchecked : (QueueOperation.prioritize featureId relativeId placement priority).checkArguments =
      .ok ()) :
    ∃ front raw back moved, rawFeatures document = front ++ raw :: back ∧
      raw.get "id" = .str featureId ∧
      Placed (labelled priority raw) front back relativeId placement moved ∧
      prioritize site.platform activeMilestone featureId relativeId placement priority
        queue (rawFeatures document) =
          .ok (if (moved.map fun item => item.get "id") =
              ((rawFeatures document).map fun item => item.get "id") ∧
              priorityLabel (raw.get "priority") = priorityLabel (.ofOption priority)
            then none else some moved) := by
  obtain ⟨raw, hraw, hid⟩ := hadmits.named
  obtain ⟨front, back, hsplit⟩ := List.append_of_mem hraw
  obtain ⟨feature, hfeature, hactive⟩ := hadmits.active
  obtain ⟨path, parts, hparts, hcopy⟩ := copy_of_named h hraw hid hfeature
  have hpriority : feature.get "priority" = raw.get "priority" := by
    rw [hcopy, FeatureParts.get_copy (by decide)]
  have hothers : ∀ relative ∈ (relativeId.filter (· ≠ "")).map queue.feature, ∀ item ∈ relative,
      item.get "milestone" = .ofOption activeMilestone := by
    intro relative hrelative item hitem
    obtain ⟨name, hname, rfl⟩ := Option.map_eq_some_iff.mp hrelative
    exact hadmits.relativeActive name (Option.mem_filter_iff.mp hname).1 item hitem
  obtain ⟨hplacement, hboth, hasked, hpriorities, hself⟩ := prioritize_checked.mp hchecked
  have hmoved : ∃ moved, Placed (labelled priority raw) front back relativeId placement moved ∧
      moveIfAsked (front ++ labelled priority raw :: back) front.length relativeId placement =
        .ok moved := by
    have hapart : Apart (front ++ labelled priority raw :: back) := by
      have hsame : ((front ++ labelled priority raw :: back).map fun item => item.get "id") =
          (rawFeatures document).map fun item => item.get "id" := by
        simp [hsplit, labelled_id]
      rw [Apart, hsame]
      exact apart h
    cases relativeId with
    | none =>
        cases placement with
        | none => exact ⟨_, .stays, rfl⟩
        | some value => cases hboth
    | some relative =>
        cases placement with
        | none => cases hboth
        | some value =>
            obtain ⟨other, hother, hname⟩ := hadmits.relative relative rfl
            have hbeside : other ∈ front ++ back := by
              rw [hsplit, List.mem_append, List.mem_cons] at hother
              rcases hother with hfront | rfl | hback
              · exact List.mem_append_left _ hfront
              · exact absurd (congrArg some (Json.str.inj (hname.symm.trans hid))) hself
              · exact List.mem_append_right _ hback
            obtain ⟨before, after, hbefore, hmove⟩ := moveFeature_split hapart hbeside hname
            have hvalue := hplacement value rfl
            simp only [List.mem_cons, List.not_mem_nil, or_false] at hvalue
            rcases hvalue with rfl | rfl
            · refine ⟨_, .before hbefore hname, (hmove "before").trans ?_⟩
              rw [if_neg (by decide), List.append_assoc]
              rfl
            · refine ⟨_, .after hbefore hname, (hmove "after").trans ?_⟩
              rw [if_pos rfl, List.append_assoc]
              rfl
  obtain ⟨moved, hplaced, hmoved⟩ := hmoved
  refine ⟨front, raw, back, moved, hsplit, hid, hplaced, ?_⟩
  rw [prioritize_eq h hsplit hid]
  dsimp only
  rw [require_of fun relative hmem => (placesOf_length h).mpr (hadmits.relative relative hmem),
    ok_bind, hfeature]
  dsimp only
  rw [require_of ⟨hactive, hothers⟩, ok_bind, hmoved, ok_bind, hpriority]
  have htexts : ∀ feature ∈ moved, ∃ id, feature.get "id" = .str id := by
    intro other hother
    rcases List.mem_cons.mp (hplaced.perm.subset hother) with rfl | hother
    · exact ⟨featureId, (labelled_id priority raw).trans hid⟩
    · apply id_text h
      rw [hsplit, List.mem_append, List.mem_cons]
      rcases List.mem_append.mp hother with hfront | hback
      · exact Or.inl hfront
      · exact Or.inr (Or.inr hback)
  have horder := map_str_iff (P := site.platform) htexts fun feature => id_text h
  refine congrArg Except.ok (if_congr (and_congr_left' horder) rfl rfl)

end

/-! ### The document that is written -/

section

variable {site : QueueSite} {document : Fields} {queue queue' : FeatureQueue}
  {front back features : List Fields} {raw raw' : Fields}

/-- The identifiers of the queue's features, with their milestones. -/
def memberships (queue : FeatureQueue) : List (Json × Json) :=
  queue.features.map fun feature => (feature.get "id", feature.get "milestone")

theorem feature_milestone (h : QueueRead site document queue) {featureId : String}
    {milestone : Json} :
    (∃ feature, queue.feature featureId = some feature ∧ feature.get "milestone" = milestone) ↔
      (Json.str featureId, milestone) ∈ memberships queue := by
  rw [memberships, List.mem_map]
  refine exists_congr fun feature => ?_
  rw [FeatureQueue.feature_eq_some h, Prod.mk.injEq, and_assoc]

theorem memberships_of_forall₂ (h : List.Forall₂ SameFeature queue.features queue'.features) :
    memberships queue' = memberships queue := by
  unfold memberships
  generalize queue.features = features, queue'.features = features' at h ⊢
  induction h with
  | nil => rfl
  | cons hab _ ih => rw [List.map_cons, List.map_cons, ih, hab.id, hab.milestone]

@[simp] theorem get_withFeatures_features :
    (withFeatures document features).get "features" = .arr (features.map Json.obj) := by
  simp [withFeatures, Fields.get]

theorem get?_withFeatures {key : String} (h : key ≠ "features") :
    (withFeatures document features).get? key = document.get? key := by
  simp [withFeatures, Fields.get?_set, h]

theorem rawFeatures_withFeatures : rawFeatures (withFeatures document features) = features := by
  rw [rawFeatures_eq]
  exact entries_of_objects get_withFeatures_features

/-- With one feature edited, and in whatever order, the document is still a queue. -/
theorem reads_rewritten (hpolicy : site.PlaceFree) (h : QueueRead site document queue)
    (hsplit : rawFeatures document = front ++ raw :: back)
    (hedit : FeatureEdit site.platform raw raw') (hperm : features.Perm (raw' :: (front ++ back))) :
    ∃ queue', QueueRead site (withFeatures document features) queue' ∧
      (memberships queue').Perm (memberships queue) := by
  have hmilestones : ∀ features : List Fields,
      (withFeatures document features).get "milestones" = document.get "milestones" := by
    intro features
    rw [Fields.get, get?_withFeatures (by decide), Fields.get]
  have hkept : ∀ other ∈ rawFeatures document, FeatureEdit site.platform other other := by
    intro other hother
    obtain ⟨_, _, _, _, _, hparts, _⟩ := h.feature_entry hother
    exact hparts.edit_refl
  have hdocument : DocumentEdit site.platform document
      (withFeatures document (front ++ raw' :: back)) (entries document "milestones")
      (front ++ raw' :: back) := {
    milestoneObjects := by
      rw [hmilestones]
      exact h.milestoneObjects
    featureObjects := get_withFeatures_features
    milestones := List.forall₂_same.mpr fun _ _ => rfl
    features := by
      rw [← rawFeatures_eq, hsplit]
      rw [hsplit] at hkept
      refine List.rel_append (List.forall₂_same.mpr fun other hother => ?_)
        (.cons hedit (List.forall₂_same.mpr fun other hother => ?_))
      · exact hkept other (List.mem_append_left _ hother)
      · exact hkept other (List.mem_append_right _ (List.mem_cons_of_mem _ hother)) }
  obtain ⟨edited, hread, _, hsame⟩ := h.edit hdocument
  obtain ⟨queue', hread', _, hfeatures⟩ := hread.permute hpolicy
    ((hmilestones features).trans (hmilestones _).symm) get_withFeatures_features (by
      rw [← rawFeatures_eq, rawFeatures_withFeatures]
      exact hperm.trans List.perm_middle.symm)
  refine ⟨queue', hread', ?_⟩
  rw [← memberships_of_forall₂ hsame]
  exact hfeatures.map _

/-- The edits of the controls leave every name alone. -/
theorem featureEdit_set (h : FeatureEdit site.platform raw raw) {key : String} {value : Json}
    (hkey : key ∉ KEPT_FIELDS) (hcommit : key ≠ "accepted_commit")
    (hstatus : key = "status" → ∃ text, value = .str text ∧ Platform.hasText text = true ∧
      statusName site.platform text ∈ SUPPORTED_STATUSES) :
    FeatureEdit site.platform raw (raw.set key value) where
  keeps other hother := by
    rw [Fields.get?_set, if_neg]
    rintro rfl
    exact hkey hother
  status := by
    by_cases heq : key = "status"
    · obtain ⟨text, rfl, htext⟩ := hstatus heq
      exact ⟨text, by simp [Fields.get, heq], htext⟩
    · obtain ⟨text, hvalue, htext⟩ := h.status
      refine ⟨text, ?_, htext⟩
      rw [Fields.get, Fields.get?_set, if_neg (Ne.symm heq), ← Fields.get]
      exact hvalue
  commit := by
    refine Or.inl ?_
    rw [Fields.get?_set, if_neg hcommit.symm]

end

/-! ### What a call raises -/

/-- The failure is not one of the controller's own. -/
def Foreign (failure : Failure) : Prop := failure.kind.isConveyorError = false

theorem conveyorError_own (message : String) : ¬Foreign (conveyorError message) := nofun

theorem queueError_own (message : String) : ¬Foreign (queueError message) := nofun

/-- Nothing of the repository keeps a call from reading the queue. -/
structure Surroundings.Calm (around : Surroundings) : Prop where
  gitOperation : around.gitOperation = false
  onBranch : around.onBranch = true
  dirty : around.dirty = false
  leased : around.leased = false

section

variable {site : QueueSite} {around : Surroundings} {activeMilestone : Option String}
  {operation : QueueOperation} {document : Fields} {queue : FeatureQueue} {featureId : String}
  {relativeId placement priority : Option String}

theorem preflight_eq_ok : around.preflight = .ok () ↔ around.Calm := by
  unfold Surroundings.preflight
  rw [require_bind_eq_ok, require_bind_eq_ok, require_bind_eq_ok, require_eq_ok]
  constructor
  · rintro ⟨hgit, hbranch, hdirty, hleased⟩
    exact ⟨hgit, hbranch, hdirty, hleased⟩
  · intro h
    exact ⟨h.gitOperation, h.onBranch, h.dirty, h.leased⟩

theorem preflight_raises : ¬Raises Foreign around.preflight := by
  unfold Surroundings.preflight
  rw [raises_require_bind (conveyorError_own _), raises_require_bind (conveyorError_own _),
    raises_require_bind (conveyorError_own _)]
  rintro ⟨_, _, _, hlast⟩
  exact not_raises_require (conveyorError_own _) hlast

theorem checkArguments_raises : ¬Raises Foreign operation.checkArguments := by
  cases operation with
  | prioritize featureId relativeId placement priority =>
      unfold QueueOperation.checkArguments
      rw [raises_require_bind (conveyorError_own _), raises_require_bind (conveyorError_own _),
        raises_require_bind (conveyorError_own _), raises_require_bind (queueError_own _)]
      rintro ⟨_, _, _, _, hlast⟩
      exact not_raises_require (queueError_own _) hlast
  | transitionReady featureId activeTransaction => exact not_raises_require (conveyorError_own _)
  | transitionBacklog featureId activeTransaction => exact not_raises_require (conveyorError_own _)

/-- What an operation makes of the features of a queue that was read. -/
def edited (site : QueueSite) (activeMilestone : Option String) (queue : FeatureQueue)
    (features : List Fields) : QueueOperation → Result (Option (List Fields))
  | .prioritize featureId relativeId placement priority =>
      prioritize site.platform activeMilestone featureId relativeId placement priority queue
        features
  | .transitionReady featureId _ => transitionReady site activeMilestone featureId queue features
  | .transitionBacklog featureId _ => transitionBacklog activeMilestone featureId queue features

theorem rewrite_eq (hqueue : FeatureQueue.ofFields site document = .ok queue) :
    operation.rewrite site activeMilestone document =
      (edited site activeMilestone queue (rawFeatures document) operation).map
        (Option.map (withFeatures document)) := by
  unfold QueueOperation.rewrite
  rw [hqueue, ok_bind]
  cases operation <;> rfl

/-- What a call plans, once nothing keeps it from it. -/
theorem planned_eq (hqueue : FeatureQueue.ofFields site document = .ok queue)
    (hchecked : operation.checkArguments = .ok ()) (hcalm : around.Calm) :
    planned site around activeMilestone operation document =
      (edited site activeMilestone queue (rawFeatures document) operation).map
        (Option.map (withFeatures document)) := by
  rw [planned, hchecked, ok_bind, preflight_eq_ok.mpr hcalm, ok_bind, rewrite_eq hqueue]

theorem planned_eq_ok (hqueue : FeatureQueue.ofFields site document = .ok queue)
    {plan : Option Fields} :
    planned site around activeMilestone operation document = .ok plan ↔
      operation.checkArguments = .ok () ∧ around.Calm ∧
        ∃ features, edited site activeMilestone queue (rawFeatures document) operation =
          .ok features ∧ plan = features.map (withFeatures document) := by
  constructor
  · intro h
    obtain ⟨_, hchecked, hrest⟩ := bind_eq_ok.mp h
    obtain ⟨_, hcalm, _⟩ := bind_eq_ok.mp hrest
    have hcalm := preflight_eq_ok.mp hcalm
    refine ⟨hchecked, hcalm, ?_⟩
    rw [planned_eq hqueue hchecked hcalm] at h
    cases hedited : edited site activeMilestone queue (rawFeatures document) operation with
    | error failure =>
        rw [hedited] at h
        cases h
    | ok features =>
        rw [hedited] at h
        cases h
        exact ⟨features, rfl, rfl⟩
  · rintro ⟨hchecked, hcalm, features, hedited, rfl⟩
    rw [planned_eq hqueue hchecked hcalm, hedited]
    rfl

/-- A call raises something of its own making only where its edit does. -/
theorem planned_raises (hqueue : FeatureQueue.ofFields site document = .ok queue) :
    Raises Foreign (planned site around activeMilestone operation document) ↔
      operation.checkArguments = .ok () ∧ around.Calm ∧
        Raises Foreign (edited site activeMilestone queue (rawFeatures document) operation) := by
  constructor
  · intro h
    rcases raises_bind.mp h with hargs | ⟨⟨⟩, hchecked, hrest⟩
    · exact absurd hargs checkArguments_raises
    · rcases raises_bind.mp hrest with hflight | ⟨⟨⟩, hcalm, _⟩
      · exact absurd hflight preflight_raises
      · have hcalm := preflight_eq_ok.mp hcalm
        rw [planned_eq hqueue hchecked hcalm, raises_map] at h
        exact ⟨hchecked, hcalm, h⟩
  · rintro ⟨hchecked, hcalm, h⟩
    rw [planned_eq hqueue hchecked hcalm, raises_map]
    exact h

theorem prioritize_raises (h : QueueRead site document queue)
    (hchecked : (QueueOperation.prioritize featureId relativeId placement priority).checkArguments =
      .ok ()) :
    ¬Raises Foreign (prioritize site.platform activeMilestone featureId relativeId placement
      priority queue (rawFeatures document)) := by
  by_cases hadmits : Admits activeMilestone queue (rawFeatures document) featureId relativeId
  · obtain ⟨_, _, _, _, _, _, _, hresult⟩ := prioritize_admitted h hadmits hchecked
    rw [hresult]
    exact raises_ok _
  · obtain ⟨message, hresult⟩ := @prioritize_refused site document queue activeMilestone featureId
      relativeId placement priority h hadmits
    rw [hresult, raises_error]
    exact queueError_own message

end

/-! ### What the transitions do -/

/-- A value that `in` looks into. -/
def isContainer : Json → Bool
  | .arr _ | .obj _ | .str _ => true
  | _ => false

/-- Whether the dependency was integrated cannot be read off its milestone. -/
def Unreadable (P : Platform) (queue : FeatureQueue) (dependencyId : String) : Prop :=
  ∃ dependency, queue.feature dependencyId = some dependency ∧
    dependency.get "status" = .str "integrated" ∧
    dependency.get "integration_status" = .str "passed" ∧
    (dependency.get "integrated_commit").asString? ≠ none ∧
    ∃ milestone, queue.milestone P (P.str (dependency.get "milestone")) = some milestone ∧
      isContainer (milestone.getD "integrated_features" (.arr [])) = false

/-- No human and no blocker stands before the dependencies of the feature. -/
def Unblocked (feature : Fields) : Prop :=
  feature.get "requires_human_decision" ≠ .bool true ∧
    ∀ text, firstTruthy [feature.get "blocked_reason", feature.get "blocking_reason"] = .str text →
      Platform.hasText text = false

section

variable {site : QueueSite} {P : Platform} {queue : FeatureQueue} {feature : Fields}
  {features : List Fields} {activeMilestone : Option String} {featureId : String}

theorem isIn_cases (value : String) (container : Json) :
    (isContainer container = true ∧ ∃ found, FeatureQueue.isIn value container = .ok found) ∨
      (isContainer container = false ∧ Raises Foreign (FeatureQueue.isIn value container)) := by
  cases container <;> simp [isContainer, FeatureQueue.isIn, Foreign, ErrorKind.isConveyorError]

theorem dependencyComplete_cases (dependencyId : String) :
    (¬Unreadable P queue dependencyId ∧
        ∃ complete, queue.dependencyComplete P dependencyId = .ok complete) ∨
      (Unreadable P queue dependencyId ∧
        Raises Foreign (queue.dependencyComplete P dependencyId)) := by
  unfold FeatureQueue.dependencyComplete
  cases hfeature : queue.feature dependencyId with
  | none =>
      refine Or.inl ⟨?_, _, rfl⟩
      rintro ⟨dependency, hdependency, _⟩
      cases hfeature.symm.trans hdependency
  | some dependency =>
      have hunreadable : Unreadable P queue dependencyId ↔
          dependency.get "status" = .str "integrated" ∧
          dependency.get "integration_status" = .str "passed" ∧
          (dependency.get "integrated_commit").asString? ≠ none ∧
          ∃ milestone, queue.milestone P (P.str (dependency.get "milestone")) = some milestone ∧
            isContainer (milestone.getD "integrated_features" (.arr [])) = false := by
        simp [Unreadable, hfeature]
      dsimp only
      rw [hunreadable]
      split_ifs with hcomplete hintegrated hrecorded
      · refine Or.inl ⟨fun h => hcomplete "integrated" (by decide) h.1, _, rfl⟩
      · refine Or.inl ⟨fun h => ?_, _, rfl⟩
        rcases hrecorded with hstatus | hcommit
        · exact hstatus h.2.1
        · exact h.2.2.1 hcommit
      · rw [not_or, not_not] at hrecorded
        cases hmilestone : queue.milestone P (P.str (dependency.get "milestone")) with
        | none => exact Or.inl ⟨by simp, _, rfl⟩
        | some milestone =>
            rcases isIn_cases dependencyId (milestone.getD "integrated_features" (.arr [])) with
              ⟨hcontainer, hfound⟩ | ⟨hcontainer, hraised⟩
            · exact Or.inl ⟨by simp [hcontainer], hfound⟩
            · exact Or.inr ⟨⟨hintegrated, hrecorded.1, hrecorded.2, milestone, rfl, hcontainer⟩,
                hraised⟩
      · exact Or.inl ⟨fun h => hintegrated h.1, _, rfl⟩

theorem incomplete_raises : Raises Foreign (queue.incomplete P feature) ↔
    ∃ dependencyId ∈ FeatureQueue.dependencyIds feature, Unreadable P queue dependencyId := by
  unfold FeatureQueue.incomplete
  change Raises Foreign ((FeatureQueue.dependencyIds feature).mapM (fun dependencyId => do
    let complete ← queue.dependencyComplete P dependencyId
    return (dependencyId, complete)) >>= fun checked =>
      pure ((checked.filter fun entry => !entry.2).map Prod.fst)) ↔ _
  rw [raises_bind]
  simp only [raises_pure, and_false, exists_false, or_false]
  rw [raises_mapM_iff]
  · refine exists_congr fun dependencyId => and_congr_right fun _ => ?_
    rcases @dependencyComplete_cases P queue dependencyId with
      ⟨hreadable, complete, hcomplete⟩ | ⟨hunreadable, hraised⟩
    · simp [hcomplete, hreadable]
    · exact iff_of_true (raises_bind.mpr (Or.inl hraised)) hunreadable
  · intro dependencyId
    rcases @dependencyComplete_cases P queue dependencyId with
      ⟨_, complete, hcomplete⟩ | ⟨_, hraised⟩
    · exact Or.inl ⟨(dependencyId, complete), by rw [hcomplete]; rfl⟩
    · exact Or.inr (raises_bind.mpr (Or.inl hraised))

/-- The reason of a feature that nothing stands before is looked for in its dependencies. -/
theorem readyTransitionReason_unblocked (hstatus : feature.get "status" = .str "proposed")
    (h : Unblocked feature) :
    readyTransitionReason site queue feature = (do
      let incomplete ← queue.incomplete site.platform feature
      if incomplete ≠ [] then
        let names := ", ".intercalate incomplete
        return some s!"Dependencies incomplete: {names}"
      if FeatureQueue.specified site feature = false then
        return some "Feature specification or acceptance criteria are incomplete."
      return none) := by
  unfold readyTransitionReason
  rw [if_neg (not_not.mpr hstatus), if_neg h.1]
  cases hblocker : firstTruthy [feature.get "blocked_reason", feature.get "blocking_reason"] with
  | str text =>
      dsimp only
      rw [if_neg (by simp [h.2 text hblocker])]
  | _ => rfl

theorem readyTransitionReason_blocked (hstatus : feature.get "status" = .str "proposed")
    (h : ¬Unblocked feature) :
    ∃ reason, readyTransitionReason site queue feature = .ok (some reason) := by
  unfold readyTransitionReason
  rw [if_neg (not_not.mpr hstatus)]
  by_cases hhuman : feature.get "requires_human_decision" = .bool true
  · rw [if_pos hhuman]
    exact ⟨_, rfl⟩
  · rw [if_neg hhuman]
    have hblocker : ∃ text, firstTruthy
        [feature.get "blocked_reason", feature.get "blocking_reason"] = .str text ∧
          Platform.hasText text = true := by
      by_contra hnone
      refine h ⟨hhuman, fun text htext => ?_⟩
      by_contra hfilled
      exact hnone ⟨text, htext, by simpa using hfilled⟩
    obtain ⟨text, htext, hfilled⟩ := hblocker
    rw [htext]
    dsimp only
    rw [if_pos hfilled]
    exact ⟨_, rfl⟩

theorem readyTransitionReason_raises (hstatus : feature.get "status" = .str "proposed") :
    Raises Foreign (readyTransitionReason site queue feature) ↔ Unblocked feature ∧
      ∃ dependencyId ∈ FeatureQueue.dependencyIds feature,
        Unreadable site.platform queue dependencyId := by
  by_cases h : Unblocked feature
  · rw [readyTransitionReason_unblocked hstatus h, raises_bind, incomplete_raises]
    have hrest : ∀ incomplete : List String, ¬Raises Foreign (do
        if incomplete ≠ [] then
          let names := ", ".intercalate incomplete
          return some s!"Dependencies incomplete: {names}"
        if FeatureQueue.specified site feature = false then
          return some "Feature specification or acceptance criteria are incomplete."
        return none : Result (Option String)) := by
      intro incomplete
      dsimp only
      split_ifs <;> exact raises_pure _
    simp only [hrest, and_false, exists_false, or_false, h, true_and]
  · obtain ⟨reason, hreason⟩ := @readyTransitionReason_blocked site queue feature hstatus h
    rw [hreason]
    exact iff_of_false (raises_ok _) fun hboth => h hboth.1

end

section

variable {site : QueueSite} {queue : FeatureQueue} {features : List Fields}
  {activeMilestone : Option String} {featureId name source target : String}
  {allows : FeatureQueue → Fields → Result Unit}

/-- A transition raises something else where its own check does, or where the feature that passed
    it is not found again. -/
theorem transition_raises :
    Raises Foreign (transition activeMilestone featureId name source target allows queue features) ↔
      ∃ feature, queue.feature featureId = some feature ∧
        feature.get "milestone" = .ofOption activeMilestone ∧
        feature.get "status" = .str source ∧
        (Raises Foreign (allows queue feature) ∨ (allows queue feature = .ok () ∧
          ∀ raw ∈ features, raw.get "id" ≠ .str featureId)) := by
  unfold transition
  cases hfeature : queue.feature featureId with
  | none => simp [queueError_own]
  | some feature =>
      dsimp only
      rw [raises_require_bind (queueError_own _), raises_require_bind (queueError_own _),
        raises_bind]
      simp only [Option.some.injEq, exists_eq_left']
      refine and_congr_right fun _ => and_congr_right fun _ => or_congr_right ?_
      constructor
      · rintro ⟨⟨⟩, hallowed, hplaces⟩
        refine ⟨hallowed, placesOf_eq_nil.mp ?_⟩
        cases hfound : placesOf features featureId with
        | nil => rfl
        | cons place rest =>
            rw [hfound] at hplaces
            exact absurd hplaces (raises_pure _)
      · rintro ⟨hallowed, hnone⟩
        refine ⟨(), hallowed, ?_⟩
        rw [placesOf_eq_nil.mpr hnone]
        exact raises_error.mpr rfl

/-- A transition that returns has edited the one feature with the identifier. -/
theorem transition_eq_ok (hapart : Apart features) {result : Option (List Fields)}
    (h : transition activeMilestone featureId name source target allows queue features =
      .ok result) :
    ∃ front raw back, features = front ++ raw :: back ∧ raw.get "id" = .str featureId ∧
      result = some (front ++ raw.set "status" (.str target) :: back) := by
  unfold transition at h
  cases hfeature : queue.feature featureId with
  | none =>
      rw [hfeature] at h
      cases h
  | some feature =>
      rw [hfeature] at h
      obtain ⟨_, h⟩ := require_bind_eq_ok.mp h
      obtain ⟨_, h⟩ := require_bind_eq_ok.mp h
      obtain ⟨_, _, h⟩ := bind_eq_ok.mp h
      by_cases hnamed : ∃ raw ∈ features, raw.get "id" = .str featureId
      · obtain ⟨raw, hraw, hid⟩ := hnamed
        obtain ⟨front, back, rfl⟩ := List.append_of_mem hraw
        rw [hapart.places hid] at h
        cases h
        exact ⟨front, raw, back, rfl, hid, by rw [modify_length]⟩
      · push Not at hnamed
        rw [placesOf_eq_nil.mpr hnamed] at h
        cases h

end

/-! ### When a call misses what it was asked for -/

/-- The feature is of the active milestone and has the status that a transition starts from. -/
def Starts (activeMilestone : Option String) (queue : FeatureQueue) (featureId source : String)
    (feature : Fields) : Prop :=
  queue.feature featureId = some feature ∧
    feature.get "milestone" = .ofOption activeMilestone ∧ feature.get "status" = .str source

/-- No feature is written with this identifier. -/
def Unwritten (document : Fields) (featureId : String) : Prop :=
  ∀ raw ∈ rawFeatures document, raw.get "id" ≠ .str featureId

/-- The calls that do something else. A feature is moved without a priority while its own is not
    the neutral one: the call never finds it unchanged. A feature is written with spaces around its
    identifier, or an integrated dependency of it is recorded in something that is no list: the
    transition raises what is no error of the controller. -/
def Misses (site : QueueSite) (around : Surroundings) (activeMilestone : Option String)
    (queue : FeatureQueue) (document : Fields) (operation : QueueOperation) : Prop :=
  operation.checkArguments = .ok () ∧ around.Calm ∧
    match operation with
    | .prioritize featureId relativeId _ priority =>
        around.refused = false ∧ around.dirtied = false ∧ priority = none ∧
          Admits activeMilestone queue (rawFeatures document) featureId relativeId ∧
          labelOf document featureId ≠ some "P2"
    | .transitionReady featureId _ => ∃ feature,
        Starts activeMilestone queue featureId "proposed" feature ∧
          ((Unblocked feature ∧ ∃ dependencyId ∈ FeatureQueue.dependencyIds feature,
              Unreadable site.platform queue dependencyId) ∨
            (readyTransitionReason site queue feature = .ok none ∧ Unwritten document featureId))
    | .transitionBacklog featureId _ => ∃ feature,
        Starts activeMilestone queue featureId "ready" feature ∧ Unwritten document featureId

section

variable {site : QueueSite} {around : Surroundings} {activeMilestone : Option String}
  {operation : QueueOperation} {document : Fields} {queue : FeatureQueue} {featureId : String}
  {relativeId placement priority activeTransaction : Option String}

theorem ready_raises :
    Raises Foreign (transitionReady site activeMilestone featureId queue (rawFeatures document)) ↔
      ∃ feature, Starts activeMilestone queue featureId "proposed" feature ∧
        ((Unblocked feature ∧ ∃ dependencyId ∈ FeatureQueue.dependencyIds feature,
            Unreadable site.platform queue dependencyId) ∨
          (readyTransitionReason site queue feature = .ok none ∧
            Unwritten document featureId)) := by
  unfold transitionReady
  rw [transition_raises]
  refine exists_congr fun feature => ?_
  unfold Starts Unwritten
  rw [and_assoc, and_assoc]
  refine and_congr_right fun _ => and_congr_right fun _ => and_congr_right fun hstatus => ?_
  rw [← readyTransitionReason_raises hstatus]
  refine or_congr ?_ (and_congr_left' ?_)
  · rw [raises_bind]
    have hlast : ∀ reason : Option String, ¬Raises Foreign (do
        let text := reason.getD ""
        require (reason = none) (queueError s!"ready is blocked: {text}")) :=
      fun reason => not_raises_require (queueError_own _)
    simp only [hlast, and_false, exists_false, or_false]
  · rw [bind_eq_ok]
    constructor
    · rintro ⟨reason, hreason, hnone⟩
      cases require_eq_ok.mp hnone
      exact hreason
    · intro hreason
      exact ⟨none, hreason, rfl⟩

theorem backlog_raises :
    Raises Foreign (transitionBacklog activeMilestone featureId queue (rawFeatures document)) ↔
      ∃ feature, Starts activeMilestone queue featureId "ready" feature ∧
        Unwritten document featureId := by
  unfold transitionBacklog
  rw [transition_raises]
  refine exists_congr fun feature => ?_
  unfold Starts Unwritten
  simp [and_assoc]

end

/-! ### What a call writes -/

section

variable {site : QueueSite} {around : Surroundings} {activeMilestone : Option String}
  {operation : QueueOperation} {document written : Fields} {queue : FeatureQueue}
  {featureId : String} {relativeId placement priority : Option String}

theorem rewritten_withFeatures (h : QueueRead site document queue) {features : List Fields}
    (hasked : Asked operation (rawFeatures document) features) :
    Rewritten operation document (withFeatures document features) :=
  ⟨⟨_, features, h.featureObjects, get_withFeatures_features, hasked⟩,
    fun _ hkey => get?_withFeatures hkey⟩

theorem labelled_edit (h : FeatureEdit site.platform raw raw) (priority : Option String) :
    FeatureEdit site.platform raw (labelled priority raw) := by
  unfold labelled
  split
  · exact featureEdit_set h (by decide) (by decide) (fun heq => absurd heq (by decide))
  · exact h

theorem status_edit (h : FeatureEdit site.platform raw raw) {target : String}
    (htarget : target ∈ ["ready", "proposed"]) :
    FeatureEdit site.platform raw (raw.set "status" (.str target)) := by
  refine featureEdit_set h (by decide) (by decide) fun _ => ⟨target, rfl, ?_⟩
  simp only [List.mem_cons, List.not_mem_nil, or_false] at htarget
  rcases htarget with rfl | rfl <;> refine ⟨by decide, ?_⟩ <;>
    rw [statusName_ascii] <;> decide

/-- What an edit leaves is what was asked for, and still a queue. -/
theorem edited_some (hpolicy : site.PlaceFree) (h : QueueRead site document queue)
    (hchecked : operation.checkArguments = .ok ()) {features : List Fields}
    (hedited : edited site activeMilestone queue (rawFeatures document) operation =
      .ok (some features)) :
    Asked operation (rawFeatures document) features ∧
      ∃ queue', QueueRead site (withFeatures document features) queue' ∧
        (memberships queue').Perm (memberships queue) := by
  have hkept : ∀ other ∈ rawFeatures document, FeatureEdit site.platform other other := by
    intro other hother
    obtain ⟨_, _, _, _, _, hparts, _⟩ := h.feature_entry hother
    exact hparts.edit_refl
  have hmember : ∀ {front raw back}, rawFeatures document = front ++ raw :: back →
      raw ∈ rawFeatures document := by
    rintro front raw back hsplit
    rw [hsplit]
    exact List.mem_append_right _ List.mem_cons_self
  cases operation with
  | prioritize featureId relativeId placement priority =>
      by_cases hadmits : Admits activeMilestone queue (rawFeatures document) featureId relativeId
      · obtain ⟨front, raw, back, moved, hsplit, hid, hplaced, hresult⟩ :=
          prioritize_admitted h hadmits hchecked
        have hmoved : features = moved := by
          have hsome := hresult.symm.trans hedited
          split_ifs at hsome
          · cases hsome
          · exact (Option.some.inj (Except.ok.inj hsome)).symm
        rw [hmoved]
        exact ⟨⟨front, raw, back, hsplit, hid, hplaced⟩, reads_rewritten hpolicy h hsplit
          (labelled_edit (hkept raw (hmember hsplit)) priority) hplaced.perm⟩
      · obtain ⟨message, hresult⟩ := @prioritize_refused site document queue activeMilestone
          featureId relativeId placement priority h hadmits
        cases hresult.symm.trans hedited
  | transitionReady featureId activeTransaction =>
      unfold edited transitionReady at hedited
      obtain ⟨front, raw, back, hsplit, hid, hresult⟩ := transition_eq_ok (apart h) hedited
      cases hresult
      exact ⟨⟨front, raw, back, hsplit, hid, rfl⟩, reads_rewritten hpolicy h hsplit
        (status_edit (hkept raw (hmember hsplit)) (by decide)) List.perm_middle⟩
  | transitionBacklog featureId activeTransaction =>
      unfold edited transitionBacklog at hedited
      obtain ⟨front, raw, back, hsplit, hid, hresult⟩ := transition_eq_ok (apart h) hedited
      cases hresult
      exact ⟨⟨front, raw, back, hsplit, hid, rfl⟩, reads_rewritten hpolicy h hsplit
        (status_edit (hkept raw (hmember hsplit)) (by decide)) List.perm_middle⟩

theorem planned_some (hpolicy : site.PlaceFree)
    (hqueue : FeatureQueue.ofFields site document = .ok queue)
    (hplanned : planned site around activeMilestone operation document = .ok (some written)) :
    Rewritten operation document written ∧
      ∃ queue', FeatureQueue.ofFields site written = .ok queue' ∧
        (memberships queue').Perm (memberships queue) := by
  have h := ofFields_eq_ok.mp hqueue
  obtain ⟨hchecked, _, features, hedited, hfeatures⟩ := (planned_eq_ok hqueue).mp hplanned
  obtain ⟨features, rfl, rfl⟩ := Option.map_eq_some_iff.mp hfeatures.symm
  obtain ⟨hasked, queue', hread, hperm⟩ := edited_some hpolicy h hchecked hedited
  exact ⟨rewritten_withFeatures h hasked, queue', ofFields_eq_ok.mpr hread, hperm⟩

/-- A document that is a queue is written unless the lease or another path is in the way. -/
theorem writeQueueMutation_eq (haccepted : FeatureQueue.ofFields site written = .ok queue) :
    writeQueueMutation site around written =
      if around.refused = true then
        (.error ⟨.lockError, "writer lease cannot be acquired"⟩, .original)
      else if around.dirtied = false then (.ok .updated, .rendered written)
      else (.error (conveyorError
        "queue metadata control changed a path other than FEATURE_QUEUE.yaml"), .original) := by
  have hread := QueueInterleaving.fromLocation_of_ofFields haccepted
  unfold writeQueueMutation readBack
  rw [hread, ok_bind, require]
  split_ifs <;> rfl

/-- A call that raises leaves the bytes as they were. -/
theorem call_error {failure : Failure}
    (h : (call site around activeMilestone operation document).1 = .error failure) :
    (call site around activeMilestone operation document).2 = .original := by
  unfold call at h ⊢
  cases hplanned : planned site around activeMilestone operation document with
  | error raised => rfl
  | ok plan =>
      cases plan with
      | none => rfl
      | some written =>
          rw [hplanned] at h
          dsimp only at h ⊢
          unfold writeQueueMutation at h ⊢
          split_ifs at h ⊢
          · rfl
          · split at h
            · cases h
            · rfl

end

/-! ### Asking again -/

section

variable {front front' back back' features moved moved' : List Fields} {raw raw' other : Fields}
  {relativeId placement priority : Option String} {featureId : String} {document : Fields}

/-- A feature is found at one place. -/
theorem Apart.split_unique (h : Apart (front ++ raw :: back))
    (heq : front ++ raw :: back = front' ++ other :: back')
    (hid : raw.get "id" = other.get "id") : front = front' ∧ raw = other ∧ back = back' := by
  have hnodup := h
  rw [Apart, List.map_append, List.map_cons, List.nodup_middle, List.nodup_cons] at hnodup
  rcases List.append_eq_append_iff.mp heq with ⟨between, rfl, hbehind⟩ | ⟨between, rfl, hbehind⟩
  · cases between with
    | nil =>
        cases hbehind
        simp
    | cons head between =>
        cases hbehind
        refine absurd ?_ hnodup.1
        rw [hid]
        simp
  · cases between with
    | nil =>
        cases hbehind
        simp
    | cons head between =>
        cases hbehind
        refine absurd ?_ hnodup.1
        rw [hid]
        simp

theorem Apart.others (h : Apart (front ++ raw :: back)) : Apart (front ++ back) := by
  rw [Apart, List.map_append, List.map_cons, List.nodup_middle, List.nodup_cons] at h
  rw [Apart, List.map_append]
  exact h.2

theorem Placed.before_inv {relativeName : String}
    (h : Placed raw front back (some relativeName) (some "before") moved) :
    ∃ before relative after, front ++ back = before ++ relative :: after ∧
      relative.get "id" = .str relativeName ∧ moved = before ++ raw :: relative :: after := by
  generalize hplacement : some "before" = placement at h
  cases h with
  | before hothers hnamed => exact ⟨_, _, _, hothers, hnamed, rfl⟩
  | after _ _ => exact absurd hplacement (by decide)

theorem Placed.after_inv {relativeName : String}
    (h : Placed raw front back (some relativeName) (some "after") moved) :
    ∃ before relative after, front ++ back = before ++ relative :: after ∧
      relative.get "id" = .str relativeName ∧ moved = before ++ relative :: raw :: after := by
  generalize hplacement : some "after" = placement at h
  cases h with
  | before _ _ => exact absurd hplacement (by decide)
  | after hothers hnamed => exact ⟨_, _, _, hothers, hnamed, rfl⟩

/-- There is one way to place a feature. -/
theorem Placed.unique (hapart : Apart (front ++ back))
    (h : Placed raw front back relativeId placement moved)
    (h' : Placed raw front back relativeId placement moved') : moved = moved' := by
  cases h with
  | stays =>
      cases h'
      rfl
  | before hothers hnamed =>
      obtain ⟨_, _, _, hothers', hnamed', rfl⟩ := h'.before_inv
      obtain ⟨rfl, rfl, rfl⟩ := (hothers ▸ hapart).split_unique
        (hothers.symm.trans hothers') (hnamed.trans hnamed'.symm)
      rfl
  | after hothers hnamed =>
      obtain ⟨_, _, _, hothers', hnamed', rfl⟩ := h'.after_inv
      obtain ⟨rfl, rfl, rfl⟩ := (hothers ▸ hapart).split_unique
        (hothers.symm.trans hothers') (hnamed.trans hnamed'.symm)
      rfl

theorem Placed.apart (h : Placed raw front back relativeId placement moved)
    (hapart : Apart (front ++ raw :: back)) : Apart moved := by
  have hperm := (h.perm.trans List.perm_middle.symm).map fun item : Fields => item.get "id"
  exact hperm.nodup_iff.mpr hapart

/-- A feature that was placed is where it is to be placed. -/
theorem Placed.again (hapart : Apart (front ++ raw :: back))
    (h : Placed raw front back relativeId placement moved)
    (hsplit : moved = front' ++ raw :: back')
    (h' : Placed raw' front' back' relativeId placement moved')
    (hid : raw'.get "id" = raw.get "id") :
    (moved'.map fun item => item.get "id") = moved.map fun item => item.get "id" := by
  have hmoved := h.apart hapart
  cases h with
  | stays =>
      obtain ⟨rfl, -, rfl⟩ := hmoved.split_unique hsplit rfl
      cases h'
      simp [hid]
  | before hothers hnamed =>
      obtain ⟨rfl, -, rfl⟩ := hmoved.split_unique hsplit rfl
      have hrest := hmoved.others
      obtain ⟨_, _, _, hothers', hnamed', rfl⟩ := h'.before_inv
      obtain ⟨rfl, rfl, rfl⟩ := hrest.split_unique hothers' (hnamed.trans hnamed'.symm)
      simp [hid]
  | @after relativeName before after relative hothers hnamed =>
      have hshape : before ++ relative :: raw :: after =
          (before ++ [relative]) ++ raw :: after := by
        simp
      rw [hshape] at hmoved hsplit ⊢
      obtain ⟨rfl, -, rfl⟩ := hmoved.split_unique hsplit rfl
      have hrest := hmoved.others
      obtain ⟨_, _, _, hothers', hnamed', rfl⟩ := h'.after_inv
      rw [List.append_assoc, List.singleton_append] at hrest hothers'
      obtain ⟨rfl, rfl, rfl⟩ := hrest.split_unique hothers' (hnamed.trans hnamed'.symm)
      simp [hid]

theorem labelOf_split (hapart : Apart (front ++ raw :: back))
    (hfeatures : rawFeatures document = front ++ raw :: back)
    (hid : raw.get "id" = .str featureId) :
    labelOf document featureId = some (priorityLabel (raw.get "priority")) := by
  rw [labelOf, hfeatures, List.find?_append, List.find?_cons_of_pos (by simpa using hid)]
  have hfront : front.find? (fun feature => feature.get "id" = .str featureId) = none := by
    rw [List.find?_eq_none]
    intro other hother
    simpa using (hapart.alone hid).1 other hother
  rw [hfront]
  rfl

end

section

variable {site : QueueSite} {around : Surroundings} {activeMilestone : Option String}
  {operation : QueueOperation} {document : Fields} {queue : FeatureQueue} {featureId : String}
  {relativeId placement priority : Option String} {raw : Fields}

theorem upperLabel_idem {value label : String} (h : upperLabel value = some label) :
    upperLabel label = some label := by
  have hmem : label ∈ PRIORITY_LABELS := List.mem_of_find?_eq_some h
  simp only [PRIORITY_LABELS, List.mem_cons, List.not_mem_nil, or_false] at hmem
  rcases hmem with rfl | rfl | rfl <;> decide

/-- A feature shows the priority that it was given. -/
theorem label_labelled {value : String} (h : upperLabel value ≠ none) :
    priorityLabel ((labelled (some value) raw).get "priority") = priorityLabel (.str value) := by
  obtain ⟨label, hlabel⟩ := Option.ne_none_iff_exists'.mp h
  rw [labelled, Option.bind_some, hlabel]
  dsimp only
  rw [Fields.get, Fields.get?_set, if_pos rfl, Option.getD_some, priorityLabel, priorityLabel,
    hlabel, upperLabel_idem hlabel]

/-- The neutral priority, where none is asked for, stands for the one that the feature has. -/
theorem verdict_label (hchecked : ∀ value ∈ priority, upperLabel value ≠ none)
    (hneutral : priority = none → priorityLabel (raw.get "priority") = "P2") :
    priorityLabel (raw.get "priority") = priorityLabel (.ofOption priority) ↔
      priorityLabel ((labelled priority raw).get "priority") =
        priorityLabel (raw.get "priority") := by
  cases priority with
  | none => exact iff_of_true (hneutral rfl) rfl
  | some value =>
      rw [label_labelled (hchecked value rfl)]
      exact eq_comm

/-- What `prioritize` plans: nothing where the order stays and the feature shows the priority that
    was given, or the neutral one. -/
theorem planned_prioritize (hqueue : FeatureQueue.ofFields site document = .ok queue)
    (hchecked : (QueueOperation.prioritize featureId relativeId placement priority).checkArguments =
      .ok ())
    (hcalm : around.Calm)
    (hadmits : Admits activeMilestone queue (rawFeatures document) featureId relativeId) :
    ∃ front raw back moved, rawFeatures document = front ++ raw :: back ∧
      raw.get "id" = .str featureId ∧
      Placed (labelled priority raw) front back relativeId placement moved ∧
      planned site around activeMilestone (.prioritize featureId relativeId placement priority)
        document = .ok (if (moved.map fun item => item.get "id") = order document ∧
            priorityLabel (raw.get "priority") = priorityLabel (.ofOption priority)
          then none else some (withFeatures document moved)) := by
  obtain ⟨front, raw, back, moved, hsplit, hid, hplaced, hresult⟩ :=
    prioritize_admitted (ofFields_eq_ok.mp hqueue) hadmits hchecked
  refine ⟨front, raw, back, moved, hsplit, hid, hplaced, ?_⟩
  rw [planned_eq hqueue hchecked hcalm, edited, hresult]
  unfold order
  split_ifs <;> rfl

/-- A call of `prioritize` that plans something, or nothing, was admitted. -/
theorem admits_of_planned (hqueue : FeatureQueue.ofFields site document = .ok queue)
    {plan : Option Fields}
    (hplanned : planned site around activeMilestone
      (.prioritize featureId relativeId placement priority) document = .ok plan) :
    (QueueOperation.prioritize featureId relativeId placement priority).checkArguments = .ok () ∧
      around.Calm ∧ Admits activeMilestone queue (rawFeatures document) featureId relativeId := by
  obtain ⟨hchecked, hcalm, features, hedited, -⟩ := (planned_eq_ok hqueue).mp hplanned
  refine ⟨hchecked, hcalm, ?_⟩
  by_contra hrefused
  obtain ⟨message, hresult⟩ := @prioritize_refused site document queue activeMilestone featureId
    relativeId placement priority (ofFields_eq_ok.mp hqueue) hrefused
  cases hresult.symm.trans hedited

/-- What was asked of `prioritize` is there already where neither the order nor the priority of
    the feature changes. -/
theorem already_iff (h : QueueRead site document queue) {front back moved : List Fields}
    (hsplit : rawFeatures document = front ++ raw :: back) (hid : raw.get "id" = .str featureId)
    (hplaced : Placed (labelled priority raw) front back relativeId placement moved) :
    Already (.prioritize featureId relativeId placement priority) featureId document ↔
      (moved.map fun item => item.get "id") = order document ∧
        priorityLabel ((labelled priority raw).get "priority") =
          priorityLabel (raw.get "priority") := by
  have hapart : Apart (front ++ raw :: back) := hsplit ▸ apart h
  have hlabelled : Apart (front ++ labelled priority raw :: back) := by
    have hsame : ((front ++ labelled priority raw :: back).map fun item => item.get "id") =
        (front ++ raw :: back).map fun item => item.get "id" := by
      simp [labelled_id]
    rw [Apart, hsame]
    exact hapart
  have hmoved := hplaced.apart hlabelled
  obtain ⟨before, after, hplace⟩ := List.append_of_mem
    (hplaced.perm.symm.subset List.mem_cons_self)
  have hlabel : labelOf (withFeatures document moved) featureId =
      some (priorityLabel ((labelled priority raw).get "priority")) :=
    labelOf_split (hplace ▸ hmoved) (rawFeatures_withFeatures.trans hplace)
      ((labelled_id priority raw).trans hid)
  have hown := labelOf_split hapart hsplit hid
  constructor
  · rintro ⟨written, ⟨⟨features, features', hfeatures, hfeatures', front', raw', back', rfl, hid',
      hplaced'⟩, _⟩, horder, hsame⟩
    have hraws : rawFeatures document = front' ++ raw' :: back' := entries_of_objects hfeatures
    obtain ⟨rfl, rfl, rfl⟩ := hapart.split_unique (hsplit.symm.trans hraws) (hid.trans hid'.symm)
    have hwritten : rawFeatures written = features' := entries_of_objects hfeatures'
    obtain rfl := hplaced.unique hapart.others hplaced'
    have hlabel' := labelOf_split (hplace ▸ hmoved) (hwritten.trans hplace)
      ((labelled_id priority raw).trans hid)
    rw [hlabel', hown] at hsame
    rw [order, hwritten] at horder
    exact ⟨horder, Option.some.inj hsame⟩
  · rintro ⟨horder, hsame⟩
    refine ⟨withFeatures document moved,
      rewritten_withFeatures h ⟨front, raw, back, hsplit, hid, hplaced⟩, ?_, ?_⟩
    · rw [order, rawFeatures_withFeatures]
      exact horder
    · rw [hlabel, hown, hsame]

end

section

variable {site : QueueSite} {around : Surroundings} {activeMilestone : Option String}
  {operation : QueueOperation} {document written : Fields} {queue queue' : FeatureQueue}
  {featureId : String} {relativeId placement priority : Option String}
  {front back moved : List Fields} {raw : Fields}

/-- A prioritization that was admitted is admitted again. -/
theorem admits_again (h : QueueRead site document queue)
    (hadmits : Admits activeMilestone queue (rawFeatures document) featureId relativeId)
    (hsplit : rawFeatures document = front ++ raw :: back)
    (hid : raw.get "id" = .str featureId)
    (hplaced : Placed (labelled priority raw) front back relativeId placement moved)
    (h' : QueueRead site (withFeatures document moved) queue')
    (hperm : (memberships queue').Perm (memberships queue)) :
    Admits activeMilestone queue' (rawFeatures (withFeatures document moved)) featureId
      relativeId := by
  rw [rawFeatures_withFeatures]
  have hown : ∃ feature ∈ moved, feature.get "id" = .str featureId :=
    ⟨_, hplaced.perm.symm.subset List.mem_cons_self, (labelled_id priority raw).trans hid⟩
  refine ⟨hown, fun relativeName hrelative => ?_, ?_,
    fun relativeName hrelative feature hfound => ?_⟩
  · obtain ⟨other, hother, hname⟩ := hadmits.relative relativeName hrelative
    rw [hsplit, List.mem_append, List.mem_cons] at hother
    rcases hother with hfront | rfl | hback
    · exact ⟨other, hplaced.perm.symm.subset
        (List.mem_cons_of_mem _ (List.mem_append_left _ hfront)), hname⟩
    · cases hid.symm.trans hname
      exact hown
    · exact ⟨other, hplaced.perm.symm.subset
        (List.mem_cons_of_mem _ (List.mem_append_right _ hback)), hname⟩
  · exact (feature_milestone h').mpr (hperm.symm.subset ((feature_milestone h).mp hadmits.active))
  · obtain ⟨feature', hfeature', hmilestone⟩ := (feature_milestone h).mpr
      (hperm.subset ((feature_milestone h').mp ⟨feature, hfound, rfl⟩))
    rw [← hmilestone]
    exact hadmits.relativeActive relativeName hrelative feature' hfeature'

/-- Asked again, `prioritize` finds the feature in its place; what it goes by is the priority. -/
theorem planned_again (hpolicy : site.PlaceFree)
    (hqueue : FeatureQueue.ofFields site document = .ok queue)
    (hplanned : planned site around activeMilestone
      (.prioritize featureId relativeId placement priority) document = .ok (some written)) :
    ∃ raw ∈ rawFeatures document, raw.get "id" = .str featureId ∧
      (planned site around activeMilestone (.prioritize featureId relativeId placement priority)
          written = .ok none ↔
        priorityLabel ((labelled priority raw).get "priority") =
          priorityLabel (.ofOption priority)) := by
  have h := ofFields_eq_ok.mp hqueue
  obtain ⟨hchecked, hcalm, hadmits⟩ := admits_of_planned hqueue hplanned
  obtain ⟨front, raw, back, moved, hsplit, hid, hplaced, hplan⟩ :=
    @planned_prioritize site around activeMilestone document queue featureId relativeId placement
      priority hqueue hchecked hcalm hadmits
  have hwritten : written = withFeatures document moved := by
    have hsome := hplan.symm.trans hplanned
    split_ifs at hsome
    · cases hsome
    · exact (Option.some.inj (Except.ok.inj hsome)).symm
  subst hwritten
  obtain ⟨-, queue', hqueue', hperm⟩ := planned_some hpolicy hqueue hplanned
  have h' := ofFields_eq_ok.mp hqueue'
  obtain ⟨front', raw', back', moved', hsplit', hid', hplaced', hplan'⟩ :=
    @planned_prioritize site around activeMilestone _ queue' featureId relativeId placement
      priority hqueue' hchecked hcalm (admits_again h hadmits hsplit hid hplaced h' hperm)
  have hmoved : Apart moved := by
    have hapart := apart h'
    rw [rawFeatures_withFeatures] at hapart
    exact hapart
  have hlabelled : Apart (front ++ labelled priority raw :: back) :=
    (hplaced.perm.trans List.perm_middle.symm).map (fun item : Fields => item.get "id")
      |>.nodup_iff.mp hmoved
  rw [rawFeatures_withFeatures] at hsplit'
  -- the feature that is found again is the one that was placed
  obtain ⟨before, after, hplace⟩ := List.append_of_mem
    (hplaced.perm.symm.subset List.mem_cons_self)
  obtain ⟨rfl, rfl, rfl⟩ := (hplace ▸ hmoved).split_unique (hplace.symm.trans hsplit')
    (((labelled_id priority raw).trans hid).trans hid'.symm)
  have horder : (moved'.map fun item => item.get "id") =
      order (withFeatures document moved) := by
    rw [order, rawFeatures_withFeatures]
    exact hplaced.again hlabelled hplace hplaced' (labelled_id _ _)
  refine ⟨raw, ?_, hid, ?_⟩
  · rw [hsplit]
    exact List.mem_append_right _ List.mem_cons_self
  · rw [hplan']
    simp [horder]

end

/-! ### When the controls change exactly what was asked -/

section

variable {site : QueueSite} {around : Surroundings} {activeMilestone : Option String}
  {operation : QueueOperation} {document : Fields} {queue : FeatureQueue}

theorem call_of_none
    (hplanned : planned site around activeMilestone operation document = .ok none) :
    call site around activeMilestone operation document = (.ok .priorityUnchanged, .original) := by
  rw [call, hplanned]

/-- A call that is in nobody's way writes what it planned. -/
theorem call_of_some (hpolicy : site.PlaceFree)
    (hqueue : FeatureQueue.ofFields site document = .ok queue) {written : Fields}
    (hplanned : planned site around activeMilestone operation document = .ok (some written))
    (hrefused : around.refused = false) (hdirtied : around.dirtied = false) :
    call site around activeMilestone operation document = (.ok .updated, .rendered written) := by
  obtain ⟨-, queue', haccepted, -⟩ := planned_some hpolicy hqueue hplanned
  rw [call, hplanned]
  dsimp only
  rw [writeQueueMutation_eq haccepted, if_neg (by simp [hrefused]), if_pos hdirtied]

/-- What a call returns: that nothing changes, or the document that it planned. -/
theorem call_ok (hpolicy : site.PlaceFree)
    (hqueue : FeatureQueue.ofFields site document = .ok queue) {classification : Classification}
    (h : (call site around activeMilestone operation document).1 = .ok classification) :
    (classification = .priorityUnchanged ∧
        planned site around activeMilestone operation document = .ok none) ∨
      ∃ written, classification = .updated ∧
        planned site around activeMilestone operation document = .ok (some written) ∧
        around.refused = false ∧ around.dirtied = false ∧
        (call site around activeMilestone operation document).2 = .rendered written := by
  unfold call at h ⊢
  cases hplanned : planned site around activeMilestone operation document with
  | error failure =>
      rw [hplanned] at h
      cases h
  | ok plan =>
      rw [hplanned] at h
      cases plan with
      | none =>
          cases h
          exact Or.inl ⟨rfl, rfl⟩
      | some written =>
          obtain ⟨-, queue', haccepted, -⟩ := planned_some hpolicy hqueue hplanned
          dsimp only at h ⊢
          rw [writeQueueMutation_eq haccepted] at h ⊢
          split_ifs at h ⊢ with hrefused hdirtied
          cases h
          exact Or.inr ⟨written, rfl, rfl, by simpa using hrefused, hdirtied, rfl⟩

/-- A call raises what is not the controller's own only where its plan does. -/
theorem call_raises (hpolicy : site.PlaceFree)
    (hqueue : FeatureQueue.ofFields site document = .ok queue) :
    Raises Foreign (call site around activeMilestone operation document).1 ↔
      Raises Foreign (planned site around activeMilestone operation document) := by
  unfold call
  cases hplanned : planned site around activeMilestone operation document with
  | error failure => simp
  | ok plan =>
      cases plan with
      | none => simp
      | some written =>
          obtain ⟨-, queue', haccepted, -⟩ := planned_some hpolicy hqueue hplanned
          dsimp only
          rw [writeQueueMutation_eq haccepted]
          refine iff_of_false ?_ (raises_ok _)
          split_ifs
          · rw [raises_error]
            exact nofun
          · exact raises_ok _
          · rw [raises_error]
            exact conveyorError_own _

/-- The calls that raise something else are among those that miss what they were asked for. -/
theorem misses_of_raises (hqueue : FeatureQueue.ofFields site document = .ok queue)
    (h : Raises Foreign (planned site around activeMilestone operation document)) :
    Misses site around activeMilestone queue document operation := by
  obtain ⟨hchecked, hcalm, hedited⟩ := (planned_raises hqueue).mp h
  refine ⟨hchecked, hcalm, ?_⟩
  cases operation with
  | prioritize featureId relativeId placement priority =>
      exact absurd hedited (prioritize_raises (ofFields_eq_ok.mp hqueue) hchecked)
  | transitionReady featureId activeTransaction => exact ready_raises.mp hedited
  | transitionBacklog featureId activeTransaction => exact backlog_raises.mp hedited

/-- The law about prioritizations, where the call returns that it has changed the feature. -/
theorem neutral_of_updated {featureId : String} {relativeId placement priority : Option String}
    (hqueue : FeatureQueue.ofFields site document = .ok queue)
    (hkeeps : ¬Misses site around activeMilestone queue document
      (.prioritize featureId relativeId placement priority))
    {written : Fields} (hplanned : planned site around activeMilestone
      (.prioritize featureId relativeId placement priority) document = .ok (some written))
    (hrefused : around.refused = false) (hdirtied : around.dirtied = false)
    {raw : Fields} (hraw : raw ∈ rawFeatures document) (hid : raw.get "id" = .str featureId)
    (hnone : priority = none) : priorityLabel (raw.get "priority") = "P2" := by
  obtain ⟨hchecked, hcalm, hadmits⟩ := admits_of_planned hqueue hplanned
  have hapart := apart (ofFields_eq_ok.mp hqueue)
  obtain ⟨front, back, hsplit⟩ := List.append_of_mem hraw
  by_contra hlabel
  refine hkeeps ⟨hchecked, hcalm, hrefused, hdirtied, hnone, hadmits, ?_⟩
  rw [labelOf_split (hsplit ▸ hapart) hsplit hid]
  exact fun heq => hlabel (Option.some.inj heq)

theorem exactlyAsked_of_keeps (hpolicy : site.PlaceFree)
    (hqueue : FeatureQueue.ofFields site document = .ok queue)
    (hkeeps : ¬Misses site around activeMilestone queue document operation) :
    ExactlyAsked site around activeMilestone operation document where
  raised failure hfailure := by
    refine ⟨?_, call_error hfailure⟩
    by_contra hforeign
    refine hkeeps (misses_of_raises hqueue
      ((call_raises hpolicy hqueue).mp ⟨failure, hfailure, ?_⟩))
    exact Bool.eq_false_iff.mpr hforeign
  unchanged hunchanged := by
    rcases call_ok hpolicy hqueue hunchanged with ⟨-, hplanned⟩ | ⟨_, hclassification, _⟩
    · rw [call_of_none hplanned]
    · cases hclassification
  updated hupdated := by
    rcases call_ok hpolicy hqueue hupdated with ⟨hclassification, -⟩ |
      ⟨written, -, hplanned, _, _, hbytes⟩
    · cases hclassification
    · exact ⟨written, hbytes, (planned_some hpolicy hqueue hplanned).1⟩
  verdict := by
    rintro featureId relativeId placement priority rfl classification hreturned
    have h := ofFields_eq_ok.mp hqueue
    have hreads : ∃ plan, planned site around activeMilestone
        (.prioritize featureId relativeId placement priority) document = .ok plan := by
      rcases call_ok hpolicy hqueue hreturned with ⟨-, hplanned⟩ | ⟨written, -, hplanned, -⟩
      · exact ⟨_, hplanned⟩
      · exact ⟨_, hplanned⟩
    obtain ⟨plan, hplan⟩ := hreads
    obtain ⟨hchecked, hcalm, hadmits⟩ := admits_of_planned hqueue hplan
    obtain ⟨front, raw, back, moved, hsplit, hid, hplaced, hprioritized⟩ :=
      @planned_prioritize site around activeMilestone document queue featureId relativeId
        placement priority hqueue hchecked hcalm hadmits
    have hlabels := (prioritize_checked.mp hchecked).2.2.2.1
    have hraw : raw ∈ rawFeatures document := by
      rw [hsplit]
      exact List.mem_append_right _ List.mem_cons_self
    rw [already_iff h hsplit hid hplaced]
    rcases call_ok hpolicy hqueue hreturned with ⟨rfl, hplanned⟩ |
      ⟨written, rfl, hplanned, hrefused, hdirtied, -⟩
    · have hsame : (moved.map fun item => item.get "id") = order document ∧
          priorityLabel (raw.get "priority") = priorityLabel (.ofOption priority) := by
        by_contra hchanged
        rw [if_neg hchanged] at hprioritized
        cases hplanned.symm.trans hprioritized
      refine iff_of_true rfl ⟨hsame.1, (verdict_label hlabels fun hnone => ?_).mp hsame.2⟩
      rw [hsame.2, hnone]
      rfl
    · have hneutral := neutral_of_updated hqueue hkeeps hplanned hrefused hdirtied hraw hid
      rw [← verdict_label hlabels hneutral]
      refine iff_of_false nofun fun hsame => ?_
      rw [if_pos hsame] at hprioritized
      cases hplanned.symm.trans hprioritized
  repeated := by
    rintro featureId relativeId placement priority rfl classification hreturned
    rcases call_ok hpolicy hqueue hreturned with ⟨rfl, hplanned⟩ |
      ⟨written, rfl, hplanned, hrefused, hdirtied, hbytes⟩
    · rw [call_of_none hplanned, QueueBytes.document, call_of_none hplanned]
    · obtain ⟨raw, hraw, hid, hagain⟩ := planned_again hpolicy hqueue hplanned
      obtain ⟨hchecked, _, _⟩ := admits_of_planned hqueue hplanned
      have hlabels := (prioritize_checked.mp hchecked).2.2.2.1
      rw [hbytes, QueueBytes.document, call_of_none (hagain.mpr ?_)]
      have hneutral := neutral_of_updated hqueue hkeeps hplanned hrefused hdirtied hraw hid
      cases priority with
      | none => exact hneutral rfl
      | some value => exact label_labelled (hlabels value rfl)

theorem exactlyAsked_iff (hpolicy : site.PlaceFree)
    (hqueue : FeatureQueue.ofFields site document = .ok queue) :
    ExactlyAsked site around activeMilestone operation document ↔
      ¬Misses site around activeMilestone queue document operation := by
  refine ⟨fun hexact hmisses => ?_, exactlyAsked_of_keeps hpolicy hqueue⟩
  obtain ⟨hchecked, hcalm, hcase⟩ := hmisses
  have hraised : ¬Raises Foreign (planned site around activeMilestone operation document) := by
    rw [← call_raises hpolicy hqueue]
    rintro ⟨failure, hfailure, hforeign⟩
    have hown := (hexact.raised failure hfailure).1
    rw [hforeign] at hown
    cases hown
  rw [planned_raises hqueue] at hraised
  cases operation with
  | prioritize featureId relativeId placement priority =>
      obtain ⟨hrefused, hdirtied, rfl, hadmits, hlabel⟩ := hcase
      obtain ⟨front, raw, back, moved, hsplit, hid, hplaced, hprioritized⟩ :=
        @planned_prioritize site around activeMilestone document queue featureId relativeId
          placement none hqueue hchecked hcalm hadmits
      have hapart := apart (ofFields_eq_ok.mp hqueue)
      have hshown : priorityLabel (raw.get "priority") ≠ "P2" := by
        rw [labelOf_split (hsplit ▸ hapart) hsplit hid] at hlabel
        exact fun heq => hlabel (congrArg some heq)
      rw [if_neg fun hsame => hshown hsame.2] at hprioritized
      -- the call moves the feature, and would not find it unchanged when it is repeated
      obtain ⟨raw', hraw', hid', hagain⟩ := planned_again hpolicy hqueue hprioritized
      obtain ⟨-, queue', hqueue', -⟩ := planned_some hpolicy hqueue hprioritized
      have hcall := call_of_some hpolicy hqueue hprioritized hrefused hdirtied
      have hreturned := congrArg Prod.fst hcall
      have hrepeated := hexact.repeated featureId relativeId placement none rfl _ hreturned
      rw [hcall, QueueBytes.document] at hrepeated
      have hraw : raw ∈ rawFeatures document := by
        rw [hsplit]
        exact List.mem_append_right _ List.mem_cons_self
      have hsame := (ofFields_eq_ok.mp hqueue).entry_unique hraw' hraw (hid'.trans hid.symm)
      rcases call_ok hpolicy hqueue' hrepeated with ⟨-, hplanned⟩ | ⟨_, hclassification, _⟩
      · have hneutral := hagain.mp hplanned
        rw [hsame] at hneutral
        exact hshown hneutral
      · cases hclassification
  | transitionReady featureId activeTransaction =>
      exact hraised ⟨hchecked, hcalm, ready_raises.mpr hcase⟩
  | transitionBacklog featureId activeTransaction =>
      exact hraised ⟨hchecked, hcalm, backlog_raises.mpr hcase⟩

/-- The contract of an execution policy is the same in every place. -/
theorem repositorySite_placeFree (P : Platform) (escapes isFile : String → Bool) :
    (repositorySite P escapes isFile).PlaceFree := by
  intro value path path' h
  have hpolicy : ∃ policy, ExecutionPolicy.validateFeatureExecutionPolicy P value path .queueError =
      .ok policy := by
    change (ExecutionPolicy.validateFeatureExecutionPolicy P value path .queueError).map _ = _ at h
    cases hread : ExecutionPolicy.validateFeatureExecutionPolicy P value path .queueError with
    | error failure =>
        rw [hread] at h
        cases h
    | ok policy => exact ⟨policy, rfl⟩
  obtain ⟨policy, hread⟩ := hpolicy
  have hthere : ExecutionPolicy.validateFeatureExecutionPolicy P value path' .queueError =
      .ok policy :=
    ExecutionPolicy.validateFeatureExecutionPolicy_eq_ok.mpr
      (ExecutionPolicy.validateFeatureExecutionPolicy_eq_ok.mp hread)
  change (ExecutionPolicy.validateFeatureExecutionPolicy P value path' .queueError).map _ = _
  rw [hthere]
  rfl

/-- The controls change exactly what was asked, in every document that is a queue, but for two
    kinds of calls. A feature that shows another priority than the neutral one is moved without a
    priority: no such call ever finds it in its place. A transition that is in order meets a
    feature written with spaces around its identifier, or an integrated dependency recorded in
    something that is no list: it raises an error that is not the controller's. -/
theorem queue_controls_iff (P : Platform) (escapes isFile : String → Bool)
    (hqueue : FeatureQueue.ofFields (repositorySite P escapes isFile) document = .ok queue) :
    ExactlyAsked (repositorySite P escapes isFile) around activeMilestone operation document ↔
      ¬Misses (repositorySite P escapes isFile) around activeMilestone queue document operation :=
  exactlyAsked_iff (repositorySite_placeFree P escapes isFile) hqueue

end

/-! ### A feature that is in its place -/

def placedSite : QueueSite := repositorySite .reference (fun _ => false) (fun _ => true)

/-- A repository in which nothing is in a call's way. -/
def calmSurroundings : Surroundings := ⟨false, true, false, false, false, false⟩

/-- An urgent feature in front of another one. -/
def placedQueue : Fields :=
  [("features", .arr
      [.obj [("id", .str "F1"), ("milestone", .str "M1"), ("priority", .str "P1"),
         ("status", .str "ready")],
       .obj [("id", .str "F2"), ("milestone", .str "M1"), ("status", .str "ready")]]),
   ("milestones", .arr [.obj [("id", .str "M1")]])]

/-- Moved to where it is, the urgent feature is found changed every time. -/
theorem move_in_place_updates :
    (∃ queue, FeatureQueue.ofFields placedSite placedQueue = .ok queue) ∧
      call placedSite calmSurroundings (some "M1")
          (.prioritize "F1" (some "F2") (some "before") none) placedQueue =
        (.ok .updated, .rendered placedQueue) ∧
      ¬ExactlyAsked placedSite calmSurroundings (some "M1")
        (.prioritize "F1" (some "F2") (some "before") none) placedQueue := by
  have hcall : call placedSite calmSurroundings (some "M1")
      (.prioritize "F1" (some "F2") (some "before") none) placedQueue =
        (.ok .updated, .rendered placedQueue) := by rfl
  refine ⟨⟨_, rfl⟩, hcall, fun hexact => ?_⟩
  have hrepeated := hexact.repeated "F1" (some "F2") (some "before") none rfl .updated
    (congrArg Prod.fst hcall)
  rw [hcall, QueueBytes.document, hcall] at hrepeated
  cases hrepeated

/-- With the priority that it is to have, the call says so the second time. -/
theorem move_with_priority :
    ExactlyAsked placedSite calmSurroundings (some "M1")
      (.prioritize "F1" (some "F2") (some "after") (some "P3")) placedQueue := by
  obtain ⟨queue, hqueue⟩ : ∃ queue, FeatureQueue.ofFields placedSite placedQueue = .ok queue :=
    ⟨_, rfl⟩
  apply (queue_controls_iff .reference (fun _ => false) (fun _ => true) hqueue).mpr
  rintro ⟨_, _, _, _, hnone, _⟩
  cases hnone

end QueueControls

end Conveyor
