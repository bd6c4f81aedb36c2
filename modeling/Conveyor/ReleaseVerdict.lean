import Conveyor.PolicyResolution
import Conveyor.Repository

/-!
# The verdict on a release

When a release validation is valid (`validation_tiers.py`). The complete suite runs once or
several times, its parsed failures are pooled, and `reconcile_known_debt` compares the pool with
the catalog of known debt; `_release_commands_valid` then looks at the exit codes and at the
provenance of every run.

`verdict_iff` says when the verdict is positive. A run that exits 1 without a parsed failure, or
0 with one, passes, and the failures of a second identical run count as duplicates of the first:
`release_verdict_iff` states that the verdict is sound and stable under repetition exactly where
a positive verdict rests on clean runs only.
-/

namespace Conveyor

open Library

namespace ReleaseVerdict

def DEBT_OUTCOMES : List String := ["failure", "error"]

/-- What the verdict reads of a command that ran. -/
structure CommandRecord where
  group : String
  exitStatus : Int
  debt : List Json
  releaseExecution : Option Fields

/-! ### One record of debt -/

/-- `item.get(key) if isinstance(item, dict) else None`. -/
def itemField (item : Json) (key : String) : Json :=
  match item with
  | .obj fields => Fields.get fields key
  | _ => .null

def identity? (item : Json) : Option String :=
  match itemField item "id" with
  | .str identity => if identity = "" then none else some identity
  | _ => none

def outcome? (pendingAllowed : Bool) (item : Json) : Option String :=
  match itemField item "outcome" with
  | .str outcome =>
      if outcome ∈ DEBT_OUTCOMES ∨ pendingAllowed = true ∧ outcome = "pending_observation" then
        some outcome
      else none
  | _ => none

/-- The declared outcomes, where they are fit to be declared for this one. -/
def permittedOutcomes? (outcome : String) (declared : Json) : Option (List String) :=
  match declared with
  | .arr values =>
      let outcomes := values.filterMap Json.asString?
      if values ≠ [] ∧ (∀ value ∈ values, ∃ o ∈ DEBT_OUTCOMES, value = .str o) ∧ outcomes.Nodup ∧
          outcome ∈ outcomes then
        some outcomes
      else none
  | _ => none

def rationale? (value : Json) : Option String :=
  match value with
  | .str text => if Platform.hasText text then some (Platform.strip text) else none
  | _ => none

/-- What a catalog record says about the outcomes a candidate may show. -/
structure Declaration where
  permitted : List String
  rationale : Option String
  flaw : Option String

def declaration (identity outcome : String) (item : Json) : Declaration :=
  let declared := itemField item "permitted_candidate_outcomes"
  let rationale := itemField item "rationale"
  if declared = .null ∧ rationale = .null then ⟨[outcome], none, none⟩
  else
    match permittedOutcomes? outcome declared with
    | none => ⟨[outcome], none, some s!"{identity} has invalid permitted candidate outcomes"⟩
    | some permitted =>
        match rationale? rationale with
        | none => ⟨[outcome], none,
            some s!"{identity} lacks a rationale for permitted candidate outcomes"⟩
        | some text => ⟨permitted, some text, none⟩

/-! ### Reconciliation -/

/-- What `normalize` has built so far. -/
structure Normalized where
  outcomes : Dict String
  permitted : Dict (List String)
  rationales : Dict String
  errors : List String

namespace Normalized

def empty : Normalized := ⟨[], [], [], []⟩

def flawed (done : Normalized) (error : String) : Normalized :=
  { done with errors := done.errors ++ [error] }

def recorded (done : Normalized) (identity outcome : String) : Normalized :=
  { done with outcomes := done.outcomes.insert identity outcome }

def declared (done : Normalized) (identity : String) (said : Declaration) : Normalized :=
  { done with
    permitted := done.permitted.insert identity said.permitted
    rationales := match said.rationale with
      | some rationale => done.rationales.insert identity rationale
      | none => done.rationales
    errors := done.errors ++ said.flaw.toList }

end Normalized

section

variable (pendingAllowed catalogRecords : Bool)

def normalizeItem (done : Normalized) (index : Nat) (item : Json) : Normalized :=
  match identity? item with
  | none => done.flawed s!"record {index} has invalid id"
  | some identity =>
      if identity ∈ done.outcomes.keys then done.flawed s!"duplicate identity: {identity}"
      else
        match outcome? pendingAllowed item with
        | none => done.flawed s!"{identity} has invalid outcome"
        | some outcome =>
            if catalogRecords then
              (done.recorded identity outcome).declared identity
                (declaration identity outcome item)
            else done.recorded identity outcome

def normalizeFrom (done : Normalized) (index : Nat) : List Json → Normalized
  | [] => done
  | item :: rest =>
      normalizeFrom (normalizeItem pendingAllowed catalogRecords done index item) (index + 1) rest

def normalize (values : List Json) : Normalized :=
  normalizeFrom pendingAllowed catalogRecords .empty 0 values

end

structure OutcomeShift where
  id : String
  baselineOutcome : String
  candidateOutcome : String
  permittedCandidateOutcomes : List String
  rationale : String

structure Reconciliation where
  exact : Bool
  captureComplete : Bool
  observedCount : Nat
  catalogCount : Nat
  outcomeCounts : List (String × Nat)
  catalogOutcomeCounts : List (String × Nat)
  classificationExactCount : Nat
  permittedOutcomeShifts : List OutcomeShift
  missingIdentities : List String
  unexpectedIdentities : List String
  outcomeMismatches : List String
  pendingIdentities : List String
  validationErrors : List String
  observedRecords : List (String × String)

def outcomeCounts (outcomes : Dict String) : List (String × Nat) :=
  DEBT_OUTCOMES.map fun outcome => (outcome, outcomes.countP fun entry => entry.2 = outcome)

/-- `sorted(set(first) - set(second))`. -/
def missingFrom (first second : Dict String) : List String :=
  sortedSet (first.keys.filter (· ∉ second.keys))

/-- `sorted(set(first) & set(second))`. -/
def sharedBy (first second : Dict String) : List String :=
  sortedSet (first.keys.filter (· ∈ second.keys))

/-- The outcomes an identity of the catalog may show. -/
def permittedFor (catalog : Normalized) (identity : String) : List String :=
  (catalog.permitted.get? identity).getD [(catalog.outcomes.get? identity).getD ""]

def outcomeMismatches (observed catalog : Normalized) : List String :=
  (sharedBy observed.outcomes catalog.outcomes).filter fun identity =>
    (observed.outcomes.get? identity).getD "" ∉
      permittedFor catalog identity ++ ["pending_observation"]

def outcomeShifts (observed catalog : Normalized) : List OutcomeShift :=
  (sharedBy observed.outcomes catalog.outcomes).filterMap fun identity => do
    let candidate ← observed.outcomes.get? identity
    let baseline ← catalog.outcomes.get? identity
    let permitted ← catalog.permitted.get? identity
    let rationale ← catalog.rationales.get? identity
    if candidate ≠ baseline ∧ candidate ∈ permitted then
      some ⟨identity, baseline, candidate, permitted, rationale⟩
    else none

def pendingIdentities (outcomes : Dict String) : List String :=
  ((outcomes.filter fun entry => entry.2 = "pending_observation").map Prod.fst).insertionSort
    (· ≤ ·)

def reconcileKnownDebt (observed catalog : List Json) (allowPendingCapture : Bool) :
    Reconciliation :=
  let seen := normalize false false observed
  let known := normalize allowPendingCapture true catalog
  let missing := missingFrom known.outcomes seen.outcomes
  let unexpected := missingFrom seen.outcomes known.outcomes
  let mismatches := outcomeMismatches seen known
  let pending := pendingIdentities known.outcomes
  let exact : Bool := seen.errors.isEmpty && known.errors.isEmpty && missing.isEmpty &&
    unexpected.isEmpty && mismatches.isEmpty && pending.isEmpty
  { exact
    captureComplete := exact
    observedCount := seen.outcomes.length
    catalogCount := known.outcomes.length
    outcomeCounts := outcomeCounts seen.outcomes
    catalogOutcomeCounts := outcomeCounts known.outcomes
    classificationExactCount :=
      known.outcomes.countP fun entry => seen.outcomes.get? entry.1 = some entry.2
    permittedOutcomeShifts := outcomeShifts seen known
    missingIdentities := missing
    unexpectedIdentities := unexpected
    outcomeMismatches := mismatches
    pendingIdentities := pending
    validationErrors := seen.errors ++ known.errors
    observedRecords := (seen.outcomes.keys.insertionSort (· ≤ ·)).map fun identity =>
      (identity, (seen.outcomes.get? identity).getD "") }

/-! ### The verdict -/

def isFilled : Json → Bool
  | .str text => text ≠ ""
  | _ => false

/-- `_release_provenance_valid`: the execution starts and ends on one clean commit of this
repository. -/
def releaseProvenanceValid (repository : String) (execution : Fields) : Bool :=
  match execution.get "starting_provenance", execution.get "final_provenance" with
  | .obj starting, .obj final =>
      isFilled (execution.get "execution_id") &&
        isFilled (execution.get "created_at") &&
        isFilled (execution.get "completed_at") &&
        Fields.get starting "repository_path" = .str repository &&
        Fields.get final "repository_path" = .str repository &&
        isFilled (Fields.get starting "branch") &&
        Fields.get starting "branch" = Fields.get final "branch" &&
        isFilled (Fields.get starting "commit") &&
        Fields.get starting "commit" = Fields.get final "commit" &&
        isFilled (Fields.get starting "tree") &&
        Fields.get starting "tree" = Fields.get final "tree" &&
        Fields.get starting "worktree_clean" = .bool true &&
        Fields.get final "worktree_clean" = .bool true &&
        Fields.get starting "changed_paths" = .arr [] &&
        Fields.get final "changed_paths" = .arr []
  | _, _ => false

def isCompleteSuite (record : CommandRecord) : Bool :=
  "release_complete_suite".toList.isPrefixOf record.group.toList

def completeSuite (records : List CommandRecord) : List CommandRecord :=
  records.filter isCompleteSuite

/-- `record not in complete_suite`: what equals a record of the suite has its group. -/
def supporting (records : List CommandRecord) : List CommandRecord :=
  records.filter fun record => !isCompleteSuite record

/-- What one run of the complete suite has to show. -/
def suiteRunValid (repository : String) (record : CommandRecord) : Bool :=
  (record.exitStatus = 0 || record.exitStatus = 1) &&
    match record.releaseExecution with
    | some execution =>
        execution.get "completion_state" = .str "complete" &&
          execution.get "parser_status" = .str "succeeded" &&
          Json.equalsInt (execution.get "child_exit_code") record.exitStatus &&
          execution.get "provenance_valid" = .bool true &&
          releaseProvenanceValid repository execution
    | none => false

def releaseCommandsValid (repository : String) (records : List CommandRecord)
    (reconciliation : Reconciliation) : Bool :=
  !(completeSuite records).isEmpty && reconciliation.exact &&
    (supporting records).all (fun record => record.exitStatus = 0) &&
    (completeSuite records).all (suiteRunValid repository)

/-- The records of debt of all commands. -/
def observedDebt (records : List CommandRecord) : List Json :=
  records.flatMap CommandRecord.debt

/-- The verdict of `run_repository_validation` at the release tier. -/
def releaseVerdict (repository : String) (records : List CommandRecord) (catalog : List Json)
    (pending : Bool) : Bool :=
  releaseCommandsValid repository records
    (reconcileKnownDebt (observedDebt records) catalog pending)

/-! ### Pools that are read without an error -/

/-- A record that `normalize` accepts under a new identity. -/
structure Entry where
  id : String
  outcome : String
  permitted : List String

section

variable (pendingAllowed catalogRecords : Bool)

def readEntry (item : Json) : Option Entry := do
  let id ← identity? item
  let outcome ← outcome? pendingAllowed item
  let said := declaration id outcome item
  if catalogRecords = true ∧ said.flaw.isSome then none else some ⟨id, outcome, said.permitted⟩

/-- Every value is accepted, each under an identity of its own. -/
structure Reads (values : List Json) (entries : List Entry) : Prop where
  accepted : values.map (readEntry pendingAllowed catalogRecords) = entries.map some
  distinct : (entries.map Entry.id).Nodup

variable {pendingAllowed catalogRecords} {done : Normalized} {index : Nat} {item : Json}

theorem readEntry_eq_some {entry : Entry} :
    readEntry pendingAllowed catalogRecords item = some entry ↔
      identity? item = some entry.id ∧ outcome? pendingAllowed item = some entry.outcome ∧
        (declaration entry.id entry.outcome item).permitted = entry.permitted ∧
        (catalogRecords = true → (declaration entry.id entry.outcome item).flaw = none) := by
  obtain ⟨id, outcome, permitted⟩ := entry
  rw [readEntry]
  cases hid : identity? item with
  | none => simp
  | some identity =>
      cases houtcome : outcome? pendingAllowed item with
      | none => simp
      | some shown =>
          simp only [Option.bind_eq_bind, Option.bind_some]
          split
          · rename_i hflaw
            refine iff_of_false (by simp) ?_
            rintro ⟨hsame, hshown, _, hnone⟩
            cases hsame
            cases hshown
            rw [hnone hflaw.1] at hflaw
            exact absurd hflaw.2 (by simp)
          · rename_i hflaw
            constructor
            · intro h
              cases h
              refine ⟨rfl, rfl, rfl, fun hcatalog => ?_⟩
              exact Option.not_isSome_iff_eq_none.mp fun hsome => hflaw ⟨hcatalog, hsome⟩
            · rintro ⟨hsame, hshown, hpermitted, _⟩
              cases hsame
              cases hshown
              cases hpermitted
              rfl

/-- An accepted record under a new identity is stored, and no error is noted. -/
theorem normalizeItem_of_entry {entry : Entry}
    (hentry : readEntry pendingAllowed catalogRecords item = some entry)
    (hnew : entry.id ∉ done.outcomes.keys) :
    normalizeItem pendingAllowed catalogRecords done index item =
      if catalogRecords then
        (done.recorded entry.id entry.outcome).declared entry.id
          (declaration entry.id entry.outcome item)
      else done.recorded entry.id entry.outcome := by
  obtain ⟨hid, houtcome, _, _⟩ := readEntry_eq_some.mp hentry
  rw [normalizeItem, hid]
  simp only [hnew, if_false, houtcome]

theorem errors_normalizeItem :
    done.errors <+: (normalizeItem pendingAllowed catalogRecords done index item).errors := by
  rw [normalizeItem]
  cases identity? item with
  | none => exact List.prefix_append _ _
  | some identity =>
      simp only
      split
      · exact List.prefix_append _ _
      · cases outcome? pendingAllowed item with
        | none => exact List.prefix_append _ _
        | some outcome =>
            cases catalogRecords
            · exact List.prefix_rfl
            · exact List.prefix_append _ _

theorem errors_normalizeFrom (values : List Json) :
    ∀ {done : Normalized} {index : Nat},
      done.errors <+: (normalizeFrom pendingAllowed catalogRecords done index values).errors := by
  induction values with
  | nil => exact List.prefix_rfl
  | cons item rest ih =>
      intro done index
      exact errors_normalizeItem.trans ih

/-- A record that adds no error is accepted under a new identity. -/
theorem entry_of_errors_nil
    (h : (normalizeItem pendingAllowed catalogRecords done index item).errors = []) :
    ∃ entry, readEntry pendingAllowed catalogRecords item = some entry ∧
      entry.id ∉ done.outcomes.keys := by
  rw [normalizeItem] at h
  cases hid : identity? item with
  | none => simp [hid, Normalized.flawed] at h
  | some identity =>
      simp only [hid] at h
      split at h
      · simp [Normalized.flawed] at h
      · rename_i hnew
        cases houtcome : outcome? pendingAllowed item with
        | none => simp [houtcome, Normalized.flawed] at h
        | some outcome =>
            refine ⟨⟨identity, outcome, (declaration identity outcome item).permitted⟩,
              readEntry_eq_some.mpr ⟨hid, houtcome, rfl, fun hcatalog => ?_⟩, hnew⟩
            rw [houtcome] at h
            simp only [hcatalog, if_true, Normalized.declared, List.append_eq_nil_iff] at h
            simpa using h.2

end

/-- What a pool that is read leaves behind. -/
structure Stored (catalogRecords : Bool) (done result : Normalized) (entries : List Entry) :
    Prop where
  outcomes : result.outcomes = done.outcomes ++ entries.map fun entry => (entry.id, entry.outcome)
  errors : result.errors = done.errors
  permitted : catalogRecords = true →
    result.permitted = done.permitted ++ entries.map fun entry => (entry.id, entry.permitted)

section

variable {pendingAllowed catalogRecords : Bool}

namespace Stored

variable {done result : Normalized} {entries : List Entry}

theorem keys (h : Stored catalogRecords done result entries) :
    result.outcomes.keys = done.outcomes.keys ++ entries.map Entry.id := by
  rw [h.outcomes, Dict.keys, Dict.keys, List.map_append, List.map_map]
  rfl

/-- Every identity of a catalog has its permitted outcomes. -/
theorem permitted_keys (h : Stored catalogRecords done result entries)
    (hdone : catalogRecords = true → done.permitted.keys = done.outcomes.keys)
    (hcatalog : catalogRecords = true) : result.permitted.keys = result.outcomes.keys := by
  rw [h.keys, ← hdone hcatalog, h.permitted hcatalog, Dict.keys, Dict.keys, List.map_append,
    List.map_map]
  rfl

end Stored

theorem stored_of_entry {done : Normalized} {index : Nat} {item : Json} {entry : Entry}
    (hentry : readEntry pendingAllowed catalogRecords item = some entry)
    (hnew : entry.id ∉ done.outcomes.keys)
    (hkeys : catalogRecords = true → done.permitted.keys = done.outcomes.keys) :
    Stored catalogRecords done (normalizeItem pendingAllowed catalogRecords done index item)
      [entry] := by
  obtain ⟨_, _, hpermitted, hflaw⟩ := readEntry_eq_some.mp hentry
  have hinsert := Dict.insert_of_get?_eq_none (Dict.get?_eq_none.mpr hnew) entry.outcome
  rw [normalizeItem_of_entry hentry hnew]
  cases hcatalog : catalogRecords with
  | false => exact ⟨hinsert, rfl, by simp⟩
  | true =>
      have hfresh : done.permitted.get? entry.id = none :=
        Dict.get?_eq_none.mpr ((hkeys hcatalog).symm ▸ hnew)
      refine ⟨hinsert, ?_, fun _ => ?_⟩
      · simp [Normalized.declared, Normalized.recorded, hflaw hcatalog]
      · simpa [Normalized.declared, Normalized.recorded, hpermitted] using
          Dict.insert_of_get?_eq_none hfresh entry.permitted

/-- The induction follows the values; the permitted outcomes keep the keys of the outcomes. -/
theorem stored_normalizeFrom (values : List Json) :
    ∀ {entries : List Entry} {done : Normalized} {index : Nat},
      values.map (readEntry pendingAllowed catalogRecords) = entries.map some →
      (done.outcomes.keys ++ entries.map Entry.id).Nodup →
      (catalogRecords = true → done.permitted.keys = done.outcomes.keys) →
      Stored catalogRecords done
        (normalizeFrom pendingAllowed catalogRecords done index values) entries := by
  induction values with
  | nil =>
      intro entries done index haccepted hdistinct hkeys
      have hempty : entries = [] := by simpa using haccepted
      subst hempty
      exact ⟨by simp [normalizeFrom], rfl, fun _ => by simp [normalizeFrom]⟩
  | cons item rest ih =>
      intro entries done index haccepted hdistinct hkeys
      cases entries with
      | nil => simp at haccepted
      | cons entry others =>
          rw [List.map_cons, List.map_cons, List.cons.injEq] at haccepted
          have hnew : entry.id ∉ done.outcomes.keys := by
            intro hmem
            exact (List.nodup_append.mp hdistinct).2.2 _ hmem _ (by simp) rfl
          have hfirst := @stored_of_entry _ _ _ index _ _ haccepted.1 hnew hkeys
          have hdistinct' : ((normalizeItem pendingAllowed catalogRecords done index
              item).outcomes.keys ++ others.map Entry.id).Nodup := by
            rw [hfirst.keys, List.append_assoc]
            exact hdistinct
          have hrest := @ih _ _ (index + 1) haccepted.2 hdistinct' (hfirst.permitted_keys hkeys)
          refine ⟨?_, hrest.errors.trans hfirst.errors, fun hcatalog => ?_⟩
          · exact hrest.outcomes.trans (by simp [hfirst.outcomes])
          · exact (hrest.permitted hcatalog).trans (by simp [hfirst.permitted hcatalog])

theorem stored_normalize {values : List Json} {entries : List Entry}
    (h : Reads pendingAllowed catalogRecords values entries) :
    Stored catalogRecords .empty (normalize pendingAllowed catalogRecords values) entries :=
  stored_normalizeFrom values h.accepted (by simpa [Normalized.empty, Dict.keys] using h.distinct)
    fun _ => rfl

theorem reads_of_normalizeFrom (values : List Json) :
    ∀ {done : Normalized} {index : Nat},
      (catalogRecords = true → done.permitted.keys = done.outcomes.keys) →
      (normalizeFrom pendingAllowed catalogRecords done index values).errors = [] →
      ∃ entries, Reads pendingAllowed catalogRecords values entries ∧
        ∀ entry ∈ entries, entry.id ∉ done.outcomes.keys := by
  induction values with
  | nil =>
      intro done index _ _
      exact ⟨[], ⟨rfl, List.nodup_nil⟩, by simp⟩
  | cons item rest ih =>
      intro done index hkeys h
      have hitem : (normalizeItem pendingAllowed catalogRecords done index item).errors = [] :=
        List.eq_nil_of_prefix_nil (h ▸ errors_normalizeFrom rest)
      obtain ⟨entry, hentry, hnew⟩ := entry_of_errors_nil hitem
      have hfirst := @stored_of_entry _ _ _ index _ _ hentry hnew hkeys
      obtain ⟨entries, hreads, hothers⟩ := ih (hfirst.permitted_keys hkeys) h
      refine ⟨entry :: entries, ⟨?_, ?_⟩, ?_⟩
      · rw [List.map_cons, List.map_cons, hentry, hreads.accepted]
      · rw [List.map_cons, List.nodup_cons]
        refine ⟨fun hmem => ?_, hreads.distinct⟩
        obtain ⟨other, hother, hsame⟩ := List.mem_map.mp hmem
        exact hothers other hother (by rw [hfirst.keys, hsame]; simp)
      · intro other hother
        rcases List.mem_cons.mp hother with rfl | hother
        · exact hnew
        · intro hmem
          exact hothers other hother (by rw [hfirst.keys]; simp [hmem])

theorem errors_normalize_iff {values : List Json} :
    (normalize pendingAllowed catalogRecords values).errors = [] ↔
      ∃ entries, Reads pendingAllowed catalogRecords values entries := by
  constructor
  · intro h
    obtain ⟨entries, hreads, _⟩ := reads_of_normalizeFrom values (fun _ => rfl) h
    exact ⟨entries, hreads⟩
  · rintro ⟨entries, hreads⟩
    exact (stored_normalize hreads).errors

end

/-! ### When a reconciliation is exact -/

/-- What was seen is what is known, and nothing of it waits for an observation. -/
structure Agree (seen known : List Entry) : Prop where
  identities : ∀ id, id ∈ seen.map Entry.id ↔ id ∈ known.map Entry.id
  permitted : ∀ entry ∈ seen, ∀ record ∈ known, entry.id = record.id →
    entry.outcome ∈ record.permitted
  settled : ∀ record ∈ known, record.outcome ≠ "pending_observation"

/-- The pool of observed records and the catalog are both well formed, and they agree. -/
def Reconciled (observed catalog : List Json) (pending : Bool) : Prop :=
  ∃ seen known, Reads false false observed seen ∧ Reads pending true catalog known ∧
    Agree seen known

theorem sortedSet_eq_nil {items : List String} : sortedSet items = [] ↔ items = [] := by
  simp only [List.eq_nil_iff_forall_not_mem, mem_sortedSet]

theorem missingFrom_eq_nil {first second : Dict String} :
    missingFrom first second = [] ↔ ∀ id ∈ first.keys, id ∈ second.keys := by
  rw [missingFrom, sortedSet_eq_nil, List.filter_eq_nil_iff]
  simp

theorem pendingIdentities_eq_nil {outcomes : Dict String} :
    pendingIdentities outcomes = [] ↔ ∀ entry ∈ outcomes, entry.2 ≠ "pending_observation" := by
  rw [pendingIdentities, ← List.length_eq_zero_iff, List.length_insertionSort,
    List.length_eq_zero_iff, List.map_eq_nil_iff, List.filter_eq_nil_iff]
  simp

section

variable {seen known : Normalized} {entries records : List Entry} {observed catalog : List Json}
  {pending : Bool}

theorem outcome_get? (hseen : Stored false .empty seen entries)
    (hdistinct : (entries.map Entry.id).Nodup) {entry : Entry} (hentry : entry ∈ entries) :
    seen.outcomes.get? entry.id = some entry.outcome := by
  refine Dict.get?_of_mem (by rw [hseen.keys]; exact hdistinct) ?_
  rw [hseen.outcomes]
  exact List.mem_map.mpr ⟨entry, hentry, rfl⟩

theorem permittedFor_eq (hknown : Stored true .empty known records)
    (hdistinct : (records.map Entry.id).Nodup) {record : Entry} (hrecord : record ∈ records) :
    permittedFor known record.id = record.permitted := by
  have hkeys : known.permitted.keys.Nodup := by
    rw [hknown.permitted_keys (fun _ => rfl) rfl, hknown.keys]
    exact hdistinct
  have hget : known.permitted.get? record.id = some record.permitted := by
    refine Dict.get?_of_mem hkeys ?_
    rw [hknown.permitted rfl]
    exact List.mem_map.mpr ⟨record, hrecord, rfl⟩
  rw [permittedFor, hget]
  rfl

/-- An observed outcome is one of the two, so it never is the pending one. -/
theorem outcome_ne_pending {item : Json} {outcome : String}
    (h : outcome? false item = some outcome) : outcome ≠ "pending_observation" := by
  rw [outcome?] at h
  split at h
  · split at h
    · rename_i hmem
      cases h
      simp only [DEBT_OUTCOMES, List.mem_cons, List.not_mem_nil, or_false, Bool.false_eq_true,
        false_and] at hmem
      rcases hmem with rfl | rfl <;> decide
    · cases h
  · cases h

theorem Reads.item_of_mem {values : List Json} {catalogRecords : Bool}
    (h : Reads pending catalogRecords values entries) {entry : Entry} (hentry : entry ∈ entries) :
    ∃ item ∈ values, readEntry pending catalogRecords item = some entry := by
  have hmem : some entry ∈ values.map (readEntry pending catalogRecords) := by
    rw [h.accepted]
    exact List.mem_map.mpr ⟨entry, hentry, rfl⟩
  exact List.mem_map.mp hmem

theorem Reads.entry_of_mem {values : List Json} {catalogRecords : Bool}
    (h : Reads pending catalogRecords values entries) {item : Json} (hitem : item ∈ values) :
    ∃ entry ∈ entries, readEntry pending catalogRecords item = some entry := by
  have hmem : readEntry pending catalogRecords item ∈ entries.map some := by
    rw [← h.accepted]
    exact List.mem_map.mpr ⟨item, hitem, rfl⟩
  obtain ⟨entry, hentry, hsome⟩ := List.mem_map.mp hmem
  exact ⟨entry, hentry, hsome.symm⟩

theorem outcomeMismatches_eq_nil (hseen : Stored false .empty seen entries)
    (hknown : Stored true .empty known records) (hobserved : Reads false false observed entries)
    (hcatalog : Reads pending true catalog records) :
    outcomeMismatches seen known = [] ↔
      ∀ entry ∈ entries, ∀ record ∈ records, entry.id = record.id →
        entry.outcome ∈ record.permitted := by
  rw [outcomeMismatches, List.filter_eq_nil_iff]
  have hkeys (id : String) : id ∈ sharedBy seen.outcomes known.outcomes ↔
      id ∈ entries.map Entry.id ∧ id ∈ records.map Entry.id := by
    rw [sharedBy, mem_sortedSet, List.mem_filter, hseen.keys, hknown.keys]
    simp [Normalized.empty, Dict.keys]
  constructor
  · intro h entry hentry record hrecord hid
    have hshared := (hkeys entry.id).mpr
      ⟨List.mem_map.mpr ⟨entry, hentry, rfl⟩, hid ▸ List.mem_map.mpr ⟨record, hrecord, rfl⟩⟩
    have hshown := h entry.id hshared
    rw [outcome_get? hseen hobserved.distinct hentry, hid,
      permittedFor_eq hknown hcatalog.distinct hrecord] at hshown
    obtain ⟨item, _, hitem⟩ := hobserved.item_of_mem hentry
    have hsettled := outcome_ne_pending (readEntry_eq_some.mp hitem).2.1
    simpa [hsettled] using hshown
  · intro h id hid
    obtain ⟨hmem, hmem'⟩ := (hkeys id).mp hid
    obtain ⟨entry, hentry, rfl⟩ := List.mem_map.mp hmem
    obtain ⟨record, hrecord, hsame⟩ := List.mem_map.mp hmem'
    rw [outcome_get? hseen hobserved.distinct hentry, ← hsame,
      permittedFor_eq hknown hcatalog.distinct hrecord]
    rw [decide_eq_true_eq, not_not]
    exact List.mem_append_left _ (h entry hentry record hrecord hsame.symm)

theorem agree_iff (hseen : Stored false .empty seen entries)
    (hknown : Stored true .empty known records) (hobserved : Reads false false observed entries)
    (hcatalog : Reads pending true catalog records) :
    Agree entries records ↔
      missingFrom known.outcomes seen.outcomes = [] ∧
        missingFrom seen.outcomes known.outcomes = [] ∧
        outcomeMismatches seen known = [] ∧ pendingIdentities known.outcomes = [] := by
  rw [missingFrom_eq_nil, missingFrom_eq_nil, pendingIdentities_eq_nil,
    outcomeMismatches_eq_nil hseen hknown hobserved hcatalog, hseen.keys, hknown.keys,
    hknown.outcomes]
  simp only [Normalized.empty, Dict.keys, List.map_nil, List.nil_append, List.mem_map,
    forall_exists_index, and_imp, forall_apply_eq_imp_iff₂]
  constructor
  · rintro ⟨hids, hpermitted, hsettled⟩
    exact ⟨fun record hrecord => List.mem_map.mp
        ((hids record.id).mpr (List.mem_map.mpr ⟨record, hrecord, rfl⟩)),
      fun entry hentry => List.mem_map.mp
        ((hids entry.id).mp (List.mem_map.mpr ⟨entry, hentry, rfl⟩)), hpermitted, hsettled⟩
  · rintro ⟨hmissing, hunexpected, hpermitted, hsettled⟩
    refine ⟨fun id => ⟨fun hid => ?_, fun hid => ?_⟩, hpermitted, hsettled⟩
    · obtain ⟨entry, hentry, rfl⟩ := List.mem_map.mp hid
      exact List.mem_map.mpr (hunexpected entry hentry)
    · obtain ⟨record, hrecord, rfl⟩ := List.mem_map.mp hid
      exact List.mem_map.mpr (hmissing record hrecord)

theorem exact_iff (observed catalog : List Json) (pending : Bool) :
    (reconcileKnownDebt observed catalog pending).exact = true ↔
      Reconciled observed catalog pending := by
  simp only [reconcileKnownDebt, Bool.and_eq_true, List.isEmpty_iff]
  constructor
  · rintro ⟨⟨⟨⟨⟨hseen, hknown⟩, hmissing⟩, hunexpected⟩, hmismatches⟩, hpending⟩
    obtain ⟨entries, hobserved⟩ := errors_normalize_iff.mp hseen
    obtain ⟨records, hcatalog⟩ := errors_normalize_iff.mp hknown
    exact ⟨entries, records, hobserved, hcatalog,
      (agree_iff (stored_normalize hobserved) (stored_normalize hcatalog) hobserved hcatalog).mpr
        ⟨hmissing, hunexpected, hmismatches, hpending⟩⟩
  · rintro ⟨entries, records, hobserved, hcatalog, hagree⟩
    obtain ⟨hmissing, hunexpected, hmismatches, hpending⟩ :=
      (agree_iff (stored_normalize hobserved) (stored_normalize hcatalog) hobserved hcatalog).mp
        hagree
    exact ⟨⟨⟨⟨⟨errors_normalize_iff.mpr ⟨entries, hobserved⟩,
      errors_normalize_iff.mpr ⟨records, hcatalog⟩⟩, hmissing⟩, hunexpected⟩, hmismatches⟩,
      hpending⟩

end

/-! ### What a positive verdict says -/

section

variable (repository : String) (records : List CommandRecord) (catalog : List Json)
  (pending : Bool)

/-- A run of the complete suite that ended, was parsed, and started and ended on one clean commit
of this repository. -/
structure CompletedRun (record : CommandRecord) : Prop where
  exit : record.exitStatus = 0 ∨ record.exitStatus = 1
  execution : ∃ execution, record.releaseExecution = some execution ∧
    execution.get "completion_state" = .str "complete" ∧
    execution.get "parser_status" = .str "succeeded" ∧
    Json.equalsInt (execution.get "child_exit_code") record.exitStatus = true ∧
    execution.get "provenance_valid" = .bool true ∧
    releaseProvenanceValid repository execution = true

structure Releasable : Prop where
  run : ∃ record ∈ records, isCompleteSuite record = true
  supporting : ∀ record ∈ records, isCompleteSuite record = false → record.exitStatus = 0
  suite : ∀ record ∈ records, isCompleteSuite record = true → CompletedRun repository record
  reconciled : Reconciled (observedDebt records) catalog pending

/-- Every run of the complete suite ended with exit code 0 and showed no debt. -/
def CleanRuns : Prop :=
  ∀ record ∈ records, isCompleteSuite record = true → record.exitStatus = 0 ∧ record.debt = []

theorem suiteRunValid_iff (record : CommandRecord) :
    suiteRunValid repository record = true ↔ CompletedRun repository record := by
  rw [suiteRunValid, Bool.and_eq_true, Bool.or_eq_true, decide_eq_true_eq, decide_eq_true_eq]
  constructor
  · rintro ⟨hexit, hexecution⟩
    refine ⟨hexit, ?_⟩
    split at hexecution
    · rename_i execution hsome
      simp only [Bool.and_eq_true, decide_eq_true_eq] at hexecution
      obtain ⟨⟨⟨⟨hstate, hparser⟩, hcode⟩, hvalid⟩, hprovenance⟩ := hexecution
      exact ⟨execution, hsome, hstate, hparser, hcode, hvalid, hprovenance⟩
    · cases hexecution
  · rintro ⟨hexit, execution, hsome, hstate, hparser, hcode, hvalid, hprovenance⟩
    refine ⟨hexit, ?_⟩
    rw [hsome]
    simp [hstate, hparser, hcode, hvalid, hprovenance]

theorem verdict_iff :
    releaseVerdict repository records catalog pending = true ↔
      Releasable repository records catalog pending := by
  simp only [releaseVerdict, releaseCommandsValid, Bool.and_eq_true, Bool.not_eq_true',
    List.isEmpty_eq_false_iff_exists_mem, List.all_eq_true, exact_iff, completeSuite, supporting,
    List.mem_filter, decide_eq_true_eq, and_imp, suiteRunValid_iff]
  constructor
  · rintro ⟨⟨⟨⟨record, hrecord⟩, hreconciled⟩, hsupporting⟩, hsuite⟩
    exact ⟨⟨record, hrecord⟩, hsupporting, hsuite, hreconciled⟩
  · rintro ⟨⟨record, hrecord⟩, hsupporting, hsuite, hreconciled⟩
    exact ⟨⟨⟨⟨record, hrecord⟩, hreconciled⟩, hsupporting⟩, hsuite⟩

def Named (item : Json) (id : String) : Prop := itemField item "id" = .str id

/-- The outcomes a catalog record permits: the declared ones, or its own. -/
def Permits (record : Json) (outcome : String) : Prop :=
  match itemField record "permitted_candidate_outcomes" with
  | .arr declared => .str outcome ∈ declared
  | _ => itemField record "outcome" = .str outcome

/-- What a positive verdict should rest on. -/
structure Sound : Prop where
  supporting : ∀ record ∈ records, isCompleteSuite record = false → record.exitStatus = 0
  suite : ∀ record ∈ records, isCompleteSuite record = true →
    record.exitStatus = 0 ∧ record.debt = [] ∨ record.exitStatus = 1 ∧ record.debt ≠ []
  identities : ∀ id, (∃ item ∈ observedDebt records, Named item id) ↔
    ∃ record ∈ catalog, Named record id
  outcomes : ∀ item ∈ observedDebt records, ∀ record ∈ catalog, ∀ id, Named item id →
    Named record id → ∃ outcome, itemField item "outcome" = .str outcome ∧ Permits record outcome

/-- The commands with this many more runs of the complete suite. -/
def repeated (times : Nat) : List CommandRecord :=
  (List.replicate times (completeSuite records)).flatten ++ records

/-- The verdict is sound, and running the complete suite again does not change it. -/
structure SoundVerdict : Prop where
  sound : releaseVerdict repository records catalog pending = true → Sound records catalog
  stable : ∀ times, releaseVerdict repository (repeated records times) catalog pending =
    releaseVerdict repository records catalog pending

end

theorem identity?_eq_some {item : Json} {id : String} :
    identity? item = some id ↔ Named item id ∧ id ≠ "" := by
  rw [identity?, Named]
  split
  · rename_i text htext
    rw [htext]
    split
    · rename_i hempty
      refine iff_of_false (by simp) ?_
      rintro ⟨hsame, hne⟩
      cases hsame
      exact hne hempty
    · rename_i hne
      constructor
      · intro h
        cases h
        exact ⟨rfl, hne⟩
      · rintro ⟨hsame, _⟩
        cases hsame
        rfl
  · rename_i hother
    refine iff_of_false (by simp) ?_
    rintro ⟨hsame, _⟩
    exact hother id hsame

theorem itemField_of_outcome? {pendingAllowed : Bool} {item : Json} {outcome : String}
    (h : outcome? pendingAllowed item = some outcome) :
    itemField item "outcome" = .str outcome := by
  rw [outcome?] at h
  split at h
  · rename_i text htext
    split at h
    · cases h
      exact htext
    · cases h
  · cases h

theorem values_of_permittedOutcomes? {outcome : String} {declared : Json}
    {options : List String} (h : permittedOutcomes? outcome declared = some options) :
    ∃ values, declared = .arr values ∧ ∀ option ∈ options, .str option ∈ values := by
  cases declared with
  | arr values =>
      refine ⟨values, rfl, fun option hoption => ?_⟩
      simp only [permittedOutcomes?] at h
      split at h
      · cases h
        obtain ⟨value, hvalue, hstr⟩ := List.mem_filterMap.mp hoption
        exact Json.asString?_eq_some.mp hstr ▸ hvalue
      · cases h
  | _ => cases h

/-- The permitted outcomes of an accepted catalog record are those it permits. -/
theorem permits_of_mem {pending : Bool} {item : Json} {record : Entry}
    (h : readEntry pending true item = some record) {outcome : String}
    (hpermitted : outcome ∈ record.permitted) : Permits item outcome := by
  obtain ⟨_, houtcome, hsame, hflaw⟩ := readEntry_eq_some.mp h
  have hflaw := hflaw rfl
  rw [← hsame] at hpermitted
  rw [declaration] at hpermitted hflaw
  split at hpermitted
  · rename_i hnull
    rw [Permits, hnull.1]
    rw [List.mem_singleton.mp hpermitted]
    exact itemField_of_outcome? houtcome
  · rename_i hdeclared
    rw [if_neg hdeclared] at hflaw
    cases hoptions : permittedOutcomes? record.outcome
        (itemField item "permitted_candidate_outcomes") with
    | none => simp [hoptions] at hflaw
    | some options =>
        cases hreason : rationale? (itemField item "rationale") with
        | none => simp [hoptions, hreason] at hflaw
        | some reason =>
            simp only [hoptions, hreason] at hpermitted
            obtain ⟨values, hvalues, hmem⟩ := values_of_permittedOutcomes? hoptions
            rw [Permits, hvalues]
            exact hmem outcome hpermitted

theorem Reads.named {pending catalogRecords : Bool} {values : List Json} {entries : List Entry}
    (h : Reads pending catalogRecords values entries) (id : String) :
    (∃ item ∈ values, Named item id) ↔ id ∈ entries.map Entry.id := by
  constructor
  · rintro ⟨item, hitem, hid⟩
    obtain ⟨entry, hentry, hread⟩ := h.entry_of_mem hitem
    obtain ⟨hnamed, _⟩ := identity?_eq_some.mp (readEntry_eq_some.mp hread).1
    rw [Named, hid] at hnamed
    cases hnamed
    exact List.mem_map.mpr ⟨entry, hentry, rfl⟩
  · intro hmem
    obtain ⟨entry, hentry, rfl⟩ := List.mem_map.mp hmem
    obtain ⟨item, hitem, hread⟩ := h.item_of_mem hentry
    exact ⟨item, hitem, (identity?_eq_some.mp (readEntry_eq_some.mp hread).1).1⟩

section

variable {repository : String} {records : List CommandRecord} {catalog : List Json}
  {pending : Bool}

/-- A reconciliation that is exact compares every observed outcome with what is permitted. -/
theorem outcome_permitted {observed : List Json} (h : Reconciled observed catalog pending)
    {item record : Json} (hitem : item ∈ observed) (hrecord : record ∈ catalog) {id : String}
    (hid : Named item id) (hid' : Named record id) :
    ∃ outcome, itemField item "outcome" = .str outcome ∧ Permits record outcome := by
  obtain ⟨seen, known, hobserved, hcatalog, hagree⟩ := h
  obtain ⟨entry, hentry, hread⟩ := hobserved.entry_of_mem hitem
  obtain ⟨other, hother, hread'⟩ := hcatalog.entry_of_mem hrecord
  have hnamed := (identity?_eq_some.mp (readEntry_eq_some.mp hread).1).1
  have hnamed' := (identity?_eq_some.mp (readEntry_eq_some.mp hread').1).1
  rw [Named, hid] at hnamed
  rw [Named, hid'] at hnamed'
  have hsame : entry.id = other.id :=
    (Json.str.inj hnamed).symm.trans (Json.str.inj hnamed')
  exact ⟨entry.outcome, itemField_of_outcome? (readEntry_eq_some.mp hread).2.1,
    permits_of_mem hread' (hagree.permitted entry hentry other hother hsame)⟩

/-- A positive verdict is sound but for the runs whose exit code and debt disagree. -/
theorem sound_iff (h : Releasable repository records catalog pending) :
    Sound records catalog ↔ ∀ record ∈ records, isCompleteSuite record = true →
      record.exitStatus = 0 ∧ record.debt = [] ∨ record.exitStatus = 1 ∧ record.debt ≠ [] := by
  refine ⟨Sound.suite, fun hsuite => ⟨h.supporting, hsuite, ?_, ?_⟩⟩
  · intro id
    obtain ⟨seen, known, hobserved, hcatalog, hagree⟩ := h.reconciled
    rw [hobserved.named, hcatalog.named]
    exact hagree.identities id
  · intro item hitem record hrecord id hid hid'
    exact outcome_permitted h.reconciled hitem hrecord hid hid'

/-! ### Running the suite again -/

theorem mem_repeated {times : Nat} {record : CommandRecord} :
    record ∈ repeated records times ↔ record ∈ records := by
  rw [repeated, List.mem_append, List.mem_flatten, completeSuite]
  constructor
  · rintro (⟨run, hrun, hmem⟩ | hmem)
    · rw [List.eq_of_mem_replicate hrun] at hmem
      exact List.mem_of_mem_filter hmem
    · exact hmem
  · exact Or.inr

/-- More runs change nothing of what is asked of the commands, only the pool of debt. -/
theorem releasable_repeated (times : Nat) :
    Releasable repository (repeated records times) catalog pending ↔
      (∃ record ∈ records, isCompleteSuite record = true) ∧
      (∀ record ∈ records, isCompleteSuite record = false → record.exitStatus = 0) ∧
      (∀ record ∈ records, isCompleteSuite record = true → CompletedRun repository record) ∧
      Reconciled (observedDebt (repeated records times)) catalog pending := by
  constructor
  · rintro ⟨hrun, hsupporting, hsuite, hreconciled⟩
    simp only [mem_repeated] at hrun hsupporting hsuite
    exact ⟨hrun, hsupporting, hsuite, hreconciled⟩
  · rintro ⟨hrun, hsupporting, hsuite, hreconciled⟩
    refine ⟨?_, ?_, ?_, hreconciled⟩ <;> simpa only [mem_repeated]

theorem observedDebt_repeated (times : Nat) :
    observedDebt (repeated records times) =
      (List.replicate times (observedDebt (completeSuite records))).flatten ++
        observedDebt records := by
  rw [repeated, observedDebt, List.flatMap_append, observedDebt, observedDebt]
  congr 1
  induction times with
  | zero => rfl
  | succ times ih => rw [List.replicate_succ, List.flatten_cons, List.flatMap_append, ih,
      List.replicate_succ, List.flatten_cons]

theorem mem_observedDebt_of_suite {item : Json}
    (h : item ∈ observedDebt (completeSuite records)) : item ∈ observedDebt records := by
  obtain ⟨record, hrecord, hitem⟩ := List.mem_flatMap.mp h
  exact List.mem_flatMap.mpr ⟨record, List.mem_of_mem_filter hrecord, hitem⟩

/-- A record that stands twice in a pool is a duplicate. -/
theorem not_reads_twice {pending catalogRecords : Bool} {entries : List Entry}
    {first second : List Json} {item : Json} (hfirst : item ∈ first) (hsecond : item ∈ second) :
    ¬Reads pending catalogRecords (first ++ second) entries := by
  rintro ⟨haccepted, hdistinct⟩
  obtain ⟨before, behind, rfl, hbefore, hbehind⟩ :=
    List.map_eq_append_iff.mp (haccepted.symm.trans List.map_append)
  have hmem : readEntry pending catalogRecords item ∈ before.map some :=
    hbefore ▸ List.mem_map.mpr ⟨item, hfirst, rfl⟩
  have hmem' : readEntry pending catalogRecords item ∈ behind.map some :=
    hbehind ▸ List.mem_map.mpr ⟨item, hsecond, rfl⟩
  obtain ⟨entry, hentry, hread⟩ := List.mem_map.mp hmem
  obtain ⟨other, hother, hread'⟩ := List.mem_map.mp hmem'
  have hsame : entry = other := Option.some.inj (hread.trans hread'.symm)
  rw [List.map_append, List.nodup_append] at hdistinct
  exact hdistinct.2.2 entry.id (List.mem_map.mpr ⟨entry, hentry, rfl⟩) other.id
    (List.mem_map.mpr ⟨other, hother, rfl⟩) (congrArg Entry.id hsame)

theorem observedDebt_eq_nil {commands : List CommandRecord} :
    observedDebt commands = [] ↔ ∀ record ∈ commands, record.debt = [] := by
  rw [observedDebt, List.flatMap_eq_nil_iff]

/-- A further run is reconciled exactly if the suite shows no debt. -/
theorem reconciled_repeated {times : Nat} (htimes : 0 < times) :
    Reconciled (observedDebt (repeated records times)) catalog pending ↔
      Reconciled (observedDebt records) catalog pending ∧
        observedDebt (completeSuite records) = [] := by
  rw [observedDebt_repeated]
  by_cases hempty : observedDebt (completeSuite records) = []
  · simp [hempty]
  · refine iff_of_false ?_ fun h => hempty h.2
    rintro ⟨seen, _, hobserved, _, _⟩
    obtain ⟨item, hitem⟩ := List.exists_mem_of_ne_nil _ hempty
    refine @not_reads_twice _ _ _ _ _ item (List.mem_flatten.mpr ⟨_, ?_, hitem⟩)
      (mem_observedDebt_of_suite hitem) hobserved
    exact List.mem_replicate.mpr ⟨by omega, rfl⟩

/-- The verdict does not change under repetition, exactly if a positive one rests on runs without
debt. -/
theorem stable_iff :
    (∀ times, releaseVerdict repository (repeated records times) catalog pending =
        releaseVerdict repository records catalog pending) ↔
      (Releasable repository records catalog pending →
        observedDebt (completeSuite records) = []) := by
  constructor
  · intro hstable hreleasable
    have hagain := (hstable 1).trans ((verdict_iff _ _ _ _).mpr hreleasable)
    obtain ⟨_, _, _, hreconciled⟩ := (releasable_repeated 1).mp ((verdict_iff _ _ _ _).mp hagain)
    exact ((reconciled_repeated one_pos).mp hreconciled).2
  · intro hclean times
    rcases Nat.eq_zero_or_pos times with rfl | htimes
    · rfl
    · rw [Bool.eq_iff_iff, verdict_iff, verdict_iff, releasable_repeated,
        reconciled_repeated htimes]
      constructor
      · rintro ⟨hrun, hsupporting, hsuite, hreconciled, _⟩
        exact ⟨hrun, hsupporting, hsuite, hreconciled⟩
      · intro hreleasable
        exact ⟨hreleasable.run, hreleasable.supporting, hreleasable.suite,
          hreleasable.reconciled, hclean hreleasable⟩

end

/-- The verdict is sound and stable under repetition exactly if a positive one rests on clean runs
of the complete suite. -/
theorem release_verdict_iff (repository : String) (records : List CommandRecord)
    (catalog : List Json) (pending : Bool) :
    SoundVerdict repository records catalog pending ↔
      (Releasable repository records catalog pending → CleanRuns records) := by
  have hdebt : observedDebt (completeSuite records) = [] ↔
      ∀ record ∈ records, isCompleteSuite record = true → record.debt = [] := by
    rw [observedDebt_eq_nil]
    simp only [completeSuite, List.mem_filter, and_imp]
  constructor
  · rintro ⟨hsound, hstable⟩ hreleasable record hrecord hsuite
    have hnone := hdebt.mp (stable_iff.mp hstable hreleasable) record hrecord hsuite
    refine ⟨?_, hnone⟩
    rcases (hsound ((verdict_iff _ _ _ _).mpr hreleasable)).suite record hrecord hsuite with
      ⟨hexit, _⟩ | ⟨_, hsome⟩
    · exact hexit
    · exact absurd hnone hsome
  · intro hclean
    refine ⟨fun hverdict => ?_, stable_iff.mpr fun hreleasable => ?_⟩
    · have hreleasable := (verdict_iff _ _ _ _).mp hverdict
      refine (sound_iff hreleasable).mpr fun record hrecord hsuite => ?_
      exact Or.inl (hclean hreleasable record hrecord hsuite)
    · exact hdebt.mpr fun record hrecord hsuite =>
        (hclean hreleasable record hrecord hsuite).2

/-! ### A known failure, seen twice -/

def cleanCommit : Fields := Fields.ofPairs
  [("repository_path", .str "/repo"), ("branch", .str "main"), ("commit", .str "c1"),
    ("tree", .str "t1"), ("worktree_clean", .bool true), ("changed_paths", .arr [])]

/-- A complete run that ends with this exit code and shows this debt. -/
def completeRun (exitStatus : Int) (debt : List Json) : CommandRecord where
  group := "release_complete_suite_1"
  exitStatus
  debt
  releaseExecution := some (Fields.ofPairs
    [("execution_id", .str "e1"), ("created_at", .str "t0"), ("completed_at", .str "t1"),
      ("completion_state", .str "complete"), ("parser_status", .str "succeeded"),
      ("child_exit_code", .int exitStatus), ("provenance_valid", .bool true),
      ("starting_provenance", .obj cleanCommit), ("final_provenance", .obj cleanCommit)])

def knownFailure : Json :=
  .obj (Fields.ofPairs [("id", .str "tests.A.test_a"), ("outcome", .str "failure")])

def compileRun : CommandRecord := ⟨"compile", 0, [], none⟩

/-- The catalog lists the one failure of the suite, and the release is valid; the suite is run a
second time with the same result, and it is not. -/
theorem known_failure_not_stable :
    ¬SoundVerdict "/repo" [completeRun 1 [knownFailure], compileRun] [knownFailure] false := by
  intro h
  have hstable := h.stable 1
  revert hstable
  decide

/-- A suite that fails without a parsed failure is a valid release. -/
example : releaseVerdict "/repo" [completeRun 1 [], compileRun] [] false = true := by decide

end ReleaseVerdict

end Conveyor
