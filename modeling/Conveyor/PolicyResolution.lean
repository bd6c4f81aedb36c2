import Conveyor.ExecutionPolicy

/-!
# Resolving execution policies

Which profile a feature runs under (`execution_profiles.py`). A policy can stand in the queue
entry of the feature, in its specification, and in the configuration of the controller;
`resolve_feature_execution_policy` settles on one of them and resolves it to a model.
`resolves_iff` says for which places a policy resolves to its own normal form.
-/

namespace Conveyor

open Library

namespace ExecutionPolicy

variable (P : Platform)

/-! ### The configuration -/

/-- The dictionary of `DEFAULT_PROFILES`. -/
def defaultProfiles : Fields := Fields.ofPairs (DEFAULT_PROFILES.map fun entry =>
  (entry.1, .obj (Fields.ofPairs
    [("model", .str entry.2.model), ("reasoning", .str entry.2.reasoning)])))

def defaultFallbacks : Fields :=
  Fields.ofPairs (DEFAULT_WORKFLOW_FALLBACKS.map fun entry => (entry.1, .str entry.2))

def object (value : Json) (failure : Failure) : Result Fields :=
  match value with
  | .obj fields => .ok fields
  | _ => .error failure

def array (value : Json) (failure : Failure) : Result (List Json) :=
  match value with
  | .arr items => .ok items
  | _ => .error failure

/-- A named profile has to be the default one. -/
def checkRoute (profiles : Fields) (entry : String × ModelRoute) : Result Unit := do
  let incomplete := configurationError
    s!"execution profile {entry.1} must define exactly model and reasoning"
  let configured ← object (profiles.get entry.1) incomplete
  require (hasExactly configured ["model", "reasoning"]) incomplete
  require (configured.get "model" = .str entry.2.model ∧
      configured.get "reasoning" = .str entry.2.reasoning) (configurationError
    s!"execution profile {entry.1} must resolve to {entry.2.model}/{entry.2.reasoning}")

def isProfile (value : Json) : Prop := ∃ name ∈ PROFILE_NAMES, value = .str name

instance (value : Json) : Decidable (isProfile value) :=
  inferInstanceAs (Decidable (∃ name ∈ PROFILE_NAMES, _))

def checkFallback (entry : String × Json) : Result Unit :=
  require (isProfile entry.2) (configurationError ("workflow fallback " ++
    String.ofList (P.reprText entry.1.toList) ++ " references an unsupported profile"))

/-- The project and the feature of an entry of `feature_policies`. -/
def identityOf (index : Nat) (fields : Fields) : Result (String × String) := do
  let projectId ← filledText (fields.get "project_id")
    (configurationError s!"feature_policies[{index}].project_id must be non-empty")
  let featureId ← filledText (fields.get "feature_id")
    (configurationError s!"feature_policies[{index}].feature_id must be non-empty")
  return (projectId, featureId)

def checkEntry (index : Nat) (identities : List (String × String)) (item : Json) :
    Result (String × String) := do
  let inexact := configurationError
    s!"feature_policies[{index}] must define exactly project_id, feature_id, and execution_policy"
  let fields ← object item inexact
  require (hasExactly fields ["project_id", "feature_id", "execution_policy"]) inexact
  let identity ← identityOf index fields
  require (identity ∉ identities) (configurationError
    s!"duplicate feature execution policy for {identity.1}/{identity.2}")
  let _ ← validateFeatureExecutionPolicy P (fields.get "execution_policy")
    s!"$.feature_policies[{index}].execution_policy" .configurationError
  return identity

/-- The loop over `feature_policies`, from this index on. -/
def checkEntries (index : Nat) (identities : List (String × String)) : List Json → Result Unit
  | [] => .ok ()
  | item :: rest => do
      let identity ← checkEntry P index identities item
      checkEntries (index + 1) (identity :: identities) rest

/-- `validate_execution_profile_configuration`. -/
def validateExecutionProfileConfiguration (value : Fields) : Result Fields := do
  let undefined := configurationError
    "execution profile configuration must define every named profile exactly once"
  let profiles ← object (value.get "profiles") undefined
  require (hasExactly profiles PROFILE_NAMES) undefined
  requireAll (checkRoute profiles) DEFAULT_PROFILES
  let fallbacks ← object (value.get "workflow_fallbacks")
    (configurationError "workflow_fallbacks must be an object")
  requireAll (checkFallback P) fallbacks
  let policies ← array (value.getD "feature_policies" (.arr []))
    (configurationError "feature_policies must be an array")
  checkEntries P 0 [] policies
  return value

def defaultConfiguration : Fields := Fields.ofPairs
  [("profiles", .obj defaultProfiles), ("workflow_fallbacks", .obj defaultFallbacks),
   ("feature_policies", .arr [])]

/-- `_configuration`. -/
def configurationOf (value : Option Fields) : Result Fields :=
  match value with
  | none => .ok defaultConfiguration
  | some value => validateExecutionProfileConfiguration P value

/-! ### The policy of a feature -/

/-- `first == second` on numbers. -/
structure NumberEquality where
  same : Json → Json → Bool
  same_int : ∀ n, same (.int n) (.int n) = true
  same_bool : ∀ b, same (.bool b) (.bool b) = true

variable (N : NumberEquality)

def entryFields : Json → List Fields
  | .obj fields => [fields]
  | _ => []

/-- `configuration.get("feature_policies", [])`. -/
def policyEntries (configuration : Fields) : List Fields :=
  match configuration.getD "feature_policies" (.arr []) with
  | .arr items => items.flatMap entryFields
  | _ => []

/-- The entries for the feature of the project. -/
def configuredMatches (configuration : Fields) (projectId : String) (featureId : Json) :
    List Fields :=
  (policyEntries configuration).filter fun entry =>
    entry.get "project_id" = .str projectId ∧ entry.get "feature_id" = featureId

/-- What the configuration holds for the feature; `null` when it holds nothing. -/
def configuredPolicy (feature : Option Fields) (projectId : Option String)
    (configuration : Fields) : Json :=
  match feature, projectId with
  | some feature, some projectId =>
      if projectId = "" then .null
      else match configuredMatches configuration projectId (feature.get "id") with
        | [] => .null
        | found :: _ => found.get "execution_policy"
  | _, _ => .null

/-- `_feature_policy`, with the source of the policy. -/
def featurePolicy (feature : Option Fields) (projectId : Option String) (configuration : Fields) :
    Result (Option (FeatureExecutionPolicy × String)) := do
  let embedded := (feature.map fun fields => fields.get "execution_policy").getD .null
  let configured := configuredPolicy feature projectId configuration
  require (embedded = .null ∨ configured = .null ∨ Json.equals N.same embedded configured = true)
    (configurationError "queue and controller feature execution policies disagree")
  if embedded ≠ .null then
    let policy ← validateFeatureExecutionPolicy P embedded "$.execution_policy" .queueError
    return some (policy, "selected_feature_profile")
  if configured ≠ .null then
    let policy ← validateFeatureExecutionPolicy P configured "$.feature_policies.execution_policy"
      .configurationError
    return some (policy, "reconciled_feature_profile")
  return none

/-! ### Escalation -/

def ESCALATION_RECORD : List String :=
  ["previous_profile", "previous_model", "previous_reasoning",
   "failed_command_or_unresolved_evidence", "escalation_trigger", "new_profile", "new_model",
   "new_reasoning", "expected_resolution", "attempt_number"]

/-- `isinstance(value, str) and bool(value.strip())`. -/
def isFilledText (value : Json) : Prop :=
  value.asString?.any Platform.hasText = true

instance (value : Json) : Decidable (isFilledText value) := inferInstanceAs (Decidable (_ = true))

/-- The three fields of an escalation record that name one side of the change. -/
def recordsRoute (evidence : Fields) (side profile : String) : Prop :=
  let route := Dict.get? DEFAULT_PROFILES profile
  evidence.get (side ++ "_profile") = .str profile ∧
    evidence.get (side ++ "_model") = .ofOption (route.map ModelRoute.model) ∧
    evidence.get (side ++ "_reasoning") = .ofOption (route.map ModelRoute.reasoning)

instance (evidence : Fields) (side profile : String) :
    Decidable (recordsRoute evidence side profile) := inferInstanceAs (Decidable (_ ∧ _ ∧ _))

/-- The attempt is an integer from one on, and at least the second for the last profile. -/
def eligibleAttempt (profile : String) (attempt : Json) : Prop :=
  match attempt with
  | .int n => 1 ≤ n ∧ ¬(profile = "unresolved_after_high" ∧ n < 2)
  | _ => False

instance (profile : String) (attempt : Json) : Decidable (eligibleAttempt profile attempt) := by
  unfold eligibleAttempt
  cases attempt <;> infer_instance

/-- The record entitles a session under the first profile to the second one. -/
def isEligible (profile trigger escalated : String) (evidence : Fields) : Prop :=
  evidence.get "recorded" = .bool true ∧ evidence.get "trigger" = .str trigger ∧
    evidence.get "escalation_trigger" = .str trigger ∧
    evidence.get "context_complete" = .bool true ∧
    evidence.get "missing_context" ≠ .bool true ∧
    evidence.get "environment_failure" ≠ .bool true ∧
    evidence.get "localized_test_omission" ≠ .bool true ∧
    (∀ key ∈ ESCALATION_RECORD, key ∈ evidence.keys) ∧
    recordsRoute evidence "previous" profile ∧ recordsRoute evidence "new" escalated ∧
    isFilledText (evidence.get "failed_command_or_unresolved_evidence") ∧
    isFilledText (evidence.get "expected_resolution") ∧
    eligibleAttempt escalated (evidence.get "attempt_number") ∧
    isFilledText (evidence.get "evidence_id")

instance (profile trigger escalated : String) (evidence : Fields) :
    Decidable (isEligible profile trigger escalated evidence) := by
  unfold isEligible
  infer_instance

/-- `_eligible_escalation`: the profile and the evidence of an escalation that is due. -/
def eligibleEscalation (policy : FeatureExecutionPolicy) (evidence : Option Fields) :
    Option (String × Json) :=
  match policy.escalationTrigger, policy.escalationProfile, evidence with
  | some trigger, some escalated, some evidence =>
      if trigger ≠ "" ∧ escalated ≠ "" ∧ isEligible policy.profile trigger escalated evidence
      then some (escalated, evidence.get "evidence_id") else none
  | _, _, _ => none

/-! ### Resolved profiles -/

/-- A delegation with the model its profile resolves to. -/
structure ResolvedDelegation where
  delegation : ChildDelegation
  route : Option ModelRoute
deriving DecidableEq, Repr

structure ResolvedExecutionProfile where
  profile : Option String
  resolutionSource : String
  model : Option String
  reasoning : Option String
  parentSessions : Int
  childSessions : Int
  escalationTrigger : Option String
  escalationProfile : Option String
  escalated : Bool
  escalationEvidenceId : Json
  childDelegation : Option ResolvedDelegation
deriving DecidableEq, Repr

/-- `configured["profiles"][profile]`. -/
def routeOf (configuration : Fields) (profile : String) : Result ModelRoute := do
  let missing : Failure := ⟨.keyError, s!"'{profile}'"⟩
  let profiles ← object (configuration.get "profiles") missing
  let route ← object (profiles.get profile) missing
  match route.get "model", route.get "reasoning" with
  | .str model, .str reasoning => return ⟨model, reasoning⟩
  | _, _ => .error missing

/-- The first model is strictly cheaper than the second. -/
def isCheaper (child parent : ModelRoute) : Prop :=
  match Dict.get? MODEL_COST_RANK child.model, Dict.get? MODEL_COST_RANK parent.model with
  | some childRank, some parentRank => childRank < parentRank
  | _, _ => False

instance (child parent : ModelRoute) : Decidable (isCheaper child parent) := by
  unfold isCheaper
  split <;> infer_instance

/-- The delegation of a policy under the route of its parent. -/
def resolveDelegation (configuration : Fields) (parent : ModelRoute)
    (policy : FeatureExecutionPolicy) : Result (Option ResolvedDelegation) :=
  if policy.childSessions = 0 then .ok (policy.childDelegation.map fun child => ⟨child, none⟩)
  else match policy.childDelegation with
    | none => .error ⟨.assertionError, ""⟩
    | some child => do
        let route ← routeOf configuration child.profile
        require (isCheaper route parent) (configurationError
          "positive child budget requires a strictly cheaper configured child model")
        return some ⟨child, some route⟩

/-- The policy that an explicit override, the feature or the workflow gives, with its source. -/
def selectedPolicy (workflow : String) (overrideProfile : Option String) (configuration : Fields)
    (featurePolicy : Option (FeatureExecutionPolicy × String)) :
    Result (FeatureExecutionPolicy × String) :=
  match overrideProfile, featurePolicy with
  | some profile, featurePolicy => do
      require (profile ∈ PROFILE_NAMES)
        (configurationError s!"unsupported explicit execution profile: {profile}")
      let policy := (featurePolicy.map Prod.fst).getD ⟨profile, 1, 0, none, none, none⟩
      return ({ policy with profile := profile }, "explicit_run_override")
  | none, some found => .ok found
  | none, none => do
      let fallbacks ← object (configuration.get "workflow_fallbacks") ⟨.keyError, ""⟩
      match fallbacks.get workflow with
      | .str fallback =>
          require (fallback ∈ PROFILE_NAMES) (unvalidated workflow)
          return (⟨fallback, 1, 0, none, none, none⟩, "workflow_fallback")
      | _ => .error (unvalidated workflow)
where
  unvalidated (workflow : String) : Failure :=
    configurationError ("workflow " ++ String.ofList (P.reprText workflow.toList) ++
      " has no validated execution-profile fallback")

/-- The profile that a policy runs under. -/
def resolvePolicy (configuration : Fields) (escalation : Option (String × Json))
    (policy : FeatureExecutionPolicy) (source : String) : Result ResolvedExecutionProfile := do
  let resolved := (escalation.map Prod.fst).getD policy.profile
  let route ← routeOf configuration resolved
  let childDelegation ← resolveDelegation configuration route policy
  return {
    profile := some resolved
    resolutionSource := if escalation.isSome then "evidence_based_escalation" else source
    model := some route.model
    reasoning := some route.reasoning
    parentSessions := policy.parentSessions
    childSessions := policy.childSessions
    escalationTrigger := policy.escalationTrigger
    escalationProfile := policy.escalationProfile
    escalated := escalation.isSome
    escalationEvidenceId := (escalation.map Prod.snd).getD .null
    childDelegation := childDelegation }

/-- `resolve_execution_profile`. -/
def resolveExecutionProfile (workflow : String) (deterministic : Bool) (feature : Option Fields)
    (projectId : Option String) (configuration : Option Fields) (overrideProfile : Option String)
    (escalationEvidence : Option Fields) : Result ResolvedExecutionProfile := do
  let configured ← configurationOf P configuration
  if deterministic then
    return ⟨none, "deterministic_zero_model", none, none, 0, 0, none, none, false, .null, none⟩
  let found ← featurePolicy P N feature projectId configured
  let (policy, source) ← selectedPolicy P workflow overrideProfile configured found
  -- an explicit choice is not escalated
  let escalation := if source = "explicit_run_override" then none
    else eligibleEscalation policy escalationEvidence
  resolvePolicy configured escalation policy source

/-! ### Resolving the policy of a feature -/

structure ResolvedFeaturePolicy where
  featureId : String
  executionPolicy : Json
  resolvedExecutionProfile : ResolvedExecutionProfile
  policySource : String
  explicitPolicyPreserved : Bool
deriving DecidableEq, Repr

/-- The dictionary of a validated policy; nothing where there is none. -/
def normalizedPolicy (value : Json) (path : String) : Result (Option Fields) :=
  if value = .null then .ok none
  else (validateFeatureExecutionPolicy P value path .queueError).map fun policy =>
    some policy.toDict

/-- The resolved profile is one that a session can run under. -/
def isExecutable (resolved : ResolvedExecutionProfile) : Prop :=
  resolved.profile ≠ none ∧ resolved.model ≠ none ∧ resolved.reasoning ≠ none ∧
    1 ≤ resolved.parentSessions ∧ 0 ≤ resolved.childSessions ∧
    resolved.resolutionSource ∈
      ["selected_feature_profile", "reconciled_feature_profile", "workflow_fallback"]

instance (resolved : ResolvedExecutionProfile) : Decidable (isExecutable resolved) :=
  inferInstanceAs (Decidable (_ ∧ _ ∧ _ ∧ _ ∧ _ ∧ _))

/-- The policy rebuilt from a resolved profile. -/
def rebuiltPolicy (resolved : ResolvedExecutionProfile) : FeatureExecutionPolicy :=
  ⟨resolved.profile.getD "", resolved.parentSessions, resolved.childSessions,
    resolved.escalationTrigger, resolved.escalationProfile, none⟩

def differ (first second : Option Fields) : Prop :=
  match first, second with
  | some first, some second => Json.equals N.same (.obj first) (.obj second) = false
  | _, _ => False

instance (first second : Option Fields) : Decidable (differ N first second) := by
  unfold differ
  split <;> infer_instance

def plainText (value : Json) (failure : Failure) : Result String :=
  match value with
  | .str text => .ok text
  | _ => .error failure

/-- `resolve_feature_execution_policy`. -/
def resolveFeatureExecutionPolicy (feature : Fields) (projectId : String)
    (specificationPolicy : Option Json) (configuration : Option Fields) :
    Result ResolvedFeaturePolicy := do
  let nameless := configurationError "feature execution-policy resolution requires a feature ID"
  let featureId ← plainText (feature.get "id") nameless
  require (featureId ≠ "") nameless
  let path := s!"feature {featureId}.execution_policy"
  let queuePolicy ← normalizedPolicy P (feature.get "execution_policy") path
  let specificationPolicy ← normalizedPolicy P (specificationPolicy.getD .null)
    s!"feature {featureId}.spec.execution_policy"
  require (¬differ N queuePolicy specificationPolicy) (configurationError
    s!"queue and feature specification execution policies disagree for {featureId}")
  -- a normalized policy is a dictionary with entries, so `or` takes the first there is
  let explicitPolicy := queuePolicy.orElse fun _ => specificationPolicy
  let candidate := match explicitPolicy with
    | some policy => feature.set "execution_policy" (.obj policy)
    | none => feature
  let resolved ← resolveExecutionProfile P N "application_feature" false (some candidate)
    (some projectId) configuration none none
  require (isExecutable resolved) (configurationError
    s!"feature {featureId} does not resolve to one unambiguous executable policy")
  let executionPolicy := explicitPolicy.getD (rebuiltPolicy resolved).toDict
  let _ ← validateFeatureExecutionPolicy P (.obj executionPolicy) path .queueError
  return ⟨featureId, .obj executionPolicy, resolved, resolved.resolutionSource,
    explicitPolicy.isSome⟩

/-! ### What a validated configuration holds -/

section Configuration

variable {P} {N} {value : Json} {failure : Failure} {config : Option Fields} {configured : Fields}

theorem object_eq_ok {fields : Fields} :
    object value failure = .ok fields ↔ value = .obj fields := by
  unfold object
  cases value <;> simp

theorem array_eq_ok {items : List Json} : array value failure = .ok items ↔ value = .arr items := by
  unfold array
  cases value <;> simp

/-- The route of a profile that has one. -/
def defaultRoute (profile : String) : ModelRoute :=
  (Dict.get? DEFAULT_PROFILES profile).getD ⟨"", ""⟩

theorem defaultRoute_mem {profile : String} (h : profile ∈ PROFILE_NAMES) :
    (profile, defaultRoute profile) ∈ DEFAULT_PROFILES := by
  simp only [PROFILE_NAMES, List.mem_cons, List.not_mem_nil, or_false] at h
  rcases h with rfl | rfl | rfl | rfl | rfl | rfl | rfl | rfl <;> decide

/-- The item is an entry for the project and the feature. -/
def IsEntry (P : Platform) (item : Json) (identity : String × String) : Prop :=
  ∃ (fields : Fields) (policy : FeatureExecutionPolicy), item = .obj fields ∧
    hasExactly fields ["project_id", "feature_id", "execution_policy"] ∧
    fields.get "project_id" = .str identity.1 ∧ Platform.hasText identity.1 = true ∧
    fields.get "feature_id" = .str identity.2 ∧ Platform.hasText identity.2 = true ∧
    Accepts P (fields.get "execution_policy") policy

theorem checkEntry_eq_ok {index : Nat} {identities : List (String × String)} {item : Json}
    {identity : String × String} : checkEntry P index identities item = .ok identity ↔
      IsEntry P item identity ∧ identity ∉ identities := by
  simp only [checkEntry, identityOf, bind_eq_ok, require_eq_ok, exists_const, object_eq_ok,
    filledText_eq_ok, validateFeatureExecutionPolicy_eq_ok]
  constructor
  · rintro ⟨fields, hfields, hexact, identity, ⟨project, ⟨hproject, hproject'⟩, feature,
      ⟨hfeature, hfeature'⟩, hidentity⟩, hnew, policy, hpolicy, hresult⟩
    cases hidentity
    cases hresult
    exact ⟨⟨fields, policy, hfields, hexact, hproject, hproject', hfeature, hfeature', hpolicy⟩,
      hnew⟩
  · rintro ⟨⟨fields, policy, hfields, hexact, hproject, hproject', hfeature, hfeature', hpolicy⟩,
      hnew⟩
    exact ⟨fields, hfields, hexact, identity, ⟨_, ⟨hproject, hproject'⟩, _,
      ⟨hfeature, hfeature'⟩, rfl⟩, hnew, policy, hpolicy, rfl⟩

theorem checkEntries_eq_ok {items : List Json} : ∀ {index : Nat}
    {seen : List (String × String)}, checkEntries P index seen items = .ok () ↔
      ∃ identities, List.Forall₂ (IsEntry P) items identities ∧ identities.Nodup ∧
        ∀ identity ∈ identities, identity ∉ seen := by
  induction items with
  | nil =>
      intro index seen
      simp [checkEntries]
  | cons item items ih =>
      intro index seen
      rw [checkEntries, bind_eq_ok]
      constructor
      · rintro ⟨identity, hentry, hrest⟩
        obtain ⟨hentry, hnew⟩ := checkEntry_eq_ok.mp hentry
        obtain ⟨identities, hentries, hnodup, hapart⟩ := ih.mp hrest
        refine ⟨identity :: identities, .cons hentry hentries, ?_, ?_⟩
        · exact List.nodup_cons.mpr
            ⟨fun hmem => hapart identity hmem List.mem_cons_self, hnodup⟩
        · intro other hother
          rcases List.mem_cons.mp hother with rfl | hother
          · exact hnew
          · exact fun hseen => hapart other hother (List.mem_cons_of_mem _ hseen)
      · rintro ⟨identities, hentries, hnodup, hapart⟩
        obtain ⟨identity, rest, hentry, hrest, rfl⟩ := List.forall₂_cons_left_iff.mp hentries
        obtain ⟨hnew, hnodup⟩ := List.nodup_cons.mp hnodup
        refine ⟨identity, checkEntry_eq_ok.mpr ⟨hentry, hapart identity List.mem_cons_self⟩, ?_⟩
        refine ih.mpr ⟨rest, hrest, hnodup, fun other hother hseen => ?_⟩
        rcases List.mem_cons.mp hseen with rfl | hseen
        · exact hnew hother
        · exact hapart other (List.mem_cons_of_mem _ hother) hseen

/-- What the loops over a configuration check. -/
structure ConfigurationValid (P : Platform) (configured profiles : Fields) (items : List Json) :
    Prop where
  hasProfiles : configured.get "profiles" = .obj profiles
  names : hasExactly profiles PROFILE_NAMES
  routes : ∀ entry ∈ DEFAULT_PROFILES, checkRoute profiles entry = .ok ()
  fallbacks : ∃ fallbacks : Fields, configured.get "workflow_fallbacks" = .obj fallbacks ∧
    ∀ entry ∈ fallbacks, checkFallback P entry = .ok ()
  hasItems : configured.getD "feature_policies" (.arr []) = .arr items
  entries : ∃ identities, List.Forall₂ (IsEntry P) items identities ∧ identities.Nodup

theorem validateExecutionProfileConfiguration_eq_ok {fields : Fields} :
    validateExecutionProfileConfiguration P fields = .ok configured ↔
      configured = fields ∧ ∃ profiles items, ConfigurationValid P fields profiles items := by
  simp only [validateExecutionProfileConfiguration, bind_eq_ok, require_eq_ok, exists_const,
    object_eq_ok, array_eq_ok, requireAll_eq_ok]
  constructor
  · rintro ⟨profiles, hprofiles, hnames, hroutes, fallbacks, hfallbacks, hchecked, items, hitems,
      ⟨⟩, hentries, hresult⟩
    cases hresult
    obtain ⟨identities, hentries, hnodup, -⟩ := checkEntries_eq_ok.mp hentries
    exact ⟨rfl, profiles, items, hprofiles, hnames, hroutes, ⟨fallbacks, hfallbacks, hchecked⟩,
      hitems, identities, hentries, hnodup⟩
  · rintro ⟨rfl, profiles, items, hprofiles, hnames, hroutes, ⟨fallbacks, hfallbacks, hchecked⟩,
      hitems, identities, hentries, hnodup⟩
    refine ⟨profiles, hprofiles, hnames, hroutes, fallbacks, hfallbacks, hchecked, items, hitems,
      (), ?_, rfl⟩
    exact checkEntries_eq_ok.mpr ⟨identities, hentries, hnodup,
      fun _ _ h => absurd h List.not_mem_nil⟩

/-- A validated configuration routes the profiles as the defaults do. -/
theorem routeOf_eq_ok {profiles : Fields} {profile : String} {route : ModelRoute}
    (hprofiles : configured.get "profiles" = .obj profiles)
    (hroute : checkRoute profiles (profile, route) = .ok ()) :
    routeOf configured profile = .ok route := by
  simp only [checkRoute, bind_eq_ok, require_eq_ok, exists_const, object_eq_ok] at hroute
  obtain ⟨fields, hfields, -, hmodel, hreasoning⟩ := hroute
  unfold routeOf
  rw [hprofiles]
  simp only [object, ok_bind, hfields, hmodel, hreasoning]
  rfl

theorem validated_default (P : Platform) :
    ∃ profiles, ConfigurationValid P defaultConfiguration profiles [] := by
  have hfallbacks : ∀ entry ∈ defaultFallbacks, isProfile entry.2 := by decide
  exact ⟨defaultProfiles, rfl, by decide, by decide,
    ⟨defaultFallbacks, rfl, fun entry hentry => require_of (hfallbacks entry hentry)⟩, rfl, [],
    .nil, List.nodup_nil⟩

/-- Every configuration that is read is one that was validated, or the default one. -/
theorem configurationOf_valid (h : configurationOf P config = .ok configured) :
    configured = config.getD defaultConfiguration ∧
      ∃ profiles items, ConfigurationValid P configured profiles items := by
  cases config with
  | none =>
      cases h
      obtain ⟨profiles, hvalid⟩ := validated_default P
      exact ⟨rfl, profiles, [], hvalid⟩
  | some fields =>
      obtain ⟨rfl, hvalid⟩ := validateExecutionProfileConfiguration_eq_ok.mp h
      exact ⟨rfl, hvalid⟩

theorem ConfigurationValid.route {profiles : Fields} {items : List Json} {profile : String}
    (h : ConfigurationValid P configured profiles items) (hprofile : profile ∈ PROFILE_NAMES) :
    routeOf configured profile = .ok (defaultRoute profile) :=
  routeOf_eq_ok h.hasProfiles (h.routes _ (defaultRoute_mem hprofile))

end Configuration

/-! ### Writing a policy to the configuration -/

section Written

variable {P} {N} {value : Json} {config : Option Fields} {configured profiles : Fields}
  {items : List Json} {project feature : String} {policy : FeatureExecutionPolicy} {place : Nat}

/-- An entry of `feature_policies`. -/
def policyEntry (project feature : String) (value : Json) : Fields := Fields.ofPairs
  [("project_id", .str project), ("feature_id", .str feature), ("execution_policy", value)]

/-- The items with one more at this place. -/
def insertAt (place : Nat) (item : Json) (items : List Json) : List Json :=
  items.take place ++ item :: items.drop place

/-- The configuration with one more entry in `feature_policies`. -/
def writtenConfiguration (configured : Fields) (place : Nat) (project feature : String)
    (value : Json) : Fields :=
  let items := match configured.getD "feature_policies" (.arr []) with
    | .arr items => items
    | _ => []
  configured.set "feature_policies" (.arr (insertAt place (.obj (policyEntry project feature value))
    items))

theorem policyEntry_reads :
    hasExactly (policyEntry project feature value)
      ["project_id", "feature_id", "execution_policy"] ∧
    (policyEntry project feature value).get "project_id" = .str project ∧
    (policyEntry project feature value).get "feature_id" = .str feature ∧
    (policyEntry project feature value).get "execution_policy" = value := by
  have hkeys : ∀ key, key ∈ (policyEntry project feature value).keys ↔
      key ∈ ["project_id", "feature_id", "execution_policy"] := by
    intro key
    unfold policyEntry
    rw [Fields.mem_keys_ofPairs]
    rfl
  refine ⟨⟨fun key => (hkeys key).mp, fun key => (hkeys key).mpr⟩, ?_, ?_, ?_⟩
  all_goals simp [policyEntry, Fields.get, Fields.get?_ofPairs, Fields.get?_cons]

theorem isEntry_policyEntry (hvalue : Accepts P value policy) {identity : String × String} :
    IsEntry P (.obj (policyEntry project feature value)) identity ↔
      identity = (project, feature) ∧ Platform.hasText project = true ∧
        Platform.hasText feature = true := by
  obtain ⟨hexact, hproject, hfeature, hpolicy⟩ :=
    @policyEntry_reads value project feature
  constructor
  · rintro ⟨fields, found, hfields, -, hproject', hfilled, hfeature', hfilled', -⟩
    cases hfields
    rw [hproject] at hproject'
    rw [hfeature] at hfeature'
    obtain ⟨first, second⟩ := identity
    cases hproject'
    cases hfeature'
    exact ⟨rfl, hfilled, hfilled'⟩
  · rintro ⟨rfl, hfilled, hfilled'⟩
    exact ⟨_, policy, rfl, hexact, hproject, hfilled, hfeature, hfilled', by rwa [hpolicy]⟩

/-- No entry of the configuration is for the feature of the project. -/
def Unconfigured (configured : Fields) (project feature : String) : Prop :=
  configuredMatches configured project (.str feature) = []

theorem ConfigurationValid.policyEntries_eq (h : ConfigurationValid P configured profiles items) :
    policyEntries configured = items.flatMap entryFields := by
  rw [policyEntries, h.hasItems]

theorem not_mem_identities (h : ConfigurationValid P configured profiles items)
    (hfree : Unconfigured configured project feature) {identities : List (String × String)}
    (hentries : List.Forall₂ (IsEntry P) items identities) : (project, feature) ∉ identities := by
  intro hmem
  obtain ⟨item, hitem, fields, found, rfl, -, hproject, -, hfeature, -⟩ :=
    (exists_partner hentries).2 _ hmem
  have hempty := List.filter_eq_nil_iff.mp hfree fields (by
    rw [h.policyEntries_eq]
    exact List.mem_flatMap.mpr ⟨_, hitem, List.mem_singleton_self _⟩)
  exact hempty (by simp [hproject, hfeature])

/-- The written configuration is valid unless an identifier is blank. -/
theorem validate_written (h : ConfigurationValid P configured profiles items)
    (hfree : Unconfigured configured project feature) (hvalue : Accepts P value policy) :
    (∃ profiles items, ConfigurationValid P
      (writtenConfiguration configured place project feature value) profiles items) ↔
      Platform.hasText project = true ∧ Platform.hasText feature = true := by
  have hwritten : writtenConfiguration configured place project feature value =
      configured.set "feature_policies"
        (.arr (insertAt place (.obj (policyEntry project feature value)) items)) := by
    rw [writtenConfiguration, h.hasItems]
  have hitems : (writtenConfiguration configured place project feature value).getD
      "feature_policies" (.arr []) =
        .arr (insertAt place (.obj (policyEntry project feature value)) items) := by
    rw [hwritten, Fields.getD, Fields.get?_set_self]
    rfl
  have hothers : ∀ key, key ≠ "feature_policies" →
      (writtenConfiguration configured place project feature value).get key =
        configured.get key := by
    intro key hkey
    rw [hwritten, Fields.get_set_of_ne hkey]
  constructor
  · rintro ⟨profiles', items', hvalid⟩
    have hsame := hitems.symm.trans hvalid.hasItems
    obtain ⟨identities, hentries, -⟩ := hvalid.entries
    rw [← Json.arr.inj hsame] at hentries
    obtain ⟨identity, -, hentry⟩ :=
      (exists_partner hentries).1 _ (List.mem_append_right _ List.mem_cons_self)
    exact ((isEntry_policyEntry hvalue).mp hentry).2
  · rintro hfilled
    obtain ⟨identities, hentries, hnodup⟩ := h.entries
    have hnew := not_mem_identities h hfree hentries
    obtain ⟨fallbacks, hfallbacks, hchecked⟩ := h.fallbacks
    refine ⟨profiles, _, (hothers _ (by decide)).trans h.hasProfiles, h.names, h.routes,
      ⟨fallbacks, (hothers _ (by decide)).trans hfallbacks, hchecked⟩, hitems,
      identities.take place ++ (project, feature) :: identities.drop place, ?_, ?_⟩
    · refine List.rel_append (List.forall₂_take place hentries) ?_
      exact .cons ((isEntry_policyEntry hvalue).mpr ⟨rfl, hfilled⟩)
        (List.forall₂_drop place hentries)
    · rw [List.nodup_middle, List.take_append_drop]
      exact List.nodup_cons.mpr ⟨hnew, hnodup⟩

/-- The entry is the first, and only, one for its feature. -/
theorem configuredMatches_written (h : ConfigurationValid P configured profiles items)
    (hfree : Unconfigured configured project feature) :
    configuredMatches (writtenConfiguration configured place project feature value) project
      (.str feature) = [policyEntry project feature value] := by
  obtain ⟨-, hproject, hfeature, -⟩ := @policyEntry_reads value project feature
  have hitems : policyEntries (writtenConfiguration configured place project feature value) =
      (items.take place).flatMap entryFields ++ policyEntry project feature value ::
        (items.drop place).flatMap entryFields := by
    rw [policyEntries, writtenConfiguration, h.hasItems, Fields.getD, Fields.get?_set_self]
    simp [insertAt, entryFields]
  have hnone : ∀ entry ∈ items.flatMap entryFields,
      ¬(entry.get "project_id" = .str project ∧ entry.get "feature_id" = .str feature) := by
    intro entry hentry hmatch
    rw [← h.policyEntries_eq] at hentry
    exact List.filter_eq_nil_iff.mp hfree entry hentry (by simpa using hmatch)
  have hpart : ∀ part : List Json, (∀ item ∈ part, item ∈ items) →
      ((part.flatMap entryFields).filter fun entry => entry.get "project_id" = .str project ∧
        entry.get "feature_id" = .str feature) = [] := by
    intro part hpart
    refine List.filter_eq_nil_iff.mpr fun entry hentry hmatch => ?_
    obtain ⟨item, hitem, hfields⟩ := List.mem_flatMap.mp hentry
    exact hnone entry (List.mem_flatMap.mpr ⟨item, hpart item hitem, hfields⟩)
      (by simpa using hmatch)
  unfold configuredMatches
  rw [hitems, List.filter_append, List.filter_cons,
    hpart _ fun item hitem => List.mem_of_mem_take hitem,
    hpart _ fun item hitem => List.mem_of_mem_drop hitem, hproject, hfeature]
  simp

end Written

/-! ### Equal dictionaries -/

/-- The value holds no floating-point number, and its dictionaries have no key twice. -/
inductive Exact : Json → Prop
  | null : Exact .null
  | bool (b : Bool) : Exact (.bool b)
  | int (n : Int) : Exact (.int n)
  | str (s : String) : Exact (.str s)
  | arr {items : List Json} : (∀ item ∈ items, Exact item) → Exact (.arr items)
  | obj {fields : Fields} : fields.keys.Nodup → (∀ entry ∈ fields, Exact entry.2) →
      Exact (.obj fields)

theorem equalsItems_self {numbers : Json → Json → Bool} {items : List Json}
    (h : ∀ item ∈ items, Json.equals numbers item item = true) :
    Json.equalsItems numbers items items = true := by
  induction items with
  | nil => rfl
  | cons item items ih =>
      rw [List.forall_mem_cons] at h
      rw [Json.equalsItems, h.1, ih h.2]
      rfl

theorem equalsFields_of_lookup {numbers : Json → Json → Bool} {rest fields : Fields}
    (hlookup : ∀ entry ∈ rest, fields.lookup entry.1 = some entry.2)
    (h : ∀ entry ∈ rest, Json.equals numbers entry.2 entry.2 = true) :
    Json.equalsFields numbers rest fields = true := by
  induction rest with
  | nil => rfl
  | cons entry rest ih =>
      obtain ⟨key, value⟩ := entry
      rw [List.forall_mem_cons] at hlookup h
      rw [Json.equalsFields, hlookup.1, ih hlookup.2 h.2, Bool.and_true]
      exact h.1

/-- Such a value is equal to itself. -/
theorem equals_self (N : NumberEquality) {value : Json} (h : Exact value) :
    Json.equals N.same value value = true := by
  induction h with
  | null => simp [Json.equals]
  | bool b => simp [Json.equals, Json.isNumber, N.same_bool]
  | int n => simp [Json.equals, Json.isNumber, N.same_int]
  | str s => simp [Json.equals]
  | arr _ ih =>
      rw [Json.equals]
      exact equalsItems_self ih
  | @obj fields hnodup _ ih =>
      have hlookup : ∀ entry ∈ fields, fields.lookup entry.1 = some entry.2 :=
        fun entry hentry => Dict.get?_of_mem hnodup hentry
      rw [Json.equals, equalsFields_of_lookup hlookup ih, Bool.and_true, List.all_eq_true]
      intro entry hentry
      rw [hlookup entry hentry]
      rfl

theorem exact_set {fields : Fields} (hordered : fields.Ordered)
    (h : ∀ entry ∈ fields, Exact entry.2) {key : String} {item : Json} (hitem : Exact item) :
    (fields.set key item).Ordered ∧ ∀ entry ∈ fields.set key item, Exact entry.2 := by
  refine ⟨hordered.set key item, fun entry hentry => ?_⟩
  rcases Fields.mem_of_mem_set hentry with rfl | hentry
  · exact hitem
  · exact h entry hentry

theorem exact_ofPairs (items : Fields) (h : ∀ entry ∈ items, Exact entry.2) :
    (Fields.ofPairs items).Ordered ∧ ∀ entry ∈ Fields.ofPairs items, Exact entry.2 := by
  refine ⟨Fields.ordered_ofPairs items, fun entry hentry => ?_⟩
  rcases Fields.mem_of_mem_update hentry with hentry | hentry
  · exact h entry hentry
  · cases hentry

theorem exact_textItems (paths : List String) : Exact (textItems paths) := by
  refine .arr fun item hitem => ?_
  obtain ⟨path, -, rfl⟩ := List.mem_map.mp hitem
  exact .str path

theorem exact_toDict (policy : FeatureExecutionPolicy) : Exact (.obj policy.toDict) := by
  obtain ⟨profile, parent, child, trigger, escalated, delegation⟩ := policy
  have hpairs : (Fields.ofPairs [("profile", .str profile), ("parent_sessions", .int parent),
      ("child_sessions", .int child)]).Ordered ∧
      ∀ entry ∈ Fields.ofPairs [("profile", .str profile), ("parent_sessions", .int parent),
        ("child_sessions", .int child)], Exact entry.2 :=
    exact_ofPairs _ (by simp [Exact.str, Exact.int])
  have hescalation : ∀ trigger name, Exact (.obj (escalationFields trigger name)) := by
    intro trigger name
    have hfields := exact_ofPairs [("trigger", .str trigger), ("profile", .str name)]
      (by simp [Exact.str])
    exact .obj hfields.1.nodup hfields.2
  have hdelegation : ∀ child : ChildDelegation, Exact (.obj child.fields) := by
    intro child
    have hfields := exact_ofPairs [("role", .str child.role),
      ("profile", .str child.profile),
      ("cost_saving_justification", .str child.costSavingJustification),
      ("task_boundary", .str child.taskBoundary),
      ("expected_input_context_bytes", .int child.expectedInputContextBytes),
      ("parent_context_bytes", .int child.parentContextBytes),
      ("expected_output_contract", .str child.expectedOutputContract),
      ("read_only", .bool child.readOnly), ("owned_paths", textItems child.ownedPaths),
      ("parent_owned_paths", textItems child.parentOwnedPaths)]
      (by simp [Exact.str, Exact.int, Exact.bool, exact_textItems])
    exact .obj hfields.1.nodup hfields.2
  have hdelegated : ∀ fields : Fields, fields.Ordered → (∀ entry ∈ fields, Exact entry.2) →
      Exact (.obj (withDelegation fields delegation)) := by
    intro fields hordered hentries
    cases delegation with
    | none => exact .obj hordered.nodup hentries
    | some child =>
        obtain ⟨hordered, hentries⟩ := exact_set hordered hentries (hdelegation child)
        exact .obj hordered.nodup hentries
  rcases trigger with _ | trigger <;> rcases escalated with _ | escalated
  case some.some =>
    obtain ⟨hordered, hentries⟩ := exact_set hpairs.1 hpairs.2 (hescalation trigger escalated)
    exact hdelegated _ hordered hentries
  all_goals exact hdelegated _ hpairs.1 hpairs.2

/-! ### The places a policy is written to -/

/-- Where a policy is written. -/
structure Places where
  queue : Bool
  specification : Bool
  configuration : Bool
deriving DecidableEq, Repr

namespace Places

def queueEntry (places : Places) (feature : Fields) (value : Json) : Fields :=
  if places.queue then feature.set "execution_policy" value else feature

def specificationPolicy (places : Places) (value : Json) : Option Json :=
  if places.specification then some value else none

def controllerConfiguration (places : Places) (config : Option Fields) (place : Nat)
    (project featureId : String) (value : Json) : Option Fields :=
  if places.configuration then
    some (writtenConfiguration (config.getD defaultConfiguration) place project featureId value)
  else config

end Places

section Places

variable {P} {N} {value : Json} {policy : FeatureExecutionPolicy} {feature configured : Fields}
  {featureId project source : String} {config : Option Fields} {place : Nat} {places : Places}

/-- The child of the policy, if it has one, runs on a strictly cheaper model. -/
def FeatureExecutionPolicy.CheaperChild (policy : FeatureExecutionPolicy) : Prop :=
  ∀ child ∈ policy.childDelegation,
    isCheaper (defaultRoute child.profile) (defaultRoute policy.profile)

/-- The profile that a policy resolves to, whatever it was found in. -/
def resolutionOf (policy : FeatureExecutionPolicy) (source : String) :
    ResolvedExecutionProfile where
  profile := some policy.profile
  resolutionSource := source
  model := some (defaultRoute policy.profile).model
  reasoning := some (defaultRoute policy.profile).reasoning
  parentSessions := policy.parentSessions
  childSessions := policy.childSessions
  escalationTrigger := policy.escalationTrigger
  escalationProfile := policy.escalationProfile
  escalated := false
  escalationEvidenceId := .null
  childDelegation := policy.childDelegation.map fun child =>
    ⟨child, some (defaultRoute child.profile)⟩

/-- The feature resolves to the normal form of the policy and to the profile it stands for. -/
def ResolvesTo (policy : FeatureExecutionPolicy) (result : Result ResolvedFeaturePolicy) : Prop :=
  ∃ found source, result = .ok found ∧ found.executionPolicy = .obj policy.toDict ∧
    found.resolvedExecutionProfile = resolutionOf policy source

theorem resolvePolicy_eq_ok {profiles : Fields} {items : List Json}
    (hconfig : ConfigurationValid P configured profiles items) (hvalid : policy.Valid P)
    (hcheaper : policy.CheaperChild) :
    resolvePolicy configured none policy source = .ok (resolutionOf policy source) := by
  have hroute := hconfig.route hvalid.profile
  have hdelegation : resolveDelegation configured (defaultRoute policy.profile) policy =
      .ok (policy.childDelegation.map fun child =>
        ⟨child, some (defaultRoute child.profile)⟩) := by
    have hsessions := hvalid.childSessions
    have hdelegated := hvalid.delegated
    unfold resolveDelegation
    cases hchild : policy.childDelegation with
    | none =>
        have hzero : policy.childSessions = 0 := by
          have hone : policy.childSessions ≠ 1 := fun h => hdelegated.mp h hchild
          omega
        rw [if_pos hzero]
        rfl
    | some child =>
        have hone : policy.childSessions = 1 := hdelegated.mpr (by rw [hchild]; simp)
        have hchild' := hconfig.route (hvalid.childDelegation child hchild).profile
        rw [if_neg (by omega)]
        simp only [hchild', ok_bind, require_of (hcheaper child hchild)]
        rfl
  simp only [resolvePolicy, Option.map_none, Option.getD_none, hroute, ok_bind, hdelegation]
  rfl

theorem resolveExecutionProfile_eq_ok {candidate : Fields} {profiles : Fields} {items : List Json}
    (hread : configurationOf P config = .ok configured)
    (hconfig : ConfigurationValid P configured profiles items) (hvalid : policy.Valid P)
    (hcheaper : policy.CheaperChild) (hsource : source ≠ "explicit_run_override")
    (hpolicy : featurePolicy P N (some candidate) (some project) configured =
      .ok (some (policy, source))) :
    resolveExecutionProfile P N "application_feature" false (some candidate) (some project) config
      none none = .ok (resolutionOf policy source) := by
  have hescalation : eligibleEscalation policy none = none := by
    unfold eligibleEscalation
    cases policy.escalationTrigger <;> cases policy.escalationProfile <;> rfl
  simp only [resolveExecutionProfile, hread, ok_bind, hpolicy, selectedPolicy, if_neg hsource,
    hescalation, Bool.false_eq_true, if_false]
  exact resolvePolicy_eq_ok hconfig hvalid hcheaper

theorem normalizedPolicy_of_accepts (hvalue : Accepts P value policy) (path : String) :
    normalizedPolicy P value path = .ok (some policy.toDict) := by
  have hne : value ≠ .null := by
    obtain ⟨fields, rfl, -⟩ := hvalue
    simp
  rw [normalizedPolicy, if_neg hne, validateFeatureExecutionPolicy_eq_ok.mpr hvalue]
  rfl

theorem isExecutable_resolutionOf (hvalid : policy.Valid P) (hsource : source ∈
    ["selected_feature_profile", "reconciled_feature_profile", "workflow_fallback"]) :
    isExecutable (resolutionOf policy source) :=
  ⟨Option.some_ne_none _, Option.some_ne_none _, Option.some_ne_none _, hvalid.parentSessions,
    hvalid.childSessions.1, hsource⟩

/-- What the configuration holds for the feature, once the policy is written to its places. -/
theorem configuredPolicy_places {profiles : Fields} {items : List Json}
    (hconfig : ConfigurationValid P configured profiles items)
    (hfree : Unconfigured configured project featureId) (hproject : places.configuration = true →
      project ≠ "") {candidate : Fields} (hid : candidate.get "id" = .str featureId) :
    configuredPolicy (some candidate) (some project) (if places.configuration then
      writtenConfiguration configured place project featureId value else configured) =
      if places.configuration then value else .null := by
  unfold configuredPolicy
  by_cases hwritten : places.configuration = true
  · simp only [hwritten, if_true, if_neg (hproject hwritten), hid]
    rw [configuredMatches_written hconfig hfree]
    exact (@policyEntry_reads value project featureId).2.2.2
  · simp only [hwritten, Bool.false_eq_true, if_false, hid]
    rw [show configuredMatches configured project (.str featureId) = [] from hfree]
    simp

/-- A feature with an embedded policy. -/
theorem featurePolicy_embedded {candidate : Fields} {held : Json}
    (hvalue : Accepts P value policy) (hembedded : candidate.get "execution_policy" = value)
    (hheld : configuredPolicy (some candidate) (some project) configured = held) :
    featurePolicy P N (some candidate) (some project) configured =
      if held = .null ∨ Json.equals N.same value held = true
      then .ok (some (policy, "selected_feature_profile"))
      else .error
        (configurationError "queue and controller feature execution policies disagree") := by
  have hne : value ≠ .null := by
    obtain ⟨fields, rfl, -⟩ := hvalue
    simp
  simp only [featurePolicy, Option.map_some, Option.getD_some, hembedded, hheld, hne, false_or]
  rw [if_pos hne, validateFeatureExecutionPolicy_eq_ok.mpr hvalue]
  by_cases h : held = .null ∨ Json.equals N.same value held = true
  · rw [require_of h, if_pos h]
    rfl
  · rw [require, if_neg h, if_neg h]
    rfl

/-- A feature without one, for which the configuration holds a policy. -/
theorem featurePolicy_configured {candidate : Fields} (hvalue : Accepts P value policy)
    (hembedded : candidate.get "execution_policy" = .null)
    (hconfigured : configuredPolicy (some candidate) (some project) configured = value) :
    featurePolicy P N (some candidate) (some project) configured =
      .ok (some (policy, "reconciled_feature_profile")) := by
  have hne : value ≠ .null := by
    obtain ⟨fields, rfl, -⟩ := hvalue
    simp
  simp only [featurePolicy, Option.map_some, Option.getD_some, hembedded, hconfigured, true_or,
    require_of trivial, ok_bind]
  rw [if_neg (fun h => h rfl), if_pos hne, validateFeatureExecutionPolicy_eq_ok.mpr hvalue]
  rfl

/-- The end of the resolution, once the explicit policy and the resolved profile are known. -/
theorem resolveFeature_eq {feature : Fields} {specification : Option Json}
    {queuePolicy specificationPolicy : Option Fields} (hid : feature.get "id" = .str featureId)
    (hne : featureId ≠ "")
    (hqueue : ∀ path, normalizedPolicy P (feature.get "execution_policy") path = .ok queuePolicy)
    (hspecification : ∀ path,
      normalizedPolicy P (specification.getD .null) path = .ok specificationPolicy)
    (hagree : ¬differ N queuePolicy specificationPolicy) :
    resolveFeatureExecutionPolicy P N feature project specification config = (do
      let explicitPolicy := queuePolicy.orElse fun _ => specificationPolicy
      let resolved ← resolveExecutionProfile P N "application_feature" false
        (some (match explicitPolicy with
          | some policy => feature.set "execution_policy" (.obj policy)
          | none => feature)) (some project) config none none
      require (isExecutable resolved) (configurationError
        s!"feature {featureId} does not resolve to one unambiguous executable policy")
      let executionPolicy := explicitPolicy.getD (rebuiltPolicy resolved).toDict
      let _ ← validateFeatureExecutionPolicy P (.obj executionPolicy)
        s!"feature {featureId}.execution_policy" .queueError
      return ⟨featureId, .obj executionPolicy, resolved, resolved.resolutionSource,
        explicitPolicy.isSome⟩) := by
  simp only [resolveFeatureExecutionPolicy, hid, plainText, ok_bind, require_of hne, hqueue,
    hspecification, require_of hagree]

/-- A feature with an explicit policy resolves to it when the configuration does not disagree. -/
theorem resolvesTo_explicit {feature profiles : Fields} {items : List Json}
    {specification : Option Json} {queuePolicy specificationPolicy : Option Fields}
    (hvalue : Accepts P value policy) (hcheaper : policy.CheaperChild)
    (hid : feature.get "id" = .str featureId) (hne : featureId ≠ "")
    (hqueue : ∀ path, normalizedPolicy P (feature.get "execution_policy") path = .ok queuePolicy)
    (hspecification : ∀ path,
      normalizedPolicy P (specification.getD .null) path = .ok specificationPolicy)
    (hagree : ¬differ N queuePolicy specificationPolicy)
    (hexplicit : (queuePolicy.orElse fun _ => specificationPolicy) = some policy.toDict)
    (hread : configurationOf P config = .ok configured)
    (hconfig : ConfigurationValid P configured profiles items) {held : Json}
    (hheld : configuredPolicy (some (feature.set "execution_policy" (.obj policy.toDict)))
      (some project) configured = held) :
    ResolvesTo policy (resolveFeatureExecutionPolicy P N feature project specification config) ↔
      held = .null ∨ Json.equals N.same (.obj policy.toDict) held = true := by
  obtain ⟨fields, -, -, hvalid⟩ := id hvalue
  have hembedded := Fields.get_set_self feature "execution_policy" (.obj policy.toDict)
  have hfound := @featurePolicy_embedded P N _ policy configured project _ held hvalue.toDict
    hembedded hheld
  rw [resolveFeature_eq hid hne hqueue hspecification hagree]
  simp only [hexplicit, Option.getD_some]
  by_cases hsame : held = .null ∨ Json.equals N.same (.obj policy.toDict) held = true
  · rw [if_pos hsame] at hfound
    have hresolved := resolveExecutionProfile_eq_ok hread hconfig hvalid hcheaper (by decide) hfound
    have hexecutable : isExecutable (resolutionOf policy "selected_feature_profile") :=
      isExecutable_resolutionOf hvalid (by decide)
    simp only [hresolved, ok_bind, require_of hexecutable,
      validateFeatureExecutionPolicy_eq_ok.mpr hvalue.toDict]
    refine ⟨fun _ => hsame, fun _ => ?_⟩
    exact ⟨⟨featureId, .obj policy.toDict, resolutionOf policy "selected_feature_profile",
      "selected_feature_profile", true⟩, "selected_feature_profile", rfl, rfl, rfl⟩
  · rw [if_neg hsame] at hfound
    refine iff_of_false ?_ hsame
    rintro ⟨found, source, hresult, -⟩
    simp only [resolveExecutionProfile, hread, ok_bind, hfound, Bool.false_eq_true, if_false]
      at hresult
    cases hresult

/-- A policy without a delegation is written without one. -/
theorem get_toDict_undelegated (policy : FeatureExecutionPolicy)
    (h : policy.childDelegation = none) :
    policy.toDict.get "child_sessions" = .int policy.childSessions ∧
      policy.toDict.get "child_delegation" = .null := by
  obtain ⟨profile, parent, child, trigger, escalated, delegation⟩ := policy
  cases h
  rcases trigger with _ | trigger <;> rcases escalated with _ | escalated <;>
    simp [FeatureExecutionPolicy.toDict, withDelegation, Fields.get, Fields.get?_set,
      Fields.get?_ofPairs, Fields.get?_cons]

/-- A feature without an explicit policy resolves to the configured one unless it has a child,
    whose delegation the rebuilt policy lacks. -/
theorem resolvesTo_configured {feature profiles : Fields} {items : List Json}
    (hvalue : Accepts P value policy) (hcheaper : policy.CheaperChild)
    (hid : feature.get "id" = .str featureId) (hne : featureId ≠ "")
    (hown : feature.get "execution_policy" = .null)
    (hread : configurationOf P config = .ok configured)
    (hconfig : ConfigurationValid P configured profiles items)
    (hheld : configuredPolicy (some feature) (some project) configured = value) :
    ResolvesTo policy (resolveFeatureExecutionPolicy P N feature project none config) ↔
      policy.childSessions = 0 := by
  obtain ⟨fields, -, -, hvalid⟩ := id hvalue
  have hqueue : ∀ path, normalizedPolicy P (feature.get "execution_policy") path = .ok none := by
    intro path
    rw [hown, normalizedPolicy, if_pos rfl]
  have hspecification : ∀ path, normalizedPolicy P ((none : Option Json).getD .null) path =
      .ok none := fun _ => rfl
  have hfound := @featurePolicy_configured P N _ policy configured project _ hvalue hown hheld
  have hresolved := resolveExecutionProfile_eq_ok hread hconfig hvalid hcheaper (by decide) hfound
  have hexecutable : isExecutable (resolutionOf policy "reconciled_feature_profile") :=
    isExecutable_resolutionOf hvalid (by decide)
  rw [resolveFeature_eq hid hne hqueue hspecification (fun h => h)]
  simp only [Option.orElse_none, hresolved, ok_bind, require_of hexecutable, Option.getD_none]
  by_cases hzero : policy.childSessions = 0
  · have hnone : policy.childDelegation = none := by
      by_contra hsome
      have hone := hvalid.delegated.mpr hsome
      omega
    have hrebuilt : rebuiltPolicy (resolutionOf policy "reconciled_feature_profile") = policy := by
      obtain ⟨profile, parent, child, trigger, escalated, delegation⟩ := policy
      cases hnone
      rfl
    rw [hrebuilt, validateFeatureExecutionPolicy_eq_ok.mpr hvalue.toDict]
    refine iff_of_true ?_ hzero
    exact ⟨⟨featureId, .obj policy.toDict, resolutionOf policy "reconciled_feature_profile",
      "reconciled_feature_profile", false⟩, "reconciled_feature_profile", rfl, rfl, rfl⟩
  · refine iff_of_false ?_ hzero
    rintro ⟨found, source, hresult, -⟩
    obtain ⟨accepted, hrebuilt, -⟩ := bind_eq_ok.mp hresult
    obtain ⟨fields, hfields, haccepted, hvalid'⟩ :=
      validateFeatureExecutionPolicy_eq_ok.mp hrebuilt
    cases hfields
    obtain ⟨hsessions, hdelegation⟩ :=
      get_toDict_undelegated (rebuiltPolicy (resolutionOf policy "reconciled_feature_profile")) rfl
    have hone : accepted.childSessions = 1 := by
      have hsame : policy.childSessions = accepted.childSessions :=
        Json.int.inj (hsessions.symm.trans haccepted.childSessions)
      have hbounds := hvalid.childSessions
      omega
    have hnone := haccepted.childDelegation
    obtain ⟨child, hchild⟩ := Option.ne_none_iff_exists'.mp (hvalid'.delegated.mp hone)
    rw [hchild] at hnone
    obtain ⟨found, hobject, -⟩ := hnone
    rw [hdelegation] at hobject
    cases hobject

/-- When a policy resolves to its normal form: always without the configuration; with it, the
    identifiers have to be filled in, and the policy to be equal to its normal form where it is
    compared with another place, or to have no child where it is compared with none. -/
def Independent (N : NumberEquality) (places : Places) (project featureId : String) (value : Json)
    (policy : FeatureExecutionPolicy) : Prop :=
  places.configuration = true → Platform.hasText project = true ∧
    Platform.hasText featureId = true ∧
    if places.queue = true ∨ places.specification = true then
      Json.equals N.same (.obj policy.toDict) value = true
    else policy.childSessions = 0

theorem configurationOf_of_resolved {feature : Fields} {specification : Option Json}
    {found : ResolvedFeaturePolicy}
    (h : resolveFeatureExecutionPolicy P N feature project specification config = .ok found) :
    ∃ configured, configurationOf P config = .ok configured := by
  simp only [resolveFeatureExecutionPolicy, resolveExecutionProfile, bind_eq_ok] at h
  obtain ⟨_, -, _, -, _, -, _, -, _, -, _, ⟨configured, hread, -⟩, -⟩ := h
  exact ⟨configured, hread⟩

theorem differ_same (first : Option Fields) {second : Option Fields}
    (hfirst : ∀ fields ∈ first, fields = policy.toDict)
    (hsecond : ∀ fields ∈ second, fields = policy.toDict) : ¬differ N first second := by
  unfold differ
  cases first with
  | none => exact fun h => h
  | some first =>
      cases second with
      | none => exact fun h => h
      | some second =>
          rw [hfirst first rfl, hsecond second rfl]
          simp [equals_self N (exact_toDict policy)]

theorem ne_empty_of_hasText {text : String} (h : Platform.hasText text = true) : text ≠ "" := by
  rintro rfl
  cases h

/-- The configuration that is read once the policy is written to its places. -/
theorem configurationOf_places (place : Nat) {profiles : Fields} {items : List Json}
    (hvalue : Accepts P value policy) (hread : configurationOf P config = .ok configured)
    (hconfig : ConfigurationValid P configured profiles items)
    (hfree : Unconfigured configured project featureId)
    (hfilled : places.configuration = true →
      Platform.hasText project = true ∧ Platform.hasText featureId = true) :
    ∃ profiles' items', ConfigurationValid P (if places.configuration then
        writtenConfiguration configured place project featureId value else configured) profiles'
        items' ∧
      configurationOf P (places.controllerConfiguration config place project featureId value) =
        .ok (if places.configuration then
          writtenConfiguration configured place project featureId value else configured) := by
  obtain ⟨hsame, -⟩ := configurationOf_valid hread
  cases hplaces : places.configuration with
  | false =>
      refine ⟨profiles, items, hconfig, ?_⟩
      simp only [Places.controllerConfiguration, hplaces, Bool.false_eq_true, if_false]
      exact hread
  | true =>
      obtain ⟨profiles', items', hvalid⟩ := (validate_written hconfig hfree hvalue).mpr
        (hfilled hplaces)
      refine ⟨profiles', items', hvalid, ?_⟩
      simp only [Places.controllerConfiguration, hplaces, if_true, ← hsame]
      exact validateExecutionProfileConfiguration_eq_ok.mpr ⟨rfl, profiles', items', hvalid⟩

theorem policy_resolves_iff {path : String} {errorType : ErrorKind}
    (hvalue : validateFeatureExecutionPolicy P value path errorType = .ok policy)
    (hcheaper : policy.CheaperChild) (hid : feature.get "id" = .str featureId)
    (hne : featureId ≠ "") (hown : feature.get "execution_policy" = .null)
    (hread : configurationOf P config = .ok configured)
    (hfree : Unconfigured configured project featureId)
    (hwritten : places.queue = true ∨ places.specification = true ∨ places.configuration = true) :
    ResolvesTo policy (resolveFeatureExecutionPolicy P N (places.queueEntry feature value) project
        (places.specificationPolicy value)
        (places.controllerConfiguration config place project featureId value)) ↔
      Independent N places project featureId value policy := by
  have hvalue := validateFeatureExecutionPolicy_eq_ok.mp hvalue
  obtain ⟨hsame, profiles, items, hconfig⟩ := configurationOf_valid hread
  have hid' : (places.queueEntry feature value).get "id" = .str featureId := by
    unfold Places.queueEntry
    split
    · rw [Fields.get_set_of_ne (by decide), hid]
    · exact hid
  by_cases hfilled : places.configuration = true →
      Platform.hasText project = true ∧ Platform.hasText featureId = true
  swap
  · -- the written configuration is refused
    obtain ⟨hplaces, hblank⟩ := Classical.not_imp.mp hfilled
    refine iff_of_false ?_ fun h => hfilled fun hplaces => ⟨(h hplaces).1, (h hplaces).2.1⟩
    rintro ⟨found, source, hfound, -⟩
    obtain ⟨read, hread'⟩ := configurationOf_of_resolved hfound
    simp only [Places.controllerConfiguration, hplaces, if_true, ← hsame] at hread'
    obtain ⟨-, hvalid⟩ := validateExecutionProfileConfiguration_eq_ok.mp hread'
    exact hblank ((validate_written hconfig hfree hvalue).mp hvalid)
  obtain ⟨profiles', items', hconfig', hread'⟩ :=
    configurationOf_places place hvalue hread hconfig hfree hfilled
  have hheld : ∀ candidate : Fields, candidate.get "id" = .str featureId →
      configuredPolicy (some candidate) (some project) (if places.configuration then
        writtenConfiguration configured place project featureId value else configured) =
        if places.configuration then value else .null := fun candidate =>
    configuredPolicy_places hconfig hfree fun hplaces => ne_empty_of_hasText (hfilled hplaces).1
  have hnull : ∀ path, normalizedPolicy P .null path = .ok none := fun _ => rfl
  have hgiven := normalizedPolicy_of_accepts hvalue
  by_cases hexplicit : places.queue = true ∨ places.specification = true
  · have hqueue : ∀ path, normalizedPolicy P
        ((places.queueEntry feature value).get "execution_policy") path =
          .ok (if places.queue then some policy.toDict else none) := by
      intro path
      unfold Places.queueEntry
      split
      · rw [Fields.get_set_self, hgiven]
      · rw [hown, hnull]
    have hspecification : ∀ path, normalizedPolicy P
        ((places.specificationPolicy value).getD .null) path =
          .ok (if places.specification then some policy.toDict else none) := by
      intro path
      unfold Places.specificationPolicy
      split
      · exact hgiven path
      · exact hnull path
    have hnormal : ∀ b : Bool, ∀ fields ∈ (if b then some policy.toDict else none),
        fields = policy.toDict := by
      intro b fields h
      cases b with
      | true => exact (Option.some.inj h).symm
      | false => cases h
    have hagree : ¬differ N (if places.queue then some policy.toDict else none)
        (if places.specification then some policy.toDict else none) :=
      differ_same _ (hnormal _) (hnormal _)
    have hchosen : ((if places.queue then some policy.toDict else none).orElse fun _ =>
        if places.specification then some policy.toDict else none) = some policy.toDict := by
      cases hqueue : places.queue with
      | true => rfl
      | false =>
          rw [(hexplicit.resolve_left (by simp [hqueue]) : places.specification = true)]
          rfl
    rw [resolvesTo_explicit hvalue hcheaper hid' hne hqueue hspecification hagree hchosen hread'
      hconfig' (hheld _ (by rw [Fields.get_set_of_ne (by decide), hid']))]
    obtain ⟨fields, hfields, -⟩ := id hvalue
    cases hplaces : places.configuration with
    | false => simp [Independent, hplaces]
    | true =>
        obtain ⟨hproject, hfeature⟩ := hfilled hplaces
        simp [Independent, hplaces, hproject, hfeature, hexplicit, hfields]
  · have hplaces : places.configuration = true := by tauto
    have hqueue : places.queue = false := by
      simpa using fun h => hexplicit (Or.inl h)
    have hspecification : places.specification = false := by
      simpa using fun h => hexplicit (Or.inr h)
    have hentry : places.queueEntry feature value = feature := by
      simp [Places.queueEntry, hqueue]
    have hnone : places.specificationPolicy value = none := by
      simp [Places.specificationPolicy, hspecification]
    have hheld' := hheld feature hid
    obtain ⟨hproject, hfeature⟩ := hfilled hplaces
    rw [hplaces, if_pos rfl] at hheld' hconfig' hread'
    rw [hentry, hnone, resolvesTo_configured hvalue hcheaper hid hne hown hread' hconfig' hheld']
    simp [Independent, hplaces, hproject, hfeature, hqueue, hspecification]

end Places

/-! ### A policy with a child, in the configuration alone -/

def exactNumbers : NumberEquality where
  same first second := decide (first = second)
  same_int _ := decide_eq_true rfl
  same_bool _ := decide_eq_true rfl

def sampleFeature : Fields := Fields.ofPairs [("id", .str "F-7"), ("title", .str "Fixtures")]

theorem sample_cheaper : samplePolicy.CheaperChild := by
  intro child hchild
  cases hchild
  decide

/-- The policy that the resolved profile is rebuilt to is refused. -/
theorem configured_child_unresolved :
    validateFeatureExecutionPolicy Platform.reference (.obj samplePolicy.toDict)
      "$.execution_policy" .queueError = .ok samplePolicy ∧ samplePolicy.CheaperChild ∧
    ¬ResolvesTo samplePolicy (resolveFeatureExecutionPolicy Platform.reference exactNumbers
      sampleFeature "demo" none (some (writtenConfiguration defaultConfiguration 0 "demo" "F-7"
        (.obj samplePolicy.toDict)))) := by
  refine ⟨sample_accepted, sample_cheaper, ?_⟩
  have hrefused : resolveFeatureExecutionPolicy Platform.reference exactNumbers sampleFeature "demo"
      none (some (writtenConfiguration defaultConfiguration 0 "demo" "F-7"
        (.obj samplePolicy.toDict))) =
      .error ⟨.queueError, "feature F-7.execution_policy.child_delegation: " ++
        "required when child_sessions is positive"⟩ := by
    decide +kernel
  rintro ⟨found, source, hfound, -⟩
  rw [hrefused] at hfound
  cases hfound

theorem sample_resolves_iff :
    ResolvesTo samplePolicy (resolveFeatureExecutionPolicy Platform.reference exactNumbers
        ((⟨true, true, true⟩ : Places).queueEntry sampleFeature (.obj samplePolicy.toDict)) "demo"
        ((⟨true, true, true⟩ : Places).specificationPolicy (.obj samplePolicy.toDict))
        ((⟨true, true, true⟩ : Places).controllerConfiguration none 0 "demo" "F-7"
          (.obj samplePolicy.toDict))) ↔
      Independent exactNumbers ⟨true, true, true⟩ "demo" "F-7" (.obj samplePolicy.toDict)
        samplePolicy :=
  policy_resolves_iff sample_accepted sample_cheaper rfl (by decide) rfl rfl rfl (Or.inl rfl)

end ExecutionPolicy

end Conveyor
