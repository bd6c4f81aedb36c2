import Conveyor.RecoveryFrame

/-!
# What an inspection finds

`inspect` changes nothing, and reports a commit for adoption only where the interrupted transaction
itself recorded what the commit has to be: `Validated` lists the three ways.
-/

namespace Conveyor

open Library EventType KernelCall WorkflowKernel MutationReaders

namespace RecoveryPlanner

-- the size of an instance doubles with every part of a call, the time to find it does not
set_option synthInstance.maxSize 1000000000

/-! ### An inspection changes nothing -/

section Still

instance : Call.Respects Still readEvidence := by
  unfold readEvidence
  infer_instance

instance (persistCache : Bool) : Call.Respects Still (rebuildProjection persistCache) := by
  refine Call.respects_attempt still_tick fun e w value t h => ?_
  simp only [bind_eq_ok, Prod.exists, pure, Except.pure, Except.ok.injEq, Prod.mk.injEq] at h
  obtain ⟨-, -, -, -, -, -, rfl⟩ := h
  exact ⟨rfl, rfl, rfl, rfl, le_rfl⟩

instance : Call.Respects Still loadProjection := still_look _

instance (cache : Option Fields) : Call.Respects Still (compareCache cache) := by
  unfold compareCache
  refine Call.Respects.bind inferInstance fun current => ?_
  split <;> infer_instance

instance (failure : Failure) : Call.Respects Still (unfitCache failure) := by
  unfold unfitCache
  infer_instance

instance : Call.Respects Still inspectCache := by
  unfold inspectCache
  refine Call.Respects.bind inferInstance fun loaded => ?_
  split <;> infer_instance

section Site

variable (site : RecoverySite)

instance : Call.Respects Still (leaseStale site) := still_look _

instance (classification : Classification) (record : WorkflowLeaseRecord) :
    Call.Respects Still (leaseLeft site classification record) := by
  unfold leaseLeft
  infer_instance

instance : Call.Respects Still (inspectUnstarted site) := by
  unfold inspectUnstarted
  refine Call.Respects.bind inferInstance fun orphan => ?_
  split <;> infer_instance

instance (events : List LedgerEvent) (incomplete : List String) :
    Call.Respects Still (inspectActiveLease site events incomplete) := by
  unfold inspectActiveLease
  refine Call.Respects.bind inferInstance fun active => ?_
  split <;> infer_instance

instance (events : List LedgerEvent) : Call.Respects Still (inspectSettled site events) := by
  unfold inspectSettled
  refine Call.Respects.bind inferInstance fun lease => ?_
  split <;> infer_instance

end Site

section Transaction

variable (transaction : Interrupted) (policy : MutationPolicy) (branch : Option String)
  (startingHead head : String) (changed untracked : List String)

instance (paths : List String) (commit : String) :
    Call.Respects Still (commitDiffFingerprint paths commit) := still_look _

instance (first : Bool) (second : KernelCall Bool) [Call.Respects Still second] :
    Call.Respects Still (both first second) := by
  unfold both
  infer_instance

instance : Call.Respects Still
    (exactIntegration transaction policy startingHead head changed) := by
  unfold exactIntegration
  split <;> infer_instance

instance (actual : Json) : Call.Respects Still
    (exactChild transaction policy startingHead head changed actual) := by
  unfold exactChild
  infer_instance

instance : Call.Respects Still (diffedContent startingHead head changed) := by
  unfold diffedContent
  refine Call.Respects.bind inferInstance fun found => ?_
  split <;> infer_instance

instance : Call.Respects Still
    (judgeCommit transaction policy startingHead branch head changed) := by
  unfold judgeCommit
  infer_instance

instance : Call.Respects Still
    (inspectCommitted transaction policy startingHead branch head) := by
  unfold inspectCommitted
  infer_instance

instance : Call.Respects Still (inspectFeatureBranch transaction branch head) := by
  unfold inspectFeatureBranch
  split <;> infer_instance

instance (evidence : Fields) :
    Call.Respects Still (exactDirty policy evidence changed untracked) := by
  unfold exactDirty
  infer_instance

instance : Call.Respects Still (dirtyVerdict transaction policy changed untracked) := by
  unfold dirtyVerdict
  split <;> infer_instance

instance : Call.Respects Still (inspectUnmoved transaction policy) := by
  unfold inspectUnmoved
  infer_instance

instance : Call.Respects Still (inspectProvisional transaction branch head) := by
  unfold inspectProvisional
  infer_instance

instance : Call.Respects Still (inspectUncommitted transaction policy branch head) := by
  unfold inspectUncommitted
  refine Call.Respects.bind inferInstance fun created => ?_
  split <;> infer_instance

instance : Call.Respects Still (inspectUnrecorded transaction policy branch head) := by
  unfold inspectUnrecorded
  split <;> infer_instance

instance : Call.Respects Still (inspectStarted transaction) := by
  unfold inspectStarted
  refine Call.Respects.bind inferInstance fun policy => ?_
  refine Call.Respects.bind inferInstance fun branch => ?_
  refine Call.Respects.bind inferInstance fun operations => ?_
  split
  · infer_instance
  · refine Call.Respects.bind inferInstance fun head => ?_
    split <;> infer_instance

end Transaction

instance (events : List LedgerEvent) (transactionId : String) :
    Call.Respects Still (inspectIncomplete events transactionId) := by
  unfold inspectIncomplete
  refine Call.Respects.bind inferInstance fun physical => ?_
  split
  · infer_instance
  · dsimp only
    split <;> infer_instance

variable (site : RecoverySite)

instance (events : List LedgerEvent) (incomplete : List String) :
    Call.Respects Still (inspectAdmitted site events incomplete) := by
  unfold inspectAdmitted
  refine Call.Respects.bind inferInstance fun left => ?_
  split <;> infer_instance

instance (events : List LedgerEvent) : Call.Respects Still (inspectEvents site events) := by
  unfold inspectEvents
  split
  · infer_instance
  · refine Call.Respects.bind inferInstance fun found => ?_
    split <;> infer_instance

instance still_inspect : Call.Respects Still (inspect site) := by
  unfold inspect
  refine Call.Respects.bind inferInstance fun evidence => ?_
  split <;> infer_instance

end Still

/-! ### What is reported for adoption -/

/-- The transaction of this name with its start, as the ledger has them. -/
structure Recorded (events : List LedgerEvent) (transaction : Interrupted) : Prop where
  events : transaction.events = transactionEvents events transaction.transactionId
  start : transaction.start ∈ transaction.events
  started : transaction.start.eventType = transactionStarted

/-- The feature branch that the transaction was about to create stands at its start. -/
structure BranchCreated (repository : Repository) (transaction : Interrupted) : Prop where
  workflow : transaction.start.workflowType = .featurePreparation
  target : ((firstCheckpoint transaction.events "feature_branch_target").getD []).get "branch" =
    Json.ofOption repository.branch
  head : transaction.startingHead = .str repository.head

/-- The paths of the head commit are ones that the recorded policy accepts. -/
def Authorized (repository : Repository) (transaction : Interrupted) : Prop :=
  ∃ policy, restoredPolicy (recordOf transaction.payload) = .ok policy ∧
    Accepts policy (diffTree repository repository.head)

/-- The head commit is the only one beyond the start, and its contents are the validated ones. -/
structure ChildCommitted (P : Platform) (repository : Repository) (transaction : Interrupted)
    (startingHead : String) : Prop where
  descends : repository.isAncestor startingHead repository.head = true
  single : commitCount repository startingHead repository.head = .ok 1
  authorized : Authorized repository transaction
  validated : validatedDiff transaction = .str
    (repository.commitFingerprint P repository.head (diffTree repository repository.head))

/-- The head commit is the accepted patch on top of the start. -/
structure PatchCommitted (P : Platform) (git : Git) (repository : Repository)
    (transaction : Interrupted) (startingHead : String) : Prop where
  workflow : transaction.start.workflowType = .milestoneIntegration
  parent : repository.parentOf repository.head = some startingHead
  authorized : Authorized repository transaction
  accepted : ∃ accepted patch,
    firstTruthy [Fields.get transaction.integrationTarget "accepted_commit",
      Fields.get transaction.integrationEvidence "accepted_commit"] = .str accepted ∧
    repository.patchFingerprint P git repository.head = .ok patch ∧
    repository.patchFingerprint P git accepted = .ok patch

/-- The transaction passed its validation, and the repository shows what it was about to commit. -/
structure Validated (P : Platform) (git : Git) (repository : Repository)
    (transaction : Interrupted) : Prop where
  passed : transaction.validationPassed = true
  unrecorded : firstPayload transaction.events commitFinalized = none
  shown : BranchCreated repository transaction ∨
    ∃ startingHead, transaction.startingHead = .str startingHead ∧
      (ChildCommitted P repository transaction startingHead ∨
        PatchCommitted P git repository transaction startingHead)

/-- What a plan to adopt a commit rests on. -/
structure Adoptable (e : Environment) (w : World) (plan : Plan) : Prop where
  commit : plan.commit = .str w.repository.head
  clean : ∃ time, w.repository.isClean (e.ignored time) (e.worktree time) = true
  transaction : ∃ transaction, plan.transactionId = some transaction.transactionId ∧
    plan.workflowType = some transaction.start.workflowType ∧
    Recorded w.events transaction ∧
    Validated e.platform e.git w.repository transaction

/-- A plan to adopt a commit is well founded. -/
def Sound (e : Environment) (w : World) (plan : Plan) : Prop :=
  plan.classification = .commitSucceededBeforeEvidence → Adoptable e w plan

section Found

variable {e : Environment} {w t : World} {transaction : Interrupted} {policy : MutationPolicy}
  {startingHead head : String} {branch : Option String} {changed : List String} {plan : Plan}

theorem returns_both {first : Bool} {second : KernelCall Bool}
    (h : (both first second).Returns e w true t) : first = true ∧ second.Returns e w true t := by
  unfold both at h
  rcases Call.returns_ite.mp h with ⟨hfirst, hsecond⟩ | ⟨-, hfalse⟩
  · exact ⟨hfirst, hsecond⟩
  · obtain ⟨htrue, -⟩ := Call.returns_pure.mp hfalse
    cases htrue

theorem accepts_of_authorizes (h : authorizes policy changed = true) : Accepts policy changed := by
  unfold authorizes at h
  split at h
  · rename_i observed hvalidate
    exact ⟨observed, hvalidate⟩
  · cases h

/-- The worktree was clean when the inspector looked. -/
theorem clean_of_returns (h : Inspector.isClean.Returns e w true t) :
    ∃ time, w.repository.isClean (e.ignored time) (e.worktree time) = true := by
  obtain ⟨-, hclean, -⟩ := returns_look.mp h
  exact ⟨w.clock, Except.ok.inj hclean⟩

theorem exactChild_found {actual : Json}
    (h : (exactChild transaction policy startingHead head changed actual).Returns e w true t) :
    w.repository.isAncestor startingHead head = true ∧
      commitCount w.repository startingHead head = .ok 1 ∧ Accepts policy changed ∧
      validatedDiff transaction = actual ∧
      ∃ time, w.repository.isClean (e.ignored time) (e.worktree time) = true := by
  unfold exactChild at h
  simp only [Call.returns_bind, Inspector.isAncestor, returns_look, Except.ok.injEq] at h
  obtain ⟨descends, _, ⟨-, hdescends, rfl⟩, hrest⟩ := h
  obtain ⟨hdescended, hcounted⟩ := returns_both hrest
  subst hdescended
  simp only [Call.returns_bind, returns_look] at hcounted
  obtain ⟨count, _, ⟨-, hcount, rfl⟩, hrest⟩ := hcounted
  obtain ⟨hone, hrest⟩ := returns_both hrest
  obtain rfl : count = 1 := by simpa using hone
  obtain ⟨clean, _, hclean, hverdict⟩ := Call.returns_bind.mp hrest
  obtain ⟨hverdict, -⟩ := Call.returns_pure.mp hverdict
  simp only [Bool.and_eq_true, decide_eq_true_eq, eq_comm (a := true)] at hverdict
  obtain ⟨⟨rfl, hauthorized⟩, hvalidated⟩ := hverdict
  have hclean := clean_of_returns hclean
  exact ⟨hdescends, hcount, accepts_of_authorizes hauthorized, hvalidated, hclean⟩

theorem exactIntegration_found
    (h : (exactIntegration transaction policy startingHead head changed).Returns e w true t) :
    w.repository.parentOf head = some startingHead ∧ Accepts policy changed ∧
      (∃ accepted patch,
        firstTruthy [Fields.get transaction.integrationTarget "accepted_commit",
          Fields.get transaction.integrationEvidence "accepted_commit"] = .str accepted ∧
        w.repository.patchFingerprint e.platform e.git head = .ok patch ∧
        w.repository.patchFingerprint e.platform e.git accepted = .ok patch) ∧
      ∃ time, w.repository.isClean (e.ignored time) (e.worktree time) = true := by
  unfold exactIntegration at h
  split at h
  · rename_i accepted haccepted
    simp only [Call.returns_bind, Inspector.parentOf, returns_look, returns_lift,
      Except.ok.injEq] at h
    obtain ⟨found, _, ⟨-, hfound, rfl⟩, parent, _, ⟨hparent, rfl⟩, hrest⟩ := h
    obtain ⟨hstart, hrest⟩ := returns_both hrest
    simp only [Call.returns_bind, Inspector.patchFingerprint, returns_look] at hrest
    obtain ⟨patch, _, ⟨-, hpatch, rfl⟩, other, _, ⟨-, hother, rfl⟩, hrest⟩ := hrest
    obtain ⟨hsame, hrest⟩ := returns_both hrest
    obtain ⟨clean, _, hclean, hverdict⟩ := Call.returns_bind.mp hrest
    obtain ⟨hverdict, -⟩ := Call.returns_pure.mp hverdict
    simp only [Bool.and_eq_true, decide_eq_true_eq, eq_comm (a := true)] at hverdict hstart hsame
    obtain ⟨rfl, hauthorized⟩ := hverdict
    subst hstart hsame
    have hknown : found = some parent := by
      cases found with
      | none => cases hparent
      | some value => exact congrArg some (Except.ok.inj hparent)
    have hclean := clean_of_returns hclean
    exact ⟨hfound.trans hknown, accepts_of_authorizes hauthorized,
      ⟨accepted, patch, haccepted, hpatch, hother⟩, hclean⟩
  · obtain ⟨hfalse, -⟩ := Call.returns_pure.mp h
    cases hfalse

theorem diffedContent_found {actual : Json} (hknown : w.repository.revParse startingHead ≠ none)
    (h : (diffedContent startingHead head changed).Returns e w actual t) :
    actual = .str (w.repository.commitFingerprint e.platform head changed) := by
  unfold diffedContent at h
  simp only [Call.returns_bind, Inspector.revParse, returns_look, Except.ok.injEq] at h
  obtain ⟨found, _, ⟨-, hfound, rfl⟩, hrest⟩ := h
  cases found with
  | none => exact absurd hfound hknown
  | some value =>
      simp only [Call.returns_bind, commitDiffFingerprint, returns_look, Except.ok.injEq,
        Call.returns_pure] at hrest
      obtain ⟨fingerprint, _, ⟨-, hfingerprint, rfl⟩, hactual, -⟩ := hrest
      rw [hactual, ← hfingerprint]
      rfl

theorem revParse_of_isAncestor {repository : Repository} {ancestor descendant : String}
    (h : repository.isAncestor ancestor descendant = true) :
    repository.revParse ancestor ≠ none := by
  intro hunknown
  simp [Repository.isAncestor, hunknown] at h

/-- A commit that passed the verdict is the transaction's. -/
theorem judgeCommit_found {diff : Json} (hhead : head = w.repository.head)
    (hchanged : changed = diffTree w.repository head)
    (hpolicy : restoredPolicy (recordOf transaction.payload) = .ok policy)
    (h : (judgeCommit transaction policy startingHead branch head changed).Returns e w
      (true, diff) t) :
    (∃ time, w.repository.isClean (e.ignored time) (e.worktree time) = true) ∧
      (ChildCommitted e.platform w.repository transaction startingHead ∨
        PatchCommitted e.platform e.git w.repository transaction startingHead) := by
  unfold judgeCommit at h
  obtain ⟨actual, u, hactual, hrest⟩ := Call.returns_bind.mp h
  have hstill : Still w u := Call.Respects.of_returns hactual
  rcases Call.returns_ite.mp hrest with ⟨hbranch, hrest⟩ | ⟨-, hrest⟩
  · obtain ⟨exact, _, hexact, hrest⟩ := Call.returns_bind.mp hrest
    obtain ⟨patch, _, -, hverdict⟩ := Call.returns_bind.mp hrest
    obtain ⟨hverdict, -⟩ := Call.returns_pure.mp hverdict
    obtain rfl : exact = true := (Prod.mk.inj hverdict).1.symm
    obtain ⟨hparent, haccepts, haccepted, hclean⟩ := exactIntegration_found hexact
    rw [hstill.repository] at hparent haccepted hclean
    have hworkflow : transaction.integrates = true := by
      simp only [Interrupted.integrationBranchMatches, Bool.and_eq_true] at hbranch
      exact hbranch.1
    subst hhead hchanged
    exact ⟨hclean, Or.inr ⟨of_decide_eq_true hworkflow, hparent, ⟨policy, hpolicy, haccepts⟩,
      haccepted⟩⟩
  · obtain ⟨exact, _, hexact, hverdict⟩ := Call.returns_bind.mp hrest
    obtain ⟨hverdict, -⟩ := Call.returns_pure.mp hverdict
    obtain rfl : exact = true := (Prod.mk.inj hverdict).1.symm
    obtain ⟨hdescends, hsingle, haccepts, hvalidated, hclean⟩ := exactChild_found hexact
    rw [hstill.repository] at hdescends hsingle hclean
    rw [diffedContent_found (revParse_of_isAncestor hdescends) hactual] at hvalidated
    subst hhead hchanged
    exact ⟨hclean, Or.inl ⟨hdescends, hsingle, ⟨policy, hpolicy, haccepts⟩, hvalidated⟩⟩

end Found

/-! ### Every plan is sound -/

section Sound

variable {e : Environment} {w t u : World} {transaction : Interrupted} {policy : MutationPolicy}
  {startingHead head : String} {branch : Option String} {plan : Plan}

theorem Sound.of_ne (h : plan.classification ≠ .commitSucceededBeforeEvidence) :
    Sound e w plan := fun hclass => absurd hclass h

theorem Sound.of_still (hstill : Still w u) (h : Sound e u plan) : Sound e w plan := by
  intro hclass
  obtain ⟨hcommit, hclean, htransaction⟩ := h hclass
  rw [hstill.repository] at hcommit hclean htransaction
  rw [hstill.events] at htransaction
  exact ⟨hcommit, hclean, htransaction⟩

/-- The incomplete transaction of a ledger, before any event of its commit. -/
structure Pending (w : World) (transaction : Interrupted) (policy : MutationPolicy)
    (branch : Option String) (head : String) : Prop where
  recorded : Recorded w.events transaction
  unrecorded : firstPayload transaction.events commitFinalized = none
  policy : restoredPolicy (recordOf transaction.payload) = .ok policy
  branch : branch = w.repository.branch
  head : head = w.repository.head

theorem Pending.of_still (hstill : Still w u) (h : Pending w transaction policy branch head) :
    Pending u transaction policy branch head where
  recorded := hstill.events ▸ h.recorded
  unrecorded := h.unrecorded
  policy := h.policy
  branch := hstill.repository ▸ h.branch
  head := hstill.repository ▸ h.head

theorem inspectCommitted_sound (hpending : Pending w transaction policy branch head)
    (hpassed : transaction.validationPassed = true)
    (hstart : transaction.startingHead = .str startingHead)
    (h : (inspectCommitted transaction policy startingHead branch head).Returns e w plan t) :
    Sound e w plan := by
  unfold inspectCommitted at h
  obtain ⟨changed, u, hchanged, hrest⟩ := Call.returns_bind.mp h
  obtain ⟨⟨exact, diff⟩, _, hjudged, hrest⟩ := Call.returns_bind.mp hrest
  obtain ⟨clean, _, -, hplan⟩ := Call.returns_bind.mp hrest
  obtain ⟨rfl, -⟩ := Call.returns_pure.mp hplan
  obtain ⟨-, hpaths, rfl⟩ := returns_look.mp hchanged
  intro hclass
  cases exact with
  | false => cases hclass
  | true =>
      obtain ⟨hclean, hshown⟩ := judgeCommit_found (w := w.tick) hpending.head
        (Except.ok.inj hpaths).symm hpending.policy hjudged
      refine ⟨congrArg Json.str hpending.head, hclean, transaction, rfl, rfl, hpending.recorded, ?_⟩
      exact ⟨hpassed, hpending.unrecorded, Or.inr ⟨startingHead, hstart, hshown⟩⟩

theorem inspectFeatureBranch_sound (hpending : Pending w transaction policy branch head)
    (h : (inspectFeatureBranch transaction branch head).Returns e w (some plan) t) :
    Sound e w plan := by
  unfold inspectFeatureBranch at h
  split at h
  · rename_i target htarget
    rcases Call.returns_ite.mp h with ⟨⟨hworkflow, hpassed, hbranch, hhead⟩, hrest⟩ | ⟨-, hnone⟩
    · obtain ⟨clean, u, hclean, hrest⟩ := Call.returns_bind.mp hrest
      rcases Call.returns_ite.mp hrest with ⟨rfl, hrest⟩ | ⟨-, hnone⟩
      · obtain ⟨observed, _, -, hrest⟩ := Call.returns_bind.mp hrest
        obtain ⟨fingerprint, _, -, hplan⟩ := Call.returns_bind.mp hrest
        obtain ⟨hplan, -⟩ := Call.returns_pure.mp hplan
        obtain rfl := Option.some.inj hplan
        intro _
        have hstart : transaction.startingHead = .str w.repository.head :=
          hhead.symm.trans (congrArg Json.str hpending.head)
        refine ⟨hstart, clean_of_returns hclean, transaction, rfl, rfl, hpending.recorded, ?_⟩
        refine ⟨hpassed, hpending.unrecorded, Or.inl ⟨hworkflow, ?_, hstart⟩⟩
        rw [← hpending.branch, hbranch]
        exact htarget
      · obtain ⟨hplan, -⟩ := Call.returns_pure.mp hnone
        cases hplan
    · obtain ⟨hplan, -⟩ := Call.returns_pure.mp hnone
      cases hplan
  · obtain ⟨hplan, -⟩ := Call.returns_pure.mp h
    cases hplan

theorem inspectUnmoved_sound (h : (inspectUnmoved transaction policy).Returns e w plan t) :
    Sound e w plan := by
  unfold inspectUnmoved at h
  simp only [Call.returns_bind, Call.returns_pure] at h
  obtain ⟨_, _, -, _, _, -, _, _, -, exact, _, -, rfl, -⟩ := h
  refine .of_ne ?_
  dsimp only
  split <;> simp

theorem inspectProvisional_sound
    (h : (inspectProvisional transaction branch head).Returns e w plan t) : Sound e w plan := by
  unfold inspectProvisional at h
  obtain ⟨clean, _, -, hrest⟩ := Call.returns_bind.mp h
  rcases Call.returns_ite.mp hrest with ⟨-, hplan⟩ | ⟨-, hplan⟩
  · obtain ⟨rfl, -⟩ := Call.returns_pure.mp hplan
    exact .of_ne (by simp)
  · obtain ⟨rfl, -⟩ := Call.returns_pure.mp hplan
    exact .of_ne (by simp [needsDecision])

theorem inspectUncommitted_sound (hpending : Pending w transaction policy branch head)
    (h : (inspectUncommitted transaction policy branch head).Returns e w plan t) :
    Sound e w plan := by
  unfold inspectUncommitted at h
  obtain ⟨created, u, hcreated, hrest⟩ := Call.returns_bind.mp h
  have hstill : Still w u := Call.Respects.of_returns hcreated
  cases created with
  | some found =>
      obtain ⟨rfl, -⟩ := Call.returns_pure.mp hrest
      exact inspectFeatureBranch_sound hpending hcreated
  | none =>
      refine .of_still hstill ?_
      rcases Call.returns_ite.mp hrest with ⟨-, hplan⟩ | ⟨-, hplan⟩
      · exact inspectUnmoved_sound hplan
      · exact inspectProvisional_sound hplan

theorem inspectUnrecorded_sound (hpending : Pending w transaction policy branch head)
    (h : (inspectUnrecorded transaction policy branch head).Returns e w plan t) :
    Sound e w plan := by
  unfold inspectUnrecorded at h
  split at h
  · rename_i startingHead hstart
    rcases Call.returns_ite.mp h with ⟨⟨hpassed, -, -⟩, hplan⟩ | ⟨-, hplan⟩
    · exact inspectCommitted_sound hpending hpassed hstart hplan
    · exact inspectUncommitted_sound hpending hplan
  · exact inspectUncommitted_sound hpending h

theorem inspectFinalized_sound {payload : Fields} :
    Sound e w (inspectFinalized transaction payload branch head) := by
  refine .of_ne ?_
  unfold inspectFinalized
  dsimp only
  split <;> simp

theorem inspectStarted_sound (hrecorded : Recorded w.events transaction)
    (h : (inspectStarted transaction).Returns e w plan t) : Sound e w plan := by
  unfold inspectStarted at h
  obtain ⟨policy, _, hrestored, hrest⟩ := Call.returns_bind.mp h
  obtain ⟨hpolicy, rfl⟩ := returns_lift.mp hrestored
  obtain ⟨branch, u, hcurrent, hrest⟩ := Call.returns_bind.mp hrest
  obtain ⟨operations, v, hoperations, hrest⟩ := Call.returns_bind.mp hrest
  rcases Call.returns_ite.mp hrest with ⟨-, hplan⟩ | ⟨-, hrest⟩
  · obtain ⟨rfl, -⟩ := Call.returns_pure.mp hplan
    exact .of_ne (by simp [needsDecision])
  · obtain ⟨head, _, hresolved, hrest⟩ := Call.returns_bind.mp hrest
    obtain ⟨-, hbranch, -⟩ := returns_look.mp hcurrent
    obtain ⟨-, hhead, -⟩ := returns_look.mp hresolved
    have hbefore : Still _ v :=
      trans_of Still (Call.Respects.of_returns hcurrent) (Call.Respects.of_returns hoperations)
    have hstill := trans_of Still hbefore (Call.Respects.of_returns hresolved)
    rw [hbefore.repository] at hhead
    split at hrest
    · obtain ⟨rfl, -⟩ := Call.returns_pure.mp hrest
      exact inspectFinalized_sound
    · rename_i hunrecorded
      have hpending : Pending _ transaction policy branch head :=
        ⟨hrecorded, hunrecorded, hpolicy, (Except.ok.inj hbranch).symm, (Except.ok.inj hhead).symm⟩
      exact .of_still hstill (inspectUnrecorded_sound (hpending.of_still hstill) hrest)

theorem inspectIncomplete_sound {transactionId : String}
    (h : (inspectIncomplete w.events transactionId).Returns e w plan t) : Sound e w plan := by
  unfold inspectIncomplete at h
  obtain ⟨physical, u, hphysical, hrest⟩ := Call.returns_bind.mp h
  have hstill : Still w u := Call.Respects.of_returns hphysical
  split at hrest
  · obtain ⟨rfl, -⟩ := Call.returns_pure.mp hrest
    exact .of_ne (by simp [needsDecision])
  · dsimp only at hrest
    split at hrest
    · rename_i start hstart
      refine .of_still hstill (inspectStarted_sound ?_ hrest)
      rw [hstill.events]
      exact ⟨rfl, List.mem_of_find?_eq_some hstart, by simpa using List.find?_some hstart⟩
    · obtain ⟨rfl, -⟩ := Call.returns_pure.mp hrest
      exact .of_ne (by simp [needsDecision])

section Site

variable {site : RecoverySite} {classification : Classification} {record : WorkflowLeaseRecord}

theorem leaseLeft_sound (hne : classification ≠ .commitSucceededBeforeEvidence)
    (h : (leaseLeft site classification record).Returns e w plan t) : Sound e w plan := by
  unfold leaseLeft at h
  obtain ⟨stale, _, -, hplan⟩ := Call.returns_bind.mp h
  obtain ⟨rfl, -⟩ := Call.returns_pure.mp hplan
  exact .of_ne hne

theorem inspectUnstarted_sound (h : (inspectUnstarted site).Returns e w plan t) :
    Sound e w plan := by
  unfold inspectUnstarted at h
  obtain ⟨orphan, u, horphan, hrest⟩ := Call.returns_bind.mp h
  split at hrest
  · exact .of_still (Call.Respects.of_returns horphan) (leaseLeft_sound (by simp) hrest)
  · obtain ⟨rfl, -⟩ := Call.returns_pure.mp hrest
    exact .of_ne (by simp)

theorem compareCache_sound {cache : Option Fields} (h : (compareCache cache).Returns e w plan t) :
    Sound e w plan := by
  unfold compareCache at h
  obtain ⟨current, _, -, hrest⟩ := Call.returns_bind.mp h
  split at hrest
  · rcases Call.returns_ite.mp hrest with ⟨-, hplan⟩ | ⟨-, hplan⟩ <;>
      (obtain ⟨rfl, -⟩ := Call.returns_pure.mp hplan; exact .of_ne (by simp))
  · obtain ⟨rfl, -⟩ := Call.returns_pure.mp hrest
    exact .of_ne (by simp)

theorem inspectCache_sound (h : inspectCache.Returns e w plan t) : Sound e w plan := by
  unfold inspectCache at h
  obtain ⟨loaded, u, hloaded, hrest⟩ := Call.returns_bind.mp h
  have hstill : Still w u := Call.Respects.of_returns hloaded
  split at hrest
  · rename_i found
    obtain ⟨rfl, -⟩ := Call.returns_pure.mp hrest
    rcases Call.returns_handle.mp hloaded with hcache | ⟨failure, v, -, hunfit⟩
    · obtain ⟨cache, _, -, hpure⟩ := Call.returns_bind.mp hcache
      obtain ⟨hok, -⟩ := Call.returns_pure.mp hpure
      cases hok
    · unfold unfitCache at hunfit
      rcases Call.returns_ite.mp hunfit with ⟨-, hplan⟩ | ⟨-, hplan⟩ <;>
        (obtain ⟨hplan, -⟩ := Call.returns_pure.mp hplan
         cases hplan
         exact .of_ne (by simp))
  · exact .of_still hstill (compareCache_sound hrest)

theorem inspectSettled_sound {events : List LedgerEvent}
    (h : (inspectSettled site events).Returns e w plan t) : Sound e w plan := by
  unfold inspectSettled at h
  obtain ⟨lease, u, hlease, hrest⟩ := Call.returns_bind.mp h
  refine .of_still (Call.Respects.of_returns hlease) ?_
  split at hrest
  · rcases Call.returns_ite.mp hrest with ⟨-, hplan⟩ | ⟨-, hrest⟩
    · exact leaseLeft_sound (by simp) hplan
    · obtain ⟨found, _, hfound, hrest⟩ := Call.returns_bind.mp hrest
      obtain ⟨stale, _, -, hplan⟩ := Call.returns_bind.mp hrest
      obtain ⟨rfl, -⟩ := Call.returns_pure.mp hplan
      exact leaseLeft_sound (by simp) hfound
  · exact inspectCache_sound hrest

theorem inspectActiveLease_sound {events : List LedgerEvent} {incomplete : List String}
    (h : (inspectActiveLease site events incomplete).Returns e w (some plan) t) :
    Sound e w plan := by
  unfold inspectActiveLease at h
  obtain ⟨active, u, hactive, hrest⟩ := Call.returns_bind.mp h
  refine .of_still (Call.Respects.of_returns hactive) ?_
  split at hrest
  · rcases Call.returns_ite.mp hrest with ⟨-, hrest⟩ | ⟨-, hnone⟩
    · obtain ⟨found, _, hfound, hplan⟩ := Call.returns_bind.mp hrest
      obtain ⟨hplan, -⟩ := Call.returns_pure.mp hplan
      obtain rfl := Option.some.inj hplan
      exact leaseLeft_sound (by simp) hfound
    · obtain ⟨hplan, -⟩ := Call.returns_pure.mp hnone
      cases hplan
  · obtain ⟨hplan, -⟩ := Call.returns_pure.mp hrest
    cases hplan

theorem inspectAdmitted_sound {incomplete : List String}
    (h : (inspectAdmitted site w.events incomplete).Returns e w plan t) : Sound e w plan := by
  unfold inspectAdmitted at h
  obtain ⟨left, u, hleft, hrest⟩ := Call.returns_bind.mp h
  have hstill : Still w u := Call.Respects.of_returns hleft
  split at hrest
  · obtain ⟨rfl, -⟩ := Call.returns_pure.mp hrest
    exact inspectActiveLease_sound hleft
  · exact .of_still hstill (inspectSettled_sound hrest)
  · rw [← hstill.events] at hrest
    exact .of_still hstill (inspectIncomplete_sound hrest)

theorem inspectEvents_sound (h : (inspectEvents site w.events).Returns e w plan t) :
    Sound e w plan := by
  unfold inspectEvents at h
  rcases Call.returns_ite.mp h with ⟨-, hplan⟩ | ⟨-, hrest⟩
  · exact inspectUnstarted_sound hplan
  · obtain ⟨found, _, hfound, hrest⟩ := Call.returns_bind.mp hrest
    obtain ⟨-, rfl⟩ := returns_lift.mp hfound
    split at hrest
    · obtain ⟨rfl, -⟩ := Call.returns_pure.mp hrest
      exact .of_ne (by simp [severalWriters])
    · exact inspectAdmitted_sound hrest

/-- What is read for an inspection are the events of the ledger. -/
theorem events_of_readEvidence {events : List LedgerEvent}
    (h : readEvidence.Returns e w (.ok events) t) : events = w.events := by
  unfold readEvidence at h
  rcases Call.returns_handle.mp h with hread | ⟨failure, u, -, hhandled⟩
  · obtain ⟨found, _, hfound, hrest⟩ := Call.returns_bind.mp hread
    obtain ⟨_, _, -, hpure⟩ := Call.returns_bind.mp hrest
    obtain ⟨hevents, -⟩ := Call.returns_pure.mp hpure
    rw [Except.ok.inj hevents]
    exact (events_of_readLedger hfound).1
  · rcases Call.returns_ite.mp hhandled with ⟨-, hpure⟩ | ⟨-, hraise⟩
    · obtain ⟨hevents, -⟩ := Call.returns_pure.mp hpure
      cases hevents
    · exact absurd hraise Call.returns_raise

/-- A plan to adopt a commit rests on what the transaction recorded. -/
theorem inspect_sound (h : (inspect site).Returns e w plan t) : Sound e w plan := by
  unfold inspect at h
  obtain ⟨evidence, u, hevidence, hrest⟩ := Call.returns_bind.mp h
  have hstill : Still w u := Call.Respects.of_returns hevidence
  cases evidence with
  | error diagnostic =>
      obtain ⟨rfl, -⟩ := Call.returns_pure.mp hrest
      exact .of_ne (by simp)
  | ok events =>
      obtain rfl := events_of_readEvidence hevidence
      rw [← hstill.events] at hrest
      exact .of_still hstill (inspectEvents_sound hrest)

end Site

end Sound

end RecoveryPlanner

end Conveyor
