import Conveyor.FeatureQueue
import Mathlib.Data.Fintype.Card
import Mathlib.Logic.Function.Basic
import Mathlib.Tactic.IntervalCases

/-!
# Two queue operations at once

Each operation inspects the repository, reads the queue document, decides, acquires the
writer lease, writes the whole document, reads it back and releases the lease
(`queue_control.py`). Two processes, told apart by a `Bool`, make these calls in any order.
The lease is acquired after the document was read, so what an operation writes may be built
on a document that is no longer there.

`serial_of_current` says that two operations that both succeed leave what they leave one
after the other, as long as each writes over the document that it read.
-/

namespace Conveyor.QueueInterleaving

open Library

/-! ### Steps -/

/-- Where an operation is: the next call it makes. `original` is the document that it read
    and `document` the one that it writes. -/
inductive Pc where
  | begin
  | inspectGit
  | inspectLease
  | readQueue
  | readLease (original document : Fields)
  | createLease (original document : Fields)
  | write (original document : Fields)
  | validate (original document : Fields)
  | restore (original : Fields)
  | release (success : Bool)
  | succeeded
  | raised
deriving DecidableEq

/-- What an operation observes of the repository: an unfinished Git operation, its branch,
    and changes outside the queue file. -/
structure Input where
  gitOperation : Bool
  onBranch : Bool
  dirty : Bool

/-- The queue file with its document, if it parses, the holder of the writer lease and the
    two processes. `applied` records who finished with which document. -/
structure State where
  file : Option Json
  lease : Option Bool
  pcs : Bool → Pc
  applied : List (Bool × Fields)

def State.start (file : Option Json) : State := ⟨file, none, fun _ => .begin, []⟩

def State.goto (s : State) (process : Bool) (pc : Pc) : State :=
  { s with pcs := Function.update s.pcs process pc }

/-- `queue_path.read_bytes()`, and what the operation decides on the document. -/
def afterRead (site : QueueSite) (activeMilestone : Option String) (operation : QueueOperation)
    (s : State) (process : Bool) : State :=
  match s.file with
  | some (.obj original) =>
      match operation.rewrite site activeMilestone original with
      | .error _ => s.goto process .raised
      | .ok none =>
          { s.goto process .succeeded with applied := s.applied ++ [(process, original)] }
      | .ok (some document) => s.goto process (.readLease original document)
  | _ => s.goto process .raised

/-- One call of one process. -/
def step (site : QueueSite) (activeMilestone : Option String) (operation : QueueOperation)
    (s : State) (process : Bool) (input : Input) : State :=
  match s.pcs process with
  | .begin =>
      match operation.checkArguments with
      | .error _ => s.goto process .raised
      | .ok _ => s.goto process .inspectGit
  | .inspectGit =>
      if input.gitOperation = true ∨ input.onBranch = false ∨ input.dirty = true then
        s.goto process .raised
      else s.goto process .inspectLease
  | .inspectLease =>
      if s.lease = none then s.goto process .readQueue else s.goto process .raised
  | .readQueue => afterRead site activeMilestone operation s process
  | .readLease original document =>
      if s.lease = none then s.goto process (.createLease original document)
      else s.goto process .raised
  | .createLease original document =>
      if s.lease = none then
        { s.goto process (.write original document) with lease := some process }
      else s.goto process .raised
  | .write original document =>
      { s.goto process (.validate original document) with
        file := some (.obj document)
        applied := s.applied ++ [(process, document)] }
  | .validate original _ =>
      match FeatureQueue.fromLocation site s.file with
      | .error _ => s.goto process (.restore original)
      | .ok _ =>
          if input.dirty = true then s.goto process (.restore original)
          else s.goto process (.release true)
  | .restore original => { s.goto process (.release false) with file := some (.obj original) }
  | .release success =>
      if s.lease = some process then
        { s.goto process (if success then .succeeded else .raised) with lease := none }
      else if s.lease = none then s.goto process (if success then .succeeded else .raised)
      else s.goto process .raised
  | .succeeded => s
  | .raised => s

/-- Runs of the two operations in any order, as far as `allowed` lets them step. -/
inductive Run (site : QueueSite) (activeMilestone : Option String)
    (operations : Bool → QueueOperation) (file : Option Json)
    (allowed : State → Bool → Prop) : State → Prop where
  | start : Run site activeMilestone operations file allowed (State.start file)
  | step {s : State} {process : Bool} {input : Input}
      (prior : Run site activeMilestone operations file allowed s)
      (admits : allowed s process) :
      Run site activeMilestone operations file allowed
        (step site activeMilestone (operations process) s process input)

/-- The document that the two operations leave one after the other, one of them first. -/
def Serial (site : QueueSite) (activeMilestone : Option String)
    (operations : Bool → QueueOperation) (file final : Option Json) : Prop :=
  ∃ first initial middle last, file = some (.obj initial) ∧
    (operations first).run site activeMilestone initial = .ok middle ∧
    (operations (!first)).run site activeMilestone middle = .ok last ∧ final = some (.obj last)

/-- A process about to write finds in the file what it read. -/
def Current (s : State) (process : Bool) : Prop :=
  ∀ original document, s.pcs process = .write original document →
    s.file = some (.obj original)

/-! ### The invariant -/

/-- The operation makes the second document of the first. -/
def Leaves (site : QueueSite) (activeMilestone : Option String) (operation : QueueOperation)
    (document written : Fields) : Prop :=
  operation.checkArguments = .ok () ∧
    (operation.rewrite site activeMilestone document = .ok none ∧ written = document ∨
      operation.rewrite site activeMilestone document = .ok (some written))

/-- The documents that these operations leave in turn. -/
inductive Applies (site : QueueSite) (activeMilestone : Option String)
    (operations : Bool → QueueOperation) (file : Option Json) :
    List (Bool × Fields) → Option Json → Prop where
  | nil : Applies site activeMilestone operations file [] file
  | snoc {applied : List (Bool × Fields)} {process : Bool} {document written : Fields}
      (prior : Applies site activeMilestone operations file applied (some (.obj document)))
      (leaves : Leaves site activeMilestone (operations process) document written) :
      Applies site activeMilestone operations file (applied ++ [(process, written)])
        (some (.obj written))

namespace Pc

/-- The operation has failed, or is about to. -/
def failing : Pc → Bool
  | restore _ | release false | raised => true
  | _ => false

def holding : Pc → Bool
  | write _ _ | validate _ _ | restore _ | release _ => true
  | _ => false

/-- The document was written, or nothing had to be. -/
def finished : Pc → Bool
  | validate _ _ | release true | succeeded => true
  | _ => false

/-- The document that is not written yet, with the one it was made of. -/
def planned : Pc → Option (Fields × Fields)
  | readLease original document | createLease original document | write original document =>
      some (original, document)
  | _ => none

end Pc

/-- What holds of one process at its program counter, while none is failing. -/
structure PcOk (site : QueueSite) (activeMilestone : Option String)
    (operation : QueueOperation) (s : State) (process : Bool) (pc : Pc) : Prop where
  checked : pc ≠ .begin → operation.checkArguments = .ok ()
  planned : ∀ original document, pc.planned = some (original, document) →
    operation.rewrite site activeMilestone original = .ok (some document)
  holds : pc.holding = true → s.lease = some process
  applied : pc.finished = true ↔ process ∈ s.applied.map Prod.fst
  validates : ∀ original document, pc = .validate original document →
    s.file = some (.obj document) ∧ (process, document) ∈ s.applied
  accepted : pc = .release true ∨ pc = .succeeded → ∃ document, (process, document) ∈ s.applied ∧
    ∃ queue, FeatureQueue.fromLocation site (some (.obj document)) = .ok queue

structure Calm (site : QueueSite) (activeMilestone : Option String)
    (operations : Bool → QueueOperation) (file : Option Json) (s : State) : Prop where
  applies : Applies site activeMilestone operations file s.applied s.file
  distinct : (s.applied.map Prod.fst).Nodup
  pcs : ∀ process, PcOk site activeMilestone (operations process) s process (s.pcs process)

/-- Until one of the operations fails. -/
def Inv (site : QueueSite) (activeMilestone : Option String)
    (operations : Bool → QueueOperation) (file : Option Json) (s : State) : Prop :=
  (∀ process, (s.pcs process).failing = false) →
    Calm site activeMilestone operations file s

variable {site : QueueSite} {activeMilestone : Option String}
  {operations : Bool → QueueOperation} {operation : QueueOperation} {file : Option Json}
  {s t : State} {process : Bool} {pc : Pc} {original document : Fields}

/-- A document that an operation reads as a queue is one that it may leave. -/
theorem fromLocation_of_ofFields {queue : FeatureQueue}
    (h : FeatureQueue.ofFields site document = .ok queue) :
    FeatureQueue.fromLocation site (some (.obj document)) = .ok queue := by
  have hlist : ∀ key ∈ ["milestones", "features"],
      FeatureQueue.checkList document key = .ok () := by
    have harr : (∃ items, document.get "milestones" = .arr items) ∧
        ∃ items, document.get "features" = .arr items := by
      unfold FeatureQueue.ofFields at h
      split at h
      · rename_i hmilestones hfeatures
        exact ⟨⟨_, hmilestones⟩, _, hfeatures⟩
      · cases h
      · cases h
    have hcheck (key : String) (hkey : ∃ items, document.get key = .arr items) :
        FeatureQueue.checkList document key = .ok () := by
      obtain ⟨items, hitems⟩ := hkey
      rw [Fields.get] at hitems
      rw [FeatureQueue.checkList]
      cases hfound : document.get? key with
      | none =>
          rw [hfound] at hitems
          cases hitems
      | some value =>
          rw [hfound, Option.getD_some] at hitems
          rw [hitems]
    intro key hkey
    simp only [List.mem_cons, List.not_mem_nil, or_false] at hkey
    rcases hkey with rfl | rfl
    · exact hcheck _ harr.1
    · exact hcheck _ harr.2
  rw [FeatureQueue.fromLocation, bind_eq_ok]
  exact ⟨(), requireAll_eq_ok.mpr hlist, h⟩

theorem Applies.snoc_inv {applied : List (Bool × Fields)} {written : Fields} {final : Option Json}
    (h : Applies site activeMilestone operations file (applied ++ [(process, written)]) final) :
    final = some (.obj written) ∧ ∃ document,
      Applies site activeMilestone operations file applied (some (.obj document)) ∧
      Leaves site activeMilestone (operations process) document written := by
  generalize hlist : applied ++ [(process, written)] = list at h
  cases h with
  | nil => simp at hlist
  | snoc prior leaves =>
      obtain ⟨rfl, hlast⟩ := List.append_inj' hlist rfl
      cases hlast
      exact ⟨rfl, _, prior, leaves⟩

theorem Applies.nil_inv {final : Option Json}
    (h : Applies site activeMilestone operations file [] final) : final = file := by
  generalize hlist : ([] : List (Bool × Fields)) = list at h
  cases h with
  | nil => rfl
  | snoc prior leaves => simp at hlist

theorem run_of_leaves {written : Fields} {queue : FeatureQueue}
    (h : Leaves site activeMilestone operation document written)
    (haccepted : FeatureQueue.fromLocation site (some (.obj written)) = .ok queue) :
    operation.run site activeMilestone document = .ok written := by
  obtain ⟨hchecked, ⟨hnone, rfl⟩ | hsome⟩ := h
  · simp only [QueueOperation.run, hchecked, hnone, bind, Except.bind, pure, Except.pure]
  · simp only [QueueOperation.run, hchecked, hsome, haccepted, bind, Except.bind, pure, Except.pure]

theorem inv_start : Inv site activeMilestone operations file (State.start file) := fun _ =>
  { applies := .nil
    distinct := List.nodup_nil
    pcs := fun process =>
      { checked := fun h => absurd rfl h
        planned := fun _ _ h => by cases h
        holds := fun h => by cases h
        applied := iff_of_false (by simp [State.start, Pc.finished]) (by simp [State.start])
        validates := fun _ _ h => by cases h
        accepted := fun h => by rcases h with h | h <;> cases h } }

/-- What a process holds survives the other's steps that leave the file, the lease and the
    record of the finished ones as they are for it. -/
theorem PcOk.mono (h : PcOk site activeMilestone operation s process pc)
    (hlease : pc.holding = true → t.lease = s.lease)
    (hfile : ∀ original document, pc = .validate original document → t.file = s.file)
    (happlied : s.applied ⊆ t.applied)
    (hnot : process ∈ t.applied.map Prod.fst → process ∈ s.applied.map Prod.fst) :
    PcOk site activeMilestone operation t process pc where
  checked := h.checked
  planned := h.planned
  holds hholding := (hlease hholding).trans (h.holds hholding)
  applied := h.applied.trans ⟨fun hmem => List.map_subset _ happlied hmem, hnot⟩
  validates original document hpc := by
    obtain ⟨hsame, hmem⟩ := h.validates original document hpc
    exact ⟨(hfile original document hpc).trans hsame, happlied hmem⟩
  accepted hpc := by
    obtain ⟨document, hmem, haccepted⟩ := h.accepted hpc
    exact ⟨document, happlied hmem, haccepted⟩

/-- The two program counters after a step of one process. -/
theorem pcs_of_frame (h : Calm site activeMilestone operations file s)
    (hpcs : t.pcs = Function.update s.pcs process pc)
    (hself : PcOk site activeMilestone (operations process) t process pc)
    (hother : ∀ other, other ≠ process →
      PcOk site activeMilestone (operations other) s other (s.pcs other) →
        PcOk site activeMilestone (operations other) t other (s.pcs other)) (other : Bool) :
    PcOk site activeMilestone (operations other) t other (t.pcs other) := by
  rw [hpcs]
  by_cases hsame : other = process
  · rw [hsame, Function.update_self]
    exact hself
  · rw [Function.update_of_ne hsame]
    exact hother other hsame (h.pcs other)

/-- A step that only moves the process. -/
theorem calm_goto (h : Calm site activeMilestone operations file s)
    (hself : PcOk site activeMilestone (operations process) s process pc) :
    Calm site activeMilestone operations file (s.goto process pc) where
  applies := h.applies
  distinct := h.distinct
  pcs := pcs_of_frame h rfl
    (hself.mono (fun _ => rfl) (fun _ _ _ => rfl) (fun _ => id) id)
    fun _ _ hok => hok.mono (fun _ => rfl) (fun _ _ _ => rfl) (fun _ => id) id

/-- A step to a program counter that is failing leaves nothing to show. -/
theorem inv_of_failing (hpcs : t.pcs = Function.update s.pcs process pc)
    (hfailing : pc.failing = true) : Inv site activeMilestone operations file t := by
  intro hcalm
  have hself := hcalm process
  rw [hpcs, Function.update_self, hfailing] at hself
  cases hself

/-- Where the processes do not fail after a step, they did not before. -/
theorem calm_before {t : State} (h : Inv site activeMilestone operations file s)
    (hpcs : t.pcs = Function.update s.pcs process pc)
    (hself : (s.pcs process).failing = false)
    (hcalm : ∀ other, (t.pcs other).failing = false) :
    Calm site activeMilestone operations file s := by
  refine h fun other => ?_
  by_cases hsame : other = process
  · rw [hsame]
    exact hself
  · have hother := hcalm other
    rwa [hpcs, Function.update_of_ne hsame] at hother

/-- A process that has neither read a document nor finished. -/
theorem pcOk_plain (hchecked : operation.checkArguments = .ok ())
    (hnot : process ∉ s.applied.map Prod.fst)
    (hpc : pc.planned = none ∧ pc.holding = false ∧ pc.finished = false) :
    PcOk site activeMilestone operation s process pc where
  checked _ := hchecked
  planned original document h := by
    rw [hpc.1] at h
    cases h
  holds h := by
    rw [hpc.2.1] at h
    cases h
  applied := by
    rw [hpc.2.2]
    exact iff_of_false (by simp) hnot
  validates original document h := by
    subst h
    cases hpc.2.2
  accepted h := by
    rcases h with rfl | rfl <;> cases hpc.2.2

theorem not_finished_of_planned {plan : Fields × Fields} (h : pc.planned = some plan) :
    pc.finished = false := by
  cases pc <;> first | rfl | cases h

/-- A process that has decided what to write, and has not written it. -/
theorem pcOk_planned (hchecked : operation.checkArguments = .ok ())
    (hnot : process ∉ s.applied.map Prod.fst)
    (hplanned : pc.planned = some (original, document))
    (hrewrite : operation.rewrite site activeMilestone original = .ok (some document))
    (hholds : pc.holding = true → s.lease = some process) :
    PcOk site activeMilestone operation s process pc where
  checked _ := hchecked
  planned original' document' h := by
    rw [hplanned] at h
    cases h
    exact hrewrite
  holds := hholds
  applied := by
    rw [not_finished_of_planned hplanned]
    exact iff_of_false (by simp) hnot
  validates original' document' h := by
    subst h
    cases hplanned
  accepted h := by
    rcases h with rfl | rfl <;> cases hplanned

theorem PcOk.not_applied (h : PcOk site activeMilestone operation s process pc)
    (hfinished : pc.finished = false) : process ∉ s.applied.map Prod.fst := by
  rw [← h.applied, hfinished]
  simp

/-- Only one process holds the lease. -/
theorem not_holding (h : Calm site activeMilestone operations file s)
    (hholds : s.lease = some process ∨ s.lease = none) {other : Bool} (hne : other ≠ process) :
    (s.pcs other).holding = false := by
  by_contra hholding
  have hother := (h.pcs other).holds (by simpa using hholding)
  rcases hholds with hlease | hlease
  · rw [hlease, Option.some.injEq] at hother
    exact hne hother.symm
  · rw [hlease] at hother
    cases hother

/-! ### Every step -/

/-- A step to a program counter before the document is read. -/
theorem inv_advance (h : Inv site activeMilestone operations file s)
    (hself : (s.pcs process).failing = false) (hfinished : (s.pcs process).finished = false)
    (hchecked : (operations process).checkArguments = .ok ())
    (hpc : pc.planned = none ∧ pc.holding = false ∧ pc.finished = false) :
    Inv site activeMilestone operations file (s.goto process pc) := by
  intro hcalm
  have hbefore := calm_before h rfl hself hcalm
  have hnot := (hbefore.pcs process).not_applied hfinished
  exact calm_goto hbefore (pcOk_plain hchecked hnot hpc)

theorem inv_raised (s : State) (process : Bool) :
    Inv site activeMilestone operations file (s.goto process .raised) :=
  inv_of_failing rfl rfl

/-- The process has finished with the document that is now in the file. -/
theorem calm_apply {written : Fields} (h : Calm site activeMilestone operations file s)
    (hpcs : t.pcs = Function.update s.pcs process pc)
    (hfile : s.file = some (.obj document)) (hwritten : t.file = some (.obj written))
    (happlied : t.applied = s.applied ++ [(process, written)])
    (hleaves : Leaves site activeMilestone (operations process) document written)
    (hfinished : (s.pcs process).finished = false)
    (hself : PcOk site activeMilestone (operations process) t process pc)
    (hlease : t.lease = s.lease)
    (hothers : ∀ other, other ≠ process → ∀ original document,
      s.pcs other = .validate original document → t.file = s.file) :
    Calm site activeMilestone operations file t where
  applies := by
    rw [happlied, hwritten]
    exact .snoc (hfile ▸ h.applies) hleaves
  distinct := by
    rw [happlied, List.map_append, List.map_singleton, List.nodup_append]
    refine ⟨h.distinct, by simp, fun first hfirst second hsecond heq => ?_⟩
    have hsame : first = process := heq.trans (List.mem_singleton.mp hsecond)
    exact (h.pcs process).not_applied hfinished (hsame ▸ hfirst)
  pcs := by
    refine pcs_of_frame h hpcs hself fun other hne hok => ?_
    refine hok.mono (fun _ => hlease) (hothers other hne) ?_ fun hmem => ?_
    · rw [happlied]
      exact List.subset_append_left _ _
    · rw [happlied, List.map_append, List.mem_append] at hmem
      refine hmem.resolve_right fun hlast => hne ?_
      simpa using hlast

theorem inv_readQueue (h : Inv site activeMilestone operations file s)
    (hpc : s.pcs process = .readQueue) :
    Inv site activeMilestone operations file
      (afterRead site activeMilestone (operations process) s process) := by
  have hfailing : (s.pcs process).failing = false := by rw [hpc]; rfl
  have hfinished : (s.pcs process).finished = false := by rw [hpc]; rfl
  unfold afterRead
  split
  · rename_i original hfile
    split
    · exact inv_raised s process
    · rename_i hnone
      intro hcalm
      have hbefore := calm_before h rfl hfailing hcalm
      have hself := hbefore.pcs process
      rw [hpc] at hself
      have hchecked := hself.checked (by simp)
      obtain ⟨queue, hqueue⟩ : ∃ queue, FeatureQueue.ofFields site original = .ok queue := by
        rw [QueueOperation.rewrite, bind_eq_ok] at hnone
        obtain ⟨queue, hqueue, -⟩ := hnone
        exact ⟨queue, hqueue⟩
      refine calm_apply hbefore rfl hfile hfile rfl ⟨hchecked, Or.inl ⟨hnone, rfl⟩⟩ hfinished ?_ rfl
        fun _ _ _ _ _ => rfl
      refine ⟨fun _ => hchecked, fun _ _ h => (by cases h), fun h => (by cases h),
        iff_of_true rfl (by simp), fun _ _ h => (by cases h), fun _ => ?_⟩
      exact ⟨original, by simp, queue, fromLocation_of_ofFields hqueue⟩
    · rename_i document hsome
      intro hcalm
      have hbefore := calm_before h rfl hfailing hcalm
      have hself := hbefore.pcs process
      rw [hpc] at hself
      exact calm_goto hbefore (pcOk_planned (hself.checked (by simp)) (hself.not_applied rfl) rfl
        hsome fun h => by cases h)
  · exact inv_raised s process

theorem inv_createLease (h : Inv site activeMilestone operations file s)
    (hpc : s.pcs process = .createLease original document) (hlease : s.lease = none) :
    Inv site activeMilestone operations file
      { s.goto process (.write original document) with lease := some process } := by
  intro hcalm
  have hbefore := calm_before h rfl (by rw [hpc]; rfl) hcalm
  have hself := hbefore.pcs process
  rw [hpc] at hself
  refine ⟨hbefore.applies, hbefore.distinct, pcs_of_frame hbefore rfl ?_ fun other hne hok => ?_⟩
  · exact pcOk_planned (hself.checked (by simp)) (hself.not_applied rfl) rfl
      (hself.planned original document rfl) fun _ => rfl
  · refine hok.mono (fun hholding => ?_) (fun _ _ _ => rfl) (fun _ => id) id
    rw [not_holding hbefore (Or.inr hlease) hne] at hholding
    cases hholding

theorem inv_write (h : Inv site activeMilestone operations file s)
    (hpc : s.pcs process = .write original document) (hcurrent : s.file = some (.obj original)) :
    Inv site activeMilestone operations file
      { s.goto process (.validate original document) with
        file := some (.obj document)
        applied := s.applied ++ [(process, document)] } := by
  intro hcalm
  have hbefore := calm_before h rfl (by rw [hpc]; rfl) hcalm
  have hself := hbefore.pcs process
  rw [hpc] at hself
  have hlease := hself.holds rfl
  refine calm_apply hbefore rfl hcurrent rfl rfl
    ⟨hself.checked (by simp), Or.inr (hself.planned original document rfl)⟩ (by rw [hpc]; rfl) ?_ rfl
    fun other hne original' document' hother => ?_
  · refine ⟨fun _ => hself.checked (by simp), fun _ _ h => (by cases h), fun _ => hlease,
      iff_of_true rfl (by simp), fun original' document' h => ?_, fun h => ?_⟩
    · cases h
      exact ⟨rfl, by simp⟩
    · rcases h with h | h <;> cases h
  · have hnot := not_holding hbefore (Or.inl hlease) hne
    rw [hother] at hnot
    cases hnot

theorem inv_validated (h : Inv site activeMilestone operations file s)
    (hpc : s.pcs process = .validate original document) {queue : FeatureQueue}
    (haccepted : FeatureQueue.fromLocation site s.file = .ok queue) :
    Inv site activeMilestone operations file (s.goto process (.release true)) := by
  intro hcalm
  have hbefore := calm_before h rfl (by rw [hpc]; rfl) hcalm
  have hself := hbefore.pcs process
  rw [hpc] at hself
  obtain ⟨hfile, hmem⟩ := hself.validates original document rfl
  refine calm_goto hbefore ⟨fun _ => hself.checked (by simp), fun _ _ h => (by cases h),
    fun _ => hself.holds rfl, iff_of_true rfl (hself.applied.mp rfl), fun _ _ h => (by cases h),
    fun _ => ⟨document, hmem, queue, ?_⟩⟩
  rw [← hfile]
  exact haccepted

theorem inv_released (h : Inv site activeMilestone operations file s)
    (hpc : s.pcs process = .release true) (hlease : s.lease = some process) :
    Inv site activeMilestone operations file
      { s.goto process .succeeded with lease := none } := by
  intro hcalm
  have hbefore := calm_before h rfl (by rw [hpc]; rfl) hcalm
  have hself := hbefore.pcs process
  rw [hpc] at hself
  refine ⟨hbefore.applies, hbefore.distinct, pcs_of_frame hbefore rfl ?_ fun other hne hok => ?_⟩
  · exact ⟨fun _ => hself.checked (by simp), fun _ _ h => (by cases h), fun h => (by cases h),
      iff_of_true rfl (hself.applied.mp rfl), fun _ _ h => (by cases h),
      fun _ => hself.accepted (Or.inl rfl)⟩
  · refine hok.mono (fun hholding => ?_) (fun _ _ _ => rfl) (fun _ => id) id
    rw [not_holding hbefore (Or.inl hlease) hne] at hholding
    cases hholding

/-- A release finds the lease of its own process, while none is failing. -/
theorem inv_release_lost (h : Inv site activeMilestone operations file s)
    (hpc : s.pcs process = .release true) (hlease : s.lease ≠ some process) (pc : Pc) :
    Inv site activeMilestone operations file (s.goto process pc) := by
  intro hcalm
  have hbefore := calm_before h rfl (by rw [hpc]; rfl) hcalm
  have hself := hbefore.pcs process
  rw [hpc] at hself
  exact absurd (hself.holds rfl) hlease

theorem inv_step {input : Input} (h : Inv site activeMilestone operations file s)
    (hcurrent : Current s process) :
    Inv site activeMilestone operations file
      (step site activeMilestone (operations process) s process input) := by
  have hchecked (hfailing : (s.pcs process).failing = false) (hne : s.pcs process ≠ .begin)
      (hcalm : Calm site activeMilestone operations file s) :
      (operations process).checkArguments = .ok () :=
    (hcalm.pcs process).checked hne
  unfold step
  cases hpc : s.pcs process with
  | begin =>
      dsimp only
      cases harguments : (operations process).checkArguments with
      | error failure => exact inv_raised s process
      | ok u => exact inv_advance h (by rw [hpc]; rfl) (by rw [hpc]; rfl) harguments ⟨rfl, rfl, rfl⟩
  | inspectGit =>
      dsimp only
      split
      · exact inv_raised s process
      · intro hcalm
        have hbefore := calm_before h rfl (by rw [hpc]; rfl) hcalm
        exact inv_advance h (by rw [hpc]; rfl) (by rw [hpc]; rfl)
          ((hbefore.pcs process).checked (by rw [hpc]; simp)) ⟨rfl, rfl, rfl⟩ hcalm
  | inspectLease =>
      dsimp only
      split
      · intro hcalm
        have hbefore := calm_before h rfl (by rw [hpc]; rfl) hcalm
        exact inv_advance h (by rw [hpc]; rfl) (by rw [hpc]; rfl)
          ((hbefore.pcs process).checked (by rw [hpc]; simp)) ⟨rfl, rfl, rfl⟩ hcalm
      · exact inv_raised s process
  | readQueue => exact inv_readQueue h hpc
  | readLease original document =>
      dsimp only
      split
      · intro hcalm
        have hbefore := calm_before h rfl (by rw [hpc]; rfl) hcalm
        have hself := hbefore.pcs process
        rw [hpc] at hself
        exact calm_goto hbefore (pcOk_planned (hself.checked (by simp)) (hself.not_applied rfl) rfl
          (hself.planned original document rfl) fun h => by cases h)
      · exact inv_raised s process
  | createLease original document =>
      dsimp only
      split
      · rename_i hlease
        exact inv_createLease h hpc hlease
      · exact inv_raised s process
  | write original document => exact inv_write h hpc (hcurrent original document hpc)
  | validate original document =>
      dsimp only
      cases haccepted : FeatureQueue.fromLocation site s.file with
      | error failure => exact inv_of_failing rfl rfl
      | ok queue =>
          dsimp only
          split
          · exact inv_of_failing rfl rfl
          · exact inv_validated h hpc haccepted
  | restore original => exact inv_of_failing rfl rfl
  | release success =>
      cases success with
      | true =>
          dsimp only
          split
          · rename_i hlease
            exact inv_released h hpc hlease
          · rename_i hlease
            split
            · exact inv_release_lost h hpc hlease _
            · exact inv_raised s process
      | false =>
          dsimp only
          split
          · exact inv_of_failing rfl rfl
          · split <;> exact inv_raised s process
  | succeeded => exact h
  | raised => exact h

theorem Run.inv (hrun : Run site activeMilestone operations file Current s) :
    Inv site activeMilestone operations file s := by
  induction hrun with
  | start => exact inv_start
  | step prior admits ih => exact inv_step ih admits

/-! ### Two operations that succeed -/

/-- Two processes that both finished, each once. -/
theorem both_applied {applied : List (Bool × Fields)} (hdistinct : (applied.map Prod.fst).Nodup)
    (hboth : ∀ process, process ∈ applied.map Prod.fst) :
    ∃ first middle last, applied = [(first, middle), (!first, last)] := by
  have hlength : (applied.map Prod.fst).length = 2 := by
    have hperm : (applied.map Prod.fst).toFinset = Finset.univ := by
      ext process
      simpa using hboth process
    rw [← List.toFinset_card_of_nodup hdistinct, hperm]
    rfl
  rw [List.length_map] at hlength
  obtain ⟨⟨first, middle⟩, ⟨second, last⟩, rfl⟩ := List.length_eq_two.mp hlength
  have hne : second ≠ first := by
    intro heq
    simp [heq] at hdistinct
  refine ⟨first, middle, last, ?_⟩
  rw [Bool.eq_not.mpr hne]

/-- Two operations that both succeed leave what they leave one after the other, when each
    writes over the document that it read. -/
theorem serial_of_current (hrun : Run site activeMilestone operations file Current s)
    (hsucceeded : ∀ process, s.pcs process = .succeeded) :
    Serial site activeMilestone operations file s.file := by
  have hcalm : Calm site activeMilestone operations file s := hrun.inv fun process => by
    rw [hsucceeded]
    rfl
  have hboth : ∀ process, process ∈ s.applied.map Prod.fst := fun process =>
    (hcalm.pcs process).applied.mp (by rw [hsucceeded]; rfl)
  obtain ⟨first, middle, last, happlied⟩ := both_applied hcalm.distinct hboth
  have haccepted (process : Bool) (document : Fields) (hmem : (process, document) ∈ s.applied) :
      ∃ queue, FeatureQueue.fromLocation site (some (.obj document)) = .ok queue := by
    obtain ⟨found, hfound, haccepted⟩ := (hcalm.pcs process).accepted (Or.inr (hsucceeded process))
    have hsame : found = document := by
      have hpair := List.inj_on_of_nodup_map hcalm.distinct hfound hmem rfl
      exact (Prod.mk.inj hpair).2
    exact hsame ▸ haccepted
  obtain ⟨q1, h1⟩ := haccepted first middle (by simp [happlied])
  obtain ⟨q2, h2⟩ := haccepted (!first) last (by simp [happlied])
  have hall : Applies site activeMilestone operations file
      ([] ++ [(first, middle)] ++ [(!first, last)]) s.file := by
    have happlies := hcalm.applies
    rw [happlied] at happlies
    exact happlies
  obtain ⟨hlast, between, hearlier, hsecond⟩ := hall.snoc_inv
  obtain ⟨hmiddle, initial, hinitial, hfirst⟩ := hearlier.snoc_inv
  rw [Option.some.injEq, Json.obj.injEq] at hmiddle
  subst hmiddle
  exact ⟨first, initial, between, last, hinitial.nil_inv.symm, run_of_leaves hfirst h1,
    run_of_leaves hsecond h2, hlast⟩

/-! ### Two priorities -/

def sampleSite : QueueSite where
  platform := Platform.reference
  escapes _ := false
  isFile _ := true
  validateFeatureExecutionPolicy _ _ := .ok ()

def sampleFeature (featureId : String) (priority : Fields) : Json :=
  .obj (Fields.ofPairs ([("id", .str featureId), ("milestone", .str "milestone-1"),
    ("status", .str "ready")] ++ priority))

/-- A queue of two features with these priorities. -/
def sampleQueue (first second : Fields) : Fields :=
  .ofPairs [("features", .arr [sampleFeature "F1" first, sampleFeature "F2" second]),
    ("milestones", .arr [.obj [("id", .str "milestone-1")]])]

def urgent : Fields := [("priority", .str "P1")]

/-- One operation makes the first feature urgent, the other one the second. -/
def sampleOperations (process : Bool) : QueueOperation :=
  .prioritize (if process then "F2" else "F1") none none (some "P1")

/-- The state after the first so many calls of a schedule. -/
def stateAt (schedule : List Bool) (calls : Nat) : State :=
  (schedule.take calls).foldl (fun s process => step sampleSite (some "milestone-1")
    (sampleOperations process) s process ⟨false, true, false⟩)
    (State.start (some (.obj (sampleQueue [] []))))

theorem run_stateAt {allowed : State → Bool → Prop} {schedule : List Bool} (calls : Nat)
    (hallowed : ∀ call, call < calls → ∀ h : call < schedule.length,
      allowed (stateAt schedule call) schedule[call]) :
    Run sampleSite (some "milestone-1") sampleOperations (some (.obj (sampleQueue [] []))) allowed
      (stateAt schedule calls) := by
  induction calls with
  | zero => exact .start
  | succ calls ih =>
      have hprior := ih fun call hcall => hallowed call (by omega)
      by_cases hlength : calls < schedule.length
      · have hnext : stateAt schedule (calls + 1) = step sampleSite (some "milestone-1")
            (sampleOperations schedule[calls]) (stateAt schedule calls) schedule[calls]
            ⟨false, true, false⟩ := by
          rw [stateAt, List.take_succ_eq_append_getElem hlength, List.foldl_append]
          rfl
        rw [hnext]
        exact hprior.step (hallowed calls (by omega) hlength)
      · have hsame : stateAt schedule (calls + 1) = stateAt schedule calls := by
          rw [stateAt, stateAt, List.take_of_length_le (by omega), List.take_of_length_le (by omega)]
        rw [hsame]
        exact hprior

/-- One operation after the other. -/
def inTurn : List Bool := List.replicate 9 false ++ List.replicate 9 true

theorem serial_inTurn : Serial sampleSite (some "milestone-1") sampleOperations
    (some (.obj (sampleQueue [] []))) (stateAt inTurn 18).file := by
  refine serial_of_current (run_stateAt 18 fun call hcall _ => ?_) fun process => ?_
  · interval_cases call
    all_goals
      intro original document h
      first
        | (cases h; rfl)
        | cases h
  · cases process <;> rfl

/-- Both read the queue before either writes it. -/
def bothReading : List Bool :=
  List.replicate 4 false ++ List.replicate 4 true ++ List.replicate 5 false ++
    List.replicate 5 true

/-- Both operations succeed, and the first priority is gone. -/
theorem bothReading_not_serial :
    Run sampleSite (some "milestone-1") sampleOperations (some (.obj (sampleQueue [] [])))
        (fun _ _ => True) (stateAt bothReading 18) ∧
      (∀ process, (stateAt bothReading 18).pcs process = .succeeded) ∧
      ¬Serial sampleSite (some "milestone-1") sampleOperations
        (some (.obj (sampleQueue [] []))) (stateAt bothReading 18).file := by
  refine ⟨run_stateAt 18 fun _ _ _ => trivial, fun process => by cases process <;> rfl, ?_⟩
  rintro ⟨first, initial, middle, last, hfile, hfirst, hsecond, hfinal⟩
  cases hfile
  have hlost : (stateAt bothReading 18).file = some (.obj (sampleQueue [] urgent)) := rfl
  rw [hlost] at hfinal
  cases hfinal
  cases first with
  | false =>
      have hrun : (sampleOperations false).run sampleSite (some "milestone-1")
          (sampleQueue [] []) = .ok (sampleQueue urgent []) := rfl
      rw [hrun] at hfirst
      cases hfirst
      have hboth : (sampleOperations true).run sampleSite (some "milestone-1")
          (sampleQueue urgent []) = .ok (sampleQueue urgent urgent) := rfl
      rw [Bool.not_false, hboth, Except.ok.injEq] at hsecond
      exact absurd hsecond (by decide +kernel)
  | true =>
      have hrun : (sampleOperations true).run sampleSite (some "milestone-1")
          (sampleQueue [] []) = .ok (sampleQueue [] urgent) := rfl
      rw [hrun] at hfirst
      cases hfirst
      have hboth : (sampleOperations false).run sampleSite (some "milestone-1")
          (sampleQueue [] urgent) = .ok (sampleQueue urgent urgent) := rfl
      rw [Bool.not_true, hboth, Except.ok.injEq] at hsecond
      exact absurd hsecond (by decide +kernel)

end Conveyor.QueueInterleaving
