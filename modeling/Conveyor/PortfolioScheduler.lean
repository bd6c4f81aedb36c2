import Mathlib.Data.List.Sort
import Conveyor.Library.Dict
import Conveyor.Library.Platform

/-!
# The portfolio scheduler

`PortfolioScheduler.run` (`scheduler.py`) hands the enabled projects of the registry to a pool of
threads and collects their results in the order in which they complete. `portfolio_run` says that
every enabled project has its one result whichever workers fail, and that the order of completion
does not show in the results where they name their projects.
-/

namespace Conveyor

open Library

namespace PortfolioScheduler

/-- What the registry and the scheduler read of a `Project`. -/
structure Project where
  projectId : String
  enabled : Bool
  priority : Int
deriving DecidableEq

/-- `_projects`: of two configured projects of one identifier the later one. -/
def registered (configured : List Project) : Dict Project :=
  configured.foldl (fun projects item => Dict.insert projects item.projectId item) []

/-- `(-priority, project_id)` in their order. -/
def Precedes (first second : Project) : Prop :=
  second.priority < first.priority ∨
    (first.priority = second.priority ∧ first.projectId ≤ second.projectId)

instance : DecidableRel Precedes := fun _ _ => inferInstanceAs (Decidable (_ ∨ _))

/-- `ProjectRegistry.enabled`. -/
def enabledProjects (configured : List Project) : List Project :=
  (((registered configured).map Prod.snd).filter fun item => item.enabled).insertionSort Precedes

/-- `(not has_active_cycle, -priority, project_id)` in their order. -/
def Resumes (hasActiveCycle : Project → Bool) (first second : Project) : Prop :=
  (hasActiveCycle first = true ∧ hasActiveCycle second = false) ∨
    (hasActiveCycle first = hasActiveCycle second ∧ Precedes first second)

instance (hasActiveCycle : Project → Bool) : DecidableRel (Resumes hasActiveCycle) :=
  fun _ _ => inferInstanceAs (Decidable (_ ∨ _))

def orderProjects (hasActiveCycle : Project → Bool) (projects : List Project) : List Project :=
  projects.insertionSort (Resumes hasActiveCycle)

/-- The projects that are submitted to the pool. -/
def submitted (hasActiveCycle : Project → Bool) (projects : List Project) : List Project :=
  orderProjects hasActiveCycle (projects.filter fun item => item.enabled)

/-- What a worker returns, or the text of the exception it raises. -/
inductive Worked where
  | returned (result : Fields)
  | raised (text : String)

/-- What is collected of a future. -/
def resultOf (worker : Project → Worked) (project : Project) : Fields :=
  match worker project with
  | .returned result => result
  | .raised text => Fields.ofPairs
      [("project_id", .str project.projectId), ("outcome", .str "conveyor_error"),
       ("error", .str text)]

/-- `{project.project_id: index for index, project in enumerate(ordered)}`. -/
def order (ordered : List Project) : Dict Nat :=
  ordered.zipIdx.foldl (fun places item => Dict.insert places item.1.projectId item.2) []

def placeOf (P : Platform) (ordered : List Project) (result : Fields) : Nat :=
  (Dict.get? (order ordered) (P.str (result.get "project_id"))).getD ordered.length

def Before (P : Platform) (ordered : List Project) (first second : Fields) : Prop :=
  placeOf P ordered first ≤ placeOf P ordered second

instance (P : Platform) (ordered : List Project) : DecidableRel (Before P ordered) :=
  fun _ _ => inferInstanceAs (Decidable (_ ≤ _))

/-- `run`, where the futures of the projects complete in the given order. -/
def run (P : Platform) (worker : Project → Worked) (ordered completed : List Project) :
    List Fields :=
  (completed.map (resultOf worker)).insertionSort (Before P ordered)

/-! ### The projects that are submitted -/

variable {configured projects ordered completed : List Project} {project : Project}
  {hasActiveCycle : Project → Bool} {worker : Project → Worked} {P : Platform}

theorem precedes_total (first second : Project) :
    Precedes first second ∨ Precedes second first := by
  rcases lt_trichotomy first.priority second.priority with hless | heq | hmore
  · exact Or.inr (Or.inl hless)
  · rcases le_total first.projectId second.projectId with hbefore | hafter
    · exact Or.inl (Or.inr ⟨heq, hbefore⟩)
    · exact Or.inr (Or.inr ⟨heq.symm, hafter⟩)
  · exact Or.inl (Or.inl hmore)

theorem Precedes.trans {first second third : Project} (h : Precedes first second)
    (h' : Precedes second third) : Precedes first third := by
  rcases h with hmore | ⟨heq, hbefore⟩ <;> rcases h' with hmore' | ⟨heq', hbefore'⟩
  · exact Or.inl (hmore'.trans hmore)
  · exact Or.inl (heq' ▸ hmore)
  · exact Or.inl (heq ▸ hmore')
  · exact Or.inr ⟨heq.trans heq', hbefore.trans hbefore'⟩

instance : Std.Total (Resumes hasActiveCycle) where
  total first second := by
    cases hfirst : hasActiveCycle first <;> cases hsecond : hasActiveCycle second <;>
      simp [Resumes, hfirst, hsecond, precedes_total]

instance : IsTrans Project (Resumes hasActiveCycle) where
  trans first second third h h' := by
    rcases h with ⟨hactive, hidle⟩ | ⟨hsame, hbefore⟩ <;>
      rcases h' with ⟨hactive', hidle'⟩ | ⟨hsame', hbefore'⟩
    · exact Or.inl ⟨hactive, hidle'⟩
    · exact Or.inl ⟨hactive, hsame' ▸ hidle⟩
    · exact Or.inl ⟨hsame ▸ hactive', hidle'⟩
    · exact Or.inr ⟨hsame.trans hsame', hbefore.trans hbefore'⟩

theorem registered_named (configured : List Project) : (registered configured).keys.Nodup ∧
    ∀ id project, (registered configured).get? id = some project → project.projectId = id := by
  have hfold : ∀ projects : Dict Project, (projects.keys.Nodup ∧
      ∀ id project, projects.get? id = some project → project.projectId = id) →
      ((configured.foldl (fun projects item => Dict.insert projects item.projectId item)
        projects).keys.Nodup ∧ ∀ id project, (configured.foldl (fun projects item =>
          Dict.insert projects item.projectId item) projects).get? id = some project →
            project.projectId = id) := by
    induction configured with
    | nil => exact fun projects h => h
    | cons item rest ih =>
        intro projects h
        refine ih _ ⟨Dict.nodup_keys_insert h.1 _ _, fun id project hfound => ?_⟩
        rw [Dict.get?_insert] at hfound
        split at hfound
        · rename_i hid
          cases hfound
          exact hid.symm
        · exact h.2 id project hfound
  exact hfold [] ⟨List.nodup_nil, fun id project hfound => by cases hfound⟩

theorem perm_submitted : (submitted hasActiveCycle (enabledProjects configured)).Perm
    (((registered configured).map Prod.snd).filter fun item => item.enabled) := by
  refine (List.perm_insertionSort _ _).trans ?_
  refine ((List.perm_insertionSort _ _).filter _).trans ?_
  rw [List.filter_filter]
  simp

theorem nodup_submitted :
    ((submitted hasActiveCycle (enabledProjects configured)).map Project.projectId).Nodup := by
  obtain ⟨hnodup, hnamed⟩ := registered_named configured
  have hids : ((registered configured).map Prod.snd).map Project.projectId =
      (registered configured).keys := by
    rw [List.map_map, Dict.keys]
    refine List.map_congr_left fun item hitem => ?_
    exact hnamed item.1 item.2 (Dict.get?_of_mem hnodup hitem)
  refine (perm_submitted.map _).nodup_iff.mpr ?_
  exact (hids ▸ hnodup).sublist (List.filter_sublist.map _)

theorem mem_submitted : project ∈ submitted hasActiveCycle (enabledProjects configured) ↔
    project.enabled = true ∧ (registered configured).get? project.projectId = some project := by
  obtain ⟨hnodup, hnamed⟩ := registered_named configured
  rw [perm_submitted.mem_iff, List.mem_filter, List.mem_map, and_comm]
  refine and_congr_right fun _ => ⟨?_, fun hfound => ⟨_, Dict.mem_of_get? hfound, rfl⟩⟩
  rintro ⟨⟨id, found⟩, hmem, rfl⟩
  have hfound := Dict.get?_of_mem hnodup hmem
  rwa [hnamed id found hfound]

/-! ### The results -/

/-- The worker's result, or what is collected for its exception, names its project. -/
def NamesItself (worker : Project → Worked) (project : Project) : Prop :=
  (resultOf worker project).get "project_id" = .str project.projectId

instance (worker : Project → Worked) : DecidablePred (NamesItself worker) :=
  fun _ => inferInstanceAs (Decidable (_ = _))

theorem placeOf_getElem (hdistinct : (ordered.map Project.projectId).Nodup) {i : Nat}
    (hi : i < ordered.length) (hnames : NamesItself worker ordered[i]) :
    placeOf P ordered (resultOf worker ordered[i]) = i := by
  have hkeys : ordered.zipIdx.map (fun item => item.1.projectId) =
      ordered.map Project.projectId := by
    rw [← List.zipIdx_map_fst 0 ordered, List.map_map, List.zipIdx_map_fst]
    rfl
  have hitem : (ordered[i], i) ∈ ordered.zipIdx :=
    List.mk_mem_zipIdx_iff_getElem?.mpr (List.getElem?_eq_getElem hi)
  have hplace : (order ordered).get? ordered[i].projectId = some i :=
    Dict.get?_foldl_insert_of_mem (hkeys ▸ hdistinct) hitem []
  rw [placeOf, hnames, Platform.str_str, hplace]
  rfl

instance : Std.Total (Before P ordered) where
  total first second := le_total (placeOf P ordered first) (placeOf P ordered second)

instance : IsTrans Fields (Before P ordered) where
  trans _ _ _ h h' := Nat.le_trans h h'

theorem perm_run (hcompleted : completed.Perm ordered) :
    (run P worker ordered completed).Perm (ordered.map (resultOf worker)) :=
  (List.perm_insertionSort _ _).trans (hcompleted.map _)

/-- Results that name their projects stand in the order of the projects. -/
theorem run_eq (hdistinct : (ordered.map Project.projectId).Nodup)
    (hnames : ∀ project ∈ ordered, NamesItself worker project)
    (hcompleted : completed.Perm ordered) :
    run P worker ordered completed = ordered.map (resultOf worker) := by
  have hplace {i : Nat} (hi : i < ordered.length) :
      placeOf P ordered (resultOf worker ordered[i]) = i :=
    placeOf_getElem hdistinct hi (hnames _ (List.getElem_mem hi))
  have hsorted : (ordered.map (resultOf worker)).Pairwise (Before P ordered) := by
    rw [List.pairwise_iff_getElem]
    intro i j hi hj hless
    rw [List.length_map] at hi hj
    rw [List.getElem_map, List.getElem_map, Before, hplace hi, hplace hj]
    exact hless.le
  refine List.Perm.eq_of_pairwise ?_ (List.pairwise_insertionSort _ _) hsorted
    (perm_run hcompleted)
  intro first second hfirst hsecond h h'
  -- only one project has the place
  obtain ⟨i, hi, rfl⟩ := List.getElem_of_mem ((perm_run hcompleted).mem_iff.mp hfirst)
  obtain ⟨j, hj, rfl⟩ := List.getElem_of_mem hsecond
  rw [List.length_map] at hi hj
  rw [List.getElem_map, List.getElem_map, Before, hplace hi, hplace hj] at h h'
  obtain rfl := le_antisymm h h'
  rfl

/-- The projects that a portfolio run submits: of each identifier the project that is registered
    last, if it is enabled, and first those that are in a cycle. -/
structure Submitted (hasActiveCycle : Project → Bool) (configured ordered : List Project) :
    Prop where
  once : (ordered.map Project.projectId).Nodup
  enabled : ∀ project, project ∈ ordered ↔
    project.enabled = true ∧ (registered configured).get? project.projectId = some project
  resumed : ordered.Pairwise (Resumes hasActiveCycle)

/-- Whatever workers fail and in whatever order they complete, every submitted project has its one
    result; where the results name their projects, they stand in the order of submission. -/
theorem portfolio_run (P : Platform) (hasActiveCycle : Project → Bool) (configured : List Project)
    (worker : Project → Worked) (completed : List Project)
    (hcompleted : completed.Perm (submitted hasActiveCycle (enabledProjects configured))) :
    let ordered := submitted hasActiveCycle (enabledProjects configured)
    Submitted hasActiveCycle configured ordered ∧
      (run P worker ordered completed).Perm (ordered.map (resultOf worker)) ∧
      ((∀ project ∈ ordered, NamesItself worker project) →
        run P worker ordered completed = ordered.map (resultOf worker)) := by
  intro ordered
  refine ⟨⟨nodup_submitted, fun project => mem_submitted, ?_⟩, perm_run hcompleted, ?_⟩
  · exact List.pairwise_insertionSort _ _
  · exact fun hnames => run_eq nodup_submitted hnames hcompleted

/-- A worker fails, and the other one completes first. -/
theorem portfolio_run_failed :
    run .reference (fun project => if project.priority = 1 then .raised "gone"
        else .returned [("project_id", .str project.projectId)])
      [⟨"a", true, 1⟩, ⟨"b", true, 0⟩] [⟨"b", true, 0⟩, ⟨"a", true, 1⟩] =
    [Fields.ofPairs [("project_id", .str "a"), ("outcome", .str "conveyor_error"),
      ("error", .str "gone")], [("project_id", .str "b")]] :=
  (portfolio_run .reference (fun _ => false) [⟨"b", true, 0⟩, ⟨"a", true, 1⟩] _
    [⟨"b", true, 0⟩, ⟨"a", true, 1⟩] (by decide)).2.2 (by decide)

end PortfolioScheduler

end Conveyor
