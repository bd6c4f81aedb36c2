import Conveyor.DependencyGates
import Conveyor.Library.Settled

/-!
# Cycles among dependencies

The check that the dependencies of a queue have no cycle (`feature_scoping.py`): a depth-first
search that raises where it comes back to a feature it has not finished with.
`assert_acyclic_iff` states that it raises exactly where there is a cycle, and that it otherwise
finishes with the features in an order in which dependencies come first.
-/

namespace Conveyor

open Library Relation

namespace DependencyCycles

/-! ### The search -/

/-- `{str(feature["id"]): tuple(str(item) for item in feature.get("dependencies", []))}`. -/
def dependencyMap (P : Platform) (features : List Fields) : Dict (List String) :=
  features.foldl (fun known feature => known.insert (P.str (feature.get "id"))
    (match feature.get "dependencies" with
      | .arr items => items.map P.str
      | _ => [])) []

/-- The features that the search has not entered. -/
def notEntered (dependencies : Dict (List String)) (path : List String) : List String :=
  dependencies.keys.filter (· ∉ path)

theorem notEntered_lt {dependencies : Dict (List String)} {path : List String} {id : String}
    {items : List String} (hknown : dependencies.get? id = some items) (hnew : id ∉ path) :
    (notEntered dependencies (path ++ [id])).length < (notEntered dependencies path).length := by
  have hkey : id ∈ dependencies.keys := by
    by_contra hnot
    rw [Dict.get?_eq_none.mpr hnot] at hknown
    cases hknown
  have hsub : (notEntered dependencies (path ++ [id])).Sublist
      ((notEntered dependencies path).filter (· ≠ id)) := by
    rw [notEntered, notEntered, List.filter_filter]
    have hsame : dependencies.keys.filter (· ∉ path ++ [id]) =
        dependencies.keys.filter fun other => decide (other ≠ id) && decide (other ∉ path) := by
      refine List.filter_congr fun other _ => ?_
      simp [and_comm]
    rw [hsame]
  refine hsub.length_le.trans_lt ?_
  rw [List.length_filter_lt_length_iff_exists]
  exact ⟨id, List.mem_filter.mpr ⟨hkey, by simpa using hnew⟩, by simp⟩

mutual

/-- `visit`, with the features it has finished with, newest first. The features being visited are
those of the path: each is entered with the path and left with the loop over its dependencies. -/
def visit (dependencies : Dict (List String)) (path visited : List String) (featureId : String) :
    Result (List String) :=
  if _ : featureId ∈ path then
    .error (queueError
      ("feature dependency cycle detected: " ++ " -> ".intercalate (path ++ [featureId])))
  else if featureId ∈ visited then .ok visited
  else
    match _ : dependencies.get? featureId with
    | none => .error ⟨.keyError, featureId⟩
    | some items => do
        let visited ← visitEach dependencies (path ++ [featureId]) visited items
        return featureId :: visited
termination_by ((notEntered dependencies path).length, 0)
decreasing_by exact Prod.Lex.left _ _ (notEntered_lt ‹_› ‹_›)

def visitEach (dependencies : Dict (List String)) (path visited : List String) :
    List String → Result (List String)
  | [] => .ok visited
  | dependency :: rest => do
      let visited ← visit dependencies path visited dependency
      visitEach dependencies path visited rest
termination_by items => ((notEntered dependencies path).length, items.length + 1)
decreasing_by
  · exact Prod.Lex.right _ (by simp)
  · exact Prod.Lex.right _ (by simp)

end

/-- `_assert_acyclic`, with the order in which it finishes with the features. -/
def assertAcyclic (P : Platform) (queue : FeatureQueue) : Result (List String) :=
  let dependencies := dependencyMap P queue.features
  visitEach dependencies [] [] dependencies.keys

/-! ### What the search finds -/

/-- The dictionary lists the second among the dependencies of the first. -/
def Lists (dependencies : Dict (List String)) (first second : String) : Prop :=
  ∃ items, dependencies.get? first = some items ∧ second ∈ items

/-- The search finished with more features than before, none of them on the path. -/
structure Finishes (dependencies : Dict (List String)) (path visited finished : List String) :
    Prop where
  settled : Settled (Lists dependencies) finished
  grows : visited ⊆ finished
  offPath : ∀ id ∈ finished, id ∈ visited ∨ id ∉ path

/-- What a search says: it finishes with what it was to visit, or there is a cycle. -/
def Answers (dependencies : Dict (List String)) (path visited wanted : List String) :
    Result (List String) → Prop
  | .ok finished => Finishes dependencies path visited finished ∧ wanted ⊆ finished
  | .error failure => failure.kind = .queueError ∧ Cyclic (Lists dependencies)

section

variable {dependencies : Dict (List String)}

theorem Finishes.refl {path visited : List String} (h : Settled (Lists dependencies) visited) :
    Finishes dependencies path visited visited :=
  ⟨h, fun _ => id, fun _ hid => Or.inl hid⟩

theorem Finishes.trans {path visited middle finished : List String}
    (h : Finishes dependencies path visited middle)
    (h' : Finishes dependencies path middle finished) :
    Finishes dependencies path visited finished := by
  refine ⟨h'.settled, fun id hid => h'.grows (h.grows hid), fun id hid => ?_⟩
  rcases h'.offPath id hid with hmiddle | hoff
  · exact h.offPath id hmiddle
  · exact Or.inr hoff

/-- A feature is finished with when all its dependencies are. -/
theorem Finishes.cons {path visited finished items : List String} {id : String}
    (h : Finishes dependencies (path ++ [id]) visited finished)
    (hknown : dependencies.get? id = some items) (hitems : items ⊆ finished)
    (hpath : id ∉ path) (hnew : id ∉ visited) :
    Finishes dependencies path visited (id :: finished) := by
  refine ⟨⟨?_, ?_, h.settled⟩, fun other hother => List.mem_cons_of_mem _ (h.grows hother), ?_⟩
  · intro hmem
    rcases h.offPath id hmem with hvisited | hoff
    · exact hnew hvisited
    · exact hoff (by simp)
  · rintro other ⟨found, hfound, hother⟩
    rw [hknown] at hfound
    cases hfound
    exact hitems hother
  · intro other hother
    rcases List.mem_cons.mp hother with rfl | hother
    · exact Or.inr hpath
    · rcases h.offPath other hother with hvisited | hoff
      · exact Or.inl hvisited
      · exact Or.inr fun hmem => hoff (by simp [hmem])

/-- A feature that is entered is finished with after its dependencies. -/
theorem visit_of_new {path visited items : List String} {id : String} (hpath : id ∉ path)
    (hvisited : id ∉ visited) (hitems : dependencies.get? id = some items) :
    visit dependencies path visited id =
      (visitEach dependencies (path ++ [id]) visited items).map (id :: ·) := by
  rw [visit, dif_neg hpath, if_neg hvisited]
  split
  · rename_i hnone
    rw [hitems] at hnone
    cases hnone
  · rename_i found hfound
    rw [hitems] at hfound
    cases hfound
    rfl

/-- The induction follows the calls; what is being visited is a chain of dependencies. -/
theorem visit_answers (hclosed : ∀ first second, Lists dependencies first second →
      second ∈ dependencies.keys) :
    (∀ path visited id, Settled (Lists dependencies) visited →
      List.IsChain (Lists dependencies) (path ++ [id]) → id ∈ dependencies.keys →
      Answers dependencies path visited [id] (visit dependencies path visited id)) ∧
    (∀ path visited items, Settled (Lists dependencies) visited →
      (∀ item ∈ items, List.IsChain (Lists dependencies) (path ++ [item]) ∧
        item ∈ dependencies.keys) →
      Answers dependencies path visited items (visitEach dependencies path visited items)) := by
  apply visit.mutual_induct
  case case1 =>
    intro path visited id hpath hsettled hchain hkey
    rw [visit, dif_pos hpath]
    exact ⟨rfl, cyclic_of_chain hchain hpath⟩
  case case2 =>
    intro path visited id hpath hvisited hsettled hchain hkey
    rw [visit, dif_neg hpath, if_pos hvisited]
    exact ⟨Finishes.refl hsettled, by simpa using hvisited⟩
  case case3 =>
    intro path visited id hpath hvisited hunknown hsettled hchain hkey
    exact absurd hkey (Dict.get?_eq_none.mp hunknown)
  case case4 =>
    intro path visited id hpath hvisited items hitems ih hsettled hchain hkey
    have hloop := ih hsettled fun item hitem => by
      have hlists : Lists dependencies id item := ⟨items, hitems, hitem⟩
      refine ⟨?_, hclosed id item hlists⟩
      exact hchain.append (List.isChain_singleton item) (by simpa using hlists)
    rw [visit_of_new hpath hvisited hitems]
    cases hanswer : visitEach dependencies (path ++ [id]) visited items with
    | error failure =>
        rw [hanswer] at hloop
        exact hloop
    | ok finished =>
        rw [hanswer] at hloop
        exact ⟨hloop.1.cons hitems hloop.2 hpath hvisited, by simp⟩
  case case5 =>
    intro path visited hsettled _
    rw [visitEach]
    exact ⟨Finishes.refl hsettled, by simp⟩
  case case6 =>
    intro path visited dependency rest ihfirst ihrest hsettled hitems
    rw [visitEach]
    have hfirst := ihfirst hsettled (hitems dependency (by simp)).1 (hitems dependency (by simp)).2
    cases hanswer : visit dependencies path visited dependency with
    | error failure =>
        rw [hanswer] at hfirst
        exact hfirst
    | ok middle =>
        rw [hanswer] at hfirst
        have hrest := ihrest middle hfirst.1.settled fun item hitem =>
          hitems item (List.mem_cons_of_mem _ hitem)
        change Answers dependencies path visited (dependency :: rest)
          (visitEach dependencies path middle rest)
        cases hlast : visitEach dependencies path middle rest with
        | error failure =>
            rw [hlast] at hrest
            exact hrest
        | ok finished =>
            rw [hlast] at hrest
            refine ⟨hfirst.1.trans hrest.1, ?_⟩
            rw [List.cons_subset]
            exact ⟨hrest.1.grows (hfirst.2 (by simp)), hrest.2⟩

end

/-! ### The queue's dependencies -/

/-- The queue's feature of the first identifier depends on the second. -/
def DependsOn (queue : FeatureQueue) (id dependencyId : String) : Prop :=
  ∃ feature ∈ queue.features, feature.get "id" = .str id ∧
    dependencyId ∈ FeatureQueue.dependencyIds feature

section

variable {site : QueueSite} {document : Fields} {queue : FeatureQueue}

/-- The features' identifiers stay apart as texts. -/
theorem ids_nodup (h : QueueRead site document queue) (P : Platform) :
    (queue.features.map fun feature => P.str (feature.get "id")).Nodup := by
  refine List.Nodup.of_map Json.str ?_
  rw [List.map_map]
  have hsame : queue.features.map (Json.str ∘ fun feature => P.str (feature.get "id")) =
      queue.features.map fun feature => feature.get "id" := by
    apply List.map_congr_left
    intro feature hfeature
    obtain ⟨_, raw, parts, _, _, _, rfl⟩ := h.feature_copy hfeature
    simp
  rw [hsame]
  exact h.featureIds

theorem dependencyMap_of_mem (h : QueueRead site document queue) (P : Platform)
    {feature : Fields} (hfeature : feature ∈ queue.features) {id : String}
    (hid : feature.get "id" = .str id) :
    (dependencyMap P queue.features).get? id = some (FeatureQueue.dependencyIds feature) := by
  have hget : (dependencyMap P queue.features).get? (P.str (feature.get "id")) = some _ :=
    Dict.get?_foldl_insert_of_mem (ids_nodup h P) hfeature []
  rw [hid, P.str_str] at hget
  refine hget.trans (congrArg some ?_)
  obtain ⟨_, raw, parts, _, _, _, rfl⟩ := h.feature_copy hfeature
  rw [parts.get_copy_dependencies, dependencyIds_copy]
  simp [Function.comp_def]

theorem mem_keys_dependencyMap (h : QueueRead site document queue) (P : Platform) {id : String} :
    id ∈ (dependencyMap P queue.features).keys ↔
      ∃ feature ∈ queue.features, feature.get "id" = .str id := by
  constructor
  · intro hkey
    by_contra hnone
    refine Dict.get?_eq_none.mp ?_ hkey
    refine Dict.get?_foldl_insert_of_not_mem ?_ []
    intro hmem
    obtain ⟨feature, hfeature, hid⟩ := List.mem_map.mp hmem
    refine hnone ⟨feature, hfeature, ?_⟩
    obtain ⟨_, raw, parts, _, _, _, rfl⟩ := h.feature_copy hfeature
    rw [parts.get_copy_id, P.str_str] at hid
    rw [parts.get_copy_id, hid]
  · rintro ⟨feature, hfeature, hid⟩
    by_contra hnone
    have hget := dependencyMap_of_mem h P hfeature hid
    rw [Dict.get?_eq_none.mpr hnone] at hget
    cases hget

theorem lists_iff (h : QueueRead site document queue) (P : Platform) {id dependencyId : String} :
    Lists (dependencyMap P queue.features) id dependencyId ↔
      DependsOn queue id dependencyId := by
  constructor
  · rintro ⟨items, hitems, hdependency⟩
    have hkey : id ∈ (dependencyMap P queue.features).keys := by
      by_contra hnone
      rw [Dict.get?_eq_none.mpr hnone] at hitems
      cases hitems
    obtain ⟨feature, hfeature, hid⟩ := (mem_keys_dependencyMap h P).mp hkey
    rw [dependencyMap_of_mem h P hfeature hid] at hitems
    cases hitems
    exact ⟨feature, hfeature, hid, hdependency⟩
  · rintro ⟨feature, hfeature, hid, hdependency⟩
    exact ⟨_, dependencyMap_of_mem h P hfeature hid, hdependency⟩

/-- What a feature depends on is a feature of the queue. -/
theorem lists_closed (h : QueueRead site document queue) (P : Platform) (id dependencyId : String)
    (hlists : Lists (dependencyMap P queue.features) id dependencyId) :
    dependencyId ∈ (dependencyMap P queue.features).keys := by
  obtain ⟨feature, hfeature, _, hdependency⟩ := (lists_iff h P).mp hlists
  obtain ⟨other, hother, hid⟩ := List.mem_map.mp (h.known feature hfeature _ hdependency)
  exact (mem_keys_dependencyMap h P).mpr ⟨other, hother, hid⟩

/-- An order of everything that a feature depends on, directly or not, dependencies first. -/
structure DependencyOrder (queue : FeatureQueue) (id : String) (order : List String) : Prop where
  once : order.Nodup
  exact : ∀ other, other ∈ order ↔ TransGen (DependsOn queue) id other
  earlier : order.Pairwise fun earlier later => ¬DependsOn queue earlier later

/-- The search's own order, read from its end and cut down to what a feature depends on. -/
theorem dependencyOrder_of_settled {finished : List String}
    (h : Settled (DependsOn queue) finished) {id : String} (hid : id ∈ finished) :
    ∃ order, DependencyOrder queue id order := by
  classical
  refine ⟨finished.reverse.filter fun other => TransGen (DependsOn queue) id other, ?_, ?_, ?_⟩
  · exact (List.nodup_reverse.mpr h.nodup).filter _
  · intro other
    rw [List.mem_filter, List.mem_reverse, decide_eq_true_eq]
    exact ⟨And.right, fun hother => ⟨h.reached hid hother, hother⟩⟩
  · exact h.pairwise_reverse.sublist List.filter_sublist

/-- Cycles are found exactly. In every queue that was accepted the search comes to an end; it
    raises a queue error where features depend on each other in a circle, a feature on itself
    included, and raises nothing else; where it returns, what any feature depends on has an order
    in which dependencies come first. -/
theorem assert_acyclic_iff (P : Platform)
    (hqueue : FeatureQueue.ofFields site document = .ok queue) :
    ((∃ message, assertAcyclic P queue = .error (queueError message)) ↔
      Cyclic (DependsOn queue)) ∧
    (∀ failure, assertAcyclic P queue = .error failure → failure.kind = .queueError) ∧
    ∀ finished, assertAcyclic P queue = .ok finished →
      ∀ feature ∈ queue.features, ∀ id, feature.get "id" = .str id →
        ∃ order, DependencyOrder queue id order := by
  have h := ofFields_eq_ok.mp hqueue
  have hrelation : Lists (dependencyMap P queue.features) = DependsOn queue := by
    funext id dependencyId
    exact propext (lists_iff h P)
  have hanswer := (visit_answers (lists_closed h P)).2 [] []
    (dependencyMap P queue.features).keys trivial fun item hitem =>
      ⟨List.isChain_singleton item, hitem⟩
  change Answers _ _ _ _ (assertAcyclic P queue) at hanswer
  cases hresult : assertAcyclic P queue with
  | error failure =>
      rw [hresult] at hanswer
      obtain ⟨hkind, hcycle⟩ := hanswer
      rw [hrelation] at hcycle
      obtain ⟨kind, message⟩ := failure
      cases hkind
      refine ⟨⟨fun _ => hcycle, fun _ => ⟨message, rfl⟩⟩, ?_, fun _ hreturned => ?_⟩
      · intro failure hfailure
        cases hfailure
        rfl
      · cases hreturned
  | ok finished =>
      rw [hresult] at hanswer
      obtain ⟨hfinishes, hall⟩ := hanswer
      have hsettled := hfinishes.settled
      rw [hrelation] at hsettled
      refine ⟨⟨fun hraised => ?_, fun hcycle => ?_⟩, fun _ hraised => ?_, ?_⟩
      · obtain ⟨message, hmessage⟩ := hraised
        cases hmessage
      · -- The features on a circle are features of the queue, and none of them reaches itself.
        obtain ⟨id, hid⟩ := hcycle
        obtain ⟨next, ⟨feature, hfeature, hown, _⟩, _⟩ := TransGen.head'_iff.mp hid
        have hkey := (mem_keys_dependencyMap h P).mpr ⟨feature, hfeature, hown⟩
        exact absurd hid (hsettled.irreflexive (hall hkey))
      · cases hraised
      · intro _ _ feature hfeature id hid
        exact dependencyOrder_of_settled hsettled
          (hall ((mem_keys_dependencyMap h P).mpr ⟨feature, hfeature, hid⟩))

/-- A queue of a feature that depends on another, and of this other. -/
def pairQueue (dependencies : List String) : Fields :=
  [("features", .arr
      [.obj [("id", .str "F2"), ("milestone", .str "M1"), ("status", .str "ready"),
         ("dependencies", .arr [.str "F1"])],
       .obj [("id", .str "F1"), ("milestone", .str "M1"), ("status", .str "ready"),
         ("dependencies", .arr (dependencies.map Json.str))]]),
   ("milestones", .arr [.obj [("id", .str "M1")]])]

/-- Where the two depend on each other the search raises; otherwise it finishes with the
    dependency first. -/
theorem assert_acyclic_pairs :
    ∃ apart circle,
      FeatureQueue.ofFields .plain (pairQueue []) = .ok apart ∧
      FeatureQueue.ofFields .plain (pairQueue ["F2"]) = .ok circle ∧
      (∃ order, DependencyOrder apart "F2" order) ∧
      ∃ message, assertAcyclic .reference circle = .error (queueError message) := by
  obtain ⟨apart, hapart⟩ : ∃ apart, FeatureQueue.ofFields .plain (pairQueue []) = .ok apart :=
    ⟨_, rfl⟩
  obtain ⟨circle, hcircle⟩ : ∃ circle,
      FeatureQueue.ofFields .plain (pairQueue ["F2"]) = .ok circle := ⟨_, rfl⟩
  refine ⟨apart, circle, hapart, hcircle, ?_, ?_⟩
  · have hmap : dependencyMap .reference apart.features = [("F2", ["F1"]), ("F1", [])] := by
      cases hapart
      decide +kernel
    have hreturned : assertAcyclic .reference apart = .ok ["F2", "F1"] := by
      have hsecond : visit [("F2", ["F1"]), ("F1", [])] ["F2"] [] "F1" = .ok ["F1"] := by
        rw [@visit_of_new _ _ _ [] _ (by simp) (by simp) rfl, visitEach]
        rfl
      have hfirst : visit [("F2", ["F1"]), ("F1", [])] [] [] "F2" = .ok ["F2", "F1"] := by
        rw [@visit_of_new _ _ _ ["F1"] _ (by simp) (by simp) rfl, visitEach, List.nil_append,
          hsecond, ok_bind, visitEach]
        rfl
      have hagain : visit [("F2", ["F1"]), ("F1", [])] [] ["F2", "F1"] "F1" =
          .ok ["F2", "F1"] := by
        rw [visit, dif_neg (by simp), if_pos (by simp)]
      rw [assertAcyclic, hmap]
      simp only [Dict.keys, List.map_cons, List.map_nil, visitEach, hfirst, ok_bind, hagain]
    have hfeature : ∃ feature ∈ apart.features, feature.get "id" = .str "F2" := by
      cases hapart
      exact ⟨_, List.mem_cons_self, by decide +kernel⟩
    obtain ⟨feature, hmem, hid⟩ := hfeature
    exact (assert_acyclic_iff .reference hapart).2.2 _ hreturned feature hmem "F2" hid
  · have hboth : DependsOn circle "F2" "F1" ∧ DependsOn circle "F1" "F2" := by
      cases hcircle
      exact ⟨⟨_, List.mem_cons_self, by decide +kernel, by decide +kernel⟩,
        ⟨_, List.mem_cons_of_mem _ List.mem_cons_self, by decide +kernel, by decide +kernel⟩⟩
    exact (assert_acyclic_iff .reference hcircle).1.mpr
      ⟨"F2", TransGen.tail (TransGen.single hboth.1) hboth.2⟩

end

end DependencyCycles

end Conveyor
