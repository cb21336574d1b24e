import FieldQuery.Proofs.Execution.CallOrder

/-!
# Calls along an execution

An execution walks through the query and the graph, and makes its calls in the order of their
addresses on the way. The induction follows the recursion of the execution: a trail of entered
nodes leads to the node at hand, and a bound separates the calls made from those to come.
-/

set_option autoImplicit false

namespace FieldQuery.Execution

open Query DataGraph
open FieldQuery.Execution.Computation

variable {State Node : Type} {graph : DataGraph State Node} {query : List Selection}
  {before : State} {trail above : List (Visit Node)} {visit : Visit Node}
  {limit : DepthLimit} {path : Path} {depth : Nat}

theorem field?_observing_hooked (visit : Visit Node) (name : String) :
    (graph.hooked.observing.view visit).field? name =
      ((graph.view visit.node).field? name).map (Field.observed visit name) := rfl

/-- The resolver of a scalar, if there is one, is called on its node. -/
theorem standing_scalar (covers : Covers trail visit) {index : Nat} {name : String}
    (first : (askedAt query visit.place).find? (fun other => other.name == name) =
      some (.leaf name))
    (ranked : rank (askedAt query visit.place) name = index) {stored : Value}
    {resolver : Option (StateM State (Resolution Value))}
    (declared : (graph.view visit.node).field? name = some (.scalar stored resolver))
    {now : Observed State Node}
    (standing :
      Standing graph query before trail (placeAddress query visit.place ++ [index]) now) :
    Standing graph query before trail (placeAddress query visit.place ++ [index + 1])
      ((supply stored
        (resolver.map (observed fun _ => (⟨visit, .scalar name⟩ : Event Node)))).run now).2 := by
  have onwards := append_lt_of_lt (placeAddress query visit.place) (Nat.lt_succ_self index) [] []
  cases resolver with
  | none => exact standing.later onwards
  | some resolve =>
      obtain ⟨state, events⟩ := now
      let event : Event Node := ⟨visit, .scalar name⟩
      have atRank : address query event = placeAddress query visit.place ++ [index] := by
        rw [← ranked]
        rfl
      have left : graph.leaves state event = (resolve.run state).2 := by
        simp only [DataGraph.leaves, event, declared]
      rw [← atRank] at standing onwards
      have called := standing.call covers first rfl onwards
      rw [left] at called
      exact called

/-- The resolver of a collection, if there is one, is called on its node, and gives the children
to be entered from the first one on. -/
theorem standing_collection (covers : Covers trail visit) {index : Nat} {name : String}
    {arguments : Arguments} {nested : List Selection}
    (first : (askedAt query visit.place).find? (fun other => other.name == name) =
      some (.branch name arguments nested))
    (ranked : rank (askedAt query visit.place) name = index) {stored : List Node}
    {resolver : Option (Arguments → StateM State (Resolution (List Node)))}
    (declared : (graph.view visit.node).field? name = some (.collection stored resolver))
    {now : Observed State Node}
    (standing :
      Standing graph query before trail (placeAddress query visit.place ++ [index]) now) :
    let resolved := (supply (visit.children name stored)
      ((resolver.map (Field.observedNodes visit name)).map fun resolve => resolve arguments)).run now
    (∃ nodes, resolved.1 = visit.children name nodes) ∧
      Standing graph query before trail (placeAddress query visit.place ++ [index, 0])
        resolved.2 := by
  intro resolved
  have onwards : placeAddress query visit.place ++ [index] <
      placeAddress query visit.place ++ [index, 0] := by
    simpa using lt_append_cons (placeAddress query visit.place ++ [index]) 0 []
  cases resolver with
  | none => exact ⟨⟨stored, rfl⟩, standing.later onwards⟩
  | some resolve =>
      obtain ⟨state, events⟩ := now
      let event : Event Node := ⟨visit, .collection name arguments⟩
      have atRank : address query event = placeAddress query visit.place ++ [index] := by
        rw [← ranked]
        rfl
      have left : graph.leaves state event = ((resolve arguments).run state).2 := by
        simp only [DataGraph.leaves, event, declared]
      rw [← atRank] at standing onwards
      have called := standing.call covers ⟨nested, first⟩ rfl onwards
      rw [left] at called
      refine ⟨⟨(((resolve arguments).run state).1).getD stored, ?_⟩, called⟩
      exact Resolution.getD_map (visit.children name) stored _

theorem ensures_evalLevel (covers : Covers (visit :: above) visit) {selections : List Selection}
    (asked : askedAt query visit.place = selections)
    (inside : Ensures
      (Standing graph query before (visit :: above) (placeAddress query visit.place ++ [0]))
      (evalSelections graph.hooked.observing limit path depth visit [] selections)
      (fun _ now => ∃ count, Standing graph query before (visit :: above)
        (placeAddress query visit.place ++ [count]) now)
      (Stopped graph query before)) :
    Ensures (Standing graph query before above (placeAddress query visit.place))
      (evalLevel graph.hooked.observing limit path depth selections visit)
      (fun _ now => ∃ count, Standing graph query before above
        (placeAddress query visit.place ++ [count]) now)
      (Stopped graph query before) := by
  apply (ensures_enter covers asked).bind
  intro _
  apply inside.bind
  intro members
  apply ensures_pure
  rintro now ⟨count, standing⟩
  exact ⟨count, standing.outer⟩

/-- The children that a collection gives are entered in order. -/
theorem ensures_children (covers : Covers trail visit) {index : Nat} {name : String}
    {arguments : Arguments} {nested : List Selection}
    (first : (askedAt query visit.place).find? (fun other => other.name == name) =
      some (.branch name arguments nested))
    (ranked : rank (askedAt query visit.place) name = index) (nodes : List Node)
    (inside : ∀ child, Covers (child :: trail) child → askedAt query child.place = nested →
      Ensures
        (Standing graph query before (child :: trail) (placeAddress query child.place ++ [0]))
        (evalSelections graph.hooked.observing limit path depth child [] nested)
        (fun _ now => ∃ count, Standing graph query before (child :: trail)
          (placeAddress query child.place ++ [count]) now)
        (Stopped graph query before)) :
    Ensures (Standing graph query before trail (placeAddress query visit.place ++ [index, 0]))
      ((visit.children name nodes).mapM
        (evalLevel graph.hooked.observing limit path depth nested))
      (fun _ => Standing graph query before trail
        (placeAddress query visit.place ++ [index, (visit.children name nodes).length]))
      (Stopped graph query before) := by
  apply ensures_mapM fun number => Standing graph query before trail
    (placeAddress query visit.place ++ [index, number])
  intro number child found
  rw [Visit.children, List.getElem?_mapIdx, Option.map_eq_some_iff] at found
  obtain ⟨node, _, rfl⟩ := found
  have coversChild := covers.child node (name, number)
  have asked : askedAt query (visit.place ++ [(name, number)]) = nested := by
    rw [askedAt_append]
    simp only [askedAt, List.foldl_cons, List.foldl_nil] at first ⊢
    rw [askedBelow, first]
  have atChild : placeAddress query (visit.place ++ [(name, number)]) =
      placeAddress query visit.place ++ [index, number] := by
    rw [placeAddress_append, placeAddress, placeAddress, ranked]
  have enters := ensures_evalLevel coversChild asked (inside _ coversChild asked)
  rw [atChild] at enters
  refine enters.weaken ?_ fun _ _ => id
  rintro _ now ⟨count, standing⟩
  apply standing.later
  simpa using append_lt_of_lt (placeAddress query visit.place ++ [index])
    (Nat.lt_succ_self number) [count] []

mutual

theorem ensures_evalSelection {trail : List (Visit Node)} {visit : Visit Node} {path : Path}
    {depth : Nat} (covers : Covers trail visit) {index : Nat} (selection : Selection)
    (first : (askedAt query visit.place).find? (fun other => other.name == selection.name) =
      some selection)
    (ranked : rank (askedAt query visit.place) selection.name = index) :
    Ensures (Standing graph query before trail (placeAddress query visit.place ++ [index]))
      (evalSelection graph.hooked.observing limit path depth visit selection)
      (fun _ => Standing graph query before trail (placeAddress query visit.place ++ [index + 1]))
      (Stopped graph query before) := by
  match selection with
  | .leaf name =>
      rw [evalSelection_leaf, field?_observing_hooked]
      cases declared : (graph.view visit.node).field? name with
      | none => exact ensures_throw fun now standing => standing.stopped nofun
      | some field =>
          cases field with
          | collection stored resolver =>
              exact ensures_throw fun now standing => standing.stopped nofun
          | scalar stored resolver =>
              apply ensures_liftM
              intro now standing
              exact standing_scalar covers first ranked declared standing
  | .branch name arguments nested =>
      rw [evalSelection_branch, field?_observing_hooked]
      cases declared : (graph.view visit.node).field? name with
      | none => exact ensures_throw fun now standing => standing.stopped nofun
      | some field =>
          cases field with
          | scalar stored resolver =>
              exact ensures_throw fun now standing => standing.stopped nofun
          | collection stored resolver =>
              have resolves : Ensures
                  (Standing graph query before trail (placeAddress query visit.place ++ [index]))
                  (liftM (supply (visit.children name stored)
                    ((resolver.map (Field.observedNodes visit name)).map fun resolve =>
                      resolve arguments)))
                  (fun children now => (∃ nodes, children = visit.children name nodes) ∧
                    Standing graph query before trail
                      (placeAddress query visit.place ++ [index, 0]) now)
                  (Stopped graph query before) :=
                ensures_liftM fun now standing =>
                  standing_collection covers first ranked declared standing
              apply resolves.bind
              intro children
              apply ensures_of_fact
              rintro ⟨nodes, rfl⟩
              refine Ensures.bind (ensures_children covers first ranked nodes ?_) ?_
              · intro child coversChild asked
                exact ensures_evalSelections coversChild [] [] (by simp) nested (by rw [asked]; rfl)
              · intro items
                apply ensures_pure
                intro now standing
                exact standing.later (append_lt_of_lt _ (Nat.lt_succ_self index) _ _)

theorem ensures_evalSelections {trail : List (Visit Node)} {visit : Visit Node} {path : Path}
    {depth : Nat} (covers : Covers trail visit) (done : List Selection) (seen : List String)
    (sameNames : ∀ name, name ∈ seen ↔ name ∈ done.map Selection.name)
    (rest : List Selection)
    (split : firsts (askedAt query visit.place) = done ++ firstsBeyond seen rest) :
    Ensures (Standing graph query before trail (placeAddress query visit.place ++ [done.length]))
      (evalSelections graph.hooked.observing limit path depth visit seen rest)
      (fun _ now => ∃ count,
        Standing graph query before trail (placeAddress query visit.place ++ [count]) now)
      (Stopped graph query before) := by
  match rest with
  | [] =>
      rw [evalSelections_nil]
      exact ensures_pure fun now standing => ⟨done.length, standing⟩
  | selection :: rest =>
      by_cases known : selection.name ∈ seen
      · rw [firstsBeyond_of_seen known] at split
        rw [evalSelections_of_seen known]
        exact ensures_evalSelections covers done seen sameNames rest split
      · rw [firstsBeyond_of_new known] at split
        rw [evalSelections_of_new known]
        have new : selection.name ∉ done.map Selection.name :=
          fun member => known ((sameNames _).mpr member)
        apply (ensures_evalSelection covers selection (find?_of_firsts split)
          (rank_of_firsts split new)).bind
        intro value
        have behind : (done ++ [selection]).length = done.length + 1 := List.length_append
        rw [← behind]
        apply (ensures_evalSelections covers (done ++ [selection]) (selection.name :: seen)
          (by simp [sameNames, or_comm]) rest (by simpa using split)).bind
        intro members
        exact ensures_pure fun now standing => standing

end

/-- How an execution may end on the graph in which every node has a hook. -/
theorem ends_execute (graph : DataGraph State Node) (limit : DepthLimit) (query : List Selection)
    (root : Node) (before : State) :
    Ends (fun _ now => Orderly graph query before now ∧ ∀ event ∈ now.2, event.call.refusal? = none)
      (Stopped graph query before)
      (watch graph.hooked limit query root before) := by
  have atRoot : Standing graph query before [] (placeAddress query (Visit.root root).place)
      (before, []) :=
    ⟨⟨nofun, .nil, nofun, rfl⟩, nofun, nofun, nofun⟩
  have ensures : Ensures
      (Standing graph query before [] (placeAddress query (Visit.root root).place))
      (execute graph.hooked.observing limit query (Visit.root root))
      (fun _ now => ∃ count, Standing graph query before []
        (placeAddress query (Visit.root root).place ++ [count]) now)
      (Stopped graph query before) :=
    ensures_evalLevel (covers_root root) rfl
      (ensures_evalSelections (covers_root root) [] [] (by simp) query rfl)
  refine ensures.weaken ?_ (fun _ _ => id) _ atRoot
  rintro _ now ⟨count, standing⟩
  exact ⟨standing.orderly, standing.accepted⟩

/-- However an execution ends, its calls are in order. -/
theorem orderly_execute (graph : DataGraph State Node) (limit : DepthLimit)
    (query : List Selection) (root : Node) (before : State) :
    Orderly graph query before (watch graph.hooked limit query root before).2 := by
  have ends := ends_execute graph limit query root before
  generalize watch graph.hooked limit query root before = record at ends
  cases ends with
  | ok holds => exact holds.1
  | error stopped => exact stopped.orderly

/-- The state behind an execution is what its calls leave, one after another. -/
theorem state_eq_replay (graph : DataGraph State Node) (limit : DepthLimit)
    (query : List Selection) (root : Node) (before : State) :
    ((execute graph limit query root).outcome before).2 =
      graph.replay before (watch graph.hooked limit query root before).2.2 := by
  obtain ⟨_, _, plain⟩ := watch_eq graph limit query root before
  have seen := watch_eq_of_hooked graph limit query root before
  rw [plain] at seen
  have same : ((execute graph limit query root).outcome before).2 =
      (watch graph.hooked limit query root before).2.1 :=
    congrArg (fun record => record.2.1) seen
  rw [same]
  exact (orderly_execute graph limit query root before).replayed

end FieldQuery.Execution
