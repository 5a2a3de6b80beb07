import StateGraph.Proofs.Compilation.Reopening

set_option autoImplicit false

/-!
# Compiled graphs survive being stored

A compiled graph is well-formed: its edges were added to the nodes of states while there was
room for them.  It is written and read like any other, and what is read is reopened as the
system that was compiled (`Generator.reopens_of_compile_eq_ok`).
-/

namespace StateGraph

/-- Edges between existing nodes, for which there is room. -/
theorem Graph.WellFormed.withEdges (ds : List NewEdge) {g : Graph} (hwell : g.WellFormed)
    (hnodes : ∀ d ∈ ds, g.hasNode d.source = true ∧ g.hasNode d.target = true)
    (hroom : g.RoomFor ds) : (g.withEdges ds).WellFormed := by
  induction ds generalizing g with
  | nil => exact hwell
  | cons d ds ih =>
    obtain ⟨hfull, hrest⟩ := (roomFor_cons_iff g d ds).1 hroom
    obtain ⟨hu, hv⟩ := hnodes d List.mem_cons_self
    have hfirst : (g.withEdge d).WellFormed :=
      (hwell.withEdge hu hv hfull).putEdgeValues
        (Adjacency.hasEdge_withEdge_self g.adjacency d.source d.target) d.values
    exact ih hfirst (fun d' hd' => hnodes d' (List.mem_cons_of_mem _ hd')) hrest

namespace Generator

open TransitionSystem

variable {σ α : Type} [DecidableEq σ] [ToValue σ] [ToValue α] {gen : Generator σ α}
  {options : CompileOptions} {owner : Identity} {t : TransitionSystem σ α}

omit [DecidableEq σ] [ToValue α] in
/-- The nodes of states hold their values and have no edges. -/
theorem wellFormed_graphOf (gen : Generator σ α) (owner : Identity)
    (hfew : gen.states.length < 2 ^ 32) : (gen.graphOf owner gen.states).WellFormed where
  adjacency := Adjacency.wellFormed_isolated _
  nodeProperties := by
    refine (Catalog.within_declared _ owner gen.schema.node).putAll fun entry hentry => ?_
    obtain ⟨e, he, rfl⟩ := List.mem_map.1 hentry
    exact hasNode_of_mem_numbered hfew he
  edgeProperties := Catalog.within_declared _ owner gen.schema.edge

/-- So are they with the edges for transitions. -/
theorem Compiled.wellFormed_withEdges (hcompiled : gen.Compiled owner t)
    (hacceptable : gen.Acceptable options) (hfew : gen.states.length < 2 ^ 32)
    (hkeys : gen.HasKeys) :
    ((gen.graphOf owner gen.states).withEdges (gen.newEdges t.states)).WellFormed := by
  have hnode : ∀ s ∈ gen.states,
      (gen.graphOf owner gen.states).hasNode (nodeIn t.states s) = true := by
    intro s hs
    obtain ⟨-, -, hget, -⟩ := exists_position hcompiled.states hs
    exact hasNode_of_mem_numbered hfew
      (hcompiled.states ▸ (OrderedMap.get?_eq_some_iff t.states s _).1 hget)
  rw [← map_edgeOf_relation]
  refine (wellFormed_graphOf gen owner hfew).withEdges _ (fun d hd => ?_) ?_
  · obtain ⟨r, hr, rfl⟩ := List.mem_map.1 hd
    obtain ⟨hs, hs'⟩ := hacceptable.relation r hr
    exact ⟨hnode r.1 hs, hnode r.2.2.1 hs'⟩
  · exact hkeys.roomFor hcompiled.distinct hcompiled.states hfew
      (keyCount_graphOf gen owner gen.states) (List.prefix_refl _)
      fun r hr => (hacceptable.relation r hr).2

omit [DecidableEq σ] [ToValue σ] [ToValue α] in
/-- Labels are put on the nodes of states. -/
theorem mem_nodes_of_mem_labelEntries {entry : NodeId × List (String × Value)}
    (hentry : entry ∈ gen.labelEntries) : entry.1 ∈ (numbered gen.states).map Prod.snd := by
  have hkey := List.mem_map_of_mem (f := Prod.fst) hentry
  rcases gen.map_fst_labelEntries with hnone | hall
  · rw [hnone] at hkey
    cases hkey
  · rwa [hall] at hkey

omit [DecidableEq σ] [ToValue α] in
/-- States and labels are on nodes that exist. -/
theorem within_labelled (gen : Generator σ α) (owner : Identity)
    (hfew : gen.states.length < 2 ^ 32) :
    ((gen.graphOf owner gen.states).nodeCatalog.putAll gen.labelEntries).Within
      (gen.graphOf owner gen.states).hasNode := by
  refine (wellFormed_graphOf gen owner hfew).nodeProperties.putAll fun entry hentry => ?_
  obtain ⟨e, he, heq⟩ := List.mem_map.1 (mem_nodes_of_mem_labelEntries hentry)
  rw [← heq]
  exact hasNode_of_mem_numbered hfew he

/-- A compiled graph is well-formed. -/
theorem Compiled.wellFormed (hcompiled : gen.Compiled owner t)
    (hacceptable : gen.Acceptable options)
    (hfew : gen.states.length < 2 ^ 32) (hkeys : gen.HasKeys) : t.graph.WellFormed := by
  have hlabels : (gen.compiledGraph owner t.states).WellFormed := by
    refine (hcompiled.wellFormed_withEdges hacceptable hfew hkeys).withNodeCatalog ?_
    rw [Graph.nodeCatalog_withEdges]
    exact (within_labelled gen owner hfew).mono fun n hn => by rwa [Graph.hasNode_withEdges]
  rw [congrArg TransitionSystem.graph hcompiled.assembled]
  exact {
    adjacency := hlabels.adjacency
    nodeProperties := hlabels.nodeProperties
    edgeProperties := hlabels.edgeProperties }

/-- A compiled graph is reopened as the system that was compiled, and so it is after it has
been written and read. -/
theorem reopens_of_compile_eq_ok [Shown σ] [Shown α]
    (hinjective : Function.Injective (toValue : σ → Value))
    (hcompile : gen.compile options owner = .ok t) :
    (∃ r, ofGraph t.graph = .ok r ∧ t.ReopensAs r) ∧
      ((Snapshot.ofGraph t.graph).Sized →
        ∀ owner', ∃ g, Snapshot.decode owner' (Snapshot.encode t.graph) = .ok g ∧
          ∃ r, ofGraph g = .ok r ∧ t.ReopensAs r) := by
  obtain ⟨hfew, hacceptable, hkeys, hcompiled⟩ := compiled_of_compile_eq_ok hcompile
  refine ⟨hcompiled.reopens hfew hinjective (.refl _), fun hsized owner' => ?_⟩
  have hwell := hcompiled.wellFormed hacceptable hfew hkeys
  obtain ⟨g, hread, hagrees, -⟩ := hwell.roundTrips hsized owner'
  exact ⟨g, hread, hcompiled.reopens hfew hinjective hagrees⟩

/-- Two states with labels, players and a distribution. -/
def coin : Generator Bool String where
  states := [false, true]
  actions := ["flip", "wait"]
  delta := fun s a => .weighted (if a = "flip" then [(true, ⟨0x3FE0000000000000⟩),
    (false, ⟨0x3FE0000000000000⟩)] else [(s, .one)])
  deterministic := false
  turn := fun s => if s then some 1 else none
  labeling := some ⟨.ofList ["heads"], fun s => if s then .ofList ["heads"] else .empty⟩

/-- A compiled graph that is written, read and reopened. -/
theorem reopens_coin :
    ∃ t, coin.compile .standard ⟨0⟩ = .ok t ∧
      ∃ g, Snapshot.decode ⟨1⟩ (Snapshot.encode t.graph) = .ok g ∧
        ∃ r, ofGraph g = .ok r ∧ t.ReopensAs r := by
  have hinjective : Function.Injective (toValue : Bool → Value) := fun a b heq => Value.bool.inj heq
  have hsized : ∃ t, coin.compile .standard ⟨0⟩ = .ok t ∧ (Snapshot.ofGraph t.graph).Sized :=
    exists_eq_ok_of_test (by decide +kernel)
  obtain ⟨t, hcompile, hsized⟩ := hsized
  exact ⟨t, hcompile, (reopens_of_compile_eq_ok hinjective hcompile).2 hsized ⟨1⟩⟩

end Generator

end StateGraph
