import StateGraph.Proofs.Compilation.Represents
import StateGraph.Proofs.Reopening
import StateGraph.Proofs.RoundTrip

set_option autoImplicit false

/-!
# Compiled graphs are reopened as what they were

A compiled graph says of itself what the system says next to it: the kind of branching,
the players, the actions and the propositions stand in its attributes, and each node
holds the state of its position.  If states have different values, the index of states
is read back from the nodes as it was.

Everything else is read from the graph in any case, so it is enough that the graph that
is reopened agrees with the one that was compiled (`Generator.Compiled.reopens`).
-/

namespace StateGraph

/-! ## Systems on graphs that agree -/

namespace Catalog

variable {ε : Type}

/-- The names and the listed properties make up a catalog, apart from its identity. -/
theorem properties_eq {c d : Catalog ε} (hnames : d.names = c.names) (hlist : d.toList = c.toList) :
    d.properties = c.properties := by
  have hentries : ∀ m : OrderedMap String (Property ε), m.entries = m.keys.zip m.values := by
    intro m
    rw [OrderedMap.keys, OrderedMap.values, List.zip_map', List.map_id']
  refine OrderedMap.ext ?_
  rw [hentries, hentries]
  exact congrArg₂ List.zip hnames hlist

end Catalog

namespace Graph

/-- A graph looks like itself. -/
theorem Agrees.refl (g : Graph) : g.Agrees g where
  nodeCount := rfl
  edgeCount := rfl
  nodes := rfl
  edges := rfl
  entries := rfl
  outEdges _ := rfl
  successors _ := rfl
  descendants _ := rfl
  predecessors _ := List.Perm.refl _
  inEdges _ := List.Perm.refl _
  ancestors _ := List.Perm.refl _
  nodeNames := rfl
  nodeProperties := rfl
  edgeNames := rfl
  edgeProperties := rfl
  attributes := rfl
  nodeValues _ _ := rfl
  edgeValues _ _ := rfl

variable {g g' : Graph}

theorem Agrees.requireNode (hagrees : g.Agrees g') (n : NodeId) :
    g'.adjacency.requireNode n = g.adjacency.requireNode n := by
  have hcount : g'.adjacency.nodeCount = g.adjacency.nodeCount :=
    UInt32.toNat_inj.1 hagrees.nodeCount
  rw [Adjacency.requireNode, Adjacency.requireNode, Adjacency.hasNode, Adjacency.hasNode, hcount]

theorem Agrees.edgeByName (hagrees : g.Agrees g') (name : String) :
    g'.edgeCatalog.byName name = g.edgeCatalog.byName name := by
  rw [Catalog.byName, Catalog.byName,
    Catalog.properties_eq hagrees.edgeNames hagrees.edgeProperties]

theorem Agrees.contains_node (hagrees : g.Agrees g') (name : String) :
    g'.nodeCatalog.contains name = g.nodeCatalog.contains name := by
  rw [Catalog.contains, Catalog.contains,
    Catalog.properties_eq hagrees.nodeNames hagrees.nodeProperties]

theorem Agrees.attribute? (hagrees : g.Agrees g') (name : String) :
    g'.attribute? name = g.attribute? name := by
  rw [Graph.attribute?, Graph.attribute?, OrderedMap.ext hagrees.attributes]

end Graph

namespace TransitionSystem

variable {σ α σ' α' : Type} {t : TransitionSystem σ α} {r : TransitionSystem σ' α'}

/-- Transitions are read from the graph. -/
theorem transitions_congr (hagrees : t.graph.Agrees r.graph)
    (hbranching : r.branching = t.branching) (n : NodeId) : r.transitions n = t.transitions n := by
  have hprob : r.probProperty = t.probProperty := by
    rw [probProperty, probProperty, hbranching, hagrees.edgeByName]
  rw [transitions, transitions, hagrees.requireNode, hagrees.successors, hagrees.edgeByName, hprob,
    hagrees.outEdges]

theorem labels_congr (hagrees : t.graph.Agrees r.graph) (n : NodeId) : r.labels n = t.labels n := by
  rw [labels, labels, hagrees.contains_node, hagrees.nodeValues, hagrees.requireNode]

/-- What is wrong with distributions, and how it is said, follows from the graph. -/
theorem checkDistributions_congr (hagrees : t.graph.Agrees r.graph)
    (hbranching : r.branching = t.branching) (options : CompileOptions) :
    r.checkDistributions options = t.checkDistributions options := by
  have haction : ∀ n, r.checkAction options n = t.checkAction options n := by
    intro n
    funext group
    rw [checkAction, checkAction, describe, describe, hagrees.nodeValues]
  have hnode : r.checkNode options = t.checkNode options := by
    funext n
    rw [checkNode, checkNode, transitions_congr hagrees hbranching, haction]
  rw [checkDistributions, checkDistributions, hbranching, hagrees.nodes, hnode]

/-- A system over values looks like another one whose states and actions were turned
into values. -/
structure ReopensAs [DecidableEq σ] [ToValue σ] [ToValue α] (t : TransitionSystem σ α)
    (r : TransitionSystem Value Value) : Prop where
  branching : r.branching = t.branching
  turnBased : r.turnBased = t.turnBased
  atoms : r.atoms = t.atoms
  actions : r.actions = t.actions.map toValue
  nodeOf : ∀ s, r.nodeOf? (toValue s) = t.nodeOf? s
  stateOf : ∀ n, r.stateOf? n = (t.stateOf? n).map toValue
  /-- for each node id, existing or not -/
  transitions : ∀ n, r.transitions n = t.transitions n
  labels : ∀ n, r.labels n = t.labels n
  enabledActions : ∀ n, r.enabledActions n = (t.enabledActions n).map (List.map toValue)
  checkDistributions : ∀ options, r.checkDistributions options = t.checkDistributions options

/-- Enabled actions are those whose values occur. -/
theorem enabledActions_congr [ToValue α] {r : TransitionSystem σ' Value}
    (hactions : r.actions = t.actions.map toValue) {n : NodeId}
    (htransitions : r.transitions n = t.transitions n) :
    r.enabledActions n = (t.enabledActions n).map (List.map toValue) := by
  unfold TransitionSystem.enabledActions
  rw [htransitions, hactions]
  cases t.transitions n with
  | error e => rfl
  | ok ts =>
    rw [ok_bind, ok_bind]
    show Except.ok _ = Except.ok _
    rw [List.filter_map]
    rfl

/-! ## Attributes of a compiled graph -/

section Attributes

variable [ToValue α] (g : Graph) (states : OrderedMap σ NodeId) (actions : List α)
  (atoms : Option LabelSet) (branching : Branching) (turnBased : Bool)

/-- What is written last under a name is found under the name. -/
theorem attribute?_assemble (name : String) :
    (assemble g states actions atoms branching turnBased).graph.attribute? name =
      (AssocList.lookup name [(kindName, .text branching.name), (turnBasedName, .bool turnBased),
        (actionsName, .list (actions.map toValue)), (atomsName, atomsValue atoms)]).or
          (g.attribute? name) :=
  OrderedMap.get?_insertMany g.attributes (by
    show [kindName, turnBasedName, actionsName, atomsName].Nodup
    decide) name

theorem readBranching_assemble :
    readBranching (assemble g states actions atoms branching turnBased).graph = .ok branching := by
  have hkind : (assemble g states actions atoms branching turnBased).graph.attribute? kindName =
      some (.text branching.name) := (attribute?_assemble ..).trans rfl
  rw [readBranching, hkind]
  simp only [Option.bind_some, Value.asText?, (Branching.ofName?_eq_some_iff _ branching).2 rfl]

theorem readTurnBased_assemble :
    readTurnBased (assemble g states actions atoms branching turnBased).graph = .ok turnBased := by
  have hturn :
      (assemble g states actions atoms branching turnBased).graph.attribute? turnBasedName =
      some (.bool turnBased) := (attribute?_assemble ..).trans rfl
  rw [readTurnBased, hturn]
  rfl

theorem readActions_assemble :
    readActions (assemble g states actions atoms branching turnBased).graph =
      .ok (actions.map toValue) := by
  have hactions :
      (assemble g states actions atoms branching turnBased).graph.attribute? actionsName =
      some (.list (actions.map toValue)) := (attribute?_assemble ..).trans rfl
  rw [readActions, hactions]
  rfl

/-- No propositions at all and an empty set of them are told apart. -/
theorem readAtoms_assemble :
    readAtoms (assemble g states actions atoms branching turnBased).graph = .ok atoms := by
  have hatoms : (assemble g states actions atoms branching turnBased).graph.attribute? atomsName =
      some (atomsValue atoms) := (attribute?_assemble ..).trans rfl
  rw [readAtoms, hatoms]
  cases atoms <;> rfl

end Attributes

end TransitionSystem

namespace Generator

open TransitionSystem

variable {σ α : Type} {gen : Generator σ α}

theorem map_snd_numbered (states : List σ) :
    (numbered states).map Prod.snd = (List.range states.length).map fun i => ⟨i.toUInt32⟩ := by
  rw [numbered, List.map_map, List.range_eq_range', ← List.zipIdx_map_snd 0 states, List.map_map]
  rfl

/-- Positions that fit into a node number are different nodes. -/
theorem nodup_map_snd_numbered {states : List σ} (hfew : states.length < 2 ^ 32) :
    ((numbered states).map Prod.snd).Nodup := by
  rw [map_snd_numbered, List.nodup_iff_pairwise_ne, List.pairwise_map]
  refine List.nodup_range.imp_of_mem fun {i j} hi hj hne heq => hne ?_
  have hilt := List.mem_range.1 hi
  have hjlt := List.mem_range.1 hj
  exact toUInt32_inj (by omega) (by omega) (congrArg NodeId.index heq)

/-- The states turned into values have the same nodes. -/
theorem numbered_map {β : Type} (f : σ → β) (states : List σ) :
    numbered (states.map f) = (numbered states).map fun e => (f e.1, e.2) := by
  rw [numbered, numbered, List.zipIdx_map, List.map_map, List.map_map]
  rfl

section Values

variable [ToValue σ]

/-- What is said of every state has reserved names. -/
theorem isReserved_of_mem_state (s : σ) (player : Option Int64) :
    ∀ name ∈ ([(Schema.stateName, toValue s)] ++
      (player.map fun player => (Schema.turnName, Value.int player)).toList).map Prod.fst,
        Schema.isReserved name = true := by
  cases player with
  | none =>
    show ∀ name ∈ [Schema.stateName], Schema.isReserved name = true
    decide
  | some player =>
    show ∀ name ∈ [Schema.stateName, Schema.turnName], Schema.isReserved name = true
    decide

/-- The values of a state have distinct names. -/
theorem nodup_stateValues (gen : Generator σ α) (s : σ) :
    ((gen.stateValues s).map Prod.fst).Nodup := by
  refine Schema.nodup_append_further (isReserved_of_mem_state s (gen.turn s))
    (fun _ => Schema.isReserved_of_isFurtherNode) ?_ _
  cases gen.turn s with
  | none => exact List.nodup_singleton _
  | some player =>
    show [Schema.stateName, Schema.turnName].Nodup
    decide

theorem map_fst_stateEntries (gen : Generator σ α) (states : List σ) :
    (gen.stateEntries states).map Prod.fst = (numbered states).map Prod.snd := by
  rw [stateEntries, List.map_map]
  rfl

omit [ToValue σ] in
/-- Labels are written on nodes of states, each once. -/
theorem map_fst_labelEntries (gen : Generator σ α) :
    gen.labelEntries.map Prod.fst = [] ∨
      gen.labelEntries.map Prod.fst = (numbered gen.states).map Prod.snd := by
  unfold labelEntries
  cases gen.labeling with
  | none => exact .inl rfl
  | some labeling =>
    refine .inr ?_
    rw [List.map_map]
    rfl

omit [ToValue σ] in
/-- Labels are written under their own name only. -/
theorem map_snd_labelEntries {entry : NodeId × List (String × Value)}
    (hentry : entry ∈ gen.labelEntries) : entry.2.map Prod.fst = [Schema.labelName] := by
  unfold labelEntries at hentry
  cases hlabeling : gen.labeling with
  | none =>
    rw [hlabeling] at hentry
    cases hentry
  | some labeling =>
    rw [hlabeling] at hentry
    obtain ⟨e, -, rfl⟩ := List.mem_map.1 hentry
    rfl

variable [DecidableEq σ] [ToValue α] {owner : Identity} {t : TransitionSystem σ α}

theorem Compiled.nodeCatalog (hcompiled : gen.Compiled owner t) :
    t.graph.nodeCatalog =
      ((Catalog.declared owner gen.schema.node).putAll (gen.stateEntries gen.states)).putAll
        gen.labelEntries := by
  have hgraph : t.graph.nodeCatalog = (gen.compiledGraph owner t.states).nodeCatalog :=
    congrArg (fun t => t.graph.nodeCatalog) hcompiled.assembled
  rw [hgraph, compiledGraph, labelled, Graph.nodeCatalog_withEdges]
  rfl

theorem Compiled.names_nodeCatalog (hcompiled : gen.Compiled owner t) :
    t.graph.nodeCatalog.names = gen.schema.node.keys := by
  rw [hcompiled.nodeCatalog, Catalog.names_putAll, Catalog.names_putAll, Catalog.names_declared]

theorem Compiled.stateName_mem (hcompiled : gen.Compiled owner t) :
    Schema.stateName ∈ t.graph.nodeCatalog.names := by
  rw [hcompiled.names_nodeCatalog]
  exact Schema.stateName_mem gen.turnBased gen.atoms gen.stateProperties

/-- All nodes are those of the states. -/
theorem Compiled.toList_nodes (hcompiled : gen.Compiled owner t)
    (hfew : gen.states.length < 2 ^ 32) :
    t.graph.nodes.toList = (numbered gen.states).map Prod.snd := by
  have hcount : t.graph.adjacency.nodeCount.toNat = gen.states.length := hcompiled.nodeCount_eq hfew
  rw [Graph.nodes, Adjacency.toList_nodes, hcount, map_snd_numbered]

omit [ToValue σ] [DecidableEq σ] [ToValue α] in
theorem nodup_map_fst_labelEntries (hfew : gen.states.length < 2 ^ 32) :
    (gen.labelEntries.map Prod.fst).Nodup := by
  rcases gen.map_fst_labelEntries with hnone | hall
  · rw [hnone]
    exact List.nodup_nil
  · rw [hall]
    exact nodup_map_snd_numbered hfew

omit [ToValue σ] [DecidableEq σ] [ToValue α] in
/-- Under other names nothing is written with the labels. -/
theorem lookup_labelEntries_of_ne (hfew : gen.states.length < 2 ^ 32) {name : String}
    (hne : name ≠ Schema.labelName) (n : NodeId) :
    (AssocList.lookup n gen.labelEntries).bind (AssocList.lookup name) = none := by
  cases hlookup : AssocList.lookup n gen.labelEntries with
  | none => rfl
  | some values =>
    have hentry := (AssocList.lookup_eq_some_iff (nodup_map_fst_labelEntries hfew) _ _).1 hlookup
    rw [Option.bind_some, AssocList.lookup_eq_none_iff, map_snd_labelEntries hentry,
      List.mem_singleton]
    exact hne

/-- The node of a state holds its label, and what is said of the state. -/
theorem Compiled.explicit?_eq (hcompiled : gen.Compiled owner t) (hfew : gen.states.length < 2 ^ 32)
    {e : σ × NodeId} (he : e ∈ numbered gen.states) {name : String}
    (hname : name ∈ gen.schema.node.keys) :
    t.graph.nodeCatalog.explicit? name e.2 =
      ((AssocList.lookup e.2 gen.labelEntries).bind (AssocList.lookup name)).or
        (AssocList.lookup name (gen.stateValues e.1)) := by
  have hnodes := nodup_map_snd_numbered hfew
  have hdeclared : name ∈ (Catalog.declared owner gen.schema.node : Catalog NodeId).names := by
    rwa [Catalog.names_declared]
  have hstate : AssocList.lookup e.2 (gen.stateEntries gen.states) =
      some (gen.stateValues e.1) := by
    rw [AssocList.lookup_eq_some_iff (by rwa [map_fst_stateEntries])]
    exact List.mem_map.2 ⟨e, he, rfl⟩
  rw [hcompiled.nodeCatalog,
    Catalog.explicit?_putAll _ (nodup_map_fst_labelEntries hfew) ?_ (by rwa [Catalog.names_putAll]),
    Catalog.explicit?_putAll _ ?_ ?_ hdeclared, hstate, Catalog.explicit?_declared, Option.or_none,
    Option.bind_some]
  · rwa [map_fst_stateEntries]
  · intro entry hentry
    obtain ⟨d, -, rfl⟩ := List.mem_map.1 hentry
    exact gen.nodup_stateValues d.1
  · intro entry hentry
    rw [map_snd_labelEntries hentry]
    exact List.nodup_singleton _

/-- Each node holds the value of its state. -/
theorem Compiled.explicit?_stateName (hcompiled : gen.Compiled owner t)
    (hfew : gen.states.length < 2 ^ 32) {e : σ × NodeId} (he : e ∈ numbered gen.states) :
    t.graph.nodeCatalog.explicit? Schema.stateName e.2 = some (toValue e.1) := by
  rw [hcompiled.explicit?_eq hfew he
    (Schema.stateName_mem gen.turnBased gen.atoms gen.stateProperties),
    lookup_labelEntries_of_ne hfew (by decide), Option.none_or]
  rfl

theorem Compiled.stateValue (hcompiled : gen.Compiled owner t)
    (hfew : gen.states.length < 2 ^ 32) {e : σ × NodeId} (he : e ∈ numbered gen.states) :
    t.graph.nodeValueByName Schema.stateName e.2 = .ok (toValue e.1) := by
  have hexplicit := hcompiled.explicit?_stateName hfew he
  obtain ⟨p, hget, hvalue⟩ := Option.bind_eq_some_iff.1 hexplicit
  rw [Graph.nodeValueByName, Catalog.readByName, Catalog.byName_eq_ok_iff.2 hget, ok_bind,
    Property.read, hvalue]

/-! ## Reopening -/

/-- The index of states is read back, with values for states. -/
theorem Compiled.readStates_eq_ok (hcompiled : gen.Compiled owner t)
    (hfew : gen.states.length < 2 ^ 32) (hinjective : Function.Injective (toValue : σ → Value))
    {g : Graph} (hagrees : t.graph.Agrees g) :
    readStates g = .ok (.ofList (numbered (gen.states.map toValue))) := by
  have hname : Schema.stateName ∈ g.nodeCatalog.names := by
    rw [hagrees.nodeNames]
    exact hcompiled.stateName_mem
  have hnodes : g.nodes.toList = (numbered gen.states).map Prod.snd := by
    rw [hagrees.nodes, hcompiled.toList_nodes hfew]
  have hstates : ∀ e ∈ numbered gen.states, stateIn g e.2 = toValue e.1 := by
    intro e he
    have hn : g.hasNode e.2 = true := by
      refine (Adjacency.mem_nodes_toList_iff _ _).1 ?_
      rw [show g.adjacency.nodes.toList = _ from hnodes]
      exact List.mem_map_of_mem he
    have hread := (nodeValueByName_stateName hname hn).symm.trans (hagrees.nodeValues _ _)
    rw [hcompiled.stateValue hfew he] at hread
    exact Except.ok.inj hread
  have hentries : (g.nodes.toList.map fun n => (stateIn g n, n)) =
      numbered (gen.states.map toValue) := by
    rw [hnodes, List.map_map, numbered_map]
    exact List.map_congr_left fun e he => Prod.ext (hstates e he) rfl
  have hdistinct : ((numbered (gen.states.map toValue)).map Prod.fst).Nodup := by
    rw [map_fst_numbered]
    exact hcompiled.distinct.map hinjective
  have hrepeated : repeatedFaults g = [] := by
    rw [repeatedFaults, faultsAlong_repeatFaults_eq_nil_iff]
    rwa [← hentries, List.map_map] at hdistinct
  have hindex := settles_readStates g
  rw [propertyFaults, if_pos hname, hrepeated] at hindex
  obtain ⟨index, hok, hlist⟩ := hindex.eq_ok
  have hsame : index = .ofList (numbered (gen.states.map toValue)) :=
    OrderedMap.ext (hlist.trans (hentries.trans (OrderedMap.toList_ofList hdistinct).symm))
  rw [hok, hsame]

/-- The system that is read from a graph that agrees with the compiled one. -/
def reopened (gen : Generator σ α) (g : Graph) : TransitionSystem Value Value where
  graph := g
  states := .ofList (numbered (gen.states.map toValue))
  actions := gen.actions.map toValue
  atoms := gen.atoms
  branching := gen.branching
  turnBased := gen.turnBased

theorem Compiled.ofGraph_eq_ok (hcompiled : gen.Compiled owner t)
    (hfew : gen.states.length < 2 ^ 32) (hinjective : Function.Injective (toValue : σ → Value))
    {g : Graph} (hagrees : t.graph.Agrees g) : ofGraph g = .ok (gen.reopened g) := by
  have hsame : ∀ name, g.attribute? name = (assemble (gen.compiledGraph owner t.states) t.states
      gen.actions gen.atoms gen.branching gen.turnBased).graph.attribute? name := by
    intro name
    rw [hagrees.attribute?, ← hcompiled.assembled]
  have hbranching : readBranching g = .ok gen.branching := by
    rw [readBranching, hsame]
    exact readBranching_assemble ..
  have hturnBased : readTurnBased g = .ok gen.turnBased := by
    rw [readTurnBased, hsame]
    exact readTurnBased_assemble ..
  have hactions : readActions g = .ok (gen.actions.map toValue) := by
    rw [readActions, hsame]
    exact readActions_assemble ..
  have hatoms : readAtoms g = .ok gen.atoms := by
    rw [readAtoms, hsame]
    exact readAtoms_assemble ..
  rw [ofGraph, hbranching, hturnBased, hactions, hatoms,
    hcompiled.readStates_eq_ok hfew hinjective hagrees]
  rfl

/-- The values of the states are numbered as the states are. -/
theorem Compiled.toList_states_reopened (hcompiled : gen.Compiled owner t)
    (hinjective : Function.Injective (toValue : σ → Value)) (g : Graph) :
    (gen.reopened g).states.toList = numbered (gen.states.map toValue) := by
  refine OrderedMap.toList_ofList ?_
  rw [map_fst_numbered]
  exact hcompiled.distinct.map hinjective

theorem Compiled.nodeOf?_reopened (hcompiled : gen.Compiled owner t)
    (hinjective : Function.Injective (toValue : σ → Value)) (g : Graph) (s : σ) :
    (gen.reopened g).nodeOf? (toValue s) = t.nodeOf? s := by
  refine Option.ext fun n => ?_
  rw [nodeOf?, nodeOf?, get?_index_iff (hcompiled.toList_states_reopened hinjective g),
    get?_index_iff hcompiled.states]
  simp only [List.getElem?_map, Option.map_eq_some_iff]
  refine exists_congr fun i => and_congr_left fun _ => ?_
  constructor
  · rintro ⟨s', hs', heq⟩
    rwa [← hinjective heq]
  · exact fun hs => ⟨s, hs, rfl⟩

theorem Compiled.stateOf?_reopened (hcompiled : gen.Compiled owner t)
    (hinjective : Function.Injective (toValue : σ → Value)) (g : Graph) (n : NodeId) :
    (gen.reopened g).stateOf? n = (t.stateOf? n).map toValue := by
  have hvalues : (gen.reopened g).states.entries = numbered (gen.states.map toValue) :=
    hcompiled.toList_states_reopened hinjective g
  have hstates : t.states.entries = numbered gen.states := hcompiled.states
  rw [stateOf?, stateOf?, OrderedMap.entryAt?, OrderedMap.entryAt?, ← List.getElem?_map,
    ← List.getElem?_map, hvalues, hstates, map_fst_numbered, map_fst_numbered, List.getElem?_map]

/-- A graph that agrees with a compiled one is reopened, and looks like the system that
was compiled. -/
theorem Compiled.reopens (hcompiled : gen.Compiled owner t) (hfew : gen.states.length < 2 ^ 32)
    (hinjective : Function.Injective (toValue : σ → Value)) {g : Graph}
    (hagrees : t.graph.Agrees g) : ∃ r, ofGraph g = .ok r ∧ t.ReopensAs r := by
  refine ⟨gen.reopened g, hcompiled.ofGraph_eq_ok hfew hinjective hagrees, ?_⟩
  have hassembled := hcompiled.assembled
  have hbranching : (gen.reopened g).branching = t.branching :=
    congrArg (·.branching) hassembled.symm
  have hactions : (gen.reopened g).actions = t.actions.map toValue :=
    congrArg (·.actions.map toValue) hassembled.symm
  constructor
  case branching => exact hbranching
  case turnBased => exact congrArg (·.turnBased) hassembled.symm
  case atoms => exact congrArg (·.atoms) hassembled.symm
  case actions => exact hactions
  case nodeOf => exact hcompiled.nodeOf?_reopened hinjective g
  case stateOf => exact hcompiled.stateOf?_reopened hinjective g
  case transitions => exact transitions_congr hagrees hbranching
  case labels => exact labels_congr hagrees
  case enabledActions =>
    exact fun n => enabledActions_congr hactions (transitions_congr hagrees hbranching n)
  case checkDistributions => exact checkDistributions_congr hagrees hbranching

end Values

end Generator

end StateGraph
