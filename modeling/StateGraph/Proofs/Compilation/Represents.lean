import StateGraph.Proofs.Compilation.Acceptance

set_option autoImplicit false

/-!
# The compiled graph is the transition relation

Nodes are states in order, and the edges from one state to another are the outcomes
that lead from the one to the other, numbered in the order of actions and, for one
action, in the order of its answer (`TransitionSystem.Represents`).

A pair of states gets its edges from one state's outcomes only, but these may come
from several actions and stand between edges to other states.  What holds the keys
and the outcomes together is that both are counted per pair (`Graph.Grown`).
-/

namespace StateGraph

namespace Generator

variable {σ α : Type} [DecidableEq σ] {gen : Generator σ α}

omit [DecidableEq σ] in
theorem mem_outcomes_iff (s : σ) (o : α × σ × Option Binary64) :
    o ∈ gen.outcomes s ↔ o.1 ∈ gen.actions ∧ o.2 ∈ (gen.delta s o.1).toList := by
  obtain ⟨a, t⟩ := o
  simp [outcomes]

omit [DecidableEq σ] in
/-- The successors of an acceptable generator are states. -/
theorem Acceptable.mem_states {options : CompileOptions} (hacceptable : gen.Acceptable options)
    {s : σ} (hs : s ∈ gen.states) {o : α × σ × Option Binary64} (ho : o ∈ gen.outcomes s) :
    o.2.1 ∈ gen.states := by
  obtain ⟨haction, htarget⟩ := (mem_outcomes_iff s o).1 ho
  exact hacceptable.successors s hs o.1 haction o.2 htarget

omit [DecidableEq σ] in
/-- Its transitions lead from states to states. -/
theorem Acceptable.relation {options : CompileOptions} (hacceptable : gen.Acceptable options) :
    ∀ r ∈ gen.relation, r.1 ∈ gen.states ∧ r.2.2.1 ∈ gen.states := by
  intro r hr
  have hs := mem_states_of_mem_relation hr
  obtain ⟨s, hstate, hr⟩ := List.mem_flatMap.1 hr
  rw [flatMap_answered] at hr
  obtain ⟨o, ho, rfl⟩ := List.mem_map.1 hr
  exact ⟨hs, hacceptable.mem_states hs ho⟩

/-! ## Edges of a compiled system -/

section Edges

variable [ToValue σ] [ToValue α] {options : CompileOptions} {owner : Identity}
  {t : TransitionSystem σ α}

/-- The edges of a compiled system are the new edges of all states. -/
theorem Compiled.grown (hcompiled : gen.Compiled owner t) (hacceptable : gen.Acceptable options)
    (hfew : gen.states.length < 2 ^ 32) (hkeys : gen.HasKeys) :
    t.graph.Grown (gen.newEdges t.states) := by
  obtain ⟨g, hisolated, hdeclared, hadjacency, hedges⟩ := hcompiled.edges
  have hnone : ∀ u v, g.adjacency.highestKey u v = none := by
    intro u v
    rw [hisolated]
    rfl
  have hzero : ∀ u v, g.adjacency.keyCount u v = 0 := by
    intro u v
    rw [Adjacency.keyCount, hnone]
  have hstart : g.Grown [] := by
    refine Graph.grown_nil hnone fun name e => ?_
    rw [hdeclared]
    exact Catalog.explicit?_declared owner _ name e
  have hvalues : ∀ d ∈ gen.newEdges t.states, (d.values.map Prod.fst).Nodup := by
    intro d hd
    obtain ⟨s, -, hd⟩ := List.mem_flatMap.1 hd
    obtain ⟨o, -, rfl⟩ := List.mem_map.1 hd
    exact gen.nodup_transitionValues s o.1 o.2
  have hroom := hkeys.roomFor hcompiled.distinct hcompiled.states hfew hzero
    (List.prefix_refl _) fun r hr => (hacceptable.relation r hr).2
  rw [map_edgeOf_relation] at hroom
  have hgrown := hstart.withEdges _ hvalues hroom
  constructor
  · intro u v
    rw [hadjacency]
    exact hgrown.keyCount u v
  · intro name hname e
    rw [hedges] at hname ⊢
    exact hgrown.explicit name hname e

/-- An edge stands for an outcome of a state: it leads between their nodes, and its
key is the place of the outcome among those that lead there. -/
structure StandsFor (gen : Generator σ α) (t : TransitionSystem σ α) (e : EdgeId) (s : σ)
    (o : α × σ × Option Binary64) : Prop where
  source : t.nodeOf? s = some e.source
  target : t.nodeOf? o.2.1 = some e.target
  key : (gen.outcomesTo s o.2.1)[e.key.toNat]? = some o

omit [ToValue σ] [ToValue α] in
/-- Only states have nodes. -/
theorem mem_states_of_nodeOf? (hstates : t.states.toList = numbered gen.states) {s : σ} {n : NodeId}
    (hn : t.nodeOf? s = some n) : s ∈ gen.states ∧ nodeIn t.states s = n := by
  have hget : t.states.get? s = some n := hn
  constructor
  · rw [← keys_eq_of_numbered hstates, ← OrderedMap.get?_isSome_iff, hget]
    rfl
  · rw [nodeIn, hget, Option.getD_some]

omit [ToValue σ] in
/-- The new edges between the nodes of two states are the outcomes that lead from the one to the
other. -/
theorem filter_newEdges {index : OrderedMap σ NodeId} (hacceptable : gen.Acceptable options)
    (hindex : index.toList = numbered gen.states) (hfew : gen.states.length < 2 ^ 32) {s s' : σ}
    (hs : s ∈ gen.states) (hs' : s' ∈ gen.states) :
    (gen.newEdges index).filter (NewEdge.joins (nodeIn index s) (nodeIn index s')) =
      (gen.outcomesTo s s').map (gen.newEdge index s) := by
  rw [← map_edgeOf_relation, filter_joins hindex hfew hs hs' hacceptable.relation,
    filter_relation hacceptable.distinct hs, List.map_map]
  rfl

/-- There are as many edges between two states as outcomes that lead from the one to the
other. -/
theorem Compiled.keyCount_eq (hcompiled : gen.Compiled owner t)
    (hacceptable : gen.Acceptable options) (hfew : gen.states.length < 2 ^ 32)
    (hgrown : t.graph.Grown (gen.newEdges t.states)) {s s' : σ} {n n' : NodeId}
    (hn : t.nodeOf? s = some n) (hn' : t.nodeOf? s' = some n') :
    t.graph.adjacency.keyCount n n' = (gen.outcomesTo s s').length := by
  obtain ⟨hs, rfl⟩ := mem_states_of_nodeOf? hcompiled.states hn
  obtain ⟨hs', rfl⟩ := mem_states_of_nodeOf? hcompiled.states hn'
  have hcount := hgrown.keyCount (nodeIn t.states s) (nodeIn t.states s')
  rwa [filter_newEdges hacceptable hcompiled.states hfew hs hs', List.length_map] at hcount

omit [ToValue σ] in
/-- A pair that new edges join is that of two states. -/
theorem exists_states_of_joins {index : OrderedMap σ NodeId} (hacceptable : gen.Acceptable options)
    {u v : NodeId} (hjoined : 0 < ((gen.newEdges index).filter (NewEdge.joins u v)).length) :
    ∃ s ∈ gen.states, ∃ s' ∈ gen.states, nodeIn index s = u ∧ nodeIn index s' = v := by
  rw [← map_edgeOf_relation] at hjoined
  obtain ⟨r, hr, hsource, htarget⟩ := exists_of_joins hjoined
  obtain ⟨hs, hs'⟩ := hacceptable.relation r hr
  exact ⟨r.1, hs, r.2.2.1, hs', hsource, htarget⟩

/-- The edges are those between two states with a key below the number of outcomes. -/
theorem Compiled.mem_edges_iff (hcompiled : gen.Compiled owner t)
    (hacceptable : gen.Acceptable options) (hfew : gen.states.length < 2 ^ 32)
    (hgrown : t.graph.Grown (gen.newEdges t.states)) (e : EdgeId) :
    e ∈ t.graph.edges ↔ ∃ s s', t.nodeOf? s = some e.source ∧ t.nodeOf? s' = some e.target ∧
      e.key.toNat < (gen.outcomesTo s s').length := by
  rw [Graph.edges, Adjacency.mem_edges_iff, Adjacency.hasEdge_iff_lt_keyCount]
  constructor
  · intro hlt
    have hjoined :
        0 < ((gen.newEdges t.states).filter (NewEdge.joins e.source e.target)).length := by
      rw [← hgrown.keyCount e.source e.target]
      exact Nat.zero_lt_of_lt hlt
    obtain ⟨s, hs, s', hs', hsource, htarget⟩ := exists_states_of_joins hacceptable hjoined
    obtain ⟨-, -, hn, -⟩ := exists_position hcompiled.states hs
    obtain ⟨-, -, hn', -⟩ := exists_position hcompiled.states hs'
    rw [hsource] at hn
    rw [htarget] at hn'
    rw [hcompiled.keyCount_eq hacceptable hfew hgrown hn hn'] at hlt
    exact ⟨s, s', hn, hn', hlt⟩
  · rintro ⟨s, s', hn, hn', hlt⟩
    rwa [hcompiled.keyCount_eq hacceptable hfew hgrown hn hn']

/-- The properties of edges are those of the schema. -/
theorem Compiled.names_edgeCatalog (hcompiled : gen.Compiled owner t) :
    t.graph.edgeCatalog.names = gen.schema.edge.keys := by
  obtain ⟨g, -, hdeclared, -, hedges⟩ := hcompiled.edges
  rw [hedges, Graph.names_edgeCatalog_withEdges, hdeclared, Catalog.names_declared]

/-- The defaults of edges are those of the schema. -/
theorem Compiled.default?_edgeCatalog (hcompiled : gen.Compiled owner t) (name : String) :
    t.graph.edgeCatalog.default? name = gen.schema.edge.get? name := by
  obtain ⟨g, -, hdeclared, -, hedges⟩ := hcompiled.edges
  rw [hedges, Graph.default?_edgeCatalog_withEdges, hdeclared, Catalog.default?_declared]

theorem Compiled.hasEdge_of_standsFor (hcompiled : gen.Compiled owner t)
    (hacceptable : gen.Acceptable options) (hfew : gen.states.length < 2 ^ 32)
    (hgrown : t.graph.Grown (gen.newEdges t.states)) {e : EdgeId} {s : σ}
    {o : α × σ × Option Binary64} (hstands : gen.StandsFor t e s o) : t.graph.hasEdge e = true := by
  rw [Graph.hasEdge, Adjacency.hasEdge_iff_lt_keyCount,
    hcompiled.keyCount_eq hacceptable hfew hgrown hstands.source hstands.target]
  exact (List.getElem?_eq_some_iff.1 hstands.key).1

/-- An edge that stands for an outcome has its values, and the defaults for what it does
not say. -/
theorem Compiled.edgeValueByName_eq (hcompiled : gen.Compiled owner t)
    (hacceptable : gen.Acceptable options) (hfew : gen.states.length < 2 ^ 32)
    (hgrown : t.graph.Grown (gen.newEdges t.states)) {e : EdgeId} {s : σ}
    {o : α × σ × Option Binary64} (hstands : gen.StandsFor t e s o)
    {name : String} {default : Value} (hdefault : gen.schema.edge.get? name = some default) :
    t.graph.edgeValueByName name e =
      .ok ((AssocList.lookup name (gen.transitionValues s o.1 o.2)).getD default) := by
  obtain ⟨hs, hsource⟩ := mem_states_of_nodeOf? hcompiled.states hstands.source
  obtain ⟨hs', htarget⟩ := mem_states_of_nodeOf? hcompiled.states hstands.target
  have he := hcompiled.hasEdge_of_standsFor hacceptable hfew hgrown hstands
  have hname : name ∈ t.graph.edgeCatalog.names := by
    rw [hcompiled.names_edgeCatalog, ← OrderedMap.get?_isSome_iff, hdefault]
    rfl
  have hcatalog := (hcompiled.default?_edgeCatalog name).trans hdefault
  have hexplicit := hgrown.explicit name hname e
  rw [← hsource, ← htarget, filter_newEdges hacceptable hcompiled.states hfew hs hs',
    List.getElem?_map, hstands.key] at hexplicit
  rw [Graph.edgeValueByName, Catalog.readByName_of_default hcatalog he, hexplicit]
  rfl

end Edges

/-! ## Probabilities and numbers of transitions -/

omit [DecidableEq σ] in
/-- With distributions, every outcome has a probability. -/
theorem Acceptable.exists_probability {options : CompileOptions}
    (hacceptable : gen.Acceptable options) (hweighted : gen.branching = .quantitative) {s : σ}
    (hs : s ∈ gen.states) {o : α × σ × Option Binary64} (ho : o ∈ gen.outcomes s) :
    ∃ p, o.2.2 = some p := by
  obtain ⟨haction, htarget⟩ := (mem_outcomes_iff s o).1 ho
  have hshape := hacceptable.shapes s hs o.1 haction
  rw [hweighted] at hshape
  cases hanswer : gen.delta s o.1 with
  | single t' => simp [hanswer, Successors.shape, expectedShape] at hshape
  | choice ts => simp [hanswer, Successors.shape, expectedShape] at hshape
  | weighted ts =>
    rw [hanswer] at htarget
    obtain ⟨t', -, heq⟩ := List.mem_map.1 htarget
    exact ⟨t'.2, by rw [← heq]⟩

/-- A sum of equal numbers. -/
theorem sum_map_eq_length_mul {β : Type} {l : List β} {f : β → Nat} {k : Nat}
    (hf : ∀ b ∈ l, f b = k) : (l.map f).sum = l.length * k := by
  rw [List.map_congr_left hf, List.map_const', List.sum_replicate_nat]

omit [DecidableEq σ] in
/-- In a deterministic system, a state has one outcome for each action. -/
theorem Acceptable.length_outcomes {options : CompileOptions}
    (hacceptable : gen.Acceptable options) (hdeterministic : gen.branching = .deterministic) {s : σ}
    (hs : s ∈ gen.states) : (gen.outcomes s).length = gen.actions.length := by
  rw [outcomes, List.length_flatMap, ← Nat.mul_one gen.actions.length]
  refine sum_map_eq_length_mul fun a ha => ?_
  have hshape := hacceptable.shapes s hs a ha
  rw [hdeterministic] at hshape
  rw [List.length_map]
  cases hanswer : gen.delta s a with
  | single t' => rfl
  | choice ts => simp [hanswer, Successors.shape, expectedShape] at hshape
  | weighted ts => simp [hanswer, Successors.shape, expectedShape] at hshape

theorem length_newEdges [ToValue α] (index : OrderedMap σ NodeId) :
    (gen.newEdges index).length = (gen.states.map fun s => (gen.outcomes s).length).sum := by
  rw [newEdges, List.length_flatMap]
  simp only [List.length_map]

/-! ## The whole system -/

section Whole

variable [ToValue σ] [ToValue α] {options : CompileOptions} {owner : Identity}
  {t : TransitionSystem σ α}

/-- There are as many nodes as states. -/
theorem Compiled.nodeCount_eq (hcompiled : gen.Compiled owner t)
    (hfew : gen.states.length < 2 ^ 32) : t.graph.nodeCount = gen.states.length := by
  obtain ⟨g, hisolated, -, hadjacency, -⟩ := hcompiled.edges
  have hgraph : t.graph.nodeCount = (g.withEdges (gen.newEdges t.states)).nodeCount :=
    congrArg (fun a => a.nodeCount.toNat) hadjacency
  rw [hgraph, Graph.nodeCount_withEdges, Graph.nodeCount, hisolated]
  exact toNat_toUInt32 hfew

/-- There are as many edges as outcomes of all states. -/
theorem Compiled.edgeCount_eq (hcompiled : gen.Compiled owner t) :
    t.graph.edgeCount = (gen.states.map fun s => (gen.outcomes s).length).sum := by
  obtain ⟨g, hisolated, -, hadjacency, -⟩ := hcompiled.edges
  have hgraph : t.graph.edgeCount = (g.withEdges (gen.newEdges t.states)).edgeCount :=
    congrArg Adjacency.edgeCount hadjacency
  have hstart : g.edgeCount = 0 := congrArg Adjacency.edgeCount hisolated
  rw [hgraph, Graph.edgeCount_withEdges, hstart, Nat.zero_add, length_newEdges]

/-- Without distributions, edges have no property for probabilities. -/
theorem Compiled.contains_probName (hcompiled : gen.Compiled owner t)
    (hacceptable : gen.Acceptable options) (hunweighted : gen.branching ≠ .quantitative) :
    t.graph.edgeCatalog.contains Schema.probName = false := by
  rw [← Bool.not_eq_true, Catalog.contains, OrderedMap.contains_iff_mem_keys]
  intro hprob
  have hmember : Schema.probName ∈ gen.schema.edge.keys := hcompiled.names_edgeCatalog ▸ hprob
  have hweighted := (Schema.probName_mem_iff hacceptable.transitionNames gen.branching).1 hmember
  cases hbranching : gen.branching with
  | quantitative => exact hunweighted hbranching
  | deterministic =>
    rw [hbranching] at hweighted
    cases hweighted
  | qualitative =>
    rw [hbranching] at hweighted
    cases hweighted

omit [DecidableEq σ] [ToValue σ] [ToValue α] in
/-- A reserved property has its default from the way the system branches. -/
theorem Acceptable.get?_edge_of_reserved (hacceptable : gen.Acceptable options) {name : String}
    (hname : Schema.isReserved name = true) :
    gen.schema.edge.get? name = AssocList.lookup name (Schema.reservedEdge gen.branching) := by
  have hnone := Schema.get?_eq_none_of_reserved hacceptable.transitionNames hname
  rw [schema, Schema.get?_edgeProperties, hnone, Option.none_or]

omit [DecidableEq σ] [ToValue σ] [ToValue α] in
/-- A further property is written when a transition says it. -/
theorem Acceptable.isFurtherEdge (hacceptable : gen.Acceptable options) {name : String}
    {default : Value} (hdefault : gen.transitionProperties.get? name = some default) :
    gen.schema.isFurtherEdge name = true := by
  have hedge : gen.schema.edge.get? name = some default :=
    Schema.get?_edgeProperties_of_some hdefault gen.branching
  have hkey : name ∈ gen.transitionProperties.keys := by
    rw [← OrderedMap.get?_isSome_iff, hdefault]
    rfl
  rw [Schema.isFurtherEdge, hacceptable.transitionNames name hkey, OrderedMap.contains, hedge]
  rfl

end Whole

/-- A system has exactly the states and transitions of a generator. -/
structure Represents [ToValue α] (gen : Generator σ α) (t : TransitionSystem σ α) : Prop where
  nodeCount : t.graph.nodeCount = gen.states.length
  nodeOf : ∀ (i : Nat) (s : σ), gen.states[i]? = some s → t.nodeOf? s = some ⟨i.toUInt32⟩
  stateOf : ∀ n, t.stateOf? n = gen.states[n.index.toNat]?
  /-- the keys from one state to another are those below the number of outcomes that
  lead from the one to the other, and there are no other edges -/
  edges : ∀ e, e ∈ t.graph.edges ↔ ∃ s s', t.nodeOf? s = some e.source ∧
    t.nodeOf? s' = some e.target ∧ e.key.toNat < (gen.outcomesTo s s').length
  action : ∀ e s o, gen.StandsFor t e s o →
    t.graph.edgeValueByName Schema.actionName e = .ok (toValue o.1)
  probability : gen.branching = .quantitative → ∀ e s o, gen.StandsFor t e s o →
    ∃ p, o.2.2 = some p ∧ t.graph.edgeValueByName Schema.probName e = .ok (.float p)
  noProbability : gen.branching ≠ .quantitative →
    t.graph.edgeCatalog.contains Schema.probName = false
  further : ∀ name default, gen.transitionProperties.get? name = some default →
    ∀ e s o, gen.StandsFor t e s o → t.graph.edgeValueByName name e =
      .ok (((gen.transitionAttributes s o.1 o.2.1).get? name).getD default)
  edgeCount : t.graph.edgeCount = (gen.states.map fun s => (gen.outcomes s).length).sum
  deterministic : gen.branching = .deterministic →
    t.graph.edgeCount = gen.states.length * gen.actions.length

/-- A system that was compiled from a generator represents it. -/
theorem represents_of_compile_eq_ok [ToValue σ] [ToValue α] [Shown σ] [Shown α]
    {options : CompileOptions} {owner : Identity} {t : TransitionSystem σ α}
    (hcompile : gen.compile options owner = .ok t) : gen.Represents t := by
  obtain ⟨hfew, hacceptable, hkeys, hcompiled⟩ := compiled_of_compile_eq_ok hcompile
  have hgrown := hcompiled.grown hacceptable hfew hkeys
  have hvalue := fun {e s o} (hstands : gen.StandsFor t e s o) {name default}
    (hdefault : gen.schema.edge.get? name = some default) =>
      hcompiled.edgeValueByName_eq hacceptable hfew hgrown hstands hdefault
  constructor
  case nodeCount => exact hcompiled.nodeCount_eq hfew
  case nodeOf =>
    intro i s hi
    exact (get?_index_iff hcompiled.states s _).2 ⟨i, hi, rfl⟩
  case stateOf =>
    intro n
    rw [TransitionSystem.stateOf?, OrderedMap.entryAt?, ← List.getElem?_map,
      show t.states.entries = numbered gen.states from hcompiled.states, map_fst_numbered]
  case edges => exact hcompiled.mem_edges_iff hacceptable hfew hgrown
  case action =>
    intro e s o hstands
    have hdefault : gen.schema.edge.get? Schema.actionName = some .null :=
      hacceptable.get?_edge_of_reserved (by decide)
    rw [hvalue hstands hdefault, lookup_actionName, Option.getD_some]
  case probability =>
    intro hweighted e s o hstands
    have hs := (mem_states_of_nodeOf? hcompiled.states hstands.source).1
    have ho := (List.mem_filter.1 (List.mem_of_getElem? hstands.key)).1
    obtain ⟨p, hp⟩ := hacceptable.exists_probability hweighted hs ho
    have hdefault : gen.schema.edge.get? Schema.probName = some (.int (-1)) := by
      rw [hacceptable.get?_edge_of_reserved (by decide), hweighted]
      rfl
    refine ⟨p, hp, ?_⟩
    rw [hvalue hstands hdefault, lookup_probName gen s o.1 hp, Option.getD_some]
  case noProbability => exact hcompiled.contains_probName hacceptable
  case further =>
    intro name default hdefault e s o hstands
    have hedge : gen.schema.edge.get? name = some default :=
      Schema.get?_edgeProperties_of_some hdefault gen.branching
    rw [hvalue hstands hedge, lookup_further (hacceptable.isFurtherEdge hdefault)]
  case edgeCount => exact hcompiled.edgeCount_eq
  case deterministic =>
    intro hdeterministic
    rw [hcompiled.edgeCount_eq]
    exact sum_map_eq_length_mul fun s hs => hacceptable.length_outcomes hdeterministic hs

/-- A state with two actions, one of which leads back to it in two ways. -/
def retrying : Generator Bool String where
  states := [true]
  actions := ["wait", "retry"]
  delta := fun s a => .choice (if a = "retry" then [s, s] else [s])
  deterministic := false
  qualitative := true
  transitionProperties := OrderedMap.empty.insert "cost" (.int 1)

/-- Three parallel loops are represented. -/
theorem represents_retrying :
    ∃ t, retrying.compile .standard ⟨0⟩ = .ok t ∧ retrying.Represents t := by
  obtain ⟨t, ht⟩ := exists_compile_eq_ok retrying .standard ⟨0⟩ (by decide) (by decide) (by decide)
  exact ⟨t, ht, represents_of_compile_eq_ok ht⟩

end Generator

end StateGraph
