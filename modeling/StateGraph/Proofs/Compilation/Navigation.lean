import StateGraph.Proofs.Compilation.Represents

set_option autoImplicit false

/-!
# Transitions in the order of the graph

A generator says what a state leads to action by action; the graph lists the edges of
a node target by target.  So the transitions of a state are its outcomes, regrouped by
their targets in the order in which these arrive (`Generator.Compiled.transitions_eq`).
-/

namespace StateGraph

namespace Distribution

/-! ## Probabilities -/

/-- Only probabilities are added up. -/
theorem isProbability_of_sumFrom {ps : List Binary64} {start total : Binary64}
    (hsum : sumFrom start ps = .ok total) {p : Binary64} (hp : p ∈ ps) :
    isProbability p = true := by
  induction ps generalizing start with
  | nil => cases hp
  | cons q ps ih =>
    rw [sumFrom] at hsum
    split at hsum
    · rename_i hq
      rcases List.mem_cons.1 hp with rfl | hrest
      · exact hq
      · exact ih hsum hrest
    · cases hsum

theorem isProbability_of_check {ps : List Binary64} {tolerance : Binary64}
    (hcheck : check ps tolerance = .ok ()) {p : Binary64} (hp : p ∈ ps) :
    isProbability p = true := by
  unfold check at hcheck
  split at hcheck
  · cases hcheck
  · rename_i hsum
    exact isProbability_of_sumFrom hsum hp

end Distribution

namespace Generator

variable {σ α : Type} {gen : Generator σ α} {options : CompileOptions}

/-- Probabilities of outcomes are accepted as such. -/
theorem Acceptable.isProbability (hacceptable : gen.Acceptable options) {s : σ}
    (hs : s ∈ gen.states) {o : α × σ × Option Binary64} (ho : o ∈ gen.outcomes s) {p : Binary64}
    (hp : o.2.2 = some p) : Distribution.isProbability p = true := by
  obtain ⟨haction, htarget⟩ := (mem_outcomes_iff s o).1 ho
  cases hanswer : gen.delta s o.1 with
  | single s' =>
    rw [hanswer] at htarget
    rw [List.mem_singleton.1 htarget] at hp
    cases hp
  | choice ss =>
    rw [hanswer] at htarget
    obtain ⟨s', -, heq⟩ := List.mem_map.1 htarget
    rw [← heq] at hp
    cases hp
  | weighted ps =>
    rw [hanswer] at htarget
    obtain ⟨entry, hentry, heq⟩ := List.mem_map.1 htarget
    rw [← heq] at hp
    cases hp
    exact Distribution.isProbability_of_check
      (hacceptable.distributions s hs o.1 haction ps hanswer) (List.mem_map_of_mem hentry)

/-- Without distributions, no outcome has a probability. -/
theorem Acceptable.probability_eq_none (hacceptable : gen.Acceptable options)
    (hunweighted : gen.branching ≠ .quantitative) {s : σ} (hs : s ∈ gen.states)
    {o : α × σ × Option Binary64} (ho : o ∈ gen.outcomes s) : o.2.2 = none := by
  obtain ⟨haction, htarget⟩ := (mem_outcomes_iff s o).1 ho
  have hshape := hacceptable.shapes s hs o.1 haction
  cases hanswer : gen.delta s o.1 with
  | single s' =>
    rw [hanswer] at htarget
    rw [List.mem_singleton.1 htarget]
  | choice ss =>
    rw [hanswer] at htarget
    obtain ⟨s', -, heq⟩ := List.mem_map.1 htarget
    rw [← heq]
  | weighted ps =>
    rw [hanswer] at hshape
    cases hbranching : gen.branching with
    | deterministic => simp [hbranching, Successors.shape, expectedShape] at hshape
    | qualitative => simp [hbranching, Successors.shape, expectedShape] at hshape
    | quantitative => exact absurd hbranching hunweighted

variable [DecidableEq σ]

/-! ## Outcomes target by target -/

/-- The states that the outcomes of a state lead to, in the order of arrival. -/
def targetsOf (gen : Generator σ α) (s : σ) : List σ := arrivals (fun o => o.2.1) (gen.outcomes s)

theorem mem_targetsOf_iff (s s' : σ) : s' ∈ gen.targetsOf s ↔ ∃ o ∈ gen.outcomes s, o.2.1 = s' :=
  mem_arrivals_iff (gen.outcomes s) s'

/-- The transitions of a state: its outcomes, target by target, each with its place among
those that lead to the same target as its key. -/
def transitionsOf [ToValue α] (gen : Generator σ α) (index : OrderedMap σ NodeId) (s : σ) :
    List Transition :=
  (gen.targetsOf s).flatMap fun s' => (gen.outcomesTo s s').zipIdx.map fun e =>
    ⟨⟨nodeIn index s, nodeIn index s', e.2.toUInt32⟩, toValue e.1.1, e.1.2.2⟩

/-- Apart from their edges, transitions are regrouped outcomes. -/
theorem map_transitionsOf [ToValue α] (index : OrderedMap σ NodeId) (s : σ) :
    (gen.transitionsOf index s).map (fun t => (t.action, t.probability)) =
      (regroup (fun o => o.2.1) (gen.outcomes s)).map fun o => (toValue o.1, o.2.2) := by
  rw [transitionsOf, regroup, List.map_flatMap, List.map_flatMap]
  refine List.flatMap_congr fun s' _ => ?_
  have hplaces : (gen.outcomesTo s s').zipIdx.map Prod.fst = gen.outcomesTo s s' :=
    List.zipIdx_map_fst 0 _
  rw [outcomesTo] at hplaces
  conv_rhs => rw [← hplaces]
  rw [List.map_map, List.map_map]
  rfl

/-- A transition has the action and the probability of an outcome. -/
theorem exists_of_mem_transitionsOf [ToValue α] {index : OrderedMap σ NodeId} {s : σ}
    {tr : Transition} (htr : tr ∈ gen.transitionsOf index s) :
    ∃ o ∈ gen.outcomes s, toValue o.1 = tr.action ∧ o.2.2 = tr.probability := by
  have hmem : (tr.action, tr.probability) ∈
      (gen.transitionsOf index s).map fun t => (t.action, t.probability) :=
    List.mem_map_of_mem htr
  rw [map_transitionsOf] at hmem
  obtain ⟨o, ho, heq⟩ := List.mem_map.1 hmem
  exact ⟨o, (perm_regroup _ _).mem_iff.1 ho, (Prod.mk.inj heq).1, (Prod.mk.inj heq).2⟩

theorem mem_action_transitionsOf_iff [ToValue α] (index : OrderedMap σ NodeId) (s : σ) (v : Value) :
    v ∈ (gen.transitionsOf index s).map (·.action) ↔ ∃ o ∈ gen.outcomes s, toValue o.1 = v := by
  have hactions : (gen.transitionsOf index s).map (·.action) =
      (regroup (fun o => o.2.1) (gen.outcomes s)).map fun o => toValue o.1 := by
    have hboth := congrArg (List.map Prod.fst) (gen.map_transitionsOf index s)
    rwa [List.map_map, List.map_map] at hboth
  rw [hactions, List.mem_map]
  exact exists_congr fun o => and_congr_left fun _ => (perm_regroup _ _).mem_iff

variable [ToValue α]

/-- The new edges from the node of a state are its outcomes. -/
theorem filter_source_newEdges (hacceptable : gen.Acceptable options)
    {index : OrderedMap σ NodeId} (hindex : index.toList = numbered gen.states)
    (hfew : gen.states.length < 2 ^ 32) {s : σ} (hs : s ∈ gen.states) :
    (gen.newEdges index).filter (fun d => decide (d.source = nodeIn index s)) =
      (gen.outcomes s).map (gen.newEdge index s) := by
  have hsource : ∀ s₁ ∈ gen.states, ∀ d ∈ (gen.outcomes s₁).map (gen.newEdge index s₁),
      d.source = nodeIn index s ↔ s₁ = s := by
    intro s₁ hs₁ d hd
    obtain ⟨o, -, rfl⟩ := List.mem_map.1 hd
    exact ⟨nodeIn_inj hindex hfew hs₁ hs, congrArg (nodeIn index)⟩
  rw [newEdges, List.filter_flatMap, flatMap_eq_of_unique hacceptable.distinct hs]
  · exact List.filter_eq_self.2 fun d hd => decide_eq_true ((hsource s hs d hd).2 rfl)
  · intro s₁ hs₁ hne
    rw [List.filter_eq_nil_iff]
    intro d hd heq
    exact hne ((hsource s₁ hs₁ d hd).1 (of_decide_eq_true heq))

/-! ## The node of a state -/

section Nodes

variable [ToValue σ] {owner : Identity} {t : TransitionSystem σ α}

theorem Compiled.nodeOf?_eq (hcompiled : gen.Compiled owner t) {s : σ} (hs : s ∈ gen.states) :
    t.nodeOf? s = some (nodeIn t.states s) := by
  obtain ⟨-, -, hget, -⟩ := exists_position hcompiled.states hs
  exact hget

theorem Compiled.hasNode_nodeIn (hcompiled : gen.Compiled owner t)
    (hfew : gen.states.length < 2 ^ 32) {s : σ} (hs : s ∈ gen.states) :
    t.graph.hasNode (nodeIn t.states s) = true := by
  obtain ⟨i, hi, -, hnode⟩ := exists_position hcompiled.states hs
  obtain ⟨hlt, -⟩ := List.getElem?_eq_some_iff.1 hi
  have hcount : t.graph.adjacency.nodeCount.toNat = gen.states.length := hcompiled.nodeCount_eq hfew
  rw [Graph.hasNode, Adjacency.hasNode_iff, hnode, hcount]
  show i.toUInt32.toNat < gen.states.length
  rwa [toNat_toUInt32 (Nat.lt_trans hlt hfew)]

/-- The successors of the node of a state. -/
theorem Compiled.successors_eq (hcompiled : gen.Compiled owner t)
    (hacceptable : gen.Acceptable options) (hfew : gen.states.length < 2 ^ 32) {s : σ}
    (hs : s ∈ gen.states) :
    t.graph.adjacency.successors (nodeIn t.states s) =
      (gen.targetsOf s).map (nodeIn t.states) := by
  obtain ⟨g, hisolated, -, hadjacency, -⟩ := hcompiled.edges
  have hnone : g.adjacency.successors (nodeIn t.states s) = [] := by
    rw [hisolated]
    rfl
  have hnodes : arrivals NewEdge.target ((gen.outcomes s).map (gen.newEdge t.states s)) =
      arrivals (fun o => nodeIn t.states o.2.1) (gen.outcomes s) := by
    rw [arrivals, arrivals, List.map_map]
    rfl
  rw [hadjacency, Graph.successors_withEdges hnone,
    filter_source_newEdges hacceptable hcompiled.states hfew hs, hnodes, targetsOf]
  refine arrivals_rename fun o ho o' ho' heq => ?_
  exact nodeIn_inj hcompiled.states hfew (hacceptable.mem_states hs ho)
    (hacceptable.mem_states hs ho') heq

end Nodes

/-! ## The edges of a state -/

section Edges

variable [ToValue σ] {owner : Identity} {t : TransitionSystem σ α}

omit [ToValue α] [ToValue σ] in
theorem StandsFor.mem (hstates : t.states.toList = numbered gen.states) {e : EdgeId} {s : σ}
    {o : α × σ × Option Binary64} (hstands : gen.StandsFor t e s o) :
    s ∈ gen.states ∧ o ∈ gen.outcomes s :=
  ⟨(mem_states_of_nodeOf? hstates hstands.source).1,
    (List.mem_filter.1 (List.mem_of_getElem? hstands.key)).1⟩

/-- A property of the schema holds what the outcomes of edges say. -/
theorem Compiled.exists_edgeProperty (hcompiled : gen.Compiled owner t)
    (hacceptable : gen.Acceptable options) (hfew : gen.states.length < 2 ^ 32)
    (hgrown : t.graph.Grown (gen.newEdges t.states)) {name : String} {default : Value}
    (hdefault : gen.schema.edge.get? name = some default) :
    ∃ p, t.graph.edgeCatalog.byName name = .ok p ∧ ∀ e s o, gen.StandsFor t e s o →
      p.valueOf e = (AssocList.lookup name (gen.transitionValues s o.1 o.2)).getD default := by
  have hcatalog := (hcompiled.default?_edgeCatalog name).trans hdefault
  obtain ⟨p, hget, -⟩ := Option.map_eq_some_iff.1 hcatalog
  have hname := Catalog.byName_eq_ok_iff.2 hget
  refine ⟨p, hname, fun e s o hstands => ?_⟩
  have hread := hcompiled.edgeValueByName_eq hacceptable hfew hgrown hstands hdefault
  have he := hcompiled.hasEdge_of_standsFor hacceptable hfew hgrown hstands
  rw [Graph.edgeValueByName, Catalog.readByName_of_byName hname he] at hread
  exact Except.ok.inj hread

/-- The actions of outcomes stand on their edges. -/
theorem Compiled.exists_action (hcompiled : gen.Compiled owner t)
    (hacceptable : gen.Acceptable options) (hfew : gen.states.length < 2 ^ 32)
    (hgrown : t.graph.Grown (gen.newEdges t.states)) :
    ∃ p, t.graph.edgeCatalog.byName Schema.actionName = .ok p ∧
      ∀ e s o, gen.StandsFor t e s o → p.valueOf e = toValue o.1 := by
  have hdefault : gen.schema.edge.get? Schema.actionName = some .null :=
    hacceptable.get?_edge_of_reserved (by decide)
  exact hcompiled.exists_edgeProperty hacceptable hfew hgrown hdefault

/-- The probabilities of outcomes stand on their edges, if they have any. -/
theorem Compiled.exists_prob (hcompiled : gen.Compiled owner t)
    (hacceptable : gen.Acceptable options) (hfew : gen.states.length < 2 ^ 32)
    (hgrown : t.graph.Grown (gen.newEdges t.states)) :
    ∃ prob, t.probProperty = .ok prob ∧ ∀ e s o, gen.StandsFor t e s o →
      (prob.bind fun p => TransitionSystem.probability? (p.valueOf e)) = o.2.2 := by
  have hbranching : t.branching = gen.branching :=
    congrArg TransitionSystem.branching hcompiled.assembled
  rw [TransitionSystem.probProperty, hbranching]
  by_cases hweighted : gen.branching = .quantitative
  · have hdefault : gen.schema.edge.get? Schema.probName = some (.int (-1)) := by
      rw [hacceptable.get?_edge_of_reserved (by decide), hweighted]
      rfl
    obtain ⟨prob, hname, hvalue⟩ :=
      hcompiled.exists_edgeProperty hacceptable hfew hgrown hdefault
    refine ⟨some prob, ?_, fun e s o hstands => ?_⟩
    · rw [hweighted, hname]
      rfl
    · obtain ⟨hs, ho⟩ := hstands.mem hcompiled.states
      obtain ⟨p, hp⟩ := hacceptable.exists_probability hweighted hs ho
      have haccepted := hacceptable.isProbability hs ho hp
      rw [Distribution.isProbability, Bool.and_eq_true, Bool.and_eq_true] at haccepted
      rw [Option.bind_some, hvalue e s o hstands, lookup_probName gen s o.1 hp, Option.getD_some,
        TransitionSystem.probability?, Value.asFloat?, Option.filter_some, if_pos haccepted.1.2, hp]
  · refine ⟨none, ?_, fun e s o hstands => ?_⟩
    · cases hcase : gen.branching with
      | deterministic => rfl
      | qualitative => rfl
      | quantitative => exact absurd hcase hweighted
    · obtain ⟨hs, ho⟩ := hstands.mem hcompiled.states
      rw [Option.bind_none, hacceptable.probability_eq_none hweighted hs ho]

/-- The place of an outcome among those that lead to the same state is the key of its
edge. -/
theorem Compiled.standsFor_getElem (hcompiled : gen.Compiled owner t)
    (hacceptable : gen.Acceptable options) {s s' : σ} (hs : s ∈ gen.states)
    (hroom : (gen.outcomesTo s s').length ≤ 2 ^ 32) {k : Nat}
    (hk : k < (gen.outcomesTo s s').length) :
    gen.StandsFor t ⟨nodeIn t.states s, nodeIn t.states s', k.toUInt32⟩ s
      (gen.outcomesTo s s')[k] := by
  obtain ⟨hmem, hleads⟩ := List.mem_filter.1 (List.getElem_mem hk)
  have htarget : (gen.outcomesTo s s')[k].2.1 = s' := of_decide_eq_true hleads
  have hkey : k.toUInt32.toNat = k := toNat_toUInt32 (Nat.lt_of_lt_of_le hk hroom)
  constructor
  case source => exact hcompiled.nodeOf?_eq hs
  case target =>
    rw [hcompiled.nodeOf?_eq (hacceptable.mem_states hs hmem), htarget]
  case key =>
    rw [htarget, hkey]
    exact List.getElem?_eq_getElem hk

/-- The transitions from the node of a state are its outcomes, target by target. -/
theorem Compiled.transitions_eq (hcompiled : gen.Compiled owner t)
    (hacceptable : gen.Acceptable options) (hfew : gen.states.length < 2 ^ 32)
    (hkeys : gen.HasKeys) {s : σ} (hs : s ∈ gen.states) :
    t.transitions (nodeIn t.states s) = .ok (gen.transitionsOf t.states s) := by
  have hgrown := hcompiled.grown hacceptable hfew hkeys
  have hsuccessors := hcompiled.successors_eq hacceptable hfew hs
  have hnode : t.graph.adjacency.requireNode (nodeIn t.states s) = .ok () :=
    if_pos (hcompiled.hasNode_nodeIn hfew hs)
  obtain ⟨action, haction, hactionOf⟩ := hcompiled.exists_action hacceptable hfew hgrown
  obtain ⟨prob, hprob, hprobOf⟩ := hcompiled.exists_prob hacceptable hfew hgrown
  rw [TransitionSystem.transitions, hnode, ok_bind, Graph.successors, hsuccessors]
  by_cases hempty : gen.targetsOf s = []
  · rw [transitionsOf, hempty]
    rfl
  · have hsome : ((gen.targetsOf s).map (nodeIn t.states)).isEmpty = false := by simpa using hempty
    rw [hsome, if_neg Bool.false_ne_true, haction, ok_bind, hprob, ok_bind]
    show Except.ok _ = Except.ok _
    rw [Graph.outEdges, Adjacency.outEdges_eq_flatMap, hsuccessors, List.flatMap_map,
      List.map_flatMap, transitionsOf]
    refine congrArg _ (List.flatMap_congr fun s' hs' => ?_)
    obtain ⟨o, ho, rfl⟩ := (mem_targetsOf_iff s s').1 hs'
    have hstate := hacceptable.mem_states hs ho
    rw [hcompiled.keyCount_eq hacceptable hfew hgrown (hcompiled.nodeOf?_eq hs)
      (hcompiled.nodeOf?_eq hstate)]
    refine List.ext_getElem (by simp) fun k hleft _ => ?_
    have hk : k < (gen.outcomesTo s o.2.1).length := by simpa using hleft
    have hstands := hcompiled.standsFor_getElem hacceptable hs (hkeys s hs o.2.1 hstate) hk
    simp [TransitionSystem.transitionOf, hactionOf _ _ _ hstands, hprobOf _ _ _ hstands]

end Edges

end Generator

end StateGraph
