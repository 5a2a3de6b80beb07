import StateGraph.Proofs.Compilation.Rechecking

set_option autoImplicit false

/-!
# Distributions of reopened systems

A graph that is reopened may have been edited: probabilities may be missing, of another kind, or
on edges that no generator knows of.  All that counts are the readings of its edges.  The edges
from a node are split by the action that is read on them (`actionsAt`), and the probabilities
that are read on the edges of one part, in order, must be a distribution (`probabilitiesAt`).

No edge is passed over: each edge from a node is in the part of its own action.
-/

namespace StateGraph.TransitionSystem

/-! ## Readings -/

/-- The number that a probability counts as when it is checked: what is no number, or no number
that is at least 0, counts as not a number. -/
def counted : Value → Binary64
  | .float x => if Binary64.zero.le x then x else .nan
  | .int n => if Binary64.zero.le (.ofInt64 n) then .ofInt64 n else .nan
  | _ => .nan

theorem getD_probability? (v : Value) : (probability? v).getD .nan = counted v := by
  have hfilter : ∀ x : Binary64, ((some x).filter Binary64.zero.le).getD .nan =
      if Binary64.zero.le x then x else .nan := by
    intro x
    rw [Option.filter_some]
    split <;> rfl
  cases v with
  | float x => exact hfilter x
  | int n => exact hfilter (.ofInt64 n)
  | _ => rfl

/-- What counts as a probability is one. -/
theorem exists_asFloat?_of_counted {v : Value}
    (hcounted : Distribution.isProbability (counted v) = true) :
    ∃ x, v.asFloat? = some x ∧ Distribution.isProbability x = true := by
  have hnan : ¬ Distribution.isProbability .nan = true := by decide
  have hnumber : ∀ x, Distribution.isProbability (if Binary64.zero.le x then x else .nan) = true →
      Distribution.isProbability x = true := by
    intro x hx
    split at hx
    · exact hx
    · exact absurd hx hnan
  cases v with
  | float x => exact ⟨x, rfl, hnumber x hcounted⟩
  | int n => exact ⟨.ofInt64 n, rfl, hnumber (.ofInt64 n) hcounted⟩
  | _ => exact absurd hcounted hnan

/-- The actions on the edges from a node, in the order of their first edges. -/
def actionsAt (g : Graph) (n : NodeId) : List Value :=
  arrivals (g.edgeCatalog.held Schema.actionName) (g.outEdges n)

/-- What the probabilities on the edges from a node with one action count as, in the order of the
edges. -/
def probabilitiesAt (g : Graph) (n : NodeId) (v : Value) : List Binary64 :=
  ((g.outEdges n).filter fun e => decide (g.edgeCatalog.held Schema.actionName e = v)).map
    fun e => counted (g.edgeCatalog.held Schema.probName e)

/-- Every edge has its part among the edges from its source. -/
theorem mem_probabilitiesAt {g : Graph} {e : EdgeId} (he : g.hasEdge e = true) :
    g.edgeCatalog.held Schema.actionName e ∈ actionsAt g e.source ∧
      counted (g.edgeCatalog.held Schema.probName e) ∈
        probabilitiesAt g e.source (g.edgeCatalog.held Schema.actionName e) := by
  have hout : e ∈ g.outEdges e.source := (g.adjacency.mem_outEdges_iff e.source e).2 ⟨he, rfl⟩
  exact ⟨(mem_arrivals_iff _ _).2 ⟨e, hout, rfl⟩,
    List.mem_map_of_mem (List.mem_filter.2 ⟨hout, decide_eq_true rfl⟩)⟩

theorem edgeValueByName_of_mem {g : Graph} {name : String} (hname : name ∈ g.edgeCatalog.names)
    {e : EdgeId} (he : g.hasEdge e = true) :
    g.edgeValueByName name e = .ok (g.edgeCatalog.held name e) :=
  Catalog.readByName_of_mem hname he

/-- The properties that a check of distributions reads are declared. -/
structure Readable (g : Graph) : Prop where
  state : Schema.stateName ∈ g.nodeCatalog.names
  action : Schema.actionName ∈ g.edgeCatalog.names
  prob : Schema.probName ∈ g.edgeCatalog.names

/-- The actions at a node are those that are read on its edges. -/
theorem Readable.mem_actionsAt_iff {g : Graph} (hreadable : Readable g) (n : NodeId) (v : Value) :
    v ∈ actionsAt g n ↔ ∃ e ∈ g.outEdges n, g.edgeValueByName Schema.actionName e = .ok v := by
  rw [actionsAt, mem_arrivals_iff]
  refine exists_congr fun e => and_congr_right fun hout => ?_
  have he : g.hasEdge e = true := ((g.adjacency.mem_outEdges_iff n e).1 hout).1
  rw [edgeValueByName_of_mem hreadable.action he, Except.ok.injEq]

/-! ## Checks of nodes -/

section Checks

variable {σ α : Type} {t : TransitionSystem σ α} {options : CompileOptions}

/-- A message names the state of a node. -/
theorem describe_of_readable (hreadable : Readable t.graph) {n : NodeId}
    (hn : t.graph.hasNode n = true) : t.describe n = (stateIn t.graph n).display := by
  rw [describe, nodeValueByName_stateName hreadable.state hn]

/-- The transitions from a node are the readings of its edges. -/
theorem transitions_of_readable (hreadable : Readable t.graph)
    (hweighted : t.branching = .quantitative) {n : NodeId} (hn : t.graph.hasNode n = true) :
    t.transitions n = .ok ((t.graph.outEdges n).map fun e =>
      ⟨e, t.graph.edgeCatalog.held Schema.actionName e,
        probability? (t.graph.edgeCatalog.held Schema.probName e)⟩) := by
  have hnode : t.graph.adjacency.requireNode n = .ok () := if_pos hn
  obtain ⟨action, haction⟩ := Catalog.mem_names_iff.1 hreadable.action
  obtain ⟨prob, hprob⟩ := Catalog.mem_names_iff.1 hreadable.prob
  have hproperty : t.probProperty = .ok (some prob) := by
    rw [probProperty, hweighted, Catalog.byName_eq_ok_iff.2 hprob]
    rfl
  rw [transitions, hnode, ok_bind]
  split
  · -- no successors, no edges: the properties are not looked up
    rename_i hnone
    rw [Graph.outEdges, Adjacency.outEdges_eq_flatMap,
      show t.graph.adjacency.successors n = [] from List.isEmpty_iff.1 hnone]
    rfl
  · rw [Catalog.byName_eq_ok_iff.2 haction, ok_bind, hproperty, ok_bind]
    refine congrArg Except.ok (List.map_congr_left fun e _ => ?_)
    rw [transitionOf, Catalog.held_of_get? haction, Catalog.held_of_get? hprob]
    rfl

/-- A node is checked action by action. -/
theorem checkNode_eq_forM (hreadable : Readable t.graph) (hweighted : t.branching = .quantitative)
    {n : NodeId} (hn : t.graph.hasNode n = true) :
    t.checkNode options n = (actionsAt t.graph n).forM fun v =>
      t.checkAction options n (v, probabilitiesAt t.graph n v) := by
  rw [checkNode, transitions_of_readable hreadable hweighted hn]
  simp only
  rw [toList_probabilitiesByAction, arrivals_map]
  refine List.forM_map.trans (congrArg (List.forM (actionsAt t.graph n)) (funext fun v => ?_))
  rw [probabilitiesOf, List.filter_map, List.map_map]
  refine congrArg (fun ps => t.checkAction options n (v, ps)) ?_
  exact List.map_congr_left fun e _ => getD_probability? _

/-- An action is refused for what is wrong with its probabilities. -/
theorem checkAction_eq_error_iff (options : CompileOptions) (n : NodeId)
    (group : Value × List Binary64) (err : CompileError) :
    t.checkAction options n group = .error err ↔ ∃ fault,
      Distribution.check group.2 options.tolerance = .error fault ∧
      err = .invalidDistribution (t.describe n) group.1.display fault := by
  rw [checkAction]
  cases Distribution.check group.2 options.tolerance with
  | ok => simp
  | error fault => simp [eq_comm]

/-- A node is in order if the probabilities of each action on its edges are. -/
theorem checkNode_eq_ok_iff_actionsAt (hreadable : Readable t.graph)
    (hweighted : t.branching = .quantitative) {n : NodeId} (hn : t.graph.hasNode n = true) :
    t.checkNode options n = .ok () ↔ ∀ v ∈ actionsAt t.graph n,
      Distribution.check (probabilitiesAt t.graph n v) options.tolerance = .ok () := by
  rw [checkNode_eq_forM hreadable hweighted hn, forM_eq_ok_iff]
  simp only [checkAction_eq_ok_iff]

/-- A node is refused for the first of its actions that is not in order. -/
theorem checkNode_eq_error_iff (hreadable : Readable t.graph)
    (hweighted : t.branching = .quantitative) {n : NodeId} (hn : t.graph.hasNode n = true)
    (err : CompileError) :
    t.checkNode options n = .error err ↔ ∃ vs v ws, actionsAt t.graph n = vs ++ v :: ws ∧
      (∀ w ∈ vs,
        Distribution.check (probabilitiesAt t.graph n w) options.tolerance = .ok ()) ∧
      ∃ fault, Distribution.check (probabilitiesAt t.graph n v) options.tolerance = .error fault ∧
        err = .invalidDistribution (stateIn t.graph n).display v.display fault := by
  rw [checkNode_eq_forM hreadable hweighted hn, forM_eq_error_iff]
  simp only [checkAction_eq_ok_iff, checkAction_eq_error_iff, describe_of_readable hreadable hn]

/-! ## Checks of systems -/

/-- The first action that is not in order, at the first node that has one, and what is wrong
with its probabilities. -/
structure FirstRejected (g : Graph) (tolerance : Binary64) (n : NodeId) (v : Value)
    (fault : DistributionFault) : Prop where
  node : ∃ before after, g.nodes.toList = before ++ n :: after ∧ ∀ m ∈ before,
    ∀ w ∈ actionsAt g m, Distribution.check (probabilitiesAt g m w) tolerance = .ok ()
  action : ∃ vs ws, actionsAt g n = vs ++ v :: ws ∧ ∀ w ∈ vs,
    Distribution.check (probabilitiesAt g n w) tolerance = .ok ()
  fault : Distribution.check (probabilitiesAt g n v) tolerance = .error fault

theorem hasNode_of_split {g : Graph} {before after : List NodeId} {n : NodeId}
    (hsplit : g.nodes.toList = before ++ n :: after) :
    (∀ m ∈ before, g.hasNode m = true) ∧ g.hasNode n = true := by
  have hall : ∀ m ∈ before ++ n :: after, g.hasNode m = true := fun m hm =>
    (Adjacency.mem_nodes_toList_iff g.adjacency m).1 (hsplit ▸ hm)
  exact ⟨fun m hm => hall m (List.mem_append_left _ hm),
    hall n (List.mem_append_right _ List.mem_cons_self)⟩

theorem checkDistributions_eq_ok_iff_actionsAt (hreadable : Readable t.graph)
    (hweighted : t.branching = .quantitative) :
    t.checkDistributions options = .ok () ↔ options.isValid = true ∧
      ∀ n, t.graph.hasNode n = true → ∀ v ∈ actionsAt t.graph n,
        Distribution.check (probabilitiesAt t.graph n v) options.tolerance = .ok () := by
  have hnodes : ∀ n, n ∈ t.graph.nodes.toList ↔ t.graph.hasNode n = true :=
    t.graph.adjacency.mem_nodes_toList_iff
  constructor
  · intro hpasses
    have hvalid := isValid_of_checkDistributions hpasses
    rw [checkDistributions_eq_ok_iff hvalid hweighted] at hpasses
    refine ⟨hvalid, fun n hn => ?_⟩
    exact (checkNode_eq_ok_iff_actionsAt hreadable hweighted hn).1 (hpasses n ((hnodes n).2 hn))
  · rintro ⟨hvalid, hall⟩
    rw [checkDistributions_eq_ok_iff hvalid hweighted]
    intro n hmem
    have hn := (hnodes n).1 hmem
    exact (checkNode_eq_ok_iff_actionsAt hreadable hweighted hn).2 (hall n hn)

/-- A system with distributions is refused for the first action that is not in order. -/
theorem checkDistributions_eq_error_iff (hreadable : Readable t.graph)
    (hweighted : t.branching = .quantitative) (hvalid : options.isValid = true)
    (err : CompileError) :
    t.checkDistributions options = .error err ↔ ∃ n v fault,
      FirstRejected t.graph options.tolerance n v fault ∧
      err = .invalidDistribution (stateIn t.graph n).display v.display fault := by
  rw [checkDistributions_eq_forM hvalid hweighted, forM_eq_error_iff]
  constructor
  · rintro ⟨before, n, after, hsplit, hbefore, hnode⟩
    obtain ⟨hearlier, hn⟩ := hasNode_of_split hsplit
    obtain ⟨vs, v, ws, hactions, hvs, fault, hfault, rfl⟩ :=
      (checkNode_eq_error_iff hreadable hweighted hn err).1 hnode
    have haccepted := fun m hm =>
      (checkNode_eq_ok_iff_actionsAt hreadable hweighted (hearlier m hm)).1 (hbefore m hm)
    exact ⟨n, v, fault, ⟨⟨before, after, hsplit, haccepted⟩, ⟨vs, ws, hactions, hvs⟩, hfault⟩, rfl⟩
  · rintro ⟨n, v, fault, ⟨⟨before, after, hsplit, haccepted⟩, ⟨vs, ws, hactions, hvs⟩, hfault⟩, rfl⟩
    obtain ⟨hearlier, hn⟩ := hasNode_of_split hsplit
    refine ⟨before, n, after, hsplit, fun m hm => ?_, ?_⟩
    · exact (checkNode_eq_ok_iff_actionsAt hreadable hweighted (hearlier m hm)).2 (haccepted m hm)
    · exact (checkNode_eq_error_iff hreadable hweighted hn _).2
        ⟨vs, v, ws, hactions, hvs, fault, hfault, rfl⟩

/-- If a system passes, there is a probability on each of its edges. -/
theorem exists_probability_of_checkDistributions (hreadable : Readable t.graph)
    (hweighted : t.branching = .quantitative) (hsound : t.graph.adjacency.Sound)
    (hpasses : t.checkDistributions options = .ok ()) {e : EdgeId}
    (he : t.graph.hasEdge e = true) :
    ∃ v p, t.graph.edgeValueByName Schema.probName e = .ok v ∧ v.asFloat? = some p ∧
      Distribution.isProbability p = true := by
  have hsource : t.graph.hasNode e.source = true := (hsound.endpoints_of_mem_edges
    ((Adjacency.mem_edges_iff t.graph.adjacency e).2 he)).1
  obtain ⟨haction, hmem⟩ := mem_probabilitiesAt he
  have hcheck := ((checkDistributions_eq_ok_iff_actionsAt hreadable hweighted).1 hpasses).2
    e.source hsource _ haction
  obtain ⟨p, hp, hprobability⟩ :=
    exists_asFloat?_of_counted (Distribution.isProbability_of_check hcheck hmem)
  exact ⟨_, p, edgeValueByName_of_mem hreadable.prob he, hp, hprobability⟩

end Checks

/-- A check decides by what is read on the edges, and by all of it. -/
structure Rechecks {σ α : Type} (t : TransitionSystem σ α) (options : CompileOptions) : Prop where
  readsAction : ∀ e, t.graph.hasEdge e = true → t.graph.edgeValueByName Schema.actionName e =
    .ok (t.graph.edgeCatalog.held Schema.actionName e)
  readsProb : ∀ e, t.graph.hasEdge e = true → t.graph.edgeValueByName Schema.probName e =
    .ok (t.graph.edgeCatalog.held Schema.probName e)
  readsState : ∀ n, t.graph.hasNode n = true → t.graph.nodeValueByName Schema.stateName n =
    .ok (stateIn t.graph n)
  actions : ∀ n v, v ∈ actionsAt t.graph n ↔ ∃ e ∈ t.graph.outEdges n,
    t.graph.edgeValueByName Schema.actionName e = .ok v
  accepted : t.branching = .quantitative →
    (t.checkDistributions options = .ok () ↔ options.isValid = true ∧
      ∀ n, t.graph.hasNode n = true → ∀ v ∈ actionsAt t.graph n,
        Distribution.check (probabilitiesAt t.graph n v) options.tolerance = .ok ())
  probable : t.branching = .quantitative → t.checkDistributions options = .ok () →
    ∀ e, t.graph.hasEdge e = true → ∃ v p, t.graph.edgeValueByName Schema.probName e = .ok v ∧
      v.asFloat? = some p ∧ Distribution.isProbability p = true
  rejected : t.branching = .quantitative → options.isValid = true → ∀ err,
    t.checkDistributions options = .error err ↔ ∃ n v fault,
      FirstRejected t.graph options.tolerance n v fault ∧
      err = .invalidDistribution (stateIn t.graph n).display v.display fault
  invalid : ¬ options.isValid = true →
    t.checkDistributions options = .error (.invalidTolerance options.tolerance)
  unweighted : t.branching ≠ .quantitative →
    (t.checkDistributions options = .ok () ↔ options.isValid = true)

theorem rechecks_of_readable {σ α : Type} {t : TransitionSystem σ α} (hreadable : Readable t.graph)
    (hsound : t.graph.adjacency.Sound) (options : CompileOptions) : t.Rechecks options where
  readsAction _ := edgeValueByName_of_mem hreadable.action
  readsProb _ := edgeValueByName_of_mem hreadable.prob
  readsState _ := nodeValueByName_stateName hreadable.state
  actions := hreadable.mem_actionsAt_iff
  accepted hweighted := checkDistributions_eq_ok_iff_actionsAt hreadable hweighted
  probable hweighted hpasses _ :=
    exists_probability_of_checkDistributions hreadable hweighted hsound hpasses
  rejected hweighted hvalid := checkDistributions_eq_error_iff hreadable hweighted hvalid
  invalid hinvalid := by
    rw [checkDistributions, CompileOptions.validate, if_neg hinvalid]
    rfl
  unweighted hunweighted := by
    rw [checkDistributions_of_unweighted hunweighted, CompileOptions.validate]
    split
    · rename_i hvalid
      exact iff_of_true rfl hvalid
    · rename_i hinvalid
      simp [hinvalid]

/-- Whatever a history has made of a graph, if it is reopened and its edges can be read, they
are all looked at when distributions are checked. -/
theorem rechecks_ofGraph_run {g : Graph} (horigin : g.Origin) (requests : List Request)
    {t : TransitionSystem Value Value} (hopened : ofGraph (g.run requests) = .ok t)
    (haction : Schema.actionName ∈ (g.run requests).edgeCatalog.names)
    (hprob : Schema.probName ∈ (g.run requests).edgeCatalog.names) (options : CompileOptions) :
    t.graph = g.run requests ∧ t.Rechecks options := by
  have hgraph : t.graph = g.run requests :=
    ((settles_ofGraph (g.run requests)).faults_eq_nil hopened).2.1
  have hmetadata : Metadata (g.run requests) := ((exists_ofGraph_eq_ok_iff _).1 ⟨t, hopened⟩).1
  have hreadable : Readable t.graph := hgraph ▸ ⟨hmetadata.state, haction, hprob⟩
  have hsound : t.graph.adjacency.Sound :=
    hgraph ▸ (horigin.wellFormed.run requests).adjacency.toSound
  exact ⟨hgraph, rechecks_of_readable hreadable hsound options⟩

/-- Two states, one of which has a probability that is a text. -/
def edited : List Request :=
  [.setAttribute kindName (.text "quantitative"), .setAttribute turnBasedName (.bool false),
    .setAttribute actionsName (.list [.text "go", .text "stay"]),
    .declareNodeProperty Schema.stateName .null, .declareEdgeProperty Schema.actionName .null,
    .declareEdgeProperty Schema.probName (.int (-1)),
    .addNodeWith [(Schema.stateName, .text "x")], .addNodeWith [(Schema.stateName, .text "y")],
    .addEdgeWith ⟨0⟩ ⟨1⟩ [(Schema.actionName, .text "go"), (Schema.probName, .float .one)],
    .addEdgeWith ⟨1⟩ ⟨0⟩ [(Schema.actionName, .text "go"), (Schema.probName, .float .one)],
    .addEdgeWith ⟨1⟩ ⟨1⟩ [(Schema.actionName, .text "stay"), (Schema.probName, .text "1")]]

theorem rechecks_ofGraph_run_edited :
    Schema.actionName ∈ ((Graph.empty ⟨0⟩).run edited).edgeCatalog.names ∧
      Schema.probName ∈ ((Graph.empty ⟨0⟩).run edited).edgeCatalog.names ∧
      ∃ t, ofGraph ((Graph.empty ⟨0⟩).run edited) = .ok t ∧ t.Rechecks .standard ∧
        FirstRejected t.graph CompileOptions.standard.tolerance ⟨1⟩ (.text "stay") (.outside .nan) ∧
        t.checkDistributions .standard =
          .error (.invalidDistribution "y" "stay" (.outside .nan)) := by
  have haction : Schema.actionName ∈ ((Graph.empty ⟨0⟩).run edited).edgeCatalog.names := by decide
  have hprob : Schema.probName ∈ ((Graph.empty ⟨0⟩).run edited).edgeCatalog.names := by decide
  obtain ⟨t, hopened, hweighted, hrefused⟩ : ∃ t, ofGraph ((Graph.empty ⟨0⟩).run edited) = .ok t ∧
      t.branching = .quantitative ∧ t.checkDistributions .standard =
        .error (.invalidDistribution "y" "stay" (.outside .nan)) :=
    exists_eq_ok_of_test (by decide +kernel)
  obtain ⟨hgraph, hrechecks⟩ :=
    rechecks_ofGraph_run (.new ⟨0⟩) edited hopened haction hprob .standard
  refine ⟨haction, hprob, t, hopened, hrechecks, ?_, hrefused⟩
  rw [hgraph]
  exact {
    node := ⟨[⟨0⟩], [], by decide, by decide +kernel⟩
    action := ⟨[.text "go"], [], by decide, by decide +kernel⟩
    fault := by decide }

end StateGraph.TransitionSystem
