import StateGraph.Proofs.Compilation.Reopening

set_option autoImplicit false

/-!
# States and nodes are in bijection

A state is found by its key and a node by its position.  That the one undoes the other rests
on one fact: the nodes in the index of states are all nodes of the graph, from 0 on
(`TransitionSystem.Bijective`).

Compilations see to it, and so does reopening, which refuses a graph if two of its nodes hold the
same state (`TransitionSystem.Reopens`).
-/

namespace StateGraph

namespace TransitionSystem

variable {σ α : Type}

/-! ## States by position and by key -/

/-- States and nodes are in bijection. -/
structure Bijective [DecidableEq σ] (t : TransitionSystem σ α) : Prop where
  size : t.size = t.graph.nodeCount
  stateOf_isSome : ∀ n, (t.stateOf? n).isSome = true ↔ t.graph.hasNode n = true
  nodeOf_iff : ∀ s n, t.nodeOf? s = some n ↔ t.stateOf? n = some s
  listed : ∀ s n, (s, n) ∈ t.states.toList ↔ t.nodeOf? s = some n
  /-- in increasing order, from 0 -/
  nodes : t.states.toList.map Prod.snd =
    (List.range t.graph.nodeCount).map fun i => ⟨i.toUInt32⟩

section Nodes

variable {t : TransitionSystem σ α}

/-- The entry at a position has this position as its node. -/
theorem snd_entryAt? (hnodes : t.states.toList.map Prod.snd = t.graph.nodes.toList) {i : Nat}
    {e : σ × NodeId} (he : t.states.entryAt? i = some e) :
    i < t.graph.nodeCount ∧ e.2 = ⟨i.toUInt32⟩ := by
  have hnode : (t.states.toList.map Prod.snd)[i]? = some e.2 := by
    rw [List.getElem?_map, show t.states.toList[i]? = some e from he]
    rfl
  rw [hnodes, Graph.nodes, Adjacency.toList_nodes, List.getElem?_map, Option.map_eq_some_iff]
    at hnode
  obtain ⟨j, hj, hnode⟩ := hnode
  obtain ⟨hlt, hj⟩ := List.getElem?_eq_some_iff.1 hj
  rw [List.getElem_range] at hj
  rw [List.length_range] at hlt
  exact ⟨hlt, by rw [← hnode, hj]⟩

/-- A state and its node are found in the same entry. -/
theorem stateOf?_eq_some_iff (hnodes : t.states.toList.map Prod.snd = t.graph.nodes.toList) (s : σ)
    (n : NodeId) : t.stateOf? n = some s ↔ (s, n) ∈ t.states.toList := by
  rw [stateOf?, Option.map_eq_some_iff]
  constructor
  · rintro ⟨⟨s', n'⟩, hentry, rfl⟩
    obtain ⟨-, hnode⟩ := snd_entryAt? hnodes hentry
    have hsame : n' = n := by rw [show n' = _ from hnode, Nat.toUInt32, UInt32.ofNat_toNat]
    exact hsame ▸ List.mem_of_getElem? hentry
  · intro hmem
    obtain ⟨i, hentry⟩ := List.getElem?_of_mem hmem
    obtain ⟨hlt, hnode⟩ := snd_entryAt? hnodes hentry
    have hindex : n.index.toNat = i := by
      rw [show n = _ from hnode]
      exact toNat_toUInt32 (Nat.lt_trans hlt t.graph.adjacency.nodeCount.toNat_lt)
    exact ⟨(s, n), hindex ▸ hentry, rfl⟩

/-- It is enough that the nodes of the index are all nodes in order. -/
theorem bijective_of_nodes [DecidableEq σ]
    (hnodes : t.states.toList.map Prod.snd = t.graph.nodes.toList) : t.Bijective := by
  have hsize : t.states.toList.length = t.graph.nodeCount := by
    have hlength := congrArg List.length hnodes
    rwa [Graph.nodes, Adjacency.toList_nodes, List.length_map, List.length_map,
      List.length_range] at hlength
  have hlisted : ∀ s n, (s, n) ∈ t.states.toList ↔ t.nodeOf? s = some n := fun s n =>
    (OrderedMap.get?_eq_some_iff _ _ _).symm
  constructor
  case size => exact hsize
  case listed => exact hlisted
  case nodes => rw [hnodes, Graph.nodes, Adjacency.toList_nodes, Graph.nodeCount]
  case nodeOf_iff =>
    intro s n
    rw [stateOf?_eq_some_iff hnodes, hlisted]
  case stateOf_isSome =>
    intro n
    rw [stateOf?, Option.isSome_map, OrderedMap.entryAt?, isSome_getElem?, Graph.hasNode,
      Adjacency.hasNode_iff]
    exact iff_of_eq (congrArg (n.index.toNat < ·) hsize)

end Nodes

/-! ## Reopened systems -/

/-- What comes of reopening a graph. -/
structure Reopens (g : Graph) : Prop where
  accepted : (∃ t, ofGraph g = .ok t) ↔ Metadata g ∧ DistinctStates g
  missing : ¬ Metadata g → ∃ fault, (metadataFaults g).head? = some fault ∧
    ofGraph g = .error (.missingMetadata fault)
  /-- the first node whose state came before is reported -/
  repeated : Metadata g → ¬ DistinctStates g → ∃ before n after,
    g.nodes.toList = before ++ n :: after ∧ (before.map (stateIn g)).Nodup ∧
      stateIn g n ∈ before.map (stateIn g) ∧
      ofGraph g = .error (.duplicateState (stateIn g n).display)
  neverGraph : ∀ e, ofGraph g ≠ .error (.graph e)
  read : Metadata g → ∀ n, g.hasNode n = true →
    g.nodeValueByName Schema.stateName n = .ok (stateIn g n)
  same : ∀ t, ofGraph g = .ok t → t.graph = g
  bijective : ∀ t, ofGraph g = .ok t → t.Bijective
  stateOf : ∀ t, ofGraph g = .ok t → ∀ n, g.hasNode n = true → t.stateOf? n = some (stateIn g n)

/-- Every graph is either reopened or refused for what it lacks. -/
theorem reopens_of_graph (g : Graph) : Reopens g := by
  have hnodes : ∀ t, ofGraph g = .ok t → t.graph = g ∧
      t.states.toList.map Prod.snd = t.graph.nodes.toList := by
    intro t ht
    obtain ⟨-, rfl, hstates⟩ := (settles_ofGraph g).faults_eq_nil ht
    refine ⟨rfl, ?_⟩
    rw [hstates, List.map_map]
    exact List.map_id _
  constructor
  case accepted => exact exists_ofGraph_eq_ok_iff g
  case missing => exact ofGraph_of_not_metadata
  case repeated => exact ofGraph_of_not_distinctStates
  case neverGraph => exact ofGraph_ne_graph g
  case read => exact fun hmetadata n hn => nodeValueByName_stateName hmetadata.state hn
  case same => exact fun t ht => (hnodes t ht).1
  case bijective => exact fun t ht => bijective_of_nodes (hnodes t ht).2
  case stateOf =>
    intro t ht n hn
    obtain ⟨-, -, hstates⟩ := (settles_ofGraph g).faults_eq_nil ht
    obtain ⟨rfl, hall⟩ := hnodes t ht
    rw [stateOf?_eq_some_iff hall, hstates]
    exact List.mem_map.2 ⟨n, (Adjacency.mem_nodes_toList_iff _ n).2 hn, rfl⟩

end TransitionSystem

namespace Generator

variable {σ α : Type} [DecidableEq σ] [ToValue σ] [ToValue α] {gen : Generator σ α}

/-- Compiled states and their nodes are in bijection. -/
theorem Compiled.bijective {owner : Identity} {t : TransitionSystem σ α}
    (hcompiled : gen.Compiled owner t) (hfew : gen.states.length < 2 ^ 32) : t.Bijective := by
  refine TransitionSystem.bijective_of_nodes ?_
  rw [hcompiled.states, hcompiled.toList_nodes hfew]

end Generator

namespace TransitionSystem

/-- A graph is reopened exactly if it says of itself what a compiled graph says and its nodes hold
different states.  In systems that were reopened or compiled, states and nodes are in
bijection. -/
theorem reopens_and_bijective {σ α : Type} [DecidableEq σ] [ToValue σ] [ToValue α] [Shown σ]
    [Shown α] (g : Graph) (gen : Generator σ α) (options : CompileOptions) (owner : Identity) :
    Reopens g ∧ ∀ t, gen.compile options owner = .ok t → t.Bijective := by
  refine ⟨reopens_of_graph g, fun t ht => ?_⟩
  obtain ⟨hfew, -, -, hcompiled⟩ := Generator.compiled_of_compile_eq_ok ht
  exact hcompiled.bijective hfew

/-- Two nodes that hold the default are refused, one is not; two states are compiled. -/
theorem reopens_and_bijective_twoNodes :
    let metadata : Attributes := .ofList [(kindName, .text "qualitative"),
      (turnBasedName, .bool false), (actionsName, .list [])]
    let holding : UInt32 → Graph := fun nodeCount =>
      ⟨.isolated nodeCount, .declared ⟨0⟩ (.ofList [(Schema.stateName, .int 7)]),
        .declared ⟨0⟩ .empty, metadata⟩
    let gen : Generator Bool Bool :=
      { states := [false, true], actions := [false], delta := fun s _ => .single (!s) }
    ofGraph (holding 2) = .error (.duplicateState "7") ∧ (∃ t, ofGraph (holding 1) = .ok t) ∧
      ∃ t, gen.compile .standard ⟨0⟩ = .ok t ∧ t.Bijective := by
  intro metadata holding gen
  have hmetadata : ∀ nodeCount, Metadata (holding nodeCount) := fun _ =>
    (metadataFaults_eq_nil_iff _).1 rfl
  have hstate : ∀ nodeCount n, stateIn (holding nodeCount) n = .int 7 := fun _ _ => rfl
  obtain ⟨t, ht⟩ := gen.exists_compile_eq_ok .standard ⟨0⟩ (by decide) (by decide) (by decide)
  refine ⟨?_, ?_, t, ht, (reopens_and_bijective (holding 1) gen .standard ⟨0⟩).2 t ht⟩
  · have hrepeated : ¬ DistinctStates (holding 2) := fun hdistinct =>
      absurd (hdistinct ⟨0⟩ ⟨1⟩ (by decide) (by decide) rfl) (by decide)
    obtain ⟨before, n, after, -, -, -, herror⟩ :=
      (reopens_and_bijective (holding 2) gen .standard ⟨0⟩).1.repeated (hmetadata 2) hrepeated
    rw [hstate] at herror
    exact herror
  · have hdistinct : DistinctStates (holding 1) := (repeatedFaults_eq_nil_iff _).1 (by decide)
    exact (reopens_and_bijective (holding 1) gen .standard ⟨0⟩).1.accepted.2
      ⟨hmetadata 1, hdistinct⟩

end TransitionSystem

end StateGraph
