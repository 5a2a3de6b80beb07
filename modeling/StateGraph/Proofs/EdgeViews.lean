import Mathlib.Algebra.BigOperators.Group.List.Basic
import StateGraph.Proofs.Regrouping
import StateGraph.Proofs.Restore
import StateGraph.Proofs.Spans

set_option autoImplicit false

/-!
# The views of the edges agree

Edges can be looked at in many ways: all at once, one by one, by source, by target, by
pair, as entries with highest keys, and by number.  Each view is computed from another
part of the adjacency.  The list of all edges is the measure here: it is compared with the
entries first (`Adjacency.edges_eq_flatMap_entries`), and each other view is then a part
of it.

All views agree in every graph that a history leads to, the edge counter among them
(`Graph.edgesAgree_run`).  Only the number of edges of a pair is not always there: a pair
all of whose keys are in use has one edge more than the largest word.
-/

namespace StateGraph

/-! ## Nodes -/

namespace Adjacency

/-- All nodes are those that exist. -/
theorem mem_nodes_toList_iff (a : Adjacency) (n : NodeId) :
    n ∈ a.nodes.toList ↔ a.hasNode n = true := by
  rw [NodeSpan.mem_toList_iff, NodeSpan.contains, hasNode, Bool.and_eq_true]
  exact and_iff_right (decide_eq_true UInt32.zero_le)

/-- All nodes, in increasing order from 0. -/
theorem toList_nodes (a : Adjacency) :
    a.nodes.toList = (List.range a.nodeCount.toNat).map fun i => ⟨i.toUInt32⟩ := by
  refine List.map_congr_left fun i _ => ?_
  rw [show a.nodes.start.toNat + i = i from Nat.zero_add i]

theorem length_nodes (a : Adjacency) : a.nodes.toList.length = a.nodeCount.toNat := by
  rw [toList_nodes, List.length_map, List.length_range]

/-- A node stands at the place of its number. -/
theorem getElem?_nodes {a : Adjacency} {n : NodeId} (hn : a.hasNode n = true) :
    a.nodes.toList[n.index.toNat]? = some n := by
  rw [toList_nodes, List.getElem?_map, List.getElem?_range ((hasNode_iff a n).1 hn),
    Option.map_some, Nat.toUInt32, UInt32.ofNat_toNat]

/-! ## Edges and entries -/

theorem length_keysUpTo (highest : UInt32) : (keysUpTo highest).length = highest.toNat + 1 := by
  rw [keysUpTo, List.length_map, List.length_range]

theorem nodup_keysUpTo (highest : UInt32) : (keysUpTo highest).Nodup := by
  have hbound := highest.toNat_lt
  refine List.nodup_range.map_on fun i hi j hj heq => ?_
  have hilt := List.mem_range.1 hi
  have hjlt := List.mem_range.1 hj
  exact toUInt32_inj (by omega) (by omega) heq

/-- Edges of different pairs, each with keys up to its own, are different. -/
theorem nodup_flatMap_keysUpTo {α : Type} {l : List α} {pair : α → NodeId × NodeId}
    (hpairs : (l.map pair).Nodup) (highest : α → UInt32) :
    (l.flatMap fun x =>
      (keysUpTo (highest x)).map fun k => EdgeId.mk (pair x).1 (pair x).2 k).Nodup := by
  rw [List.nodup_flatMap]
  constructor
  · intro x _
    exact (nodup_keysUpTo (highest x)).map fun _ _ heq => congrArg EdgeId.key heq
  · refine (List.pairwise_map.1 hpairs).imp ?_
    intro x y hne
    refine List.disjoint_left.2 fun e hx hy => ?_
    obtain ⟨k, -, rfl⟩ := List.mem_map.1 hx
    obtain ⟨j, -, heq⟩ := List.mem_map.1 hy
    exact hne (congrArg EdgeId.endpoints heq).symm

/-- No edge is listed twice: a pair has one entry, and an entry has each key once. -/
theorem nodup_edges (a : Adjacency) : a.edges.Nodup := by
  rw [edges_eq_flatMap_entries]
  exact nodup_flatMap_keysUpTo a.nodup_pairs fun entry => entry.2.2

/-- As many edges are listed as the entries stand for. -/
theorem length_edges (a : Adjacency) : a.edges.length = a.entryTotal := by
  rw [edges_eq_flatMap_entries, List.length_flatMap, entryTotal]
  simp only [List.length_map, length_keysUpTo]

/-! ## Edges by source and by target -/

/-- The edges from a node stand together in the list of all edges. -/
theorem filter_source_edges (a : Adjacency) (n : NodeId) :
    (a.edges.filter fun e => decide (e.source = n)) = a.outEdges n := by
  have hall : ∀ ts : OrderedMap NodeId UInt32, ∀ e ∈ edgesTo n ts, e.source = n := by
    intro ts e he
    obtain ⟨target, -, hmem⟩ := List.mem_flatMap.1 he
    obtain ⟨k, -, rfl⟩ := List.mem_map.1 hmem
    rfl
  have hnone : ∀ u ts, u ≠ n → ((edgesTo u ts).filter fun e => decide (e.source = n)) = [] := by
    intro u ts hne
    rw [List.filter_eq_nil_iff]
    intro e he
    obtain ⟨target, -, hmem⟩ := List.mem_flatMap.1 he
    obtain ⟨k, -, rfl⟩ := List.mem_map.1 hmem
    simpa using hne
  rw [edges, List.filter_flatMap, outEdges]
  cases hget : a.targets.get? n with
  | none =>
    have hfresh := (OrderedMap.get?_eq_none_iff _ _).1 hget
    refine List.flatMap_eq_nil_iff.2 fun group hgroup => hnone group.1 group.2 ?_
    rintro rfl
    exact hfresh (OrderedMap.mem_keys_of_mem hgroup)
  | some ts =>
    have hmem := (OrderedMap.get?_eq_some_iff _ _ _).1 hget
    have hdistinct : a.targets.toList.Nodup := a.targets.nodup_keys.of_map
    rw [flatMap_eq_of_unique hdistinct hmem]
    · exact List.filter_eq_self.2 fun e he => decide_eq_true (hall ts e he)
    · intro group hgroup hne
      refine hnone group.1 group.2 fun hsource => hne ?_
      have hother := (OrderedMap.get?_eq_some_iff _ _ _).2 hgroup
      rw [hsource, hget] at hother
      exact Prod.ext hsource (Option.some.inj hother).symm

theorem mem_outEdges_iff (a : Adjacency) (n : NodeId) (e : EdgeId) :
    e ∈ a.outEdges n ↔ a.hasEdge e = true ∧ e.source = n := by
  rw [← filter_source_edges, List.mem_filter, mem_edges_iff, decide_eq_true_eq]

/-- The edges to a node are found through its predecessors. -/
theorem mem_inEdges_iff {a : Adjacency} (hsound : a.Sound) (n : NodeId) (e : EdgeId) :
    e ∈ a.inEdges n ↔ a.hasEdge e = true ∧ e.target = n := by
  rw [inEdges, List.mem_flatMap, hasEdge_iff]
  constructor
  · rintro ⟨u, hu, hmem⟩
    obtain ⟨k, hk, rfl⟩ := List.mem_map.1 hmem
    obtain ⟨highest, hkey⟩ := Option.isSome_iff_exists.1 ((mem_predecessors_iff hsound u n).1 hu)
    rw [hkey, Option.getD_some, mem_keysUpTo_iff] at hk
    exact ⟨⟨highest, hkey, hk⟩, rfl⟩
  · rintro ⟨⟨highest, hkey, hle⟩, rfl⟩
    refine ⟨e.source, ?_, List.mem_map.2 ⟨e.key, ?_, rfl⟩⟩
    · exact (mem_predecessors_iff hsound _ _).2 (Option.isSome_of_eq_some hkey)
    · rwa [hkey, Option.getD_some, mem_keysUpTo_iff]

theorem nodup_inEdges (a : Adjacency) (n : NodeId) : (a.inEdges n).Nodup := by
  have hpairs : ((a.predecessors n).map fun u => (u, n)).Nodup :=
    (nodup_predecessors a n).map fun _ _ heq => congrArg Prod.fst heq
  exact nodup_flatMap_keysUpTo hpairs fun u => (a.highestKey u n).getD 0

/-- The edges to a node are those of all edges, in the order of the backward index. -/
theorem perm_inEdges {a : Adjacency} (hsound : a.Sound) (n : NodeId) :
    (a.inEdges n).Perm (a.edges.filter fun e => decide (e.target = n)) := by
  rw [List.perm_ext_iff_of_nodup (a.nodup_inEdges n) (a.nodup_edges.filter _)]
  intro e
  rw [mem_inEdges_iff hsound, List.mem_filter, mem_edges_iff, decide_eq_true_eq]

/-! ## Neighbours -/

theorem nodup_successors (a : Adjacency) (n : NodeId) : (a.successors n).Nodup := by
  unfold successors
  split
  · exact OrderedMap.nodup_keys _
  · exact List.nodup_nil

theorem mem_successors_iff (a : Adjacency) (n v : NodeId) :
    v ∈ a.successors n ↔ (a.highestKey n v).isSome = true := by
  unfold successors highestKey
  cases a.targets.get? n with
  | none => simp
  | some ts => exact (OrderedMap.get?_isSome_iff ts v).symm

/-! ## Edges by pair -/

/-- The edges of a pair of nodes, in the list of all edges. -/
def edgesBetween (a : Adjacency) (u v : NodeId) : List EdgeId :=
  a.edges.filter fun e => decide (e.endpoints = (u, v))

/-- The edges of a pair have all keys below their number, in order. -/
theorem edgesBetween_eq_map_range (a : Adjacency) (u v : NodeId) :
    a.edgesBetween u v = (List.range (a.keyCount u v)).map fun k => ⟨u, v, k.toUInt32⟩ := by
  have hnone : ∀ entry : NodeId × NodeId × UInt32, (entry.1, entry.2.1) ≠ (u, v) →
      (((keysUpTo entry.2.2).map fun k => EdgeId.mk entry.1 entry.2.1 k).filter
        fun e => decide (e.endpoints = (u, v))) = [] := by
    intro entry hne
    rw [List.filter_eq_nil_iff]
    intro e he
    obtain ⟨k, -, rfl⟩ := List.mem_map.1 he
    simpa [EdgeId.endpoints] using hne
  rw [edgesBetween, edges_eq_flatMap_entries, List.filter_flatMap, keyCount]
  cases hkey : a.highestKey u v with
  | none =>
    refine List.flatMap_eq_nil_iff.2 fun entry hentry => hnone entry fun heq => ?_
    have hother := (mem_entries_iff a _ _ _).1 hentry
    rw [(Prod.mk.inj heq).1, (Prod.mk.inj heq).2, hkey] at hother
    cases hother
  | some highest =>
    rw [flatMap_eq_of_unique a.nodup_pairs.of_map ((mem_entries_iff a u v highest).2 hkey)]
    · rw [List.filter_eq_self.2 fun e he => ?_, keysUpTo, List.map_map]
      · rfl
      · obtain ⟨k, -, rfl⟩ := List.mem_map.1 he
        exact decide_eq_true rfl
    · intro entry hentry hne
      refine hnone entry fun heq => hne ?_
      have hother := (mem_entries_iff a _ _ _).1 hentry
      obtain ⟨rfl, rfl⟩ := Prod.mk.inj heq
      rw [hkey] at hother
      exact congrArg (fun k => (entry.1, entry.2.1, k)) (Option.some.inj hother).symm

/-- The keys of a pair, as numbers. -/
theorem map_key_edgesBetween (a : Adjacency) (u v : NodeId) :
    ((a.edgesBetween u v).map fun e => e.key.toNat) = List.range (a.keyCount u v) := by
  have hfew := a.keyCount_le u v
  rw [edgesBetween_eq_map_range, List.map_map]
  refine (List.map_congr_left fun k hk => ?_).trans (List.map_id _)
  have hlt := List.mem_range.1 hk
  exact toNat_toUInt32 (by omega)

/-- A pair with an edge has the edge of its highest key. -/
theorem highestKey_eq_some_iff (a : Adjacency) (u v : NodeId) (highest : UInt32) :
    a.highestKey u v = some highest ↔ (⟨u, v, highest⟩ : EdgeId) ∈ a.edges ∧
      ∀ e ∈ a.edges, e.endpoints = (u, v) → e.key ≤ highest := by
  simp only [mem_edges_iff, hasEdge_iff]
  constructor
  · intro hkey
    refine ⟨⟨highest, hkey, UInt32.le_refl _⟩, ?_⟩
    rintro e ⟨taken, htaken, hle⟩ hpair
    rw [show e.source = u from congrArg Prod.fst hpair,
      show e.target = v from congrArg Prod.snd hpair, hkey] at htaken
    cases htaken
    exact hle
  · rintro ⟨⟨taken, htaken, hle⟩, hmax⟩
    have hback : taken ≤ highest :=
      hmax ⟨u, v, taken⟩ ⟨taken, htaken, UInt32.le_refl _⟩ rfl
    rwa [UInt32.le_antisymm hle hback]

/-! ## Counting by node -/

/-- The edges are counted once at each source and once at each target. -/
theorem sum_length_filter (a : Adjacency) {endpoint : EdgeId → NodeId}
    (hnodes : ∀ e ∈ a.edges, a.hasNode (endpoint e) = true) :
    (a.nodes.toList.map fun n => (a.edges.filter fun e => decide (endpoint e = n)).length).sum =
      a.edges.length := by
  have hcover : ∀ e ∈ a.edges, endpoint e ∈ a.nodes.toList :=
    fun e he => (a.mem_nodes_toList_iff _).2 (hnodes e he)
  have hperm := perm_flatMap_filter a.nodes.nodup_toList hcover
  rw [← hperm.length_eq, List.length_flatMap]

theorem Sound.endpoints_of_mem_edges {a : Adjacency} (hsound : a.Sound) {e : EdgeId}
    (he : e ∈ a.edges) : a.hasNode e.source = true ∧ a.hasNode e.target = true := by
  rw [mem_edges_iff, hasEdge_iff] at he
  obtain ⟨highest, hkey, -⟩ := he
  exact hsound.endpoints _ _ highest ((mem_entries_iff a _ _ highest).2 hkey)

end Adjacency

/-! ## Graphs -/

namespace Graph

/-- All views of the edges agree, for nodes that exist and for others.  The number of edges
of a pair is there if the pair has not used up its keys. -/
structure EdgesAgree (g : Graph) : Prop where
  /-- the edges that exist are listed, each once -/
  listed : g.edges.Nodup ∧ ∀ e, e ∈ g.edges ↔ g.hasEdge e = true
  /-- as many are counted -/
  counted : g.edges.length = g.edgeCount
  /-- the edges from a node, in the same order -/
  outEdges : ∀ n, g.outEdges n = g.edges.filter fun e => decide (e.source = n)
  /-- the edges to a node, in some order -/
  inEdges : ∀ n, (g.inEdges n).Perm (g.edges.filter fun e => decide (e.target = n))
  /-- an edge between two nodes is an edge of any key -/
  between : ∀ u v, g.hasEdgeBetween u v = true ↔ ∃ k, g.hasEdge ⟨u, v, k⟩ = true
  successors : ∀ n, (g.successors n).Nodup ∧
    ∀ v, v ∈ g.successors n ↔ g.hasEdgeBetween n v = true
  predecessors : ∀ n, (g.predecessors n).Nodup ∧
    ∀ u, u ∈ g.predecessors n ↔ g.hasEdgeBetween u n = true
  /-- the edges of a pair are as many as is said, and their keys have no gaps -/
  multiplicity : ∀ u v, g.adjacency.isFull u v = false → ∃ m, g.multiplicity u v = some m ∧
    (g.adjacency.edgesBetween u v).length = m.toNat ∧
      ((g.adjacency.edgesBetween u v).map fun e => e.key.toNat) = List.range m.toNat
  /-- each connected pair has one entry, with its highest key -/
  entries : (g.adjacency.entries.map fun entry => (entry.1, entry.2.1)).Nodup ∧
    ∀ u v highest, (u, v, highest) ∈ g.adjacency.entries ↔
      (⟨u, v, highest⟩ : EdgeId) ∈ g.edges ∧
        ∀ e ∈ g.edges, e.endpoints = (u, v) → e.key ≤ highest
  /-- the edges from all nodes together are all edges -/
  countedOut : (g.nodes.toList.map fun n => (g.outEdges n).length).sum = g.edgeCount
  /-- the edges to all nodes together are all edges -/
  countedIn : (g.nodes.toList.map fun n => (g.inEdges n).length).sum = g.edgeCount

/-- A well-formed adjacency gives views that agree. -/
theorem edgesAgree_of_wellFormed {g : Graph} (hwell : g.adjacency.WellFormed) :
    g.EdgesAgree where
  listed := ⟨g.adjacency.nodup_edges, g.adjacency.mem_edges_iff⟩
  counted := g.adjacency.length_edges.trans hwell.counter.symm
  outEdges n := (g.adjacency.filter_source_edges n).symm
  inEdges n := Adjacency.perm_inEdges hwell.toSound n
  between u v := by
    simp only [hasEdgeBetween, hasEdge, Adjacency.hasEdge_iff, Option.isSome_iff_exists]
    constructor
    · rintro ⟨highest, hkey⟩
      exact ⟨highest, highest, hkey, UInt32.le_refl _⟩
    · rintro ⟨k, highest, hkey, -⟩
      exact ⟨highest, hkey⟩
  successors n := ⟨g.adjacency.nodup_successors n, g.adjacency.mem_successors_iff n⟩
  predecessors n :=
    ⟨g.adjacency.nodup_predecessors n, fun u => Adjacency.mem_predecessors_iff hwell.toSound u n⟩
  multiplicity u v hfull := by
    have hcount : (g.adjacency.keyCount u v).toUInt32.toNat = g.adjacency.keyCount u v :=
      toNat_toUInt32 ((Adjacency.isFull_eq_false_iff _ u v).1 hfull)
    refine ⟨(g.adjacency.keyCount u v).toUInt32, ?_, ?_, ?_⟩
    · rw [Graph.multiplicity, Adjacency.multiplicity_eq, hfull]
      rfl
    · rw [Adjacency.edgesBetween_eq_map_range, List.length_map, List.length_range, hcount]
    · rw [Adjacency.map_key_edgesBetween, hcount]
  entries := by
    refine ⟨g.adjacency.nodup_pairs, fun u v highest => ?_⟩
    rw [Adjacency.mem_entries_iff]
    exact g.adjacency.highestKey_eq_some_iff u v highest
  countedOut := by
    have hsum := g.adjacency.sum_length_filter fun e he =>
      (hwell.toSound.endpoints_of_mem_edges he).1
    simp only [Adjacency.filter_source_edges] at hsum
    exact hsum.trans (g.adjacency.length_edges.trans hwell.counter.symm)
  countedIn := by
    have hsum := g.adjacency.sum_length_filter fun e he =>
      (hwell.toSound.endpoints_of_mem_edges he).2
    simp only [← (Adjacency.perm_inEdges hwell.toSound _).length_eq] at hsum
    exact hsum.trans (g.adjacency.length_edges.trans hwell.counter.symm)

/-- The views of the edges agree at the end of every history. -/
theorem edgesAgree_run {g : Graph} (horigin : g.Origin) (requests : List Request) :
    (g.run requests).EdgesAgree :=
  edgesAgree_of_wellFormed (horigin.wellFormed.run requests).adjacency

/-- A history from parts, with parallel edges, a loop, a second way into a node, a request
that is refused, and an edge for which there is no key. -/
theorem edgesAgree_run_of_parts :
    ∃ g, ofParts ⟨0⟩ 3 [(⟨1⟩, ⟨0⟩, 1), (⟨0⟩, ⟨2⟩, 0), (⟨2⟩, ⟨0⟩, 0xFFFFFFFF)] [] [] .empty =
        .ok g ∧
      (g.run [.addEdge ⟨2⟩ ⟨2⟩, .addEdges [(⟨0⟩, ⟨2⟩, []), (⟨1⟩, ⟨2⟩, [])], .addEdge ⟨0⟩ ⟨3⟩,
        .addEdge ⟨1⟩ ⟨0⟩, .addEdge ⟨2⟩ ⟨0⟩]).EdgesAgree := by
  refine ⟨_, rfl, ?_⟩
  have hmade : ofParts ⟨0⟩ 3 [(⟨1⟩, ⟨0⟩, 1), (⟨0⟩, ⟨2⟩, 0), (⟨2⟩, ⟨0⟩, 0xFFFFFFFF)] [] []
    .empty = .ok _ := rfl
  exact edgesAgree_run (.parts hmade) _

end Graph

end StateGraph
