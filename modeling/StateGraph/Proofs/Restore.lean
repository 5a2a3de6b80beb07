import Mathlib.Data.List.Nodup
import StateGraph.Proofs.Parts
import StateGraph.Proofs.Payload
import StateGraph.Proofs.Reach
import StateGraph.Proofs.WellFormed

set_option autoImplicit false

/-!
# Graphs are restored from their snapshots

A snapshot holds the entries of the adjacency and the properties.  From the entries
the forward index is built again as it was, in the same order.  The backward index
is not stored: its nodes and their sources come in the order of the entries and not
in that in which edges were added (`Adjacency.Rebuilt`).

The identity of the handles is not stored either; a restored graph has a new one
(`Graph.reissued`).
-/

namespace StateGraph

namespace Adjacency

/-! ## Entries by source -/

/-- The entries, group by group. -/
def groups (a : Adjacency) : List (NodeId × List (NodeId × UInt32)) :=
  a.targets.toList.map fun e => (e.1, e.2.toList)

theorem entries_eq_flatMap (a : Adjacency) :
    a.entries = a.groups.flatMap fun group => group.2.map fun x => (group.1, x) := by
  rw [entries, groups, List.flatMap_map]

theorem map_fst_groups (a : Adjacency) : a.groups.map Prod.fst = a.targets.keys := by
  rw [groups, List.map_map]
  rfl

/-- No group is empty. -/
theorem Sound.groups_ne_nil {a : Adjacency} (hsound : a.Sound) :
    ∀ group ∈ a.groups, group.2 ≠ [] := by
  intro group hgroup
  obtain ⟨e, he, rfl⟩ := List.mem_map.1 hgroup
  exact hsound.inhabited e.1 e.2 he

/-- No pair of nodes has two entries. -/
theorem nodup_pairs (a : Adjacency) : (a.entries.map fun e => (e.1, e.2.1)).Nodup := by
  have hpairs : (a.entries.map fun e => (e.1, e.2.1)) =
      a.targets.toList.flatMap fun e => e.2.keys.map fun v => (e.1, v) := by
    rw [entries, List.map_flatMap]
    congr
    funext e
    simp [OrderedMap.keys, OrderedMap.toList]
  rw [hpairs, List.nodup_flatMap]
  constructor
  · intro e _
    exact e.2.nodup_keys.map fun _ _ heq => (Prod.mk.inj heq).2
  · refine (List.pairwise_map.1 a.targets.distinct).imp ?_
    intro e d hne
    refine List.disjoint_left.2 fun pair he hd => ?_
    obtain ⟨v, -, rfl⟩ := List.mem_map.1 he
    obtain ⟨w, -, heq⟩ := List.mem_map.1 hd
    exact hne (Prod.mk.inj heq).1.symm

/-! ## Adjacencies from their entries -/

/-- Written group by group, the entries give the targets again. -/
theorem Sound.targets_of_entries {a : Adjacency} (hsound : a.Sound) :
    (recorded a.nodeCount a.entries).targets = a.targets := by
  refine OrderedMap.ext ?_
  have hlist := OrderedMap.toList_foldl_upsert
    (fun (ts : OrderedMap NodeId UInt32) (x : NodeId × UInt32) => ts.insert x.1 x.2) .empty a.groups
    .empty (by simpa [map_fst_groups] using a.targets.nodup_keys) hsound.groups_ne_nil
  rw [← entries_eq_flatMap, groups, List.map_map] at hlist
  rw [targets_recorded]
  refine hlist.trans ?_
  have hsame : ∀ e : NodeId × OrderedMap NodeId UInt32,
      (e.1, e.2.toList.foldl (fun ts x => ts.insert x.1 x.2) .empty) = e := by
    intro e
    exact Prod.ext rfl (OrderedMap.ofList_toList e.2)
  rw [OrderedMap.toList_empty, List.nil_append]
  exact (List.map_congr_left fun e _ => hsame e).trans (List.map_id _)

/-- Nodes, edges and the order of the targets are the same; sources are the same in
possibly another order. -/
structure Rebuilt (a b : Adjacency) : Prop where
  nodeCount : b.nodeCount = a.nodeCount
  edgeCount : b.edgeCount = a.edgeCount
  targets : b.targets = a.targets
  sources : b.sources.keys.Perm a.sources.keys
  predecessors : ∀ v, (b.predecessors v).Perm (a.predecessors v)

namespace Rebuilt

variable {a b : Adjacency}

theorem highestKey (hrebuilt : a.Rebuilt b) (u v : NodeId) :
    b.highestKey u v = a.highestKey u v := by
  rw [Adjacency.highestKey, Adjacency.highestKey, hrebuilt.targets]

theorem entries (hrebuilt : a.Rebuilt b) : b.entries = a.entries := by
  rw [Adjacency.entries, hrebuilt.targets]
  rfl

theorem hasNode (hrebuilt : a.Rebuilt b) : b.hasNode = a.hasNode := by
  funext n
  rw [Adjacency.hasNode, Adjacency.hasNode, hrebuilt.nodeCount]

theorem hasEdge (hrebuilt : a.Rebuilt b) : b.hasEdge = a.hasEdge := by
  funext e
  rw [Adjacency.hasEdge, Adjacency.hasEdge, hrebuilt.highestKey]

end Rebuilt

/-- A node is a target in the backward index if it has a predecessor. -/
theorem mem_keys_sources_iff {a : Adjacency} (hsound : a.Sound) (v : NodeId) :
    v ∈ a.sources.keys ↔ ∃ u, (a.highestKey u v).isSome = true := by
  simp only [← mem_predecessors_iff hsound]
  rw [← OrderedMap.get?_isSome_iff, predecessors]
  cases hget : a.sources.get? v with
  | none => simp
  | some us =>
    have hne := hsound.sourced v us ((OrderedMap.get?_eq_some_iff _ _ _).1 hget)
    obtain ⟨u, hu⟩ := List.exists_mem_of_ne_nil _ hne
    exact ⟨fun _ => ⟨u, hu⟩, fun _ => rfl⟩

/-- The same targets in well-formed adjacencies leave only the order of sources
open. -/
theorem WellFormed.rebuilt {a b : Adjacency} (ha : a.WellFormed) (hb : b.WellFormed)
    (hcount : b.nodeCount = a.nodeCount) (htargets : b.targets = a.targets) : a.Rebuilt b := by
  have hkey : ∀ u v, b.highestKey u v = a.highestKey u v := by
    intro u v
    rw [highestKey, highestKey, htargets]
  refine ⟨hcount, ?_, htargets, ?_, ?_⟩
  · rw [ha.counter, hb.counter, entryTotal_eq_weigh, entryTotal_eq_weigh, htargets]
  · rw [List.perm_ext_iff_of_nodup b.sources.nodup_keys a.sources.nodup_keys]
    intro v
    have hiff := mem_keys_sources_iff hb.toSound v
    simp only [hkey] at hiff
    exact hiff.trans (mem_keys_sources_iff ha.toSound v).symm
  · intro v
    rw [List.perm_ext_iff_of_nodup (nodup_predecessors b v) (nodup_predecessors a v)]
    intro u
    rw [mem_predecessors_iff hb.toSound, mem_predecessors_iff ha.toSound, hkey]

/-- A well-formed adjacency is rebuilt from its entries. -/
theorem WellFormed.ofEntries_entries {a : Adjacency} (hwell : a.WellFormed) :
    ∃ b, ofEntries a.nodeCount a.entries = .ok b ∧ b.WellFormed ∧ a.Rebuilt b := by
  have hnodes : ∀ e ∈ a.entries, e.1.index < a.nodeCount ∧ e.2.1.index < a.nodeCount := by
    intro e he
    simpa [hasNode] using hwell.endpoints e.1 e.2.1 e.2.2 he
  have hmade := ofEntries_eq_ok hnodes a.nodup_pairs
  have hmadeWell := wellFormed_ofEntries hmade
  exact ⟨_, hmade, hmadeWell,
    hwell.rebuilt hmadeWell (nodeCount_recorded _ _) hwell.targets_of_entries⟩

end Adjacency

/-! ## Properties -/

/-- The same properties, whose handles carry another identity. -/
def Catalog.reissued {ε : Type} (c : Catalog ε) (owner : Identity) : Catalog ε :=
  ⟨owner, c.properties⟩

theorem StoredProperty.toProperty_ofProperty {ε : Type} [DecidableEq ε] (p : Property ε) :
    (ofProperty p).toProperty = p := by
  have hvalues : OrderedMap.ofList p.values.toList = p.values := OrderedMap.ofList_toList p.values
  unfold toProperty ofProperty Property.ofValues Property.explicit
  rw [hvalues]

namespace Catalog

variable {ε : Type}

/-- In a catalog that is in order the properties carry the names under which they are
filed. -/
theorem Within.map_toList {exists? : ε → Bool} {c : Catalog ε} (hwithin : c.Within exists?) :
    (c.toList.map fun p => (p.name, p)) = c.properties.toList := by
  rw [toList, OrderedMap.values, List.map_map]
  refine (List.map_congr_left fun entry hentry => ?_).trans (List.map_id _)
  exact Prod.ext (hwithin.filed entry.1 entry.2 hentry) rfl

/-- The properties of a catalog that is in order give the catalog again. -/
theorem Within.fileAll_toList {exists? : ε → Bool} {c : Catalog ε} (hwithin : c.Within exists?)
    (missing : String → ε → GraphError) (owner : Identity) :
    (empty owner).fileAll exists? missing c.toList = .ok (c.reissued owner) := by
  have hvalues : ∀ p ∈ c.toList, ∀ e ∈ p.values.keys, exists? e = true := by
    intro p hp
    obtain ⟨entry, hentry, rfl⟩ := List.mem_map.1 hp
    exact hwithin.supported entry.1 entry.2 hentry
  rw [fileAll_eq_ok c.toList (empty owner) hvalues, hwithin.map_toList]
  exact congrArg (fun m => Except.ok (Catalog.mk owner m)) (OrderedMap.ofList_toList c.properties)

end Catalog

/-! ## Graphs -/

namespace Graph

/-- The graph with an adjacency that was built again and handles of another
identity. -/
def rebuilt (g : Graph) (b : Adjacency) (owner : Identity) : Graph :=
  ⟨b, g.nodeCatalog.reissued owner, g.edgeCatalog.reissued owner, g.attributes⟩

/-- The same graph, whose handles carry another identity. -/
def reissued (g : Graph) (owner : Identity) : Graph := g.rebuilt g.adjacency owner

end Graph

namespace Snapshot

/-- What is stored are the entries, group by group. -/
theorem groups_ofGraph {g : Graph} (hsound : g.adjacency.Sound) :
    (ofGraph g).groups = g.adjacency.groups := by
  have hlist := OrderedMap.toList_foldl_upsert
    (fun (ts : List (NodeId × UInt32)) (x : NodeId × UInt32) => ts ++ [x]) [] g.adjacency.groups
    .empty (by simpa [Adjacency.map_fst_groups] using g.adjacency.targets.nodup_keys)
    hsound.groups_ne_nil
  rw [← Adjacency.entries_eq_flatMap] at hlist
  refine hlist.trans ?_
  have hsame : ∀ group : NodeId × List (NodeId × UInt32),
      (group.1, group.2.foldl (fun ts x => ts ++ [x]) []) = group := by
    intro group
    rw [List.foldl_append_eq_append, ← List.flatMap_def, List.flatMap_singleton', List.nil_append]
  rw [OrderedMap.toList_empty, List.nil_append]
  exact (List.map_congr_left fun group _ => hsame group).trans (List.map_id _)

theorem entries_ofGraph {g : Graph} (hsound : g.adjacency.Sound) :
    (ofGraph g).entries = g.adjacency.entries := by
  rw [entries, groups_ofGraph hsound, Adjacency.entries_eq_flatMap]

/-- A snapshot does not hold what may change when a graph is built again. -/
theorem ofGraph_rebuilt {g : Graph} {b : Adjacency} (hrebuilt : g.adjacency.Rebuilt b)
    (owner : Identity) : ofGraph (g.rebuilt b owner) = ofGraph g := by
  have hentries : (g.rebuilt b owner).adjacency.entries = g.adjacency.entries := hrebuilt.entries
  have hcount : (g.rebuilt b owner).edgeCount = g.edgeCount := hrebuilt.edgeCount
  have hnodes : (g.rebuilt b owner).adjacency.nodeCount = g.adjacency.nodeCount :=
    hrebuilt.nodeCount
  unfold ofGraph
  rw [hentries, hcount, hnodes]
  rfl

/-- A well-formed graph is built again from its snapshot. -/
theorem toGraph_ofGraph {g : Graph} (hwell : g.WellFormed) :
    ∃ b, g.adjacency.Rebuilt b ∧ ∀ owner, (ofGraph g).toGraph owner = .ok (g.rebuilt b owner) := by
  obtain ⟨b, hmade, -, hrebuilt⟩ := hwell.adjacency.ofEntries_entries
  refine ⟨b, hrebuilt, fun owner => ?_⟩
  have hnodes : g.nodeCatalog.Within b.hasNode := hrebuilt.hasNode ▸ hwell.nodeProperties
  have hedges : g.edgeCatalog.Within b.hasEdge := hrebuilt.hasEdge ▸ hwell.edgeProperties
  have hstored : ∀ {ε : Type} [DecidableEq ε] (c : Catalog ε),
      (c.toList.map StoredProperty.ofProperty).map (·.toProperty) = c.toList := by
    intro ε _ c
    rw [List.map_map]
    exact (List.map_congr_left fun p _ => StoredProperty.toProperty_ofProperty p).trans
      (List.map_id _)
  have hattributes : OrderedMap.ofList g.attributes.toList = g.attributes :=
    OrderedMap.ofList_toList g.attributes
  have hparts : Graph.ofParts owner (ofGraph g).nodeCount (ofGraph g).entries
      ((ofGraph g).nodeProperties.map (·.toProperty))
      ((ofGraph g).edgeProperties.map (·.toProperty)) (.ofList (ofGraph g).attributes) =
        .ok (g.rebuilt b owner) := by
    rw [entries_ofGraph hwell.adjacency.toSound]
    simp only [ofGraph, hstored, hattributes, Graph.ofParts, hmade, ok_bind,
      hnodes.fileAll_toList, hedges.fileAll_toList]
    rfl
  exact Graph.toGraph_eq_ok_iff.2 ⟨rfl, hparts, congrArg Nat.toUInt64 hrebuilt.edgeCount⟩

end Snapshot

end StateGraph
